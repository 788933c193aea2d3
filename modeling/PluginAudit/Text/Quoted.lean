import PluginAudit.Text.Visible

/-!
Quoted texts. A quoted text shows what is in it: quotes, backslashes and line ends are escaped, and
so is all that would not be visible.
-/

namespace PluginAudit.Text

def numberEscape (c : Char) : List Char :=
  ['\\', 'u', '\x7b'] ++ Nat.toDigits 16 c.toNat ++ ['\x7d']

def quoteChar (c : Char) : List Char :=
  match c with
  | '\x00' => ['\\', '0']
  | '\t' => ['\\', 't']
  | '\r' => ['\\', 'r']
  | '\n' => ['\\', 'n']
  | '\\' => ['\\', '\\']
  | '"' => ['\\', '"']
  | c => if isVisible c && !isExtending c then [c] else numberEscape c

def quote (cs : List Char) : List Char := '"' :: (cs.flatMap quoteChar ++ ['"'])

end PluginAudit.Text

namespace String

/-- `s` in quotes, with escapes for what is not visible. -/
def quoted (s : String) : String := .ofList (PluginAudit.Text.quote s.toList)

end String
