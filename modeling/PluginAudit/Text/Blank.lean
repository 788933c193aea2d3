/-!
White space and what is cut by it: trimming and splitting into words.
-/

namespace PluginAudit.Text

/-- White space in the sense of the character property of that name. -/
def isBlank (c : Char) : Bool :=
  let n := c.toNat
  (9 ≤ n && n ≤ 13) || n == 0x20 || n == 0x85 || n == 0xA0 || n == 0x1680 ||
    (0x2000 ≤ n && n ≤ 0x200A) || n == 0x2028 || n == 0x2029 || n == 0x202F || n == 0x205F ||
    n == 0x3000

def trimStart (cs : List Char) : List Char := cs.dropWhile isBlank

/-- The part of `cs` before its longest tail of characters in `p`. -/
def dropEndWhile (p : Char → Bool) : List Char → List Char
  | [] => []
  | c :: r =>
    match dropEndWhile p r with
    | [] => if p c then [] else [c]
    | d :: s => c :: d :: s

def trimEnd (cs : List Char) : List Char := dropEndWhile isBlank cs

def trim (cs : List Char) : List Char := trimEnd (trimStart cs)

/-- The maximal runs of characters outside `p`, after an unfinished run `current` (in order). -/
def fieldsFrom (p : Char → Bool) (current : List Char) : List Char → List (List Char)
  | [] => if current.isEmpty then [] else [current.reverse]
  | c :: r =>
    if p c then
      if current.isEmpty then fieldsFrom p [] r else current.reverse :: fieldsFrom p [] r
    else fieldsFrom p (c :: current) r

def words (cs : List Char) : List (List Char) := fieldsFrom isBlank [] cs

def allBlank (cs : List Char) : Bool := cs.all isBlank

end PluginAudit.Text

namespace String

def trimmed (s : String) : String := .ofList (PluginAudit.Text.trim s.toList)

end String
