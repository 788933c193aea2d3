import PluginAudit.Text.Ascii
import PluginAudit.Text.Fold

/-!
Emphasis of texts on a terminal.
-/

namespace PluginAudit

inductive Paint where
  | bold
  | red
  | yellow
  | boldRed
  | boldGreen
  | boldCyan

namespace Paint

def code : Paint → String
  | .bold => "1"
  | .red => "31"
  | .yellow => "33"
  | .boldRed => "1;31"
  | .boldGreen => "1;32"
  | .boldCyan => "1;36"

def opening (p : Paint) : List Char := ['\x1b', '['] ++ p.code.toList ++ ['m']

def reset : List Char := ['\x1b', '[', '0', 'm']

/-- Emphasises a text if colours are wanted. The emphasis goes on after a reset in the text. -/
def apply (p : Paint) (colours : Bool) (text : String) : String :=
  if colours then
    .ofList (p.opening ++
      Text.replaceAll (Text.size? reset) (reset ++ p.opening) text.toList ++ reset)
  else text

end Paint

end PluginAudit
