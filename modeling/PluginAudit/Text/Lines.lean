/-!
Lines and separated lists. A line ends with a line feed or with a carriage return and a line feed;
a carriage return alone belongs to its line.
-/

namespace PluginAudit.Text

/-- The parts of a text between the characters `mark`; never empty. -/
def splitAt (mark : Char) : List Char → List (List Char)
  | [] => [[]]
  | c :: r =>
    if c = mark then [] :: splitAt mark r
    else
      match splitAt mark r with
      | [] => [[c]]
      | part :: parts => (c :: part) :: parts

def dropReturn : List Char → List Char
  | [] => []
  | ['\r'] => []
  | c :: r => c :: dropReturn r

/-- The lines among the parts between line feeds: the last part is a line only if it is not
empty, and keeps a carriage return at its end. -/
def linesOfParts : List (List Char) → List (List Char)
  | [] => []
  | [last] => if last.isEmpty then [] else [last]
  | part :: next :: parts => dropReturn part :: linesOfParts (next :: parts)

def lines (cs : List Char) : List (List Char) := linesOfParts (splitAt '\n' cs)

def joinWith (mark : List Char) : List (List Char) → List Char
  | [] => []
  | [part] => part
  | part :: next :: parts => part ++ mark ++ joinWith mark (next :: parts)

end PluginAudit.Text
