/-!
Case of the ASCII letters, and comparison that ignores it.
-/

namespace PluginAudit.Text

def asciiLower (cs : List Char) : List Char := cs.map Char.toLower

def asciiUpper (cs : List Char) : List Char := cs.map Char.toUpper

/-- Equal up to the case of ASCII letters. -/
def sameIgnoringCase (a b : List Char) : Bool := asciiLower a == asciiLower b

/-- What follows `pattern` at the head of a text, letters compared exactly. -/
def after? : (pattern text : List Char) → Option (List Char)
  | [], text => some text
  | _ :: _, [] => none
  | p :: ps, c :: cs => if p = c then after? ps cs else none

/-- The length of `pattern` if it stands at the head of a text. -/
def size? (pattern text : List Char) : Option Nat :=
  (after? pattern text).map fun _ => pattern.length

def startsWith (pattern text : List Char) : Bool := (after? pattern text).isSome

def contains (pattern : List Char) : List Char → Bool
  | [] => pattern.isEmpty
  | c :: r => startsWith pattern (c :: r) || contains pattern r

/-- The part of a text before the first `pattern`, or all of it. -/
def before (pattern : List Char) : List Char → List Char
  | [] => []
  | c :: r => if startsWith pattern (c :: r) then [] else c :: before pattern r

def splitOnce (mark : Char) : List Char → Option (List Char × List Char)
  | [] => none
  | c :: r => if c = mark then some ([], r) else (splitOnce mark r).map fun (a, b) => (c :: a, b)

end PluginAudit.Text

namespace String

def sameIgnoringCase (a b : String) : Bool :=
  PluginAudit.Text.sameIgnoringCase a.toList b.toList

def asciiLowered (s : String) : String := .ofList (PluginAudit.Text.asciiLower s.toList)

end String
