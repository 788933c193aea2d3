/-!
Comparison that ignores case for all scripts. Among the characters of other scripts only the long
s and the Kelvin sign are cases of ASCII letters.
-/

namespace PluginAudit.Text

/-- The small ASCII letter that `c` is a case of, or `c` itself. -/
def foldChar (c : Char) : Char :=
  if c = 'ſ' then 's' else if c = '\u212A' then 'k' else c.toLower

/-- What follows `pattern` at the head of a text, whatever the case. The pattern is written in
small ASCII letters. -/
def afterFolded? : (pattern text : List Char) → Option (List Char)
  | [], text => some text
  | _ :: _, [] => none
  | p :: ps, c :: cs => if p = foldChar c then afterFolded? ps cs else none

def containsFolded (pattern : List Char) : List Char → Bool
  | [] => pattern.isEmpty
  | c :: r => (afterFolded? pattern (c :: r)).isSome || containsFolded pattern r

/-- The length of `pattern` if it stands at the head of a text, whatever the case. -/
def foldedSize? (pattern text : List Char) : Option Nat :=
  (afterFolded? pattern text).map fun _ => pattern.length

/-- Replaces the occurrences found from left to right. `size?` gives the number of characters of an
occurrence at the head of a text; `skip` counts those of an occurrence still to be passed over. -/
def replaceFrom (size? : List Char → Option Nat) (image : List Char) :
    (skip : Nat) → List Char → List Char
  | _, [] => []
  | skip + 1, _ :: r => replaceFrom size? image skip r
  | 0, c :: r =>
    match size? (c :: r) with
    | some n => image ++ replaceFrom size? image (n - 1) r
    | none => c :: replaceFrom size? image 0 r

def replaceAll (size? : List Char → Option Nat) (image text : List Char) : List Char :=
  replaceFrom size? image 0 text

end PluginAudit.Text
