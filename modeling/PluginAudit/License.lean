import PluginAudit.Text.Blank
import PluginAudit.Text.Case
import PluginAudit.Text.Fold

/-!
Licences. The many spellings of a licence have one token, by which two of them are compared;
besides, a licence may be a valid identifier and may be compatible with the GPL.
-/

namespace PluginAudit.License

def fullName : List Char := "gnu general public license".toList

def shortName : List Char := "(gpl)".toList

/-- The size of `GNU General Public License`, with `(GPL)` behind it or not. -/
def fullNameSize? (text : List Char) : Option Nat :=
  (Text.afterFolded? fullName text).map fun rest =>
    let blanks := rest.takeWhile Text.isBlank
    match Text.foldedSize? shortName (rest.drop blanks.length) with
    | some n => fullName.length + blanks.length + n
    | none => fullName.length

def isGap (c : Char) : Bool := Text.isBlank c || c == '-'

/-- The size of `or later`, with blanks and hyphens between its words. -/
def orLaterSize? (text : List Char) : Option Nat :=
  (Text.afterFolded? "or".toList text).bind fun rest =>
    let gap := rest.takeWhile isGap
    (Text.foldedSize? "later".toList (rest.drop gap.length)).map ("or".length + gap.length + ·)

/-- Leaves out every `or later` with the blanks and hyphens before it. `gap` holds those read last,
the latest first; `skip` counts the characters of an occurrence still to be passed over. -/
def dropOrLater (gap : List Char) : (skip : Nat) → List Char → List Char
  | _, [] => gap.reverse
  | skip + 1, _ :: r => dropOrLater gap skip r
  | 0, c :: r =>
    if isGap c then dropOrLater (c :: gap) 0 r
    else
      match orLaterSize? (c :: r) with
      | some n => dropOrLater [] (n - 1) r
      | none => gap.reverse ++ c :: dropOrLater [] 0 r

def isSeparator (c : Char) : Bool := Text.isBlank c || c == '+' || c == '.' || c == '-'

/-- `GPLV…` is `GPL…`. -/
def dropVersionMark (token : List Char) : List Char :=
  match token with
  | 'G' :: 'P' :: 'L' :: 'V' :: r => 'G' :: 'P' :: 'L' :: r
  | t => t

/-- `GPL20` is `GPL2`, and so for the third version. -/
def dropMinorZero (token : List Char) : List Char :=
  match token with
  | ['G', 'P', 'L', '2', '0'] => ['G', 'P', 'L', '2']
  | ['G', 'P', 'L', '3', '0'] => ['G', 'P', 'L', '3']
  | t => t

/-- The token of a licence: `GPL v2 or later`, `GPL-2.0+` and
`GNU General Public License (GPL) 2.0` all give `GPL2`. -/
def tokenOf (license : List Char) : List Char :=
  let t := Text.replaceAll fullNameSize? "GPL".toList (Text.trim license)
  let t := dropOrLater [] 0 t
  let t := Text.replaceAll (Text.foldedSize? "-only".toList) [] t
  let t := Text.replaceAll (Text.foldedSize? "version".toList) [] t
  let t := Text.upper (t.filter (!isSeparator ·))
  dropMinorZero (dropVersionMark t)

def token (license : String) : String := .ofList (tokenOf license.toList)

def isIdentifierChar (c : Char) : Bool :=
  let c := Text.foldChar c
  c.isLower || c.isDigit || c == '-' || c == '+' || c == '.'

/-- Where a reader of identifiers stands. -/
inductive Place where
  /-- Before an identifier's first character. -/
  | fresh
  | within
  | blank | letterO | letterR
  | refused

/-- Identifiers are joined by `or` between single blanks. -/
def Place.step (place : Place) (c : Char) : Place :=
  match place with
  | .fresh => if isIdentifierChar c then .within else .refused
  | .within => if isIdentifierChar c then .within else if Text.isBlank c then .blank else .refused
  | .blank => if Text.foldChar c = 'o' then .letterO else .refused
  | .letterO => if Text.foldChar c = 'r' then .letterR else .refused
  | .letterR => if Text.isBlank c then .fresh else .refused
  | .refused => .refused

/-- An identifier, or several joined by `or`. -/
def isIdentifier (license : String) : Bool :=
  match (Text.trim license.toList).foldl Place.step .fresh with
  | .within => true
  | _ => false

def compatibleNames : List String := [
  "gpl", "gnu", "mit", "freebsd", "new bsd", "bsd-3-clause", "bsd 3 clause", "openldap", "expat",
  "apache", "mpl20", "public domain", "unlicense", "isc", "cc0", "zlib", "artistic"]

def isCompatible (license : String) : Bool :=
  compatibleNames.any fun name => Text.containsFolded name.toList license.toList

end PluginAudit.License
