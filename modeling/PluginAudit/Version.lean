import PluginAudit.Json.Document
import PluginAudit.Text.Blank
import PluginAudit.Text.Lines
import PluginAudit.Text.Natural

/-!
Versions of the host software: the pair of major and minor number, the release that follows, and
what the host's own version check answers.
-/

namespace PluginAudit

namespace Version

/-- Numbers have 32 bits. -/
def numberBound : Nat := 0x100000000

def number? (text : List Char) : Option Nat := Text.natural? numberBound text

/-- The first two numbers of a dotted version. The second may be followed by other text and is
zero if there is none. -/
def pair? (version : List Char) : Option (Nat × Nat) :=
  match Text.splitAt '.' (Text.trim version) with
  | [] => none
  | [major] => (number? major).map (·, 0)
  | major :: minor :: _ => do
    let a ← number? major
    let b ← number? (minor.takeWhile Char.isDigit)
    return (a, b)

def pairText (p : Nat × Nat) : String := p.1.repr ++ "." ++ p.2.repr

/-- A version without the suffix of a preliminary release and without a patch level. -/
def stable (version : String) : String :=
  let base := version.toList.takeWhile (· != '-')
  match pair? base with
  | some p => pairText p
  | none => .ofList base

/-- The release after a pair. After the tenth minor release comes the next major one, unless that has
no number. -/
def next? (p : Nat × Nat) : Option (Nat × Nat) :=
  if p.2 < 9 then some (p.1, p.2 + 1)
  else if p.1 + 1 < numberBound then some (p.1 + 1, 0)
  else none

def lessPair (p q : Nat × Nat) : Bool := p.1 < q.1 || (p.1 == q.1 && p.2 < q.2)

end Version

/-- The latest release of the host software, and the PHP version to recommend. -/
structure ReleaseInfo where
  latest : Option String
  recommendedPhp : Option String

namespace ReleaseInfo

def fallbackPhp : String := "7.4"

def ofLatest (version : String) : ReleaseInfo := ⟨some version, none⟩

def stable? (info : ReleaseInfo) : Option String := info.latest.map Version.stable

/-- A blank recommendation is none. -/
def recommending (info : ReleaseInfo) (php : Option String) : ReleaseInfo :=
  { info with recommendedPhp := php.filter fun v => !Text.allBlank v.toList }

def php (info : ReleaseInfo) : String := info.recommendedPhp.getD fallbackPhp

open Json (Document)

def textOrNull? : Document → Option (Option String)
  | .null => some none
  | .str s => s.map some
  | _ => none

/-- The version of an offer, which is an object or the list of its one field. -/
def ofOffer? : Document → Option (Option String)
  | .obj members =>
    match Json.soleMember? "current" members with
    | none => none
    | some none => some none
    | some (some d) => textOrNull? d
  | .arr [] => some none
  | .arr [d] => textOrNull? d
  | _ => none

def ofOffers? : Document → Option (List (Option String))
  | .arr items => items.mapM ofOffer?
  | _ => none

/-- Every offer has to be well formed, and the first one counts. -/
def ofAnswer? : Document → Option ReleaseInfo
  | .obj members =>
    match Json.soleMember? "offers" members with
    | none => none
    | some none => some ⟨none, none⟩
    | some (some d) => (ofOffers? d).map fun offers => ⟨offers.head?.join, none⟩
  | .arr [] => some ⟨none, none⟩
  | .arr [d] => (ofOffers? d).map fun offers => ⟨offers.head?.join, none⟩
  | _ => none

def ofBody? (body : String) : Option ReleaseInfo :=
  (Document.read? body.toList).bind ofAnswer?

end ReleaseInfo

end PluginAudit
