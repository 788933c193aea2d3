import PluginAudit.Readme.Line
import PluginAudit.Text.Case

/-!
The sections of a readme: their keys, and the number of words each of them may have.
-/

namespace PluginAudit.Readme

/-- The key of a title: small letters, with underscores for spaces and hyphens. Some titles stand
for others. -/
def keyOfTitle (title : List Char) : String :=
  let key := (Text.lower (Text.trim title)).map fun c => if c = ' ' || c = '-' then '_' else c
  match String.ofList key with
  | "frequently_asked_questions" => "faq"
  | "change_log" => "changelog"
  | "screenshot" => "screenshots"
  | k => k

def wordLimit (key : String) : Nat :=
  if key = "changelog" || key = "faq" then 5000 else 2500

structure Section where
  title : List Char
  words : Nat

/-- The title of a heading, unless it is empty. -/
def headingTitle? (line : List Char) : Option (List Char) :=
  let title := markedText line
  if title.isEmpty then none else some title

def closeSection (title : Option (List Char)) (words : Nat) (later : List Section) :
    List Section :=
  match title with
  | some t => ⟨t, words⟩ :: later
  | none => later

/-- The sections of the lines after a heading. Words before the first heading, or below one
without a title, belong to no section. -/
def sectionsFrom (title : Option (List Char)) (words : Nat) : List (List Char) → List Section
  | [] => closeSection title words []
  | line :: rest =>
    if isHeading line then closeSection title words (sectionsFrom (headingTitle? line) 0 rest)
    else sectionsFrom title (words + (Text.words line).length) rest

end PluginAudit.Readme
