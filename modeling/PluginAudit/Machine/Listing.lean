import PluginAudit.Json.Document
import PluginAudit.Machine.Basic
import PluginAudit.Text.Blank

/-!
A machine written as a JSON object. Its members are `files` (paths with the texts of files),
`links` (paths with the targets of symbolic links), `directories` (paths), `environment`
(variables with their values) and `current` (the path of the current directory); each of them may
be left out. All paths begin at the root.
-/

namespace PluginAudit.Machine

def names (path : String) : Location :=
  ((Text.splitAt '/' path.toList).filter (!·.isEmpty)).map .ofList

def textOf? : Json → Option String
  | .str s => some s
  | _ => none

/-- Texts by their names, none of them if there is no such member. -/
def textMembers? (key : String) (j : Json) : Option (List (String × String)) :=
  match j.field? key with
  | none => some []
  | some (.obj members) => members.mapM fun (name, v) => (textOf? v).map (name, ·)
  | some _ => none

def textItems? (key : String) (j : Json) : Option (List String) :=
  match j.field? key with
  | none => some []
  | some (.arr items) => items.mapM textOf?
  | some _ => none

def textMember? (key default : String) (j : Json) : Option String :=
  match j.field? key with
  | none => some default
  | some v => textOf? v

def ofJson? (j : Json) : Option Machine := do
  let files ← textMembers? "files" j
  let links ← textMembers? "links" j
  let directories ← textItems? "directories" j
  let environment ← textMembers? "environment" j
  let current := names (← textMember? "current" "/" j)
  let root := (current :: directories.map names).foldl (fun n d => Node.put .empty d n) .empty
  let root := files.foldl (fun n (path, text) =>
    Node.put (.file (Text.encode text.toList)) (names path) n) root
  let root := links.foldl (fun n (path, target) => Node.put (.link target) (names path) n) root
  return ⟨⟨root, current⟩, environment, []⟩

def ofText? (text : String) : Option Machine :=
  if Text.allBlank text.toList then some ⟨⟨.empty, []⟩, [], []⟩
  else (Json.read? text).bind ofJson?

end PluginAudit.Machine
