import PluginAudit.Check.Basic
import PluginAudit.Text.Fold
import PluginAudit.Text.Word

/-!
The check for image tags that are written out in PHP files.
-/

namespace PluginAudit.ImageCheck

def code : String := "non_enqueued_image"

def message : String :=
  "Images should be added using wp_get_attachment_image() or similar functions."

/-- Whether an image tag begins here: its name may not go on. -/
def isTag (text : List Char) : Bool :=
  match Text.afterFolded? "<img".toList text with
  | some [] => true
  | some (c :: _) => !Text.isWord c
  | none => false

/-- The columns of the tags in a line whose first character has the given column. Columns count
bytes. -/
def tagColumns (column : Nat) : List Char → List Nat
  | [] => []
  | c :: r =>
    let later := tagColumns (column + c.utf8Size) r
    if isTag (c :: r) then column :: later else later

def findingsFrom (file : String) (line : Nat) : List (List Char) → List Finding
  | [] => []
  | l :: rest =>
    (tagColumns 1 l).map (fun column =>
      ((Finding.warning code message).within file).atPlace line column) ++
      findingsFrom file (line + 1) rest

def fileFindings (file : String) (source : List Char) : List Finding :=
  findingsFrom file 1 (Text.lines source)

/-- The findings in the files, up to the first one that cannot be read. -/
def scan (context : Context) (tree : FileTree) : List Path → List Finding × Ending
  | [] => ([], .passed)
  | path :: rest =>
    match tree.readText path with
    | .error e => ([], .failed (.file path e))
    | .ok source =>
      let (later, ending) := scan context tree rest
      (fileFindings (context.relative path) source ++ later, ending)

def run : StaticCheck := fun context tree =>
  let (fs, ending) := scan context tree (context.withExtension "php")
  ⟨fs.map .emit, ending⟩

end PluginAudit.ImageCheck
