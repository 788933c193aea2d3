import PluginAudit.Context
import PluginAudit.Text.Utf8

/-!
Paths by their bytes. The names in a file system are bytes that need not be a text. A path of bytes
is written with one character for each of them, so that its components, their order and its parent
are those of a path; only where it is shown are its bytes read as a text.
-/

namespace PluginAudit

namespace Text

/-- Each byte as the character of its number. -/
def spell (bytes : Bytes) : List Char := bytes.map fun b => Char.ofNat b.toNat

def spelled (cs : List Char) : Bytes := cs.map fun c => UInt8.ofNat c.toNat

end Text

namespace Path

def ofBytes (bytes : Text.Bytes) : Path := ⟨.ofList (Text.spell bytes)⟩

/-- The name that has been written by its bytes, if these are a text. -/
def readName? (name : String) : Option String :=
  (Text.decode? (Text.spelled name.toList)).map .ofList

/-- The same name for a reader, who sees the replacement character for what is no text. -/
def showName (name : String) : String := .ofList (Text.decodeLossy (Text.spelled name.toList))

def shown (p : Path) : String := showName p.text

/-- The names of `p` seen from `base`, or all of them if it does not lie there, as they are shown. -/
def shownFrom (p base : Path) : String :=
  let parts := (stripComponents base.components p.components).getD p.components
  String.intercalate "/" (parts.map (showName ·.text))

/-- Whether the names of `p` behind `base` are texts. -/
def legibleFrom (p base : Path) : Bool :=
  (p.components.drop base.components.length).all (readName? ·.text |>.isSome)

end Path

namespace Context

def rootOfBytes (main : Path) : Except ValueError Path :=
  if !main.isAbsolute then
    .error (.invalidContext ("main file must be an absolute path: " ++ main.shown))
  else
    match main.parent with
    | some p => .ok p
    | none => .error (.invalidContext ("no parent: " ++ main.shown))

def nameOfBytes (path : Path) : Except ValueError String :=
  match path.fileName.bind Path.readName? with
  | some n => .ok n
  | none => .error (.invalidContext ("no file name: " ++ path.shown))

/-- The context of a plugin with a directory of its own. The names of the directory and of the main
file have to be texts; those of the other files need not be. -/
def ofBytes (main : Text.Bytes) (candidates : List Text.Bytes) : Except ValueError Context := do
  let main := Path.ofBytes main
  let root ← rootOfBytes main
  let slug ← nameOfBytes root
  let name ← nameOfBytes main
  return {
    mainFile := main
    root
    slug
    basename := slug ++ "/" ++ name
    files := pluginFiles root main (candidates.map Path.ofBytes)
    singleFile := false }

/-- The name of a path in a record of findings. -/
def shown (context : Context) (p : Path) : String := p.shownFrom context.root

end Context

end PluginAudit
