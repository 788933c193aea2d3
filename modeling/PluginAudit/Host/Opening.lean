import PluginAudit.Host.DatabaseFile
import PluginAudit.Host.DatabaseName

/-!
Opening a database. A file has to be found and has to be a database; then it is switched to a log
of changes, if there can be one, and that is written into it.
-/

namespace PluginAudit

inductive Access where
  | unstated
  | reading
  | writing
  /-- For writing, and it is made if it is not there. -/
  | making
deriving DecidableEq

def Access.rank : Access → Nat
  | .unstated => 0
  | .reading => 1
  | .writing => 2
  | .making => 6

structure OpenMode where
  access : Access
  inMemory : Bool

namespace OpenMode

def ofText? : String → Option OpenMode
  | "ro" => some ⟨.reading, false⟩
  | "rw" => some ⟨.writing, false⟩
  | "rwc" => some ⟨.making, false⟩
  | "memory" => some ⟨.unstated, true⟩
  | _ => none

/-- Whether an option of the name may ask for another mode. -/
def allows (m other : OpenMode) : Bool := m.inMemory || other.access.rank ≤ m.access.rank

end OpenMode

structure OpenRequest where
  path : String
  mode : OpenMode
  fileSystem : String
  immutable : Bool
  locks : Bool

namespace OpenRequest

def withOption (r : OpenRequest) (name value : String) : Except SqlError OpenRequest :=
  match name with
  | "vfs" => .ok { r with fileSystem := value }
  | "cache" =>
    if ["shared", "private"].contains value then .ok r else .error (.unknownMode name value)
  | "mode" =>
    match OpenMode.ofText? value with
    | none => .error (.unknownMode "access" value)
    | some mode =>
      if r.mode.allows mode then .ok { r with mode } else .error (.modeNotAllowed value)
  | _ => .ok r

def ofName (d : DatabaseName) (mode : OpenMode) : Except SqlError OpenRequest :=
  d.options.foldlM (fun r (name, value) => r.withOption name value)
    ⟨d.path, mode, "unix", d.isOn "immutable", !d.isOn "nolock"⟩

/-- The file is made unless it is only read. -/
def ofLocation (l : DatabaseLocation) : Except HostRefusal OpenRequest := do
  let name ← DatabaseName.ofLocation l
  (ofName name ⟨if l.readOnly then .reading else .making, l.inMemory⟩).mapError fun e =>
    .connection e.message

/-- Whether the database is kept for as long as it is open. -/
def isTemporary (r : OpenRequest) : Bool :=
  r.mode.inMemory || r.path.isEmpty || r.path == ":memory:"

def isReadOnly (r : OpenRequest) : Bool :=
  r.mode.access == .reading || (r.immutable && !r.isTemporary)

def fileSystems : List String := ["unix", "unix-none", "unix-dotfile", "unix-excl", "memdb"]

/-- Whether changes can be logged beside the file. -/
def logs (r : OpenRequest) : Bool :=
  ["unix", "unix-excl"].contains r.fileSystem && r.locks && !r.immutable

/-- The full path of the file. There has to be room for that of its journal. -/
def place (r : OpenRequest) (tree : FileTree) : Except SqlError Location := do
  let here := if Path.isAbsolute ⟨r.path⟩ then [] else tree.current.reverse
  let parts := Text.splitAt '/' r.path.toList
  let place ← DatabaseFile.fullPath tree.root DatabaseFile.linkLimit here parts
  if place.isEmpty || !DatabaseFile.fits place then throw .cannotOpen else return place

/-- What is in the file at a full path; a new file is empty. -/
def content (r : OpenRequest) (tree : FileTree) (place : Location) :
    Except SqlError Text.Bytes :=
  match tree.root.look place with
  | .ok (.file data) => .ok data
  | .ok (.directory _) => .error (if r.mode.access = .reading then .unreadable else .cannotOpen)
  | .error .notFound =>
    if r.mode.access = .making && (tree.root.find? place.dropLast).any Node.isDirectory then .ok []
    else .error .cannotOpen
  | _ => .error .cannotOpen

/-- Whether the file can be switched to a log of changes, for which the journal is made. -/
def checkLog (r : OpenRequest) (place : Location) : Except SqlError Unit :=
  if !r.logs then .ok ()
  else if r.isReadOnly then .error .readOnly
  else if FileTree.nameLimit < (DatabaseFile.journalName place).utf8ByteSize then
    .error .cannotOpen
  else .ok ()

def checkFile (r : OpenRequest) (tree : FileTree) : Except SqlError Unit := do
  let place ← r.place tree
  DatabaseFile.check (← r.content tree place)
  r.checkLog place

def check (r : OpenRequest) (tree : FileTree) : Except SqlError Unit :=
  if !fileSystems.contains r.fileSystem then .error (.noFileSystem r.fileSystem)
  else if r.isTemporary || r.fileSystem = "memdb" then .ok ()
  else r.checkFile tree

end OpenRequest

/-- Opens the database of an address, whose base namespace has a name. -/
def Database.open? (address base : String) (tree : FileTree) : Except HostRefusal Database := do
  let location ← (DatabaseLocation.ofAddress address).mapError fun e => .connection e.message
  let request ← OpenRequest.ofLocation location
  (request.check tree).mapError fun e => .connection e.message
  return { Database.empty base with readOnly := request.isReadOnly }

end PluginAudit
