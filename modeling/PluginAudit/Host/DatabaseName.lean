import PluginAudit.Host.Database
import PluginAudit.Host.Location

/-!
The names by which a database engine is asked for files. A name that begins with `file:` is a URI:
an authority that may only be the local host, a path, and options.
-/

namespace PluginAudit

structure DatabaseName where
  path : String
  options : List (String × String)

namespace DatabaseName

/-- The part of a text before the first NUL. -/
def beforeNul (s : String) : String := .ofList (s.toList.takeWhile (· != '\x00'))

/-- What a part of a URI stands for; an escaped NUL ends it. -/
def partText (part : List Char) : String :=
  beforeNul (.ofList (Text.decodeLossy (DatabaseLocation.unescape part)))

def readOptions (query : List Char) : List (String × String) :=
  ((Text.splitAt '&' query).map fun part =>
    match Text.splitOnce '=' part with
    | some (name, value) => (partText name, partText value)
    | none => (partText part, "")).filter (!·.1.isEmpty)

/-- A URI, its scheme left out, from its path on. -/
def afterAuthority (text : List Char) : Except SqlError (List Char) :=
  match Text.after? ['/', '/'] text with
  | none => .ok text
  | some rest =>
    let authority := rest.takeWhile (· != '/')
    if authority.isEmpty || authority = "localhost".toList then
      .ok (rest.drop authority.length)
    else .error (.badAuthority (.ofList authority))

def ofText (text : String) : Except SqlError DatabaseName :=
  match Text.after? "file:".toList text.toList with
  | none => .ok ⟨text, []⟩
  | some rest => do
    let body := Text.before ['#'] (← afterAuthority rest)
    let (path, query) := (Text.splitOnce '?' body).getD (body, [])
    return ⟨partText path, readOptions query⟩

/-- The name of a location. The parameters that concern the file become options of a URI, in which
a plus sign stands for itself. -/
def ofLocation (l : DatabaseLocation) : Except HostRefusal DatabaseName :=
  let options :=
    (if l.immutable then [("immutable", "true")] else []) ++
      (l.fileSystem.map fun name =>
        ("vfs", beforeNul (name.map fun c => if c = ' ' then '+' else c))).toList
  if !options.isEmpty then .ok ⟨beforeNul l.file, options⟩
  else if l.file.toList.contains '\x00' then
    .error (.connection ("error communicating with database: " ++
      "filename passed to SQLite must not contain nul bytes"))
  else (ofText l.file).mapError fun e => .connection e.message

/-- Whether an option says yes: by a word, or by a number other than zero. -/
def isOn (d : DatabaseName) (option : String) : Bool :=
  match d.options.lookup option with
  | none => false
  | some value =>
    ["on", "yes", "true"].contains value.asciiLowered ||
      (value.toList.takeWhile Char.isDigit).any (· != '0')

end DatabaseName

end PluginAudit
