import PluginAudit.Host.Session
import PluginAudit.Json.Document
import PluginAudit.Json.Writer
import PluginAudit.Text.Ascii

/-!
A store of namespaces in an SQL database: one table of options for each namespace, and a table
that lists the temporary namespaces. The database finds tables whatever the case of their names;
the look-up of a namespace compares the names exactly.
-/

namespace PluginAudit

/-- Why the database refuses a statement. -/
inductive SqlError where
  | noTable (name : String)
  | tableExists (name : String)
  | badToken (text : String)
  | reservedName (name : String)
  | notUnique (column : String)
  | readOnly
  | notDatabase
  | malformed
  | unreadable
  | cannotOpen
  | noFileSystem (name : String)
  | badAuthority (name : String)
  | unknownMode (kind value : String)
  | modeNotAllowed (value : String)
deriving DecidableEq

namespace SqlError

def code : SqlError → Nat
  | .notUnique _ => 1555
  | .readOnly => 8
  | .notDatabase => 26
  | .malformed => 11
  | .unreadable => 266
  | .cannotOpen => 14
  | .modeNotAllowed _ => 3
  | _ => 1

def text : SqlError → String
  | .noTable name => "no such table: " ++ name
  | .tableExists name => "table " ++ name ++ " already exists"
  | .badToken t => "unrecognized token: \"" ++ t ++ "\""
  | .reservedName name => "object name reserved for internal use: " ++ name
  | .notUnique column => "UNIQUE constraint failed: " ++ column
  | .readOnly => "attempt to write a readonly database"
  | .notDatabase => "file is not a database"
  | .malformed => "database disk image is malformed"
  | .unreadable => "disk I/O error"
  | .cannotOpen => "unable to open database file"
  | .noFileSystem name => "no such vfs: " ++ name
  | .badAuthority name => "invalid uri authority: " ++ name
  | .unknownMode kind value => "no such " ++ kind ++ " mode: " ++ value
  | .modeNotAllowed value => "access mode not allowed: " ++ value

def message (e : SqlError) : String :=
  "error returned from database: (code: " ++ e.code.repr ++ ") " ++ e.text

def toHost (e : SqlError) : HostRefusal := .options e.message

end SqlError

/-- A table of options. Its name is spelled as it was created; its rows are in ascending order
of the option names. -/
structure OptionTable where
  name : String
  rows : List (String × String)

structure Database where
  base : String
  readOnly : Bool
  /-- Whether the tables that every namespace needs are there. -/
  migrated : Bool
  tables : List OptionTable
  /-- The rows of the table of temporary namespaces, in ascending order. -/
  registered : List String

namespace Database

def empty (base : String) : Database := ⟨base, false, false, [], []⟩

def tableName (name : String) : String := name ++ "options"

/-- Whether a name cannot be written in a statement: a token that begins with a digit is no
name. -/
def checkToken (table : String) : Except SqlError Unit :=
  if table.toList.head?.any Char.isDigit then .error (.badToken table) else .ok ()

def isReserved (table : String) : Bool :=
  (Text.after? "sqlite_".toList (Text.asciiLower table.toList)).isSome

def find? (d : Database) (table : String) : Option OptionTable :=
  d.tables.find? (·.name.sameIgnoringCase table)

def select (d : Database) (table : String) : Except SqlError OptionTable := do
  checkToken table
  match d.find? table with
  | some t => return t
  | none => throw (.noTable table)

def createTable (table : String) (d : Database) : Except SqlError Database := do
  checkToken table
  if isReserved table then throw (.reservedName table)
  else if (d.find? table).isSome then throw (.tableExists table)
  else if d.readOnly then throw .readOnly
  else return { d with tables := d.tables ++ [⟨table, []⟩] }

def createTableIfMissing (table : String) (d : Database) : Except SqlError Database := do
  checkToken table
  if (d.find? table).isSome then return d else createTable table d

def dropTable (table : String) (d : Database) : Except SqlError Database := do
  checkToken table
  return { d with tables := d.tables.filter (!·.name.sameIgnoringCase table) }

def registryName : String := "plugin_check_namespaces"

def insertSorted (name : String) : List String → List String
  | [] => [name]
  | n :: rest => if name < n then name :: n :: rest else n :: insertSorted name rest

def register (name : String) (d : Database) : Except SqlError Database :=
  if !d.migrated then .error (.noTable registryName)
  else if d.registered.contains name then .error (.notUnique (registryName ++ ".prefix"))
  else .ok { d with registered := insertSorted name d.registered }

def unregister (name : String) (d : Database) : Except SqlError Database :=
  if d.migrated then .ok { d with registered := d.registered.filter (· != name) }
  else .error (.noTable registryName)

/-- Whether a namespace of exactly this name exists. -/
def has (d : Database) (name : String) : Bool := d.tables.any (·.name == tableName name)

/-- Prepares the database for a base namespace. A database that is prepared stays as it is. -/
def migrate (base : String) (d : Database) : Except HostRefusal Database := do
  Namespace.check base
  if d.migrated then return d
  else if d.readOnly then throw SqlError.readOnly.toHost
  else
    match createTableIfMissing (tableName base) d with
    | .ok d => return { d with migrated := true }
    | .error e => throw e.toHost

def ready (d : Database) : Except HostRefusal Unit :=
  if d.has d.base then .ok ()
  else .error (.connection ("base namespace " ++ d.base ++ " is missing, run migrations first"))

def create (name : String) (d : Database) : Except HostRefusal Database := do
  Namespace.check name
  if d.has name then throw (.namespaces ("namespace " ++ name ++ " already exists"))
  else
    match createTable (tableName name) d >>= register name with
    | .ok d => return d
    | .error e => throw e.toHost

def enter (name : String) (d : Database) : Except HostRefusal Unit := do
  Namespace.check name
  if d.has name then return ()
  else throw (.namespaces ("unknown namespace " ++ name))

def drop (current name : String) (d : Database) : Except HostRefusal Database := do
  Namespace.check name
  if name = d.base then throw (.namespaces ("refusing to drop base namespace " ++ name))
  else if current = name then throw (.namespaces ("namespace " ++ name ++ " is still active"))
  else
    match dropTable (tableName name) d >>= unregister name with
    | .ok d => return d
    | .error e => throw e.toHost

/-- A stored text that is no JSON stands for itself. -/
def decode (text : String) : Json := (Json.read? text).getD (.str text)

def read (current key : String) (d : Database) : Except HostRefusal (Option Json) :=
  match d.select (tableName current) with
  | .ok t => .ok ((t.rows.lookup key).map decode)
  | .error e => .error e.toHost

/-- Stores a text under a key of a namespace. -/
def writeText (name key text : String) (d : Database) : Except HostRefusal Database :=
  match d.select (tableName name) with
  | .ok t =>
    .ok { d with tables := d.tables.map fun u =>
      if u.name = t.name then { u with rows := Entries.put key text u.rows } else u }
  | .error e => .error e.toHost

def update (name key : String) (value : Json) (d : Database) : Except HostRefusal Database := do
  Namespace.check name
  writeText name key value.compact d

/-- A stored value, whatever the overrides. -/
def stored (name key : String) (d : Database) : Except HostRefusal (Option Json) := do
  Namespace.check name
  d.read name key

def namespaces (d : Database) : Except HostRefusal (List String) :=
  if d.migrated then .ok d.registered else .error (SqlError.noTable registryName).toHost

def storage : Storage Database where
  base := fun d => d.base
  ready := ready
  create := create
  enter := enter
  drop := drop
  read := read
  suspends := true

end Database

end PluginAudit
