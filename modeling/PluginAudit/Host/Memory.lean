import PluginAudit.Host.Session

/-!
A store of namespaces that are kept in memory. It can be told to refuse the creation or the
dropping of namespaces, and it logs both.
-/

namespace PluginAudit

structure MemoryStore where
  /-- Namespaces with their options, in ascending order of the names. -/
  namespaces : List (String × List (String × Json))
  created : List String
  dropped : List String
  refusesCreation : Bool
  refusesDropping : Bool

namespace MemoryStore

def baseName : String := "wp_"

/-- A site with some active plugins and a theme of its own. -/
def initial (refusesCreation refusesDropping : Bool) : MemoryStore where
  namespaces := [(baseName, [
    ("active_plugins", .arr [.str "akismet/akismet.php", .str "hello.php"]),
    ("current_theme", .str "Twenty Twenty Child"),
    ("stylesheet", .str "twentytwenty-child"),
    ("template", .str "twentytwenty")])]
  created := []
  dropped := []
  refusesCreation
  refusesDropping

def has (m : MemoryStore) (name : String) : Bool := (m.namespaces.lookup name).isSome

def create (name : String) (m : MemoryStore) : Except HostRefusal MemoryStore :=
  match Namespace.check name with
  | .error e => .error e
  | .ok () =>
    if m.refusesCreation then .error (.namespaces ("cannot create namespace " ++ name))
    else if m.has name then .error (.namespaces ("namespace " ++ name ++ " already exists"))
    else .ok { m with
      namespaces := Entries.put name [] m.namespaces
      created := m.created ++ [name] }

def enter (name : String) (m : MemoryStore) : Except HostRefusal Unit :=
  if m.has name then .ok () else .error (.namespaces ("unknown namespace " ++ name))

/-- Dropping a namespace that is not there succeeds. -/
def drop (_ name : String) (m : MemoryStore) : Except HostRefusal MemoryStore :=
  if m.refusesDropping then .error (.namespaces ("cannot drop namespace " ++ name))
  else .ok { m with
    namespaces := Entries.erase name m.namespaces
    dropped := m.dropped ++ [name] }

def read (name key : String) (m : MemoryStore) : Except HostRefusal (Option Json) :=
  match m.namespaces.lookup name with
  | some options => .ok (options.lookup key)
  | none => .error (.options ("no namespace " ++ name))

def storage : Storage MemoryStore where
  base := fun _ => baseName
  ready := fun _ => .ok ()
  create := create
  enter := enter
  drop := drop
  read := read
  suspends := false

/-- A stored value, whatever the overrides. -/
def stored? (m : MemoryStore) (name key : String) : Option Json :=
  (m.namespaces.lookup name).bind (·.lookup key)

end MemoryStore

end PluginAudit
