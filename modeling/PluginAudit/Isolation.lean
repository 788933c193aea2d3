import PluginAudit.Host.Overrides
import PluginAudit.Preparation

/-!
The first preparation of every run that asks the host: a namespace of the run's own and overrides
that make the plugin the only active one. When it is undone, the host's configuration is compared
with a snapshot taken before.
-/

namespace PluginAudit

/-- Values of options at some time, in ascending order of the keys. -/
structure Snapshot where
  values : List (String × Option Json)

namespace Snapshot

def captureFrom (taken : List (String × Option Json)) :
    List String → Program hostCalls (Except HostRefusal Snapshot)
  | [] => pure (.ok ⟨taken⟩)
  | key :: rest =>
    .ask (.option key) fun
      | .ok value => captureFrom (Entries.put key value taken) rest
      | .error e => pure (.error e)

def capture (keys : List String) : Program hostCalls (Except HostRefusal Snapshot) :=
  captureFrom [] keys

def divergingFrom :
    List (String × Option Json) → Program hostCalls (Except HostRefusal (List String))
  | [] => pure (.ok [])
  | (key, expected) :: rest =>
    .ask (.option key) fun
      | .error e => pure (.error e)
      | .ok value => do
        match ← divergingFrom rest with
        | .error e => return .error e
        | .ok keys => return .ok (if Json.sameOption value expected then keys else key :: keys)

/-- The keys whose values are no longer the captured ones. -/
def diverging (s : Snapshot) : Program hostCalls (Except HostRefusal (List String)) :=
  divergingFrom s.values

end Snapshot

namespace Isolation

def preparationName : String := "environment_bootstrap"

def watchedKeys : List String :=
  ["active_plugins", "template", "stylesheet", "current_theme", "template_root",
    "stylesheet_root"]

def themeRoot : String := "/themes"

/-- The values of the snapshot's keys while the plugin is inspected. -/
def overrides (basename theme : String) : List (String × Json) := [
  ("active_plugins", .arr [.str basename]),
  ("template", .str theme),
  ("stylesheet", .str theme),
  ("current_theme", .str theme),
  ("template_root", .str themeRoot),
  ("stylesheet_root", .str themeRoot)]

/-- Switches back and drops the run's namespace, which is not dropped while it is current. -/
def leave (former name : String) : Program hostCalls (List String) :=
  .ask (.switchTo former) fun
    | .ok () => .ask (.dropNamespace name) fun
      | .ok () => pure []
      | .error e => pure ["namespace " ++ name ++ " left behind: " ++ e.message]
    | .error e => pure ["could not switch back to " ++ former ++ ", namespace " ++ name ++
        " left active: " ++ e.message]

def verify (snapshot : Snapshot) : Program hostCalls (List String) := do
  match ← snapshot.diverging with
  | .ok [] => return []
  | .ok keys => return ["configuration not restored for keys: " ++ String.intercalate ", " keys]
  | .error e => return ["could not verify configuration: " ++ e.message]

/-- All problems of the undoing are told. -/
def undo (ids : List Nat) (former name : String) (snapshot : Snapshot) :
    Program hostCalls (Except String Unit) := do
  let _ ← Preparation.removeAll ids
  let left ← leave former name
  let changed ← verify snapshot
  let problems := left ++ changed
  return if problems.isEmpty then .ok () else .error (String.intercalate "; " problems)

/-- Creates the namespace and switches to it. If that fails, it is dropped again. -/
def enter (name : String) : Program hostCalls (Except HostRefusal Unit) :=
  .ask (.createNamespace name) fun
    | .error e => pure (.error e)
    | .ok () => .ask (.switchTo name) fun
      | .ok () => pure (.ok ())
      | .error e => .ask (.dropNamespace name) fun _ => pure (.error e)

def setup (basename name theme : String) : Program hostCalls (Except HostRefusal Cleanup) := do
  match ← Snapshot.capture watchedKeys with
  | .error e => return .error e
  | .ok snapshot =>
    .ask .currentNamespace fun
      | .error e => pure (.error e)
      | .ok former => do
        match ← enter name with
        | .error e => return .error e
        | .ok () =>
          let ids ← Preparation.addAll (overrides basename theme)
          return .ok {
            name := preparationName
            undo := Program.inStep (undo ids former name snapshot) }

def preparation (basename name theme : String) : Preparation where
  name := preparationName
  setup := Program.inStep (setup basename name theme)

end Isolation

end PluginAudit
