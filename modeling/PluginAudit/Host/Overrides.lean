import PluginAudit.Entries
import PluginAudit.Json.Basic

/-!
Option overrides of one session. Each override has a number of its own; for a key the latest
override that is still there counts.
-/

namespace PluginAudit

structure Override where
  id : Nat
  key : String
  value : Json

/-- The overrides that are there, oldest first, and the number of the next one. -/
structure Overrides where
  live : List Override
  nextId : Nat

namespace Overrides

def empty : Overrides := ⟨[], 0⟩

/-- The number of the new override is the former `nextId`. -/
def add (o : Overrides) (key : String) (value : Json) : Overrides :=
  ⟨o.live ++ [⟨o.nextId, key, value⟩], o.nextId + 1⟩

def holds (o : Overrides) (id : Nat) : Bool := o.live.any (·.id == id)

def remove (o : Overrides) (id : Nat) : Overrides :=
  { o with live := o.live.filter (·.id != id) }

def get? (o : Overrides) (key : String) : Option Json :=
  (o.live.reverse.find? (·.key == key)).map (·.value)

/-- The values in force, in ascending order of their keys. -/
def snapshot (o : Overrides) : List (String × Json) :=
  Entries.ofList (o.live.map fun v => (v.key, v.value))

def size (o : Overrides) : Nat := o.live.length

end Overrides

end PluginAudit
