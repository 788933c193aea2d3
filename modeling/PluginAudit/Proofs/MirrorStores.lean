import PluginAudit.Proofs.MemorySteps
import PluginAudit.Proofs.NamespaceNames
import PluginAudit.Proofs.Registry
import PluginAudit.Proofs.TextLines

/-!
A store in memory and a database with the same namespaces. For names that both take for one and
the same namespace they answer alike, and what is created or dropped in one is created or dropped
in the other.
-/

namespace PluginAudit

namespace Namespace

open Text Database

/-- A valid name in small letters that begins with a letter, but not like the names that a
database keeps for itself. -/
structure Plain (name : String) : Prop where
  valid : check name = .ok ()
  lower : IsLower name
  letter : name.toList.head?.any Char.isAlpha
  unreserved : ¬"sqlite_".toList <+: name.toList

instance (name : String) : Decidable (IsLower name) :=
  inferInstanceAs (Decidable (asciiLower name.toList = name.toList))

instance (name : String) : Decidable (Plain name) :=
  decidable_of_iff (check name = .ok () ∧ IsLower name ∧ name.toList.head?.any Char.isAlpha ∧
      ¬"sqlite_".toList <+: name.toList)
    ⟨fun ⟨valid, lower, letter, unreserved⟩ => ⟨valid, lower, letter, unreserved⟩,
      fun h => ⟨h.valid, h.lower, h.letter, h.unreserved⟩⟩

namespace Plain

variable {name : String}

theorem beginsTable (h : Plain name) : BeginsTable name := by
  refine ⟨?_, h.lower.symm ▸ h.unreserved⟩
  have letter := h.letter
  cases named : name.toList with
  | nil => rfl
  | cons c rest =>
    rw [named, List.head?_cons, Option.any_some, isAlpha_iff] at letter
    rw [List.head?_cons, Option.any_some]
    refine Bool.eq_false_iff.mpr fun digit => ?_
    rw [isDigit_iff] at digit
    omega

theorem token (h : Plain name) : checkToken (tableName name) = .ok () :=
  (beginsTable_iff.mp h.beginsTable).1

theorem table_unreserved (h : Plain name) : isReserved (tableName name) = false :=
  (beginsTable_iff.mp h.beginsTable).2

end Plain

end Namespace

namespace Database

open Namespace

variable {m : MemoryStore} {d : Database} {current name key : String}
  {rows : List (String × String)}

theorem InStep.has_eq (h : InStep rows d) (lower : IsLower name) :
    d.has name = (d.find? (tableName name)).isSome := by
  rw [Bool.eq_iff_iff, has, find?, List.any_eq_true, List.find?_isSome]
  refine exists_congr fun t => and_congr_right fun member => ?_
  rw [h.table_same_iff lower member, beq_iff_eq]

theorem InStep.mem_of_has (h : InStep rows d) (there : d.has name = true) :
    name ∈ d.base :: d.registered := by
  obtain ⟨t, member, named⟩ := List.any_eq_true.mp there
  have listed := h.tables.subset (List.mem_map_of_mem member)
  rw [beq_iff_eq.mp named] at listed
  obtain ⟨n, there, same⟩ := List.mem_map.mp listed
  exact tableName_injective same ▸ there

/-- The same refusal of both, or results that correspond. -/
def Matched {σ τ : Type} (R : σ → τ → Prop) : Except HostRefusal σ → Except HostRefusal τ → Prop
  | .ok s, .ok t => R s t
  | .error e, .error f => e = f
  | _, _ => False

/-- The database has the namespaces of the store in memory, with the same values under every key. -/
structure Mirrors (m : MemoryStore) (d : Database) : Prop where
  base : d.base = MemoryStore.baseName
  writable : d.readOnly = false
  creates : m.refusesCreation = false
  drops : m.refusesDropping = false
  inStep : ∃ rows, InStep rows d
  options : ∀ name, IsLower name → ∀ key, (m.namespaces.lookup name).map (·.lookup key) =
    (d.find? (tableName name)).map fun t => (t.rows.lookup key).map decode

namespace Mirrors

theorem has (h : Mirrors m d) (lower : IsLower name) : d.has name = m.has name := by
  obtain ⟨rows, inStep⟩ := h.inStep
  have same := congrArg Option.isSome (h.options name lower "")
  rw [Option.isSome_map, Option.isSome_map] at same
  rw [inStep.has_eq lower]
  exact same.symm

theorem create (h : Mirrors m d) (plain : Plain name) :
    Matched Mirrors (m.create name) (d.create name) := by
  obtain ⟨rows, inStep⟩ := h.inStep
  have same := h.has plain.lower
  cases there : m.has name with
  | true =>
    have memory : m.create name =
        .error (.namespaces ("namespace " ++ name ++ " already exists")) := by
      simp [MemoryStore.create, plain.valid, h.creates, there]
    have database : d.create name =
        .error (.namespaces ("namespace " ++ name ++ " already exists")) := by
      simp [Database.create, plain.valid, same, there, bind, Except.bind, throw, throwThe,
        MonadExceptOf.throw]
    rw [memory, database]
    rfl
  | false =>
    have absent : d.has name = false := same.trans there
    have missing : d.find? (tableName name) = none := by
      rw [inStep.has_eq plain.lower] at absent
      exact Option.not_isSome_iff_eq_none.mp (Bool.eq_false_iff.mp absent)
    have unlisted : name ∉ d.registered := fun listed =>
      Bool.false_ne_true (absent.symm.trans (inStep.has_of_mem (List.mem_cons_of_mem _ listed)))
    have made := create_eq_ok.mpr ⟨plain.valid, absent,
      ⟨plain.token, plain.table_unreserved, missing, h.writable⟩, inStep.migrated, unlisted, rfl⟩
    have memory : m.create name = .ok { m with
        namespaces := Entries.put name [] m.namespaces
        created := m.created ++ [name] } := by
      simp [MemoryStore.create, plain.valid, h.creates, there]
    rw [memory, made]
    refine ⟨h.base, h.writable, h.creates, h.drops, ⟨rows, inStep.created plain.lower made⟩, ?_⟩
    intro q lower key
    rw [Entries.lookup_put, find?_added missing]
    by_cases same : q = name
    · rw [if_pos same, if_pos (same ▸ Text.sameIgnoringCase_iff.mpr rfl)]
      rfl
    · rw [if_neg same, if_neg fun alike => same ((plain.lower.same_iff lower).mp alike).symm]
      exact h.options q lower key

theorem drop (h : Mirrors m d) (plain : Plain name) (notBase : name ≠ MemoryStore.baseName)
    (notCurrent : current ≠ name) :
    Matched Mirrors (m.drop current name) (d.drop current name) := by
  obtain ⟨rows, inStep⟩ := h.inStep
  have left := drop_eq_ok.mpr ⟨plain.valid, h.base ▸ notBase, notCurrent, plain.token,
    inStep.migrated, rfl⟩
  have memory : m.drop current name = .ok { m with
      namespaces := Entries.erase name m.namespaces
      dropped := m.dropped ++ [name] } := by
    simp [MemoryStore.drop, h.drops]
  rw [memory, left]
  refine ⟨h.base, h.writable, h.creates, h.drops, ⟨rows, inStep.dropped plain.lower left⟩, ?_⟩
  intro q lower key
  rw [Entries.lookup_erase, drop_find? left]
  by_cases same : q = name
  · rw [if_pos same, if_pos (same ▸ Text.sameIgnoringCase_iff.mpr rfl)]
    rfl
  · rw [if_neg same, if_neg fun alike => same ((plain.lower.same_iff lower).mp alike).symm]
    exact h.options q lower key

theorem enter (h : Mirrors m d) (plain : Plain name) : m.enter name = d.enter name := by
  have same := h.has plain.lower
  simp only [MemoryStore.enter, Database.enter, plain.valid, same]
  rfl

theorem read (h : Mirrors m d) (plain : Plain current) (there : m.has current = true)
    (key : String) : m.read current key = d.read current key := by
  have same := h.options current plain.lower key
  obtain ⟨options, found⟩ := Option.isSome_iff_exists.mp there
  rw [found] at same
  obtain ⟨t, table, value⟩ := Option.map_eq_some_iff.mp same.symm
  rw [read_found plain.token table, value]
  simp only [MemoryStore.read, found]

end Mirrors

end Database

end PluginAudit
