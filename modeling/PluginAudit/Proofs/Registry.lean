import Mathlib.Data.List.Perm.Basic
import PluginAudit.Proofs.DatabaseCalls

/-!
The list of temporary namespaces is in step with the tables, as long as names have no capital
letters: it has each namespace that has a table once, but for the base namespace. Nothing but the
storing of an option changes what the base namespace holds.
-/

namespace PluginAudit.Database

open Namespace

def Call.IsLower : Call → Prop
  | .migrate name | .ask _ (.createNamespace name) | .ask _ (.switchTo name)
  | .ask _ (.dropNamespace name) | .update name _ _ => Namespace.IsLower name
  | _ => True

/-- What a call makes of the rows of a namespace. -/
def Call.write (base : String) (rows : List (String × String)) : Call → List (String × String)
  | .update name key value => if name = base then Entries.put key value.compact rows else rows
  | _ => rows

theorem insertSorted_perm (name : String) (names : List String) :
    (insertSorted name names).Perm (name :: names) := by
  induction names with
  | nil => exact .refl _
  | cons n rest ih =>
    unfold insertSorted
    split
    · exact .refl _
    · exact (ih.cons n).trans (.swap name n rest)

theorem find?_map_tables {d : Database} {f : OptionTable → OptionTable}
    (sameNames : ∀ t, (f t).name = t.name) (table : String) :
    ({ d with tables := d.tables.map f } : Database).find? table = (d.find? table).map f := by
  simp only [find?, List.find?_map, Function.comp_def, sameNames]

/-- The list of namespaces and the tables tell of the same namespaces, and the base namespace has
these rows. -/
structure InStep (rows : List (String × String)) (d : Database) : Prop where
  migrated : d.migrated = true
  valid : Namespace.check d.base = .ok ()
  token : checkToken (tableName d.base) = .ok ()
  lower : ∀ n ∈ d.base :: d.registered, IsLower n
  distinct : (d.base :: d.registered).Nodup
  tables : (d.tables.map OptionTable.name).Perm ((d.base :: d.registered).map tableName)
  base : d.find? (tableName d.base) = some ⟨tableName d.base, rows⟩

namespace InStep

variable {rows : List (String × String)} {d e : Database} {name : String}

theorem table_lower (h : InStep rows d) {t : OptionTable} (member : t ∈ d.tables) :
    ∃ n, IsLower n ∧ t.name = tableName n := by
  have listed := h.tables.subset (List.mem_map_of_mem member)
  obtain ⟨n, there, named⟩ := List.mem_map.mp listed
  exact ⟨n, h.lower n there, named.symm⟩

/-- Among names without capital letters the database finds a table by its exact name only. -/
theorem table_same_iff (h : InStep rows d) (lower : IsLower name) {t : OptionTable}
    (member : t ∈ d.tables) : t.name.sameIgnoringCase (tableName name) ↔ t.name = tableName name := by
  obtain ⟨n, small, named⟩ := h.table_lower member
  rw [named, same_tableName, small.same_iff lower]
  exact ⟨congrArg tableName, tableName_injective⟩

theorem has_of_mem (h : InStep rows d) (member : name ∈ d.base :: d.registered) :
    d.has name = true := by
  have listed := h.tables.symm.subset (List.mem_map_of_mem member)
  obtain ⟨t, there, named⟩ := List.mem_map.mp listed
  exact List.any_eq_true.mpr ⟨t, there, by simp [named]⟩

theorem created (h : InStep rows d) (lower : IsLower name) (made : d.create name = .ok e) :
    InStep rows e := by
  obtain ⟨-, absent, -, -, -, -, rfl⟩ := create_ok made
  have new : name ∉ d.base :: d.registered := fun member =>
    Bool.false_ne_true (absent.symm.trans (h.has_of_mem member))
  have listed : (d.base :: insertSorted name d.registered).Perm
      (name :: d.base :: d.registered) :=
    ((insertSorted_perm name d.registered).cons d.base).trans (.swap name d.base d.registered)
  constructor
  · exact h.migrated
  · exact h.valid
  · exact h.token
  · intro n member
    rcases List.mem_cons.mp (listed.subset member) with rfl | old
    · exact lower
    · exact h.lower n old
  · exact listed.nodup_iff.mpr (List.nodup_cons.mpr ⟨new, h.distinct⟩)
  · have after := (h.tables.append_right [tableName name]).trans
      (List.perm_append_singleton (tableName name) _)
    simpa using after.trans (listed.map tableName).symm
  · have found := h.base
    simp only [find?, List.find?_append] at found ⊢
    rw [found]
    rfl

theorem dropped_tables (h : InStep rows d) (lower : IsLower name) :
    ((d.tables.filter (!·.name.sameIgnoringCase (tableName name))).map OptionTable.name).Perm
      (((d.base :: d.registered).filter (· != name)).map tableName) := by
  have byName : d.tables.filter (!·.name.sameIgnoringCase (tableName name)) =
      d.tables.filter ((· != tableName name) ∘ OptionTable.name) := by
    refine List.filter_congr fun t member => ?_
    rw [Bool.eq_iff_iff]
    simp [← h.table_same_iff lower member]
  have others : (· != name) = (· != tableName name) ∘ tableName := by
    funext n
    rw [Bool.eq_iff_iff]
    simp only [Function.comp_apply, bne_iff_ne, ne_eq]
    exact not_congr ⟨congrArg tableName, tableName_injective⟩
  rw [byName, others, ← List.filter_map, ← List.filter_map]
  exact h.tables.filter _

theorem dropped (h : InStep rows d) (lower : IsLower name) {current : String}
    (left : d.drop current name = .ok e) : InStep rows e := by
  have kept := drop_find? left d.base
  obtain ⟨-, notBase, -, -, -, rfl⟩ := drop_eq_ok.mp left
  have others : d.base :: d.registered.filter (· != name) =
      (d.base :: d.registered).filter (· != name) := by
    rw [List.filter_cons_of_pos (by simpa using notBase.symm)]
  have apart : ¬name.sameIgnoringCase d.base := fun same =>
    notBase ((lower.same_iff (h.lower _ List.mem_cons_self)).mp same)
  rw [if_neg apart] at kept
  constructor
  · exact h.migrated
  · exact h.valid
  · exact h.token
  · rw [others]
    exact fun n member => h.lower n (List.mem_filter.mp member).1
  · rw [others]
    exact h.distinct.filter _
  · rw [others]
    exact h.dropped_tables lower
  · exact kept.trans h.base

theorem updated (h : InStep rows d) (lower : IsLower name) {key : String} {value : Json}
    (stored : d.update name key value = .ok e) :
    InStep (Call.write d.base rows (.update name key value)) e := by
  obtain ⟨-, t, -, found, rfl⟩ := update_eq_ok.mp stored
  obtain ⟨member, matched⟩ := find?_spec found
  have named : t.name = tableName name := (h.table_same_iff lower member).mp matched
  have sameNames : ∀ u : OptionTable, (if u.name = t.name then
      { u with rows := Entries.put key value.compact u.rows } else u).name = u.name := by
    intro u
    split <;> rfl
  constructor
  · exact h.migrated
  · exact h.valid
  · exact h.token
  · exact h.lower
  · exact h.distinct
  · have names := List.map_congr_left fun u (_ : u ∈ d.tables) => sameNames u
    rw [List.map_map, Function.comp_def, names]
    exact h.tables
  · refine (find?_map_tables sameNames (tableName d.base)).trans ?_
    rw [h.base, Option.map_some, named, Call.write]
    by_cases same : name = d.base
    · rw [if_pos (congrArg tableName same.symm), if_pos same]
    · have other : tableName d.base ≠ tableName name := fun h => same (tableName_injective h).symm
      rw [if_neg other, if_neg same]

/-- The storing of an option of the base namespace is never refused. -/
theorem updates_base (h : InStep rows d) (key : String) (value : Json) :
    ∃ e, d.update d.base key value = .ok e :=
  ⟨_, update_eq_ok.mpr ⟨h.valid, _, h.token, h.base, rfl⟩⟩

end InStep

theorem Change.inStep {rows : List (String × String)} {d e : Database} {call : Call}
    (change : Change d call e) (lower : call.IsLower) (h : InStep rows d) :
    InStep (call.write d.base rows) e := by
  cases change with
  | migrated migration =>
    rcases migrate_ok migration with ⟨rfl, -⟩ | ⟨-, -, -, unready, -⟩
    · exact h
    · cases h.migrated.symm.trans unready
  | created made => exact h.created lower made
  | dropped left => exact h.dropped lower left
  | updated stored => exact h.updated lower stored
  -- Only what is stored in another namespace can be refused.
  | notUpdated refused =>
    rename_i name key value cause
    have other : name ≠ d.base := by
      rintro rfl
      obtain ⟨e, stored⟩ := h.updates_base key value
      cases stored.symm.trans refused
    rw [Call.write, if_neg other]
    exact h
  | none notStored =>
    cases call with
    | update name key value => exact absurd rfl (notStored name key value)
    | migrate base => exact h
    | connect => exact h
    | ask i c => exact h

theorem Change.base_eq {d e : Database} {call : Call} (change : Change d call e) :
    e.base = d.base := by
  cases change with
  | migrated migration =>
    rcases migrate_ok migration with ⟨rfl, -⟩ | ⟨-, -, -, -, ⟨-, rfl⟩ | ⟨-, rfl⟩⟩
    all_goals rfl
  | created made =>
    obtain ⟨-, -, -, -, -, -, rfl⟩ := create_ok made
    rfl
  | dropped left =>
    obtain ⟨-, -, -, -, -, rfl⟩ := drop_eq_ok.mp left
    rfl
  | updated stored =>
    obtain ⟨-, t, -, -, rfl⟩ := update_eq_ok.mp stored
    rfl
  | notUpdated refused => rfl
  | none notStored => rfl

theorem after_inStep {calls : List Call} (lower : ∀ call ∈ calls, call.IsLower)
    {rows : List (String × String)} {w : World Database} (h : InStep rows w.store) :
    (after calls w).store.base = w.store.base ∧
      InStep (calls.foldl (Call.write w.store.base) rows) (after calls w).store := by
  induction calls generalizing rows w with
  | nil => exact ⟨rfl, h⟩
  | cons call rest ih =>
    have change := answer_change call w
    have next := change.inStep (lower call List.mem_cons_self) h
    have later := ih (fun c member => lower c (List.mem_cons_of_mem call member)) next
    rw [change.base_eq] at later
    exact later

theorem migrate_inStep {base : String} {d : Database} (lower : IsLower base)
    (migrated : (Database.empty base).migrate base = .ok d) : d.base = base ∧ InStep [] d := by
  rcases migrate_ok migrated with ⟨-, ready⟩ | ⟨valid, token, -, -, ⟨there, -⟩ | ⟨-, rfl⟩⟩
  · cases ready
  · cases there
  · refine ⟨rfl, rfl, valid, token, ?_, by simp [Database.empty], .refl _, ?_⟩
    · intro n member
      rw [List.mem_singleton.mp member]
      exact lower
    · have self : (tableName base).sameIgnoringCase (tableName base) :=
        Text.sameIgnoringCase_iff.mpr rfl
      simp [find?, Database.empty, self]

theorem answer_refused {call : Call} {w : World Database} {cause : HostRefusal}
    (refused : (answer call w).1 = some cause) : (answer call w).2 = w := by
  cases call with
  | migrate base =>
    simp only [answer] at refused ⊢
    split at refused <;> simp_all
  | connect =>
    simp only [answer, World.connect] at refused ⊢
    cases ready : storage.ready w.store <;> simp_all
  | update name key value =>
    simp only [answer] at refused ⊢
    split at refused <;> simp_all
  | ask i c =>
    cases c with
    | createNamespace name =>
      simp only [answer, World.ask] at refused ⊢
      cases made : storage.create name w.store <;> simp_all [HostCall.refusal?]
    | dropNamespace name =>
      simp only [answer, World.ask] at refused ⊢
      cases left : storage.drop (w.session i).current name w.store <;>
        simp_all [HostCall.refusal?]
    | switchTo name =>
      simp only [answer, World.ask] at refused ⊢
      cases entered : storage.enter name w.store <;> simp_all [HostCall.refusal?]
    | option key => exact World.ask_reads storage i (c := .option key) True.intro w
    | currentNamespace => rfl
    | addOverride key value => cases refused
    | removeOverride id => cases refused
    | overrides => rfl

/-- After any calls with small names, of any sessions, the list of temporary namespaces has
exactly those that have a table, each once. The base namespace has what has been stored there and
nothing else, and a call that is refused changes nothing. -/
theorem registry_inStep (base : String) (d : Database) (loader : Loader) (calls : List Call)
    (lower : IsLower base) (migrated : (Database.empty base).migrate base = .ok d)
    (small : ∀ call ∈ calls, call.IsLower) :
    let w := after calls ⟨d, [], loader⟩
    (w.store.tables.map OptionTable.name).Perm ((base :: w.store.registered).map tableName) ∧
      (base :: w.store.registered).Nodup ∧
      w.store.find? (tableName base) = some ⟨tableName base, calls.foldl (Call.write base) []⟩ ∧
      ∀ call cause, (answer call w).1 = some cause → (answer call w).2 = w := by
  intro w
  obtain ⟨named, start⟩ := migrate_inStep lower migrated
  obtain ⟨stays, inStep⟩ := after_inStep small (w := ⟨d, [], loader⟩) start
  have same : w.store.base = base := stays.trans named
  have tables := inStep.tables
  have distinct := inStep.distinct
  have rows := inStep.base
  rw [same] at tables distinct rows
  rw [named] at rows
  exact ⟨tables, distinct, rows, fun call cause => answer_refused⟩

def traffic : List Call :=
  [.connect, .connect, .ask 0 (.createNamespace "wppc_a_"), .ask 0 (.switchTo "wppc_a_"),
    .ask 1 (.createNamespace "wppc_a_"), .ask 0 (.dropNamespace "wppc_a_"),
    .update "wp_" "template" (.str "twentytwenty"), .update "wppc_a_" "template" (.str "none"),
    .ask 1 (.createNamespace "wppc_b_"), .ask 0 (.dropNamespace "wppc_b_"),
    .ask 1 (.dropNamespace "wp_")]

def prepared : Database := ⟨"wp_", false, true, [⟨"wp_options", []⟩], []⟩

def busy : World Database := after traffic ⟨prepared, [], ⟨[], []⟩⟩

theorem registry_inStep_traffic :
    busy.store.registered = ["wppc_a_"] ∧
      (busy.store.tables.map OptionTable.name).Perm
        (("wp_" :: busy.store.registered).map tableName) ∧
      busy.store.find? (tableName "wp_") =
        some ⟨tableName "wp_", traffic.foldl (Call.write "wp_") []⟩ ∧
      (answer (.ask 0 (.dropNamespace "wppc_a_")) busy).2 = busy := by
  have lower : IsLower "wp_" := by
    unfold IsLower
    decide +kernel
  have migrated : (Database.empty "wp_").migrate "wp_" = .ok prepared := rfl
  have small : ∀ call ∈ traffic, call.IsLower := by
    simp only [traffic, List.forall_mem_cons, Call.IsLower, IsLower, List.not_mem_nil,
      IsEmpty.forall_iff, implies_true]
    decide +kernel
  have left : busy.store.registered = ["wppc_a_"] := by decide +kernel
  have active : (answer (.ask 0 (.dropNamespace "wppc_a_")) busy).1.isSome := by decide +kernel
  obtain ⟨cause, told⟩ := Option.isSome_iff_exists.mp active
  obtain ⟨tables, -, rows, refused⟩ :=
    registry_inStep "wp_" prepared ⟨[], []⟩ traffic lower migrated small
  exact ⟨left, tables, rows, refused _ cause told⟩

end PluginAudit.Database
