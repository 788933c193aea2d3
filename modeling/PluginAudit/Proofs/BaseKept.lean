import PluginAudit.Proofs.HostContract
import PluginAudit.Proofs.NamespaceNames
import PluginAudit.Proofs.SnapshotReadings

/-!
Namespaces that stay whole. Where a namespace can be entered and read, no other that is created
beside it is in its way, nor is the dropping of that one; so a session that is sent back to it by
the undoing of the isolation can read the watched options there.
-/

namespace PluginAudit

/-- The namespace can be entered, and every option can be read there. -/
def Storage.Holds {σ : Type} (storage : Storage σ) (name : String) (s : σ) : Prop :=
  storage.enter name s = .ok () ∧ ∀ key, ∃ value, storage.read name key s = .ok value

/-- What could be created beside a namespace leaves it whole, when it comes and when it goes. -/
structure Storage.Guarded {σ : Type} (storage : Storage σ) : Prop where
  created {base name : String} {s t : σ} (holds : storage.Holds base s)
    (made : storage.create name s = .ok t) : storage.Holds base t
  dropped {base name current : String} {s t u v : σ} (holds : storage.Holds base s)
    (made : storage.create name s = .ok t) (whole : storage.Holds base u)
    (left : storage.drop current name u = .ok v) : storage.Holds base v

namespace MemoryStore

variable {m : MemoryStore} {name : String}

theorem holds_iff : storage.Holds name m ↔ m.has name = true := by
  constructor
  · rintro ⟨-, readable⟩
    obtain ⟨value, found⟩ := readable ""
    exact (has_iff m name).mpr (has_of_read found)
  · intro there
    refine ⟨enter_ok ((has_iff m name).mp there), fun key => ?_⟩
    obtain ⟨options, found⟩ := Option.isSome_iff_exists.mp there
    refine ⟨options.lookup key, ?_⟩
    simp only [storage, read, found]

theorem guarded : storage.Guarded := by
  constructor
  · intro base name m made holds creation
    obtain ⟨-, entries, -⟩ := create_ok creation
    rw [holds_iff, has_iff] at holds ⊢
    rw [entries]
    exact Entries.mem_keys_put.mpr (.inr holds)
  · intro base name current m made u v holds creation whole left
    obtain ⟨new, -, -⟩ := create_ok creation
    have apart : base ≠ name := fun same => new (same ▸ (has_iff m base).mp (holds_iff.mp holds))
    rw [holds_iff, has] at whole ⊢
    simp only [storage, drop] at left
    split at left
    · cases left
    · cases left
      rwa [Entries.lookup_erase, if_neg apart]

end MemoryStore

namespace Database

variable {d : Database} {name : String}

theorem holds_iff : storage.Holds name d ↔
    Namespace.check name = .ok () ∧ d.has name = true ∧ checkToken (tableName name) = .ok () := by
  constructor
  · rintro ⟨entered, readable⟩
    obtain ⟨valid, there⟩ := enter_eq_ok.mp entered
    obtain ⟨value, found⟩ := readable ""
    simp only [storage, Database.read] at found
    split at found
    · exact ⟨valid, there, (select_eq_ok.mp ‹_›).1⟩
    · cases found
  · rintro ⟨valid, there, token⟩
    refine ⟨enter_eq_ok.mpr ⟨valid, there⟩, fun key => ?_⟩
    cases found : d.find? (tableName name) with
    | none => cases (has_of_missing found).symm.trans there
    | some t => exact ⟨_, read_found token found⟩

theorem guarded : storage.Guarded := by
  constructor
  · intro base name d made holds creation
    obtain ⟨-, -, -, -, -, -, rfl⟩ := create_ok creation
    obtain ⟨valid, there, token⟩ := holds_iff.mp holds
    refine holds_iff.mpr ⟨valid, ?_, token⟩
    rw [has, List.any_append, Bool.or_eq_true]
    exact .inl there
  · intro base name current d made u v holds creation whole left
    obtain ⟨-, -, -, missing, -⟩ := create_ok creation
    obtain ⟨-, there, -⟩ := holds_iff.mp holds
    -- No spelling of the base namespace is one of the name, as that could not have been created.
    have apart : ¬name.sameIgnoringCase base := by
      intro same
      rw [find?_respelled d same] at missing
      cases (has_of_missing missing).symm.trans there
    obtain ⟨valid, stays, token⟩ := holds_iff.mp whole
    refine holds_iff.mpr ⟨valid, ?_, token⟩
    obtain ⟨-, -, -, -, -, rfl⟩ := drop_eq_ok.mp left
    obtain ⟨t, member, named⟩ := List.any_eq_true.mp stays
    refine List.any_eq_true.mpr ⟨t, List.mem_filter.mpr ⟨member, ?_⟩, named⟩
    rw [beq_iff_eq.mp named, Text.sameIgnoringCase_comm, same_tableName]
    simpa using apart

end Database

namespace Preparation

variable {σ : Type} {host : Host σ} {session : Nat} {Q : σ → Prop}

/-- The cleanup keeps a property of the world. -/
def CleanupKeeps (host : Host σ) (session : Nat) (Q : σ → Prop) (c : Cleanup) : Prop :=
  ∀ s : Run.Scene σ, Q s.1 → Q (c.undo.run (Run.answerStep host session) s).2.1

/-- The step and its cleanup keep a property of the world, in every session. -/
def Keeps (host : Host σ) (Q : σ → Prop) (p : Preparation) : Prop :=
  ∀ session (s : Run.Scene σ), Q s.1 →
    Q (p.setup.run (Run.answerStep host session) s).2.1 ∧
      ∀ c, (p.setup.run (Run.answerStep host session) s).1 = .ok c →
        CleanupKeeps host session Q c

theorem undoAll_keeps {cs : List Cleanup} (keep : ∀ c ∈ cs, CleanupKeeps host session Q c)
    (s : Run.Scene σ) (ready : Q s.1) :
    Q ((undoAll cs).run (Run.answerSetup host session) s).2.1 := by
  induction cs generalizing s with
  | nil => exact ready
  | cons c rest ih =>
    rw [undoAll_cons]
    refine ih (fun c member => keep c (List.mem_cons_of_mem _ member)) _ ?_
    exact keep c List.mem_cons_self _ ready

theorem setUpFrom_keeps {ps : List Preparation} (keep : ∀ p ∈ ps, p.Keeps host Q)
    {done cleanups : List Cleanup} {s scene : Run.Scene σ} (ready : Q s.1)
    (set : (setUpFrom done ps).run (Run.answerSetup host session) s = (.ok cleanups, scene)) :
    Q scene.1 ∧ ∃ new, cleanups = new ++ done ∧ ∀ c ∈ new, CleanupKeeps host session Q c := by
  induction ps generalizing done s with
  | nil =>
    cases set
    exact ⟨ready, [], rfl, nofun⟩
  | cons p rest ih =>
    obtain ⟨first, later⟩ := List.forall_mem_cons.mp keep
    obtain ⟨kept, undone⟩ := first session (announced (.setUp done.length p.name) s) ready
    cases step : p.setup.run (Run.answerStep host session)
        (announced (.setUp done.length p.name) s) with
    | mk result t =>
      rw [step] at kept undone
      cases result with
      | error cause =>
        rw [setUpFrom_cons_error host session step] at set
        cases set
      | ok c =>
        rw [setUpFrom_cons_ok host session step] at set
        obtain ⟨ended, new, rfl, others⟩ := ih later kept set
        refine ⟨ended, new ++ [{ c with place := done.length }], by simp, fun d member => ?_⟩
        rcases List.mem_append.mp member with old | last
        · exact others d old
        · rw [List.mem_singleton.mp last]
          exact undone c rfl

end Preparation

namespace World

variable {σ : Type} (storage : Storage σ) (refused : List String) {base : String} {i : Nat}

/-- The store of the world has the namespace as a whole. -/
abbrev Keeping (base : String) (w : World σ) : Prop := storage.Holds base w.store

theorem overriding_keeps (name : String) (values : List (String × Json)) :
    (Preparation.overriding name values).Keeps (storage.host.refusing refused)
      (Keeping storage base) := by
  intro session s ready
  have program : (Preparation.overriding name values).setup = Program.inStep _ := rfl
  rw [program, (Preparation.run_inStep (storage.host.refusing refused) session _ s).1,
    (Preparation.run_inStep (storage.host.refusing refused) session _ s).2]
  refine ⟨?_, fun c set t kept => ?_⟩
  · rw [Keeping, storage.run_store refused session]
    · exact ready
    · exact (Preparation.addAll_stays values).bind fun ids => True.intro
  · simp only [Program.run_bind, Program.run_pure] at set
    cases set
    rw [(Preparation.run_inStep (storage.host.refusing refused) session _ t).2, Keeping,
      storage.run_store refused session]
    · exact kept
    · refine (Preparation.removeAll_stays _).bind fun missing => ?_
      split <;> exact True.intro

/-- In a namespace that is there as a whole every option can be read. -/
theorem watched_of_keeping {w : World σ} (placed : (w.session i).current = base)
    (keeping : Keeping storage base w) :
    ∃ value, Isolation.WatchedAs ((storage.host.refusing refused).ask i) w value := by
  have readable : ∀ key, ∃ value, (ask storage i (.option key) w).1 = .ok value := by
    intro key
    rw [ask_option, placed]
    cases (w.session i).overrides.get? key with
    | none => exact keeping.2 key
    | some value => exact ⟨some value, rfl⟩
  choose value told using readable
  exact ⟨value, fun key _ => told key⟩

variable {storage}

theorem leave_keeps (guarded : storage.Guarded) {name : String} {s t : σ}
    (holds : storage.Holds base s) (made : storage.create name s = .ok t)
    (admitted : base ∉ refused) {w : World σ} (bound : i < w.sessions.length)
    (keeping : Keeping storage base w) :
    let left := ((Isolation.leave base name).run ((storage.host.refusing refused).ask i) w).2
    (left.session i).current = base ∧ Keeping storage base left := by
  have switched : (storage.host.refusing refused).ask i (.switchTo base) w =
      (.ok (), w.setSession i { w.session i with current := base }) := by
    have listed : refused.contains base = false := by simpa using admitted
    refine (if_neg (by rw [listed]; exact Bool.false_ne_true)).trans ?_
    exact ask_switchTo storage i keeping.1
  have placed : ((w.setSession i { w.session i with current := base }).session i).current =
      base := by
    rw [session_setSession i bound]
  have whole : Keeping storage base (w.setSession i { w.session i with current := base }) := keeping
  simp only [Isolation.leave, Program.run_ask, switched]
  generalize w.setSession i { w.session i with current := base } = v at placed whole
  simp only [Host.refusing, Storage.host, ask]
  cases dropped : storage.drop (v.session i).current name v.store with
  | error e => exact ⟨placed, whole⟩
  | ok store => exact ⟨placed, guarded.dropped holds made whole dropped⟩

/-- The undoing of the isolation takes the session back to a namespace that is there as a whole. -/
theorem undo_keeps (guarded : storage.Guarded) {name : String} {s t : σ}
    (holds : storage.Holds base s) (made : storage.create name s = .ok t)
    (admitted : base ∉ refused) (ids : List Nat) (snapshot : Snapshot) {w : World σ}
    (bound : i < w.sessions.length) (keeping : Keeping storage base w) :
    let undone := ((Isolation.undo ids base name snapshot).run
      ((storage.host.refusing refused).ask i) w).2
    (undone.session i).current = base ∧ Keeping storage base undone := by
  have removing := Preparation.removeAll_stays ids
  obtain ⟨opened, -⟩ := (storage.lawful refused).run_stays removing bound
  have store := storage.run_store refused i removing w
  rw [Isolation.run_undo]
  simp only [storage.run_still refused i (Isolation.verify_reads snapshot)]
  refine leave_keeps refused guarded holds made admitted opened ?_
  rw [Keeping, store]
  exact keeping

end World

end PluginAudit
