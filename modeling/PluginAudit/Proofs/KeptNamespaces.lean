import PluginAudit.Proofs.IsolationCalls
import PluginAudit.Proofs.Registry

/-!
Preparations on a database. A namespace is created only where there is none of any spelling of its
name, so neither the isolation nor its undoing touches a namespace that was there before.
-/

namespace PluginAudit

namespace Database

open Preparation

variable {d e : Database} {current name q : String} {i : Nat} {w : World Database}
  {refused : List String}

/-- What there is of a namespace: the table that its name finds, and whether it is listed. -/
def holding (q : String) (d : Database) : Option OptionTable × Bool :=
  (d.find? (tableName q), d.registered.contains q)

/-- The name finds a table, if need be under another spelling. -/
def Present (q : String) (w : World Database) : Prop := (w.store.find? (tableName q)).isSome

theorem Present.of_holding {v : World Database} (there : Present q w)
    (same : v.store.holding q = w.store.holding q) : Present q v := by
  have found : v.store.find? (tableName q) = w.store.find? (tableName q) := congrArg Prod.fst same
  rw [Present, found]
  exact there

/-- The call creates or drops a namespace of this name, in whatever spelling. -/
def Concerns (q : String) : HostCall → Prop
  | .createNamespace name | .dropNamespace name => name.sameIgnoringCase q
  | _ => False

theorem Concerns.moves (c : HostCall) (concerns : Concerns q c) : ¬c.Stays := by
  cases c with
  | createNamespace name => exact id
  | dropNamespace name => exact id
  | switchTo name => cases concerns
  | currentNamespace => cases concerns
  | option key => cases concerns
  | addOverride key value => cases concerns
  | removeOverride id => cases concerns
  | overrides => cases concerns

theorem ne_of_apart (apart : ¬name.sameIgnoringCase q) : name ≠ q := by
  rintro rfl
  exact apart (Text.sameIgnoringCase_iff.mpr rfl)

theorem create_holding (made : d.create name = .ok e) (apart : ¬name.sameIgnoringCase q) :
    e.holding q = d.holding q := by
  obtain ⟨-, -, -, missing, -, -, rfl⟩ := create_ok made
  refine Prod.ext ?_ ?_
  · have kept := find?_added missing (insertSorted name d.registered) q
    rwa [if_neg apart] at kept
  · have different : q ≠ name := (ne_of_apart apart).symm
    have listed := (insertSorted_perm name d.registered).mem_iff (a := q)
    simp [holding, List.contains_eq_mem, listed, different]

theorem drop_holding (left : d.drop current name = .ok e) (apart : ¬name.sameIgnoringCase q) :
    e.holding q = d.holding q := by
  refine Prod.ext ?_ ?_
  · have kept := drop_find? left q
    rwa [if_neg apart] at kept
  · obtain ⟨-, -, -, -, -, rfl⟩ := drop_eq_ok.mp left
    have different : q ≠ name := (ne_of_apart apart).symm
    simp [holding, List.contains_eq_mem, different]

theorem Change.holding {c : HostCall} (change : Change d (.ask i c) e) (apart : ¬Concerns q c) :
    e.holding q = d.holding q := by
  cases change with
  | created made => exact create_holding made apart
  | dropped left => exact drop_holding left apart
  | none _ => rfl

variable (refused i) in
theorem ask_holding {c : HostCall} (apart : ¬Concerns q c) (w : World Database) :
    ((storage.host.refusing refused).ask i c w).2.store.holding q = w.store.holding q := by
  rcases Host.Contract.ask_refusing storage.host refused i c w with same | ⟨n, cause, rfl, no⟩
  · rw [same]
    exact (answer_change (.ask i c) w).holding apart
  · rw [no]

theorem run_holding {α : Type} {p : Program hostCalls α} (avoids : p.Avoids (Concerns q))
    (w : World Database) :
    (p.run ((storage.host.refusing refused).ask i) w).2.store.holding q = w.store.holding q :=
  Program.run_relates_of_avoids
    (R := fun a b : World Database => b.store.holding q = a.store.holding q) (fun _ => rfl)
    (fun first second => second.trans first) (fun _ v apart => ask_holding i refused apart v) p
    avoids w

theorem dropped_gone {v : World Database}
    (dropped : (storage.host.refusing refused).ask i (.dropNamespace name) w = (.ok (), v)) :
    v.store.find? (tableName name) = none ∧ name ∉ v.store.registered := by
  change World.ask storage i (.dropNamespace name) w = _ at dropped
  simp only [World.ask] at dropped
  split at dropped
  · rename_i left leaving
    cases dropped
    refine ⟨?_, ?_⟩
    · rw [drop_find? leaving, if_pos (Text.sameIgnoringCase_iff.mpr rfl)]
    · obtain ⟨-, -, -, -, -, rfl⟩ := drop_eq_ok.mp leaving
      simp
  · cases dropped

/-- The preparation takes back what it does to a namespace that is there. -/
def Spares (host : Host (World Database)) (q : String) (p : Preparation) : Prop :=
  ∀ session, Reversible host session (fun w => w.store.holding q) (Present q) (Present q) p

theorem spares_of_avoids {p : Preparation}
    (setup : ∀ session (s : Run.Scene (World Database)),
      (p.setup.run (Run.answerStep (storage.host.refusing refused) session) s).2.1.store.holding q =
        s.1.store.holding q)
    (undo : ∀ session (s : Run.Scene (World Database)) c,
      (p.setup.run (Run.answerStep (storage.host.refusing refused) session) s).1 = .ok c →
      ∀ t : Run.Scene (World Database),
        (c.undo.run (Run.answerStep (storage.host.refusing refused) session)
          t).2.1.store.holding q = t.1.store.holding q) :
    Spares (storage.host.refusing refused) q p := by
  intro session s there
  have unchanged := setup session s
  have undone := undo session s
  generalize p.setup.run (Run.answerStep (storage.host.refusing refused) session) s = ended
    at unchanged undone ⊢
  obtain ⟨result, t⟩ := ended
  cases result with
  | error cause => exact unchanged
  | ok c =>
    refine ⟨there.of_holding unchanged, fun u same => ?_⟩
    exact (undone c rfl u).trans (same.trans unchanged)

theorem isolation_apart (apart : ¬name.sameIgnoringCase q) (basename theme : String) :
    Spares (storage.host.refusing refused) q (Isolation.preparation basename name theme) := by
  refine spares_of_avoids (fun session s => ?_) fun session s c set t => ?_
  · have setup := Preparation.run_inStep (storage.host.refusing refused) session
      (Isolation.setup basename name theme) s
    refine (congrArg (fun w : World Database => w.store.holding q) setup.2).trans ?_
    exact run_holding (Isolation.setup_avoids Concerns.moves apart id apart basename theme) s.1
  · have way := Isolation.preparation_cases (storage.host.refusing refused) session basename name
      theme s
    rw [set] at way
    obtain ⟨ids, former, snapshot, rfl, -⟩ := way.cleanup_eq
    have undo := Preparation.run_inStep (storage.host.refusing refused) session
      (Isolation.undo ids former name snapshot) t
    refine (congrArg (fun w : World Database => w.store.holding q) undo.2).trans ?_
    exact run_holding (Isolation.undo_avoids Concerns.moves id apart ids snapshot) t.1

/-- Where a table of some spelling is there, the isolation changes nothing in the database. -/
theorem isolation_refused (same : name.sameIgnoringCase q) {basename theme : String}
    {start after : World Database} (there : Present q start)
    {result : Except HostRefusal Cleanup}
    (way : Isolation.SetUp ((storage.host.refusing refused).ask i) basename name theme start result
      after) :
    (∃ cause, result = .error cause) ∧ after.store = start.store := by
  have capturing {snapshot : Except HostRefusal Snapshot} {s : World Database}
      (captured : (Snapshot.capture Isolation.watchedKeys).run
        ((storage.host.refusing refused).ask i) start = (snapshot, s)) : s.store = start.store := by
    have kept := storage.run_store refused i
      ((Snapshot.captureFrom_reads [] Isolation.watchedKeys).mono fun _ moves reads =>
        moves reads.stays) start
    exact (congrArg (fun r => World.store r.2) captured).symm.trans kept
  -- A creation that succeeds tells that no spelling of the name was there.
  have uncreated {t u : World Database} (store : t.store = start.store)
      (created : (storage.host.refusing refused).ask i (.createNamespace name) t = (.ok (), u)) :
      False := by
    obtain ⟨made, creation, -⟩ := World.ask_createNamespace_ok storage i created
    obtain ⟨-, -, -, missing, -⟩ := create_ok creation
    rw [store, find?_respelled _ same] at missing
    rw [Present, missing] at there
    cases there
  cases way with
  | unread e _ captured => exact ⟨⟨e, rfl⟩, capturing captured⟩
  | unplaced snapshot e s _ captured current => cases current
  | uncreated snapshot former e s t _ captured current created =>
    cases current
    refine ⟨⟨e, rfl⟩, ?_⟩
    change World.ask storage i (.createNamespace name) s = _ at created
    simp only [World.ask] at created
    split at created
    · cases created
    · cases created
      exact capturing captured
  | unswitched snapshot former e s t u v captured current created switched =>
    cases current
    exact (uncreated (capturing captured) created).elim
  | entered snapshot former s t u v captured current created switched =>
    cases current
    exact (uncreated (capturing captured) created).elim

theorem isolation_spares (q basename name theme : String) :
    Spares (storage.host.refusing refused) q (Isolation.preparation basename name theme) := by
  by_cases same : name.sameIgnoringCase q
  · intro session s there
    have way := Isolation.preparation_cases (storage.host.refusing refused) session basename name
      theme s
    obtain ⟨⟨cause, failed⟩, store⟩ := isolation_refused same there way
    rw [failed]
    exact congrArg (holding q) store
  · exact isolation_apart same basename theme

theorem overriding_spares (q name : String) (values : List (String × Json)) :
    Spares (storage.host.refusing refused) q (.overriding name values) := by
  refine spares_of_avoids (fun session s => ?_) fun session s c set t => ?_
  · have program : (Preparation.overriding name values).setup = Program.inStep _ := rfl
    rw [program, (run_inStep (storage.host.refusing refused) session _ s).2]
    refine run_holding ?_ s.1
    refine Program.Avoids.bind ?_ fun ids => ?_
    · exact Isolation.avoids_of_stays Concerns.moves (addAll_stays values)
    · exact True.intro
  · have program : (Preparation.overriding name values).setup = Program.inStep _ := rfl
    rw [program, (run_inStep (storage.host.refusing refused) session _ s).1] at set
    simp only [Program.run_bind, Program.run_pure] at set
    cases set
    rw [(run_inStep (storage.host.refusing refused) session _ t).2]
    refine run_holding ?_ t.1
    refine Program.Avoids.bind ?_ fun missing => ?_
    · exact Isolation.avoids_of_stays Concerns.moves (removeAll_stays _)
    · split <;> exact True.intro

end Database

end PluginAudit
