import PluginAudit.Proofs.MemorySteps
import PluginAudit.Proofs.Reversal
import PluginAudit.Proofs.Trace

/-!
What setting up preparations comes to. Either all have been set up, or one has failed and the
cleanups of those before it have been run, once each and in reverse order.
-/

namespace PluginAudit

def Event.isStep : Event → Bool
  | .setUp _ _ | .undo _ _ => true
  | _ => false

theorem Event.isStep_setUp (place : Nat) (name : String) :
    (Event.setUp place name).isStep = true := rfl

theorem Event.isStep_undo (place : Nat) (name : String) :
    (Event.undo place name).isStep = true := rfl

theorem Adds.filter_isStep {a b : List Event} (h : Adds Event.Unmarked a b) :
    b.filter Event.isStep = a.filter Event.isStep := by
  obtain ⟨new, rfl, all⟩ := h
  have unseen : new.filter Event.isStep = [] := by
    refine List.filter_eq_nil_iff.mpr fun e member => ?_
    have unmarked := all e member
    cases e <;> simp_all [Event.Unmarked, Event.isStep, Event.setUp?, Event.undo?]
  rw [List.filter_append, unseen, List.nil_append]

namespace Preparation

open Run

variable {σ : Type} (host : Host σ) (session : Nat)

/-- Preparations have been set up one after another, the first of them at `place`. -/
inductive SetsUp :
    (place : Nat) → List Preparation → Scene σ → List Cleanup → Scene σ → Prop
  | nil (place : Nat) (s : Scene σ) : SetsUp place [] s [] s
  | cons {place : Nat} {p : Preparation} {rest : List Preparation} {c : Cleanup}
      {cs : List Cleanup} {s t u : Scene σ}
      (set : p.setup.run (answerStep host session) (announced (.setUp place p.name) s) =
        (.ok c, t))
      (others : SetsUp (place + 1) rest t cs u) :
      SetsUp place (p :: rest) s ({ c with place } :: cs) u

/-- Cleanups have been run one after another, each with its result. -/
inductive Undoes : List (Cleanup × Except String Unit) → Scene σ → Scene σ → Prop
  | nil (s : Scene σ) : Undoes [] s s
  | cons {c : Cleanup} {result : Except String Unit} {rest : List (Cleanup × Except String Unit)}
      {s t u : Scene σ}
      (ran : c.undo.run (answerStep host session) (announced (.undo c.place c.name) s) =
        (result, t))
      (others : Undoes rest t u) :
      Undoes ((c, result) :: rest) s u

def failure? : Cleanup × Except String Unit → Option UndoFailure
  | (_, .ok ()) => none
  | (c, .error reason) => some ⟨c.name, reason⟩

theorem failure?_eq_none {r : Cleanup × Except String Unit} : failure? r = none ↔ r.2 = .ok () := by
  obtain ⟨c, result⟩ := r
  cases result <;> simp [failure?]

theorem failuresAfter_eq (c : Cleanup) (result : Except String Unit)
    (rest : List (Cleanup × Except String Unit)) :
    failuresAfter c result (rest.filterMap failure?) =
      ((c, result) :: rest).filterMap failure? := by
  cases result <;> rfl

variable {host session}

theorem SetsUp.places {place : Nat} {ps : List Preparation} {cs : List Cleanup} {s t : Scene σ}
    (h : SetsUp host session place ps s cs t) :
    cs.map Cleanup.place = List.range' place ps.length := by
  induction h with
  | nil place s => rfl
  | cons set others ih => simp [ih, List.range'_succ]

theorem SetsUp.events {place : Nat} {ps : List Preparation} {cs : List Cleanup} {s t : Scene σ}
    (h : SetsUp host session place ps s cs t) :
    t.2.filter Event.isStep =
      ((marksFrom place ps).map fun m => .setUp m.1 m.2).reverse ++ s.2.filter Event.isStep := by
  induction h with
  | nil place s => rfl
  | cons set others ih =>
    rename_i place p rest c cs s t u
    have body := step_adds host session p.setup (announced (.setUp place p.name) s)
    rw [set] at body
    rw [ih, body.filter_isStep, announced, List.filter_cons_of_pos (Event.isStep_setUp place p.name)]
    simp [marksFrom]

theorem Undoes.events {results : List (Cleanup × Except String Unit)} {s t : Scene σ}
    (h : Undoes host session results s t) :
    t.2.filter Event.isStep =
      (results.map fun r => .undo r.1.place r.1.name).reverse ++ s.2.filter Event.isStep := by
  induction h with
  | nil s => rfl
  | cons ran others ih =>
    rename_i c result rest s t u
    have body := step_adds host session c.undo (announced (.undo c.place c.name) s)
    rw [ran] at body
    rw [ih, body.filter_isStep, announced, List.filter_cons_of_pos (Event.isStep_undo _ _)]
    simp

variable (host session)

theorem undoAll_undoes (cs : List Cleanup) (s : Scene σ) :
    ∃ results, results.map Prod.fst = cs ∧
      Undoes host session results s ((undoAll cs).run (answerSetup host session) s).2 ∧
      ((undoAll cs).run (answerSetup host session) s).1 = results.filterMap failure? := by
  induction cs generalizing s with
  | nil => exact ⟨[], rfl, .nil s, rfl⟩
  | cons c rest ih =>
    rw [undoAll_cons]
    cases ran : c.undo.run (answerStep host session) (announced (.undo c.place c.name) s) with
    | mk result t =>
      obtain ⟨results, order, undone, told⟩ := ih t
      refine ⟨(c, result) :: results, by simp [order], .cons ran undone, ?_⟩
      simp only [told, failuresAfter_eq]

/-- The cleanups have been run once each in the order of the list, a failure stopping none of
them, and the failures are told in this order. -/
def UndoneInOrder (cs : List Cleanup) (s t : Scene σ) (told : List UndoFailure) : Prop :=
  ∃ results, results.map Prod.fst = cs ∧ Undoes host session results s t ∧
    told = results.filterMap failure? ∧ (told = [] ↔ ∀ r ∈ results, r.2 = .ok ()) ∧
    t.2.filter Event.isStep =
      (cs.map fun c => .undo c.place c.name).reverse ++ s.2.filter Event.isStep

theorem undoAll_inOrder (cs : List Cleanup) (s : Scene σ) :
    UndoneInOrder host session cs s ((undoAll cs).run (answerSetup host session) s).2
      ((undoAll cs).run (answerSetup host session) s).1 := by
  obtain ⟨results, order, undone, told⟩ := undoAll_undoes host session cs s
  refine ⟨results, order, undone, told, ?_, ?_⟩
  · rw [told, List.filterMap_eq_nil_iff]
    exact forall₂_congr fun r _ => failure?_eq_none
  · rw [undone.events, ← order, List.map_map]
    rfl

inductive Ending (ps : List Preparation) (s : Scene σ) :
    Except SetupFailure (List Cleanup) → Scene σ → Prop
  | prepared (cs : List Cleanup) (t : Scene σ) (set : SetsUp host session 0 ps s cs t)
      (places : cs.map Cleanup.place = List.range ps.length)
      (events : t.2.filter Event.isStep =
        ((marksFrom 0 ps).map fun m => .setUp m.1 m.2).reverse ++ s.2.filter Event.isStep) :
      Ending ps s (.ok cs.reverse) t
  | rolledBack (before : List Preparation) (p : Preparation) (after : List Preparation)
      (cs : List Cleanup) (cause : HostRefusal) (failures : List UndoFailure) (t u v : Scene σ)
      (split : ps = before ++ p :: after) (set : SetsUp host session 0 before s cs t)
      (places : cs.map Cleanup.place = List.range before.length)
      (failed : p.setup.run (answerStep host session)
        (announced (.setUp before.length p.name) t) = (.error cause, u))
      (events : u.2.filter Event.isStep =
        ((marksFrom 0 (before ++ [p])).map fun m => .setUp m.1 m.2).reverse ++
          s.2.filter Event.isStep)
      (undone : UndoneInOrder host session cs.reverse u v failures) :
      Ending ps s (.error ⟨p.name, cause, failures⟩) v

/-- The first failure ends the setting up, and then all steps done before are undone. -/
theorem setUpFrom_cases (done : List Cleanup) (ps : List Preparation) (s : Scene σ) :
    (∃ cs t, SetsUp host session done.length ps s cs t ∧
      (setUpFrom done ps).run (answerSetup host session) s = (.ok (cs.reverse ++ done), t)) ∨
    ∃ before p after cs cause t u, ps = before ++ p :: after ∧
      SetsUp host session done.length before s cs t ∧
      p.setup.run (answerStep host session)
        (announced (.setUp (done.length + before.length) p.name) t) = (.error cause, u) ∧
      (setUpFrom done ps).run (answerSetup host session) s =
        (.error ⟨p.name, cause,
          ((undoAll (cs.reverse ++ done)).run (answerSetup host session) u).1⟩,
        ((undoAll (cs.reverse ++ done)).run (answerSetup host session) u).2) := by
  induction ps generalizing done s with
  | nil => exact .inl ⟨[], s, .nil _ s, rfl⟩
  | cons p rest ih =>
    cases ran : p.setup.run (answerStep host session)
      (announced (.setUp done.length p.name) s) with
    | mk result t =>
      cases result with
      | error cause =>
        refine .inr ⟨[], p, rest, [], cause, s, t, rfl, .nil _ s, ran, ?_⟩
        rw [setUpFrom_cons_error host session ran]
        rfl
      | ok c =>
        rw [setUpFrom_cons_ok host session ran]
        rcases ih ({ c with place := done.length } :: done) t with ⟨cs, u, set, ended⟩ |
          ⟨before, q, after, cs, cause, u, v, rfl, set, failed, ended⟩
        · refine .inl ⟨{ c with place := done.length } :: cs, u, .cons ran set, ?_⟩
          rw [ended, List.reverse_cons, List.append_assoc]
          rfl
        · refine .inr ⟨p :: before, q, after, { c with place := done.length } :: cs, cause, u, v,
            rfl, .cons ran set, ?_, ?_⟩
          · rw [← failed, List.length_cons, List.length_cons, Nat.add_right_comm]
            rfl
          · rw [ended, List.reverse_cons, List.append_assoc]
            rfl

theorem setUpAll_ending (ps : List Preparation) (s : Scene σ) :
    Ending host session ps s ((setUpAll ps).run (answerSetup host session) s).1
      ((setUpAll ps).run (answerSetup host session) s).2 := by
  rcases setUpFrom_cases host session [] ps s with ⟨cs, t, set, ended⟩ |
    ⟨before, p, after, cs, cause, t, u, split, set, failed, ended⟩
  · rw [setUpAll, ended, List.append_nil]
    exact .prepared cs t set (by rw [set.places, List.range_eq_range']; rfl) set.events
  · rw [List.length_nil, Nat.zero_add] at failed
    rw [List.append_nil] at ended
    rw [setUpAll, ended]
    refine .rolledBack before p after cs cause _ t u _ split set
      (by rw [set.places, List.range_eq_range']; rfl) failed ?_
      (undoAll_inOrder host session cs.reverse u)
    have body := step_adds host session p.setup (announced (.setUp before.length p.name) t)
    rw [failed] at body
    rw [body.filter_isStep, announced, List.filter_cons_of_pos (Event.isStep_setUp _ _),
      set.events]
    simp [marksFrom, List.zipIdx_append]

/-- If a setup fails, the setups up to it and no later one have been executed and the cleanups of
those before it have been run in reverse order, and the error tells of them. If none fails, all
cleanups can be run in reverse order. If every step can be taken back, both ways lead back. -/
theorem setUpAll_undone (ps : List Preparation) (s : Scene σ) :
    let ended := (setUpAll ps).run (answerSetup host session) s
    Ending host session ps s ended.1 ended.2 ∧
      (∀ cs, ended.1 = .ok cs → ∀ t,
        let undone := (undoAll cs).run (answerSetup host session) t
        UndoneInOrder host session cs t undone.2 undone.1) ∧
      ∀ {ε : Type} (view : σ → ε) (kept : σ → Prop), kept s.1 →
        (∀ p ∈ ps, Reversible host session view kept kept p) →
          Restorable host session view kept (view s.1) ended.1 ended.2.1 := by
  intro ended
  refine ⟨setUpAll_ending host session ps s,
    fun cs _ t => undoAll_inOrder host session cs t, ?_⟩
  intro ε view kept ready reversible
  exact setUpFrom_restorable reversible [] s ready (reverses_nil (view s.1))

def brokenSteps : List Preparation := [
  .overriding "debug" [("template", .str "plain"), ("debug", .bool true)],
  .overriding "theme" [("template", .str "other")],
  ⟨"broken", .done (.error (.load "refused"))⟩]

theorem brokenSteps_reversible : ∀ p ∈ brokenSteps,
    Reversible MemoryStore.storage.host 0 (World.visible MemoryStore.look) (World.Opened 0)
      (World.Opened 0) p := by
  intro p member
  simp only [brokenSteps, List.mem_cons, List.not_mem_nil, or_false] at member
  rcases member with rfl | rfl | rfl
  · exact World.overriding_reversible MemoryStore.storage 0 _ _
  · exact World.overriding_reversible MemoryStore.storage 0 _ _
  · exact fun s _ => rfl

def openedHost : World MemoryStore := ⟨.initial false false, [⟨"wp_", .empty⟩], ⟨[], []⟩⟩

theorem setUpAll_undone_brokenSteps :
    let ended := (setUpAll brokenSteps).run (answerSetup MemoryStore.storage.host 0)
      (openedHost, [])
    ∃ failure, ended.1 = .error failure ∧ failure.preparation = "broken" ∧
      ended.2.1.visible MemoryStore.look = openedHost.visible MemoryStore.look := by
  have opened : World.Opened 0 openedHost := ⟨Nat.zero_lt_one, Overrides.empty_numbered⟩
  have restored := (setUpAll_undone MemoryStore.storage.host 0 brokenSteps (openedHost, [])).2.2
    (World.visible MemoryStore.look) (World.Opened 0) opened brokenSteps_reversible
  have told : ((((setUpAll brokenSteps).run (answerSetup MemoryStore.storage.host 0)
      (openedHost, [])).1.map fun _ => "").tryCatch fun e => .ok e.preparation).toOption =
        some "broken" := by decide +kernel
  generalize (setUpAll brokenSteps).run (answerSetup MemoryStore.storage.host 0)
    (openedHost, []) = ended at restored told ⊢
  obtain ⟨result, scene⟩ := ended
  cases result with
  | ok cs =>
    have same : "" = "broken" := Option.some.inj told
    exact absurd same (by decide)
  | error failure => exact ⟨failure, rfl, Option.some.inj told, restored⟩

end Preparation

end PluginAudit
