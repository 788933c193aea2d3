import PluginAudit.Proofs.Interpretation
import PluginAudit.Run.Basic

/-!
How steps are set up and undone, one after another: the equations of `setUpFrom` and `undoAll`
where their calls are answered by a host.
-/

namespace PluginAudit.Preparation

open Run

variable {σ α : Type} (host : Host σ) (session : Nat)

theorem run_inSetup (p : Program stepCalls α) (s : Scene σ) :
    p.inSetup.run (answerSetup host session) s = p.run (answerStep host session) s :=
  Program.run_lift _ _ _ p s

theorem run_inStep (p : Program hostCalls α) (s : Scene σ) :
    (p.inStep.run (answerStep host session) s).1 = (p.run (host.ask session) s.1).1 ∧
      (p.inStep.run (answerStep host session) s).2.1 = (p.run (host.ask session) s.1).2 := by
  induction p generalizing s with
  | done a => exact ⟨rfl, rfl⟩
  | ask c next ih => exact ih _ _

/-- The scene in which a cleanup or a setup begins. -/
def announced (event : Event) (s : Scene σ) : Scene σ := (s.1, event :: s.2)

/-- The failures of cleanups of which the first has ended with `result`. -/
def failuresAfter (c : Cleanup) (result : Except String Unit) (others : List UndoFailure) :
    List UndoFailure :=
  match result with
  | .ok () => others
  | .error reason => ⟨c.name, reason⟩ :: others

@[simp] theorem undoAll_nil (s : Scene σ) :
    (undoAll []).run (answerSetup host session) s = ([], s) := rfl

theorem undoAll_cons (c : Cleanup) (rest : List Cleanup) (s : Scene σ) :
    (undoAll (c :: rest)).run (answerSetup host session) s =
      let first := c.undo.run (answerStep host session) (announced (.undo c.place c.name) s)
      let others := (undoAll rest).run (answerSetup host session) first.2
      (failuresAfter c first.1 others.1, others.2) := by
  simp only [undoAll, announce, Program.run_bind, Program.run_ask, Program.run_done, run_inSetup,
    answerSetup, announced]
  cases (c.undo.run (answerStep host session) (s.1, .undo c.place c.name :: s.2)).1 with
  | ok _ => rfl
  | error reason => rfl

theorem failuresAfter_append (c : Cleanup) (result : Except String Unit)
    (others more : List UndoFailure) :
    failuresAfter c result (others ++ more) = failuresAfter c result others ++ more := by
  cases result <;> rfl

theorem failuresAfter_eq_nil {c : Cleanup} {result : Except String Unit}
    {others : List UndoFailure} (none : failuresAfter c result others = []) : result = .ok () := by
  cases result with
  | ok _ => rfl
  | error reason => cases none

theorem undoAll_append (cs later : List Cleanup) (s : Scene σ) :
    (undoAll (cs ++ later)).run (answerSetup host session) s =
      let first := (undoAll cs).run (answerSetup host session) s
      let last := (undoAll later).run (answerSetup host session) first.2
      (first.1 ++ last.1, last.2) := by
  induction cs generalizing s with
  | nil => rfl
  | cons c rest ih =>
    rw [List.cons_append, undoAll_cons, undoAll_cons]
    simp only [ih, failuresAfter_append]

theorem setUpFrom_cons_ok {done : List Cleanup} {p : Preparation} {rest : List Preparation}
    {s s' : Scene σ} {c : Cleanup}
    (h : p.setup.run (answerStep host session) (announced (.setUp done.length p.name) s) =
      (.ok c, s')) :
    (setUpFrom done (p :: rest)).run (answerSetup host session) s =
      (setUpFrom ({ c with place := done.length } :: done) rest).run
        (answerSetup host session) s' := by
  simp only [announced] at h
  simp only [setUpFrom, announce, Program.run_bind, Program.run_ask, Program.run_done, run_inSetup,
    answerSetup, h]

theorem setUpFrom_cons_error {done : List Cleanup} {p : Preparation} {rest : List Preparation}
    {s s' : Scene σ} {cause : HostRefusal}
    (h : p.setup.run (answerStep host session) (announced (.setUp done.length p.name) s) =
      (.error cause, s')) :
    (setUpFrom done (p :: rest)).run (answerSetup host session) s =
      let undone := (undoAll done).run (answerSetup host session) s'
      (.error ⟨p.name, cause, undone.1⟩, undone.2) := by
  simp only [announced] at h
  simp only [setUpFrom, announce, Program.run_bind, Program.run_ask, Program.run_done, run_inSetup,
    answerSetup, h, Program.run_pure]

/-- How setting up preparations ends: with all cleanups, or where one has failed and the steps
before it have been undone. What every call keeps holds when the undoing begins. -/
inductive SetUpEnd (Inv : Scene σ → Prop) (done : List Cleanup) :
    Except SetupFailure (List Cleanup) → Scene σ → Prop
  | allDone (new : List Cleanup) (s : Scene σ) (kept : Inv s) :
      SetUpEnd Inv done (.ok (new ++ done)) s
  | failed (new : List Cleanup) (p : Preparation) (cause : HostRefusal) (s t : Scene σ)
      (failures : List UndoFailure) (kept : Inv s)
      (undone : (undoAll (new ++ done)).run (answerSetup host session) s = (failures, t)) :
      SetUpEnd Inv done (.error ⟨p.name, cause, failures⟩) t

theorem SetUpEnd.cons {Inv : Scene σ → Prop} {c : Cleanup} {done : List Cleanup}
    {result : Except SetupFailure (List Cleanup)} {t : Scene σ}
    (h : SetUpEnd host session Inv (c :: done) result t) :
    SetUpEnd host session Inv done result t := by
  cases h with
  | allDone new s kept =>
    rw [List.append_cons]
    exact .allDone _ t kept
  | failed new p cause s _ failures kept undone =>
    rw [List.append_cons] at undone
    exact .failed _ p cause s t failures kept undone

theorem setUpFrom_end {Inv : Scene σ → Prop}
    (keeps : ∀ c s, Inv s → Inv (answerSetup host session c s).2) (done : List Cleanup)
    (ps : List Preparation) (s : Scene σ) (start : Inv s) :
    SetUpEnd host session Inv done ((setUpFrom done ps).run (answerSetup host session) s).1
      ((setUpFrom done ps).run (answerSetup host session) s).2 := by
  induction ps generalizing done s with
  | nil => exact .allDone [] s start
  | cons p rest ih =>
    have kept : Inv (p.setup.run (answerStep host session)
        (announced (.setUp done.length p.name) s)).2 :=
      Program.run_relates (R := fun a b => Inv a → Inv b) (fun _ => id)
        (fun first second => second ∘ first) (fun c => keeps (.step c)) p.setup _
        (keeps (.tell _) s start)
    cases set : p.setup.run (answerStep host session)
      (announced (.setUp done.length p.name) s) with
    | mk result t =>
      rw [set] at kept
      cases result with
      | error cause =>
        rw [setUpFrom_cons_error host session set]
        exact .failed [] p cause t _ _ kept rfl
      | ok c =>
        rw [setUpFrom_cons_ok host session set]
        exact (ih ({ c with place := done.length } :: done) t kept).cons

end PluginAudit.Preparation
