import PluginAudit.Proofs.Steps

/-!
Steps that can be taken back. What counts as the state before is a view of the world: a step is
reversible if its cleanup leads back to the view before it from every world with the view after it,
and if it has no effect where it fails. Then so are all the steps together.
-/

namespace PluginAudit.Preparation

open Run

variable {σ ε : Type} (host : Host σ) (session : Nat) (view : σ → ε)

/-- The cleanups lead from every world with the view `after` to one with the view `before`. -/
def Reverses (cs : List Cleanup) (after before : ε) : Prop :=
  ∀ s : Scene σ, view s.1 = after →
    view ((undoAll cs).run (answerSetup host session) s).2.1 = before

/-- A setup that has come to an end in a world takes `before` to a state with `post`, from which
its cleanup leads back; if it has failed, nothing has changed. -/
def Reversed (post : σ → Prop) (before : ε) : Except HostRefusal Cleanup → σ → Prop
  | .ok c, world => post world ∧ ∀ s : Scene σ, view s.1 = view world →
      view (c.undo.run (answerStep host session) s).2.1 = before
  | .error _, world => view world = before

/-- From every world with `pre` the step leads to one with `post` and can be taken back. -/
def Reversible (pre post : σ → Prop) (p : Preparation) : Prop :=
  ∀ s : Scene σ, pre s.1 →
    Reversed host session view post (view s.1) (p.setup.run (answerStep host session) s).1
      (p.setup.run (answerStep host session) s).2.1

variable {host session view}

theorem reverses_nil (v : ε) : Reverses host session view [] v v := fun _ same => same

theorem reverses_cons {c : Cleanup} {rest : List Cleanup} {after between before : ε}
    (last : ∀ s : Scene σ, view s.1 = after →
      view (c.undo.run (answerStep host session) s).2.1 = between)
    (others : Reverses host session view rest between before) :
    Reverses host session view (c :: rest) after before := by
  intro s same
  rw [undoAll_cons]
  exact others _ (last _ same)

/-- What setting up steps can come to: all of them can be taken back, or they have been. -/
def Restorable (host : Host σ) (session : Nat) (view : σ → ε) (post : σ → Prop) (origin : ε) :
    Except SetupFailure (List Cleanup) → σ → Prop
  | .ok cs, world => post world ∧ Reverses host session view cs (view world) origin
  | .error _, world => view world = origin

theorem setUpFrom_cons_restorable {pre post : σ → Prop} {p : Preparation}
    {rest : List Preparation} {done : List Cleanup} {origin : ε}
    (reversible : Reversible host session view pre post p)
    (later : ∀ (done : List Cleanup) (s : Scene σ), post s.1 →
      Reverses host session view done (view s.1) origin →
      Restorable host session view post origin
        ((setUpFrom done rest).run (answerSetup host session) s).1
        ((setUpFrom done rest).run (answerSetup host session) s).2.1)
    (s : Scene σ) (ready : pre s.1) (undone : Reverses host session view done (view s.1) origin) :
    Restorable host session view post origin
      ((setUpFrom done (p :: rest)).run (answerSetup host session) s).1
      ((setUpFrom done (p :: rest)).run (answerSetup host session) s).2.1 := by
  have step := reversible (announced (.setUp done.length p.name) s) ready
  cases set : p.setup.run (answerStep host session) (announced (.setUp done.length p.name) s) with
  | mk result t =>
    rw [set] at step
    cases result with
    | error cause =>
      rw [setUpFrom_cons_error host session set]
      have unchanged : view t.1 = view s.1 := step
      exact undone t unchanged
    | ok c =>
      rw [setUpFrom_cons_ok host session set]
      obtain ⟨kept, back⟩ := step
      exact later _ t kept (reverses_cons back undone)

/-- Steps that can be taken back one by one can be taken back together, and if one of them fails
the view is the one before all of them. -/
theorem setUpFrom_restorable {post : σ → Prop} {ps : List Preparation} {origin : ε}
    (reversible : ∀ p ∈ ps, Reversible host session view post post p) (done : List Cleanup)
    (s : Scene σ) (ready : post s.1)
    (undone : Reverses host session view done (view s.1) origin) :
    Restorable host session view post origin
      ((setUpFrom done ps).run (answerSetup host session) s).1
      ((setUpFrom done ps).run (answerSetup host session) s).2.1 := by
  -- The cleanups of the steps done so far always lead back to `origin`.
  induction ps generalizing done s with
  | nil => exact ⟨ready, undone⟩
  | cons p rest ih =>
    have first : Reversible host session view post post p :=
      reversible p List.mem_cons_self
    have others : ∀ q ∈ rest, Reversible host session view post post q :=
      fun q member => reversible q (List.mem_cons_of_mem p member)
    exact setUpFrom_cons_restorable first (fun d t => ih others d t) s ready undone

/-- The first step may ask for more than the others. -/
theorem setUpAll_restorable {pre post : σ → Prop} {p : Preparation} {rest : List Preparation}
    (first : Reversible host session view pre post p)
    (others : ∀ q ∈ rest, Reversible host session view post post q) (s : Scene σ)
    (ready : pre s.1) :
    Restorable host session view post (view s.1)
      ((setUpAll (p :: rest)).run (answerSetup host session) s).1
      ((setUpAll (p :: rest)).run (answerSetup host session) s).2.1 :=
  setUpFrom_cons_restorable first (fun done t => setUpFrom_restorable others done t) s ready
    (reverses_nil _)

end PluginAudit.Preparation
