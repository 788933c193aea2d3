import PluginAudit.Proofs.CheckFrame
import PluginAudit.Proofs.Reversal
import PluginAudit.Proofs.RunCases

/-!
Runs that lead back. If the isolation and the other preparations can be taken back and the checks
change nothing that is seen, then the world after a run looks like the one in which its session was
opened, however the run ends.
-/

namespace PluginAudit.Run

open Preparation

variable {σ ε : Type} {host : Host σ} {settings : RunSettings} {conditions : RunConditions}
  {context : Context} {tree : FileTree} {checks : List Check} {world opened : σ}
  {view : σ → ε} {pre post : σ → Prop} {i : Nat}

theorem preparations_restorable {name : String} {runtime : List (Nat × String × RuntimeCheck)}
    (isolation : Reversible host i view pre post
      (Isolation.preparation context.basename name settings.theme))
    (others : ∀ p ∈ commonPreparations context runtime, Reversible host i view post post p)
    (ready : pre opened) {result : Except SetupFailure (List Cleanup)} {scene : Scene σ}
    (set : (setUpAll (preparations settings context name runtime)).run (answerSetup host i)
      (opened, []) = (result, scene)) :
    Restorable host i view post (view opened) result scene.1 := by
  have restorable := setUpAll_restorable isolation others (opened, []) ready
  rw [preparations] at set
  rw [set] at restorable
  exact restorable

theorem run_unopened (some : runtimeChecks checks ≠ []) {cause : HostRefusal}
    (refused : host.connect world = (.error cause, opened)) :
    run (.some host) settings conditions context tree checks world =
      ⟨.error (.host cause), opened, []⟩ := by
  have prepared : prepare (.some host) settings context (settings.namespaceName conditions.id)
      (runtimeChecks checks) world = (.error (.host cause), opened, []) := by
    simp only [prepare, refused]
  exact run_unprepared some prepared

/-- If the isolation cannot be set up, then nothing has been prepared and nothing is undone. -/
theorem run_unisolated (some : runtimeChecks checks ≠ [])
    (connected : host.connect world = (.ok i, opened)) {cause : HostRefusal} {scene : Scene σ}
    (failed : (Isolation.preparation context.basename (settings.namespaceName conditions.id)
      settings.theme).setup.run (answerStep host i)
        (announced (.setUp 0 Isolation.preparationName) (opened, [])) = (.error cause, scene)) :
    run (.some host) settings conditions context tree checks world =
      ⟨.error (.setup ⟨Isolation.preparationName, cause, []⟩), scene.1, scene.2.reverse⟩ := by
  have set : (setUpAll (preparations settings context (settings.namespaceName conditions.id)
      (runtimeChecks checks))).run (answerSetup host i) (opened, []) =
      (.error ⟨Isolation.preparationName, cause, []⟩, scene) := setUpFrom_cons_error host i failed
  have prepared : prepare (.some host) settings context (settings.namespaceName conditions.id)
      (runtimeChecks checks) world =
      (.error (.setup ⟨Isolation.preparationName, cause, []⟩), scene) := by
    simp only [prepare, connected, set]
  exact run_unprepared some prepared

theorem run_returns (some : runtimeChecks checks ≠ [])
    (connected : host.connect world = (.ok i, opened)) (ready : pre opened)
    (isolation : Reversible host i view pre post (Isolation.preparation context.basename
      (settings.namespaceName conditions.id) settings.theme))
    (others : ∀ p ∈ commonPreparations context (runtimeChecks checks),
      Reversible host i view post post p)
    {forbidden : CheckCall → Prop}
    (avoid : ∀ c ∈ runtimeChecks checks,
      (c.2.2.body context (settings.namespaceName conditions.id)).Avoids forbidden)
    (unseen : ∀ c (p : Progress σ), ¬forbidden c →
      view (Progress.answer host ⟨i, context, settings.namespaceName conditions.id⟩ c p).2.2.world =
        view p.world) :
    view (run (.some host) settings conditions context tree checks world).world = view opened := by
  cases prepared : prepare (.some host) settings context
    (settings.namespaceName conditions.id) (runtimeChecks checks) world with
  | mk result scene =>
    cases result with
    | error e =>
      rw [run_unprepared some prepared]
      rcases prepare_error prepared with ⟨absent, -⟩ | ⟨h, cause, same, -, -, refused⟩ |
        ⟨h, session, began, failure, same, -, began_connected, set⟩
      · cases absent
      · cases same
        cases connected.symm.trans refused
      -- A preparation has failed, and those before it have been undone.
      · cases same
        cases connected.symm.trans began_connected
        exact preparations_restorable isolation others ready set
    | ok r =>
      obtain ⟨h, session, cleanups⟩ := r
      rw [run_prepared some prepared]
      obtain ⟨same, began, began_connected, set⟩ := prepare_ok prepared
      cases same
      cases connected.symm.trans began_connected
      obtain ⟨-, back⟩ := preparations_restorable isolation others ready set
      have checked := checkPhase_relates (R := fun a b => view b = view a) (fun _ => rfl)
        (fun first second => second.trans first) unseen avoid settings conditions
        (staticTasks context tree checks) scene
      -- The cleanups begin in a world that looks like the one after the preparations.
      exact back (_, _) checked

end PluginAudit.Run
