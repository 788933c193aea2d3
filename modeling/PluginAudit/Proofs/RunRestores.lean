import PluginAudit.Check.Loading
import PluginAudit.Proofs.MemorySteps
import PluginAudit.Proofs.RunReturns

/-!
A run on a host that keeps its namespaces in memory leaves no trace there: however it ends, the
namespaces and their options are those from before, and its session is where it was opened and
overrides nothing.
-/

namespace PluginAudit

/-- A call by which a check changes the options that a session sees. -/
def CheckCall.ChangesOptions : CheckCall → Prop
  | .addOverride _ _ | .removeOverride _ => True
  | _ => False

namespace RuntimeCheck

theorem emitAll_avoids (findings : List Finding) :
    (emitAll findings).Avoids CheckCall.ChangesOptions := by
  induction findings with
  | nil => exact True.intro
  | cons f rest ih => exact ⟨id, fun _ => ih⟩

theorem onLoad_avoids (findings : Load.Report → List Finding) :
    (onLoad findings).Avoids CheckCall.ChangesOptions := by
  refine ⟨id, fun answer => ?_⟩
  cases answer with
  | ok report => exact emitAll_avoids (findings report)
  | error e => exact True.intro

end RuntimeCheck

namespace Run

open MemoryStore

/-- Wherever it is set up, the preparation overrides options, or it fails and has no effect. -/
def Harmless (p : Preparation) : Prop :=
  ∀ session (s : Scene (World MemoryStore)),
    (∃ name values, p.setup.run (answerStep storage.host session) s =
      (Preparation.overriding name values).setup.run (answerStep storage.host session) s) ∨
    ∃ cause t, p.setup.run (answerStep storage.host session) s = (.error cause, s.1, t)

theorem overriding_harmless (name : String) (values : List (String × Json)) :
    Harmless (.overriding name values) := fun _ _ => .inl ⟨name, values, rfl⟩

theorem Harmless.reversible {p : Preparation} (h : Harmless p) (i : Nat) :
    Preparation.Reversible storage.host i (World.visible look) (World.Opened i) (World.Opened i)
      p := by
  intro s ready
  rcases h i s with ⟨name, values, alike⟩ | ⟨cause, t, failed⟩
  · rw [alike]
    exact World.overriding_reversible storage i name values s ready
  · rw [failed]
    rfl

/-- The world in which the session of a run has been opened. -/
def opened (w : World MemoryStore) : World MemoryStore :=
  { w with sessions := w.sessions ++ [⟨baseName, .empty⟩] }

theorem opened_fresh {w : World MemoryStore} (droppable : w.store.refusesDropping = false) :
    Fresh w.sessions.length (opened w) := by
  have session : (opened w).session w.sessions.length = ⟨baseName, .empty⟩ := by
    simp [opened, World.session]
  refine ⟨⟨by simp [opened], ?_⟩, ?_, droppable⟩
  · rw [session]
    exact Overrides.empty_numbered
  · rw [session]
    rfl

theorem answer_visible {env : Environment} {c : CheckCall} (h : ¬c.ChangesOptions)
    (p : Progress (World MemoryStore)) :
    (Progress.answer storage.host env c p).2.2.world.visible look = p.world.visible look := by
  cases c with
  | option key =>
    exact congrArg (World.visible look)
      (World.ask_reads storage env.session (c := .option key) True.intro p.world)
  | addOverride key value => exact absurd True.intro h
  | removeOverride id => exact absurd True.intro h
  | overrides => rfl
  | load =>
    simp only [Progress.answer, Progress.load]
    split <;> rfl
  | emit f => rfl
  | note text => rfl
  | sleep ms => rfl
  | block ms => rfl
  | cancel => rfl

variable {settings : RunSettings} {conditions : RunConditions} {context : Context}
  {tree : FileTree} {checks : List Check} {w : World MemoryStore}

theorem run_visible (some : runtimeChecks checks ≠ [])
    (droppable : w.store.refusesDropping = false)
    (alone : ∀ c ∈ runtimeChecks checks,
      (c.2.2.body context (settings.namespaceName conditions.id)).Avoids
        CheckCall.ChangesOptions)
    (harmless : ∀ p ∈ commonPreparations context (runtimeChecks checks), Harmless p) :
    (run (.some storage.host) settings conditions context tree checks w).world.visible look =
      (opened w).visible look := by
  have connected : storage.host.connect w = (.ok w.sessions.length, opened w) := rfl
  refine run_returns some connected (opened_fresh droppable) (isolation_reversible _ _ _) ?_ alone
    fun c p allowed => answer_visible allowed p
  exact fun p member => (harmless p member).reversible w.sessions.length

/-- After a run the namespaces and their options are what they were, the session of the run is in
the base namespace and overrides nothing, and the other sessions look as before. -/
theorem run_restores (settings : RunSettings) (conditions : RunConditions) (context : Context)
    (tree : FileTree) (checks : List Check) (w : World MemoryStore)
    (droppable : w.store.refusesDropping = false)
    (alone : ∀ c ∈ runtimeChecks checks,
      (c.2.2.body context (settings.namespaceName conditions.id)).Avoids
        CheckCall.ChangesOptions)
    (harmless : ∀ p ∈ commonPreparations context (runtimeChecks checks), Harmless p) :
    let after := (run (some storage.host) settings conditions context tree checks w).world
    after.store.namespaces = w.store.namespaces ∧
      after.sessions.map Session.visible = w.sessions.map Session.visible ++
        if runtimeChecks checks = [] then [] else [(baseName, [])] := by
  intro after
  by_cases static : runtimeChecks checks = []
  · have unchanged : after = w := by
      simp only [after, run_without_runtime static]
    rw [unchanged, if_pos static, List.append_nil]
    exact ⟨rfl, rfl⟩
  · have visible : after.visible look = (opened w).visible look :=
      run_visible static droppable alone harmless
    have store : look after.store = look w.store := congrArg Visible.store visible
    have sessions : after.sessions.map Session.visible =
        (opened w).sessions.map Session.visible := congrArg Visible.sessions visible
    refine ⟨congrArg Prod.fst store, ?_⟩
    rw [sessions, if_neg static, opened, List.map_append]
    rfl

theorem run_restores_diagnostics :
    let after := (run (some storage.host) .initial ⟨"run1", [], some 0, false⟩ Context.sample
      ⟨.directory [], []⟩ [⟨"diagnostics", [], .runtime .diagnostics⟩]
      ⟨.initial false false, [], ⟨[], []⟩⟩).world
    after.store.namespaces = (MemoryStore.initial false false).namespaces ∧
      after.sessions.map Session.visible = [("wp_", [])] := by
  refine run_restores _ _ _ _ _ _ rfl ?_ ?_
  · intro c member
    simp only [runtimeChecks, List.zipIdx_singleton, List.filterMap_cons, runtimeCheck?,
      List.filterMap_nil, List.mem_singleton] at member
    rw [member]
    exact RuntimeCheck.onLoad_avoids _
  · intro p member
    simp only [commonPreparations, runtimeChecks, List.zipIdx_singleton, List.filterMap_cons,
      runtimeCheck?, List.filterMap_nil, List.flatMap_cons, List.flatMap_nil,
      RuntimeCheck.diagnostics, List.append_nil, distinct, List.contains_nil, Bool.false_eq_true,
      if_false, List.mem_singleton] at member
    rw [member]
    exact overriding_harmless _ _

end Run

end PluginAudit
