import PluginAudit.Proofs.Trace

/-!
The three ways of a run: without runtime checks, with a preparation that fails, and prepared. If its
pool is too large, an attempt at a run breaks down unless a preparation fails first.
-/

namespace PluginAudit

/-- A plugin that consists of its main file. -/
def Context.sample : Context := ⟨⟨"/plugins/p/p.php"⟩, ⟨"/plugins/p"⟩, "p", "p/p.php", [], false⟩

def Attempt.world {σ : Type} : Attempt σ → σ
  | .reported report => report.world
  | .broken _ world _ => world

def Attempt.trace {σ : Type} : Attempt σ → List Event
  | .reported report => report.trace
  | .broken _ _ trace => trace

namespace Run

variable {σ : Type} {host : Option (Host σ)} {settings : RunSettings}
  {conditions : RunConditions} {context : Context} {tree : FileTree} {checks : List Check}
  {world : σ}

/-- The static checks of a run under supervision. -/
def staticPhase (settings : RunSettings) (conditions : RunConditions) (context : Context)
    (tree : FileTree) (checks : List Check) : Option Stop × Nat × Pool :=
  Pool.supervise (conditions.watch settings) settings.maxParallel conditions.moves 0
    (.ofTasks (staticTasks context tree checks))

/-- Undoes what has been prepared for a run, and tells how the run has ended. -/
def finish (host : Host σ) (session : Nat) (cleanups : List Cleanup)
    (checked : Option Stop × Progress σ) : RunReport σ :=
  let undone := (Preparation.undoAll cleanups).run (answerSetup host session)
    (checked.2.world, checked.2.trace)
  ⟨conclude checked.1 undone.1 checked.2.record, undone.2.1, undone.2.2.reverse⟩

theorem finish_result (host : Host σ) (session : Nat) (cleanups : List Cleanup)
    (checked : Option Stop × Progress σ) :
    (finish host session cleanups checked).result =
      conclude checked.1 ((Preparation.undoAll cleanups).run (answerSetup host session)
        (checked.2.world, checked.2.trace)).1 checked.2.record := rfl

theorem conclude_ok {stop : Option Stop} {failures : List UndoFailure} {record r : CheckRecord}
    (h : conclude stop failures record = .ok r) : stop = none ∧ failures = [] ∧ record = r := by
  cases stop with
  | some s => cases h
  | none =>
    simp only [conclude] at h
    split at h
    · rename_i empty
      exact ⟨rfl, List.isEmpty_iff.mp empty, Except.ok.inj h⟩
    · cases h

/-- The state in which the runtime checks of a run begin. -/
def afterStatic (phase : Option Stop × Nat × Pool) (scene : Scene σ) : Progress σ :=
  ⟨scene.1, phase.2.2.record, phase.2.2.trace ++ scene.2, phase.2.1, false, none⟩

theorem checkPhase_stopped {h : Host σ} {env : Environment}
    {runtime : List (Nat × String × RuntimeCheck)} {scene : Scene σ} {stop : Stop}
    (stopped : (staticPhase settings conditions context tree checks).1 = some stop) :
    checkPhase h env settings conditions (staticTasks context tree checks) runtime scene =
      (some stop, afterStatic (staticPhase settings conditions context tree checks) scene) := by
  have found : (Pool.supervise (conditions.watch settings) settings.maxParallel conditions.moves 0
      (.ofTasks (staticTasks context tree checks))).1 = some stop := stopped
  simp only [checkPhase, found]
  rfl

theorem checkPhase_unstopped {h : Host σ} {env : Environment}
    {runtime : List (Nat × String × RuntimeCheck)} {scene : Scene σ}
    (unstopped : (staticPhase settings conditions context tree checks).1 = none) :
    checkPhase h env settings conditions (staticTasks context tree checks) runtime scene =
      Progress.runChecks h env (conditions.watch settings) true runtime
        (afterStatic (staticPhase settings conditions context tree checks) scene) := by
  have found : (Pool.supervise (conditions.watch settings) settings.maxParallel conditions.moves 0
      (.ofTasks (staticTasks context tree checks))).1 = none := unstopped
  simp only [checkPhase, found]
  rfl

theorem run_without_runtime (none : runtimeChecks checks = []) :
    run host settings conditions context tree checks world =
      let phase := staticPhase settings conditions context tree checks
      ⟨conclude phase.1 [] phase.2.2.record, world, phase.2.2.trace.reverse⟩ := by
  simp only [run, none, List.isEmpty_nil, if_true, staticPhase]

theorem run_unprepared (some : runtimeChecks checks ≠ []) {e : RunError} {scene : Scene σ}
    (prepared : prepare host settings context (settings.namespaceName conditions.id)
      (runtimeChecks checks) world = (.error e, scene)) :
    run host settings conditions context tree checks world =
      ⟨.error e, scene.1, scene.2.reverse⟩ := by
  simp only [run, List.isEmpty_iff, some, if_false, prepared]

theorem run_prepared (some : runtimeChecks checks ≠ []) {h : Host σ} {session : Nat}
    {cleanups : List Cleanup} {scene : Scene σ}
    (prepared : prepare host settings context (settings.namespaceName conditions.id)
      (runtimeChecks checks) world = (.ok (h, session, cleanups), scene)) :
    run host settings conditions context tree checks world =
      finish h session cleanups
        (checkPhase h ⟨session, context, settings.namespaceName conditions.id⟩ settings
          conditions (staticTasks context tree checks) (runtimeChecks checks) scene) := by
  simp only [run, List.isEmpty_iff, some, if_false, prepared]
  rfl

theorem attempt_fitting (fits : overfills settings conditions = false) :
    attempt host settings conditions context tree checks world =
      .reported (run host settings conditions context tree checks world) := by
  simp only [attempt, fits, Bool.false_eq_true, if_false]

theorem attempt_without_runtime (none : runtimeChecks checks = []) :
    attempt host settings conditions context tree checks world =
      if overfills settings conditions then .broken Pool.breakdown world []
      else .reported (run host settings conditions context tree checks world) := by
  simp only [attempt, none, List.isEmpty_nil, if_true]

theorem attempt_unprepared (some : runtimeChecks checks ≠ []) {e : RunError} {scene : Scene σ}
    (prepared : prepare host settings context (settings.namespaceName conditions.id)
      (runtimeChecks checks) world = (.error e, scene)) :
    attempt host settings conditions context tree checks world =
      .reported ⟨.error e, scene.1, scene.2.reverse⟩ := by
  cases full : overfills settings conditions with
  | false => rw [attempt_fitting full, run_unprepared some prepared]
  | true => simp only [attempt, full, if_true, List.isEmpty_iff, some, if_false, prepared]

theorem attempt_overfull (full : overfills settings conditions = true)
    (some : runtimeChecks checks ≠ []) {prepared' : Host σ × Nat × List Cleanup} {scene : Scene σ}
    (prepared : prepare host settings context (settings.namespaceName conditions.id)
      (runtimeChecks checks) world = (.ok prepared', scene)) :
    attempt host settings conditions context tree checks world =
      .broken Pool.breakdown scene.1 scene.2.reverse := by
  simp only [attempt, full, if_true, List.isEmpty_iff, some, if_false, prepared]

/-- A run is prepared in a session of its own, in which all preparations have been set up. -/
theorem prepare_ok {name : String} {runtime : List (Nat × String × RuntimeCheck)} {h : Host σ}
    {session : Nat} {cleanups : List Cleanup} {scene : Scene σ}
    (prepared : prepare host settings context name runtime world =
      (.ok (h, session, cleanups), scene)) :
    host = some h ∧ ∃ opened, h.connect world = (.ok session, opened) ∧
      (Preparation.setUpAll (preparations settings context name runtime)).run
        (answerSetup h session) (opened, []) = (.ok cleanups, scene) := by
  cases host with
  | none => simp [prepare] at prepared
  | some g =>
    cases connected : g.connect world with
    | mk result opened =>
      cases result with
      | error e => simp [prepare, connected] at prepared
      | ok number =>
        cases set : (Preparation.setUpAll (preparations settings context name runtime)).run
          (answerSetup g number) (opened, []) with
        | mk result scene' =>
          cases result with
          | error e => simp [prepare, connected, set] at prepared
          | ok cs =>
            simp only [prepare, connected, set, Prod.mk.injEq, Except.ok.injEq] at prepared
            obtain ⟨⟨rfl, rfl, rfl⟩, rfl⟩ := prepared
            exact ⟨rfl, opened, connected, set⟩

/-- A run is not prepared if there is no host or no session, or if a preparation fails. -/
theorem prepare_error {name : String} {runtime : List (Nat × String × RuntimeCheck)}
    {e : RunError} {scene : Scene σ}
    (prepared : prepare host settings context name runtime world = (.error e, scene)) :
    (host = none ∧ e = .noHost ∧ scene = (world, [])) ∨
      (∃ h cause, host = some h ∧ e = .host cause ∧ scene.2 = [] ∧
        h.connect world = (.error cause, scene.1)) ∨
      ∃ h session opened failure, host = some h ∧ e = .setup failure ∧
        h.connect world = (.ok session, opened) ∧
        (Preparation.setUpAll (preparations settings context name runtime)).run
          (answerSetup h session) (opened, []) = (.error failure, scene) := by
  cases host with
  | none =>
    simp only [prepare, Prod.mk.injEq, Except.error.injEq] at prepared
    exact .inl ⟨rfl, prepared.1.symm, prepared.2.symm⟩
  | some g =>
    cases connected : g.connect world with
    | mk result opened =>
      cases result with
      | error cause =>
        simp only [prepare, connected, Prod.mk.injEq, Except.error.injEq] at prepared
        obtain ⟨rfl, rfl⟩ := prepared
        exact .inr (.inl ⟨g, cause, rfl, rfl, rfl, connected⟩)
      | ok number =>
        cases set : (Preparation.setUpAll (preparations settings context name runtime)).run
          (answerSetup g number) (opened, []) with
        | mk result scene' =>
          cases result with
          | ok cs => simp [prepare, connected, set] at prepared
          | error failure =>
            simp only [prepare, connected, set, Prod.mk.injEq, Except.error.injEq] at prepared
            obtain ⟨rfl, rfl⟩ := prepared
            exact .inr (.inr ⟨g, number, opened, failure, rfl, rfl, connected, set⟩)

/-- What the preparation of a run adds to its trace, whether or not it succeeds. -/
theorem prepare_adds_kind {kind : Event → Prop} (asked : ∀ c, kind (.asked c))
    (noted : ∀ text, kind (.note text)) (undoing : ∀ place name, kind (.undo place name))
    (setting : ∀ place name, kind (.setUp place name)) (host : Option (Host σ))
    (settings : RunSettings) (context : Context) (name : String)
    (runtime : List (Nat × String × RuntimeCheck)) (world : σ) :
    Adds kind [] (prepare host settings context name runtime world).2.2 := by
  have whole (h : Host σ) (session : Nat) (opened : σ) :=
    Preparation.setUpFrom_adds_kind h session asked noted undoing setting []
      (preparations settings context name runtime) (opened, [])
  cases prepared : prepare host settings context name runtime world with
  | mk result scene =>
    cases result with
    | error e =>
      rcases prepare_error prepared with ⟨-, -, rfl⟩ | ⟨_, _, -, -, empty, -⟩ |
        ⟨h, session, opened, failure, -, -, -, set⟩
      · exact .refl _
      · rw [empty]
        exact .refl _
      · have added := whole h session opened
        rwa [show Preparation.setUpFrom [] _ = Preparation.setUpAll _ from rfl, set] at added
    | ok prepared' =>
      obtain ⟨h, session, cleanups⟩ := prepared'
      obtain ⟨-, opened, -, set⟩ := prepare_ok prepared
      have added := whole h session opened
      rwa [show Preparation.setUpFrom [] _ = Preparation.setUpAll _ from rfl, set] at added

theorem prepare_starts_nothing (host : Option (Host σ)) (settings : RunSettings)
    (context : Context) (name : String) (runtime : List (Nat × String × RuntimeCheck))
    (world : σ) :
    Adds (fun e => e.started? = none ∧ e.ended? = none) []
      (prepare host settings context name runtime world).2.2 :=
  prepare_adds_kind (fun _ => ⟨rfl, rfl⟩) (fun _ => ⟨rfl, rfl⟩) (fun _ _ => ⟨rfl, rfl⟩)
    (fun _ _ => ⟨rfl, rfl⟩) host settings context name runtime world

theorem prepare_ok_ofSetup {name : String} {runtime : List (Nat × String × RuntimeCheck)}
    {prepared' : Host σ × Nat × List Cleanup} {scene : Scene σ}
    (prepared : prepare host settings context name runtime world = (.ok prepared', scene)) :
    ∀ e ∈ scene.2, e.OfSetup := by
  obtain ⟨h, session, cleanups⟩ := prepared'
  obtain ⟨-, opened, -, set⟩ := prepare_ok prepared
  obtain ⟨⟨new, trace, kind⟩, -⟩ := Preparation.setUpFrom_marks h session set
  intro e member
  exact kind e (by simpa [trace] using member)

end Run

end PluginAudit
