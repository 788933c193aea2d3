import PluginAudit.Host.Memory
import PluginAudit.Proofs.IsolationSteps
import PluginAudit.Proofs.PoolAccount
import PluginAudit.Proofs.Rollback
import PluginAudit.Proofs.RunCases
import PluginAudit.Proofs.RuntimeChecks
import PluginAudit.Proofs.Selection

/-!
The order of a run. Preparations come before checks and cleanups after them, in the opposite order
and each once, whatever the checks do and whenever the run is stopped. The isolation is set up
first and undone last. Only an attempt whose pool is too large leaves undone what it has prepared.
-/

namespace PluginAudit.Run

open Preparation

variable {σ : Type}

/-- A run in its parts. The steps are set up one after another, then the checks run, and in the end
each cleanup is executed once, the last one first. -/
inductive InParts (host : Host σ) (session : Nat) (steps : List Preparation) (opened : σ) :
    RunReport σ → Prop
  | intro {cs : List Cleanup} {set checked undone : Scene σ} {told : List UndoFailure}
      (stop : Option Stop) (record : CheckRecord)
      (setUp : SetsUp host session 0 steps (opened, []) cs set)
      (checks : Adds Event.OfChecks set.2 checked.2)
      (undo : UndoneInOrder host session cs.reverse checked undone told) :
      InParts host session steps opened
        ⟨conclude stop told record, undone.1, undone.2.reverse⟩

/-- What tells the order of a run whose preparations succeed. Places of steps count from zero. -/
structure InOrder (steps : List Preparation) (runtime : List Nat) (trace : List Event) : Prop where
  setUps : trace.filterMap Event.setUp? = marksFrom 0 steps
  undos : (trace.filterMap Event.undo?).map Prod.fst = (List.range steps.length).reverse
  isolation_first :
    (trace.filterMap Event.setUp?).head? = some (0, Isolation.preparationName)
  isolation_last :
    (trace.filterMap Event.undo?).getLast? = some (0, Isolation.preparationName)
  checks_after_setUps : ∀ before e after, trace = before ++ e :: after → e.setUp?.isSome →
    ∀ x ∈ before, x.started? = none
  undos_after_checks : ∀ before e after, trace = before ++ e :: after → e.undo?.isSome →
    (∀ check ∈ runtime, ¬Executing check before) ∧ ∀ x ∈ after, x.started? = none

theorem split_after {α : Type} {left right before after : List α} {a : α}
    (whole : left ++ right = before ++ a :: after) (absent : a ∉ left) :
    ∃ early, before = left ++ early ∧ right = early ++ a :: after := by
  rcases List.append_eq_append_iff.mp whole with ⟨early, first, last⟩ | ⟨late, first, last⟩
  · exact ⟨early, first, last⟩
  · cases late with
    | nil => exact ⟨[], by simpa using first.symm, by simpa using last.symm⟩
    | cons b rest =>
      obtain ⟨rfl, -⟩ := List.cons_eq_cons.mp last
      exact absurd (by rw [first]; simp) absent

theorem split_before {α : Type} {left right before after : List α} {a : α}
    (whole : left ++ right = before ++ a :: after) (absent : a ∉ right) :
    ∃ late, left = before ++ a :: late := by
  rcases List.append_eq_append_iff.mp whole with ⟨early, -, last⟩ | ⟨late, first, last⟩
  · exact absurd (by rw [last]; simp) absent
  · cases late with
    | nil => exact absurd (by rw [← List.nil_append right, ← last]; simp) absent
    | cons b rest =>
      obtain ⟨rfl, -⟩ := List.cons_eq_cons.mp last
      exact ⟨rest, first⟩

theorem nothing_seen {kind : Event → Prop} {α : Type} {events : List Event}
    (all : ∀ e ∈ events, kind e) (view : Event → Option α)
    (unseen : ∀ e, kind e → view e = none) : events.filterMap view = [] := by
  rw [List.filterMap_eq_nil_iff]
  exact fun e member => unseen e (all e member)

/-- A trace in three parts, given with the latest event first, is in order if each part is. -/
theorem inOrder_of_parts {steps : List Preparation} {runtime : List Nat} {cleanups : List Cleanup}
    {set checked undone : List Event}
    (setting : ∀ e ∈ set, e.OfSetup) (checking : ∀ e ∈ checked, e.OfChecks)
    (undoing : ∀ e ∈ undone, e.OfTeardown)
    (landed : ∀ check ∈ runtime, Progress.InFlight check .empty (checked ++ set))
    (marks : set.filterMap Event.setUp? = (marksFrom 0 steps).reverse)
    (undos : undone.filterMap Event.undo? = (cleanups.map fun c => (c.place, c.name)).reverse)
    (places : cleanups.map Cleanup.place = (List.range steps.length).reverse)
    (first : steps.head?.map Preparation.name = some Isolation.preparationName)
    (last : cleanups.getLast?.map (fun c => (c.place, c.name)) =
      some (0, Isolation.preparationName)) :
    InOrder steps runtime (undone ++ (checked ++ set)).reverse := by
  have setUps : (undone ++ (checked ++ set)).reverse.filterMap Event.setUp? =
      marksFrom 0 steps := by
    rw [List.filterMap_reverse, List.filterMap_append, List.filterMap_append, marks,
      nothing_seen undoing _ fun _ h => h.1,
      nothing_seen checking _ fun _ h => h.1]
    simp
  have allUndos : (undone ++ (checked ++ set)).reverse.filterMap Event.undo? =
      cleanups.map fun c => (c.place, c.name) := by
    rw [List.filterMap_reverse, List.filterMap_append, List.filterMap_append, undos,
      nothing_seen checking _ fun _ h => h.2, nothing_seen setting _ fun _ h => h.1]
    simp
  constructor
  · exact setUps
  · rw [allUndos, List.map_map, ← places]
    rfl
  · rw [setUps]
    cases steps with
    | nil => simp at first
    | cons p rest => simpa [marksFrom] using first
  · rw [allUndos, List.getLast?_map]
    exact last
  · intro before e after whole isSetUp x member
    have absent : e ∉ (undone ++ checked).reverse := by
      intro inside
      rcases List.mem_append.mp (List.mem_reverse.mp inside) with inside | inside
      · rw [(undoing e inside).1] at isSetUp
        cases isSetUp
      · rw [(checking e inside).1] at isSetUp
        cases isSetUp
    rw [← List.append_assoc, List.reverse_append] at whole
    obtain ⟨late, part⟩ := split_before whole absent
    have inside : x ∈ set := by
      rw [← List.mem_reverse, part]
      exact List.mem_append_left _ member
    exact (setting x inside).2.1
  · intro before e after whole isUndo
    -- An event of a cleanup stands in the last part, so the checks are over when it comes.
    have absent : e ∉ (checked ++ set).reverse := by
      intro inside
      rcases List.mem_append.mp (List.mem_reverse.mp inside) with inside | inside
      · rw [(checking e inside).2] at isUndo
        cases isUndo
      · rw [(setting e inside).1] at isUndo
        cases isUndo
    rw [List.reverse_append] at whole
    obtain ⟨early, parts, rest⟩ := split_after whole absent
    have inside : ∀ x ∈ early ++ e :: after, x.OfTeardown := by
      intro x member
      rw [← rest] at member
      exact undoing x (List.mem_reverse.mp member)
    have calm : ∀ x ∈ early, x.OfTeardown := fun x member =>
      inside x (List.mem_append_left _ member)
    refine ⟨?_, fun x member => (inside x (by simp [member])).2.1⟩
    intro check member executing
    unfold Executing at executing
    rw [parts, List.filterMap_append, List.filterMap_append, nothing_seen calm _ fun _ h => h.2.1,
      nothing_seen calm _ fun _ h => h.2.2, List.filterMap_reverse, List.filterMap_reverse]
      at executing
    simp only [List.append_nil, List.count_reverse] at executing
    have balanced : _ = _ + 0 := landed check member
    omega

theorem staticPhase_trace (settings : RunSettings) (conditions : RunConditions)
    (context : Context) (tree : FileTree) (checks : List Check) :
    let trace := (staticPhase settings conditions context tree checks).2.2.trace
    (∀ e ∈ trace, e.OfChecks ∧ e.asksHost = false) ∧
      ∀ place ∈ (runtimeChecks checks).map Prod.fst,
        place ∉ trace.filterMap Event.started? ∧ place ∉ trace.filterMap Event.ended? := by
  obtain ⟨collected, account, -⟩ :=
    (Pool.Accounts.initial (staticTasks context tree checks)).supervise settings.maxParallel
      (places_nodup context tree checks) (conditions.watch settings) conditions.moves 0
  have known : ∀ t ∈ collected ++ (staticPhase settings conditions context tree checks).2.2.present,
      t.place ∈ (staticTasks context tree checks).map StaticTask.place := by
    intro t member
    exact account.places.subset (List.mem_map_of_mem member)
  refine ⟨account.kind, ?_⟩
  intro place isRuntime
  have apart : place ∉ (staticTasks context tree checks).map StaticTask.place :=
    fun isStatic => places_disjoint context tree checks isStatic isRuntime
  constructor
  · intro member
    obtain ⟨t, inside, rfl⟩ := List.mem_map.mp (account.starts.subset member)
    exact apart (known t (by simp only [Pool.present, List.mem_append] at inside ⊢; tauto))
  · intro member
    obtain ⟨t, inside, rfl⟩ := List.mem_map.mp (account.ends.subset member)
    exact apart (known t (by simp only [Pool.present, List.mem_append] at inside ⊢; tauto))

theorem checkPhase_adds (host : Host σ) (env : Environment) (settings : RunSettings)
    (conditions : RunConditions) (context : Context) (tree : FileTree) (checks : List Check)
    (scene : Scene σ) :
    Adds Event.OfChecks scene.2 (checkPhase host env settings conditions
      (staticTasks context tree checks) (runtimeChecks checks) scene).2.trace := by
  have static : Adds Event.OfChecks scene.2
      (afterStatic (staticPhase settings conditions context tree checks) scene).trace :=
    ⟨_, rfl, fun e member =>
      ((staticPhase_trace settings conditions context tree checks).1 e member).1⟩
  cases stopped : (staticPhase settings conditions context tree checks).1 with
  | some stop =>
    rw [checkPhase_stopped stopped]
    exact static
  | none =>
    rw [checkPhase_unstopped stopped]
    obtain ⟨begun, -, -, later, -⟩ :=
      Progress.runChecks_trace host env (conditions.watch settings) true (runtimeChecks checks)
        (afterStatic (staticPhase settings conditions context tree checks) scene)
    exact static.trans later

/-- When the checks of a prepared run are over, no runtime check is executing. -/
theorem checkPhase_over (host : Host σ) (env : Environment) (settings : RunSettings)
    (conditions : RunConditions) (context : Context) (tree : FileTree) (checks : List Check)
    {scene : Scene σ} (calm : ∀ e ∈ scene.2, e.OfSetup) {place : Nat}
    (isRuntime : place ∈ (runtimeChecks checks).map Prod.fst) :
    Progress.InFlight place .empty (checkPhase host env settings conditions
      (staticTasks context tree checks) (runtimeChecks checks) scene).2.trace := by
  obtain ⟨-, apart⟩ := staticPhase_trace settings conditions context tree checks
  have start : Progress.InFlight place .empty
      (afterStatic (staticPhase settings conditions context tree checks) scene).trace := by
    have starts := nothing_seen calm Event.started? fun _ h => h.2.1
    have ends := nothing_seen calm Event.ended? fun _ h => h.2.2
    rw [Progress.InFlight, afterStatic, List.filterMap_append, List.filterMap_append, starts, ends,
      List.append_nil, List.append_nil, List.count_eq_zero.mpr (apart place isRuntime).1,
      List.count_eq_zero.mpr (apart place isRuntime).2]
    rfl
  cases stopped : (staticPhase settings conditions context tree checks).1 with
  | some stop =>
    rw [checkPhase_stopped stopped]
    exact start
  | none =>
    rw [checkPhase_unstopped stopped]
    exact Progress.runChecks_over host env (conditions.watch settings) true _ _ start

theorem isolation_cleanup_last {host : Host σ} {session : Nat} {settings : RunSettings}
    {context : Context} {name : String} {runtime : List (Nat × String × RuntimeCheck)}
    {start scene : Scene σ} {cleanups : List Cleanup}
    (set : (setUpAll (preparations settings context name runtime)).run
      (answerSetup host session) start = (.ok cleanups, scene)) :
    cleanups.getLast?.map (fun c => (c.place, c.name)) = some (0, Isolation.preparationName) := by
  unfold setUpAll preparations at set
  cases r : (Isolation.preparation context.basename name settings.theme).setup.run
      (answerStep host session)
      (announced (.setUp 0 (Isolation.preparation context.basename name settings.theme).name)
        start) with
  | mk result t =>
    cases result with
    | error cause =>
      rw [setUpFrom_cons_error host session r] at set
      cases set
    | ok c =>
      rw [setUpFrom_cons_ok host session r] at set
      obtain ⟨-, -, new, rfl, -⟩ := setUpFrom_marks host session set
      have begun := Isolation.preparation_cases host session context.basename name settings.theme
        (announced (.setUp 0 (Isolation.preparation context.basename name settings.theme).name)
          start)
      rw [r] at begun
      obtain ⟨ids, former, snapshot, rfl, -⟩ := begun.cleanup_eq
      simp [Isolation.cleanup]

/-- What a run does that has been prepared. -/
theorem finish_inOrder {host : Host σ} {session : Nat} {settings : RunSettings}
    {conditions : RunConditions} {context : Context} {tree : FileTree} {checks : List Check}
    {name : String} {opened : σ} {scene : Scene σ} {cleanups : List Cleanup}
    (set : (setUpAll (preparations settings context name (runtimeChecks checks))).run
      (answerSetup host session) (opened, []) = (.ok cleanups, scene)) :
    let steps := preparations settings context name (runtimeChecks checks)
    let report := finish host session cleanups (checkPhase host ⟨session, context, name⟩ settings
      conditions (staticTasks context tree checks) (runtimeChecks checks) scene)
    InParts host session steps opened report ∧
      InOrder steps ((runtimeChecks checks).map Prod.fst) report.trace := by
  intro steps report
  obtain ⟨⟨setNew, setTrace, setKind⟩, marks, new, same, places⟩ := setUpFrom_marks host session set
  simp only [List.append_nil] at marks setTrace same
  subst same setTrace
  have adds := checkPhase_adds host ⟨session, context, name⟩ settings conditions context tree checks
    scene
  have landed := fun place (isRuntime : place ∈ (runtimeChecks checks).map Prod.fst) =>
    checkPhase_over host ⟨session, context, name⟩ settings conditions context tree checks setKind
      isRuntime
  simp only [report, finish]
  generalize checkPhase host ⟨session, context, name⟩ settings conditions
    (staticTasks context tree checks) (runtimeChecks checks) scene = phase at adds landed ⊢
  have undone := undoAll_inOrder host session cleanups (phase.2.world, phase.2.trace)
  constructor
  · have ending := setUpAll_ending host session steps (opened, [])
    rw [show (setUpAll steps).run (answerSetup host session) (opened, []) = _ from set] at ending
    cases ending with
    | prepared cs t setUp => exact .intro phase.1 phase.2.record setUp adds undone
  · obtain ⟨checked, checkTrace, checkKind⟩ := adds
    obtain ⟨torn, undoTrace, undoKind⟩ :=
      undoAll_adds host session cleanups (phase.2.world, phase.2.trace)
    have undos := undoAll_undos host session cleanups (phase.2.world, phase.2.trace)
    simp only [checkTrace] at undos undoTrace landed
    rw [undoTrace, List.filterMap_append] at undos
    simp only [checkTrace, undoTrace]
    refine inOrder_of_parts setKind checkKind undoKind landed (by simpa using marks)
      (List.append_cancel_right undos) ?_ rfl (isolation_cleanup_last set)
    rw [places, List.range_eq_range']
    rfl

/-- The order of every attempt at a run. -/
theorem attempt_in_order (host : Option (Host σ)) (settings : RunSettings)
    (conditions : RunConditions) (context : Context) (tree : FileTree) (checks : List Check)
    (world : σ) :
    let runtime := runtimeChecks checks
    let name := settings.namespaceName conditions.id
    let steps := preparations settings context name runtime
    let attempted := attempt host settings conditions context tree checks world
    (runtime = [] → attempted.world = world ∧ (∀ e ∈ attempted.trace, e.asksHost = false) ∧
      ∀ other, attempt other settings conditions context tree checks world = attempted) ∧
    (runtime ≠ [] →
      match prepare host settings context name runtime world with
      | (.error e, _) => ∃ report, attempted = .reported report ∧ report.result = .error e ∧
          ∀ x ∈ report.trace, x.started? = none ∧ x.ended? = none
      | (.ok (h, session, _), scene) => ∃ opened, h.connect world = (.ok session, opened) ∧
          match attempted with
          | .reported report => overfills settings conditions = false ∧
              InParts h session steps opened report ∧
              InOrder steps (runtime.map Prod.fst) report.trace
          | .broken how left trace => overfills settings conditions = true ∧
              how = Pool.breakdown ∧ (left, trace.reverse) = scene ∧ ∀ e ∈ trace, e.OfSetup) := by
  intro runtime name steps attempted
  constructor
  · intro none
    have same (any : Option (Host σ)) :
        attempt any settings conditions context tree checks world = _ := attempt_without_runtime none
    have alone (any : Option (Host σ)) :
        run any settings conditions context tree checks world = _ := run_without_runtime none
    simp only [alone] at same
    simp only [attempted, same, implies_true, and_true]
    split
    · exact ⟨rfl, by simp [Attempt.trace]⟩
    · exact ⟨rfl, fun e member => ((staticPhase_trace settings conditions context tree checks).1 e
        (List.mem_reverse.mp member)).2⟩
  · intro some
    cases prepared : prepare host settings context name runtime world with
    | mk result scene =>
      cases result with
      | error e =>
        obtain ⟨new, trace, calm⟩ :=
          prepare_starts_nothing host settings context name runtime world
        simp only [prepared, List.append_nil] at trace
        refine ⟨_, attempt_unprepared some prepared, rfl, fun x member => calm x ?_⟩
        rw [← trace]
        exact List.mem_reverse.mp member
      | ok prepared' =>
        obtain ⟨h, session, cleanups⟩ := prepared'
        obtain ⟨-, opened, connected, set⟩ := prepare_ok prepared
        refine ⟨opened, connected, ?_⟩
        cases full : overfills settings conditions with
        | false =>
          rw [show attempted = _ from (attempt_fitting full).trans
            (congrArg Attempt.reported (run_prepared some prepared))]
          exact ⟨rfl, finish_inOrder set⟩
        | true =>
          rw [show attempted = _ from attempt_overfull full some prepared]
          exact ⟨rfl, rfl, by rw [List.reverse_reverse], fun e member =>
            prepare_ok_ofSetup prepared e (List.mem_reverse.mp member)⟩

/-- A runtime check that keeps its place for a second, with a preparation of its own. -/
def lingering : List Check := [⟨"lingering", [], .runtime ⟨
  fun _ => [.overriding "extra" [("template", .str "plain")]],
  fun _ _ => .ask (.block 1000) fun _ => .ask (.note "late") fun _ => .done .passed⟩⟩]

/-- A run with that check whose time is up after fifty milliseconds. -/
def lingeringRun : Attempt (World MemoryStore) :=
  attempt (some MemoryStore.storage.host) { RunSettings.initial with timeout := some 50 }
    ⟨"run1", [], none, true⟩ .sample ⟨.directory [], []⟩ lingering
    ⟨.initial false false, [], ⟨[], []⟩⟩

def stoppedBy? : Attempt σ → Option Stop
  | .reported ⟨.error (.stopped stop), _, _⟩ => some stop
  | _ => none

/-- The check is in flight when the run is stopped. It ends before its own preparation and the
isolation are undone. -/
theorem attempt_in_order_lingering :
    stoppedBy? lingeringRun = some (.timedOut 50) ∧
      lingeringRun.trace.filterMap Event.ended? = [0] ∧
      lingeringRun.trace.filterMap Event.undo? = [(1, "extra"), (0, Isolation.preparationName)] ∧
      ∃ steps session opened report, lingeringRun = .reported report ∧
        InParts MemoryStore.storage.host session steps opened report ∧
        InOrder steps [0] report.trace := by
  have ended : lingeringRun.trace.filterMap Event.ended? = [0] := by decide +kernel
  refine ⟨by decide +kernel, ended, by decide +kernel, ?_⟩
  have ordered := (attempt_in_order (some MemoryStore.storage.host)
    { RunSettings.initial with timeout := some 50 } ⟨"run1", [], none, true⟩ .sample
    ⟨.directory [], []⟩ lingering ⟨.initial false false, [], ⟨[], []⟩⟩).2 (by decide +kernel)
  split at ordered
  · obtain ⟨report, same, -, calm⟩ := ordered
    rw [show lingeringRun = _ from same, Attempt.trace,
      nothing_seen calm Event.ended? fun _ h => h.2] at ended
    cases ended
  · rename_i prepared
    obtain ⟨opened, -, ordered⟩ := ordered
    cases (prepare_ok prepared).1
    split at ordered
    · rename_i report reported
      exact ⟨_, _, opened, report, reported, ordered.2⟩
    · rename_i reported
      obtain ⟨-, -, -, calm⟩ := ordered
      rw [show lingeringRun = _ from reported, Attempt.trace,
        nothing_seen calm Event.ended? fun _ h => h.2.2] at ended
      cases ended

end PluginAudit.Run
