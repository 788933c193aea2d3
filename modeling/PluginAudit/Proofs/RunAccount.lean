import PluginAudit.Host.Memory
import PluginAudit.Proofs.PoolAccount
import PluginAudit.Proofs.RunCases
import PluginAudit.Proofs.RuntimeChecks
import PluginAudit.Proofs.Selection

/-!
The account of a run. If a run is prepared and not stopped, every selected check runs once, and the
record holds what all of them have found and an entry for each that has failed. In an attempt whose
pool is too large no check runs.
-/

namespace PluginAudit

def StaticTask.outcome (t : StaticTask) : Outcome := ⟨t.place, t.slug, t.ending, t.found⟩

namespace Run

open Preparation

variable {σ : Type}

/-- What comes of the static checks, in the order of the selection. -/
def staticOutcomes (context : Context) (tree : FileTree) (checks : List Check) : List Outcome :=
  (staticTasks context tree checks).map StaticTask.outcome

/-- What comes of the runtime checks if nothing stops them, in the order of the selection. -/
def runtimeOutcomes (host : Option (Host σ)) (settings : RunSettings) (conditions : RunConditions)
    (context : Context) (checks : List Check) (world : σ) : List Outcome :=
  let name := settings.namespaceName conditions.id
  match prepare host settings context name (runtimeChecks checks) world with
  | (.error _, _) => []
  | (.ok (h, session, _), scene) =>
    Progress.outcomes h ⟨session, context, name⟩ (runtimeChecks checks) scene.1 none

/-- A run whose result is an error in the cleanup at most. -/
def Undisturbed (result : Except RunError CheckRecord) : Prop :=
  ∀ e, result = .error e → ∃ failures, e = .cleanup failures

theorem undisturbed_of_ok {result : Except RunError CheckRecord}
    (h : result.toOption.isSome = true) : Undisturbed result := by
  intro e failed
  rw [failed] at h
  cases h

theorem undisturbed_conclude {stop : Option Stop} {failures : List UndoFailure}
    {record : CheckRecord} (h : Undisturbed (conclude stop failures record)) : stop = none := by
  cases stop with
  | none => rfl
  | some s =>
    obtain ⟨_, same⟩ := h (.stopped s) rfl
    cases same

theorem staticPhase_settled {settings : RunSettings} {conditions : RunConditions}
    {context : Context} {tree : FileTree} {checks : List Check}
    (unstopped : (staticPhase settings conditions context tree checks).1 = none) :
    let pool := (staticPhase settings conditions context tree checks).2.2
    let places := (staticTasks context tree checks).map StaticTask.place
    pool.record.failures.Perm ((staticOutcomes context tree checks).filterMap Outcome.failure?) ∧
      pool.record.findings.Perm ((staticOutcomes context tree checks).flatMap Outcome.found) ∧
      (pool.trace.filterMap Event.started?).Perm places ∧
      (pool.trace.filterMap Event.ended?).Perm places := by
  obtain ⟨collected, account, empty⟩ :=
    (Pool.Accounts.initial (staticTasks context tree checks)).supervise settings.maxParallel
      (places_nodup context tree checks) (conditions.watch settings) conditions.moves 0
  obtain ⟨perm, failures, findings, starts, ends⟩ := account.settled (empty unstopped)
  refine ⟨?_, ?_, starts, ends⟩
  · have entries := perm.filterMap StaticTask.failure?
    rw [← failures, List.filterMap_map] at entries
    rw [staticOutcomes, List.filterMap_map]
    exact entries
  · rw [staticOutcomes, List.flatMap_map]
    exact findings

/-- What is known when all checks of a prepared run are over and have not been stopped. -/
theorem checkPhase_settled {host : Host σ} {env : Environment} {settings : RunSettings}
    {conditions : RunConditions} {context : Context} {tree : FileTree} {checks : List Check}
    {scene : Scene σ} {p : Progress σ}
    (unstopped : checkPhase host env settings conditions (staticTasks context tree checks)
      (runtimeChecks checks) scene = (none, p)) :
    let runtime := Progress.outcomes host env (runtimeChecks checks) scene.1 none
    (∃ statics : List Failure,
        statics.Perm ((staticOutcomes context tree checks).filterMap Outcome.failure?) ∧
        p.record.failures = statics ++ runtime.filterMap Outcome.failure?) ∧
      p.record.findings.Perm
        ((staticOutcomes context tree checks ++ runtime).flatMap Outcome.found) ∧
      (p.trace.filterMap Event.started?).Perm
        (List.range checks.length ++ scene.2.filterMap Event.started?) ∧
      (p.trace.filterMap Event.ended?).Perm
        (List.range checks.length ++ scene.2.filterMap Event.ended?) := by
  cases stopped : (staticPhase settings conditions context tree checks).1 with
  | some stop =>
    rw [checkPhase_stopped stopped] at unstopped
    cases unstopped
  | none =>
    obtain ⟨failures, findings, starts, ends⟩ := staticPhase_settled stopped
    rw [checkPhase_unstopped stopped] at unstopped
    obtain ⟨begun, -, all, -, laterStarts, laterEnds⟩ := Progress.runChecks_trace host env
      (conditions.watch settings) true (runtimeChecks checks)
      (afterStatic (staticPhase settings conditions context tree checks) scene)
    obtain ⟨laterFailures, laterFindings⟩ := Progress.runChecks_record unstopped
    rw [unstopped] at all laterStarts laterEnds
    obtain rfl := all rfl
    -- Static and runtime checks together have all the places of the selection.
    have everywhere {events : List Nat} (part : events.Perm
        ((staticTasks context tree checks).map StaticTask.place)) (earlier : List Nat) :
        (((runtimeChecks checks).map Prod.fst).reverse ++ (events ++ earlier)).Perm
          (List.range checks.length ++ earlier) := by
      rw [← List.append_assoc]
      refine List.Perm.append_right _ ?_
      refine ((List.reverse_perm _).append part).trans ?_
      exact List.perm_append_comm.trans (places_perm context tree checks)
    refine ⟨⟨_, failures, laterFailures⟩, ?_, ?_, ?_⟩
    · rw [List.flatMap_append]
      exact laterFindings.trans (findings.append_right _)
    · rw [laterStarts, afterStatic, List.filterMap_append]
      exact everywhere starts _
    · rw [laterEnds, afterStatic, List.filterMap_append]
      exact everywhere ends _

/-- How a run accounts for the checks of a selection. -/
structure Accounted (checks : List Check) (statics runtime : List Outcome) (report : RunReport σ) :
    Prop where
  /-- Something has come of every check, under its place and its slug. -/
  named : ((statics ++ runtime).map fun o => (o.place, o.slug)).Perm
    (checks.zipIdx.map fun e => (e.2, e.1.slug))
  sorted : runtime.Pairwise fun o o' => o.place < o'.place
  starts : (report.trace.filterMap Event.started?).Perm (List.range checks.length)
  ends : (report.trace.filterMap Event.ended?).Perm (List.range checks.length)
  findings : ∀ record, report.result = .ok record →
    record.findings.Perm ((statics ++ runtime).flatMap Outcome.found)
  /-- The static checks are recorded in any order, the runtime checks in that of the selection. -/
  failures : ∀ record, report.result = .ok record →
    ∃ failures, failures.Perm (statics.filterMap Outcome.failure?) ∧
      record.failures = failures ++ runtime.filterMap Outcome.failure?

theorem static_labels (context : Context) (tree : FileTree) (checks : List Check) :
    (staticOutcomes context tree checks).map (fun o => (o.place, o.slug)) =
      (staticTasks context tree checks).map fun t => (t.place, t.slug) := by
  rw [staticOutcomes, List.map_map]
  rfl

theorem accounted_without_runtime {host : Option (Host σ)} {settings : RunSettings}
    {conditions : RunConditions} {context : Context} {tree : FileTree} {checks : List Check}
    {world : σ} (none : runtimeChecks checks = [])
    (undisturbed : Undisturbed (run host settings conditions context tree checks world).result) :
    Accounted checks (staticOutcomes context tree checks) []
      (run host settings conditions context tree checks world) := by
  rw [run_without_runtime none] at undisturbed ⊢
  obtain ⟨failures, findings, starts, ends⟩ :=
    staticPhase_settled (undisturbed_conclude undisturbed)
  have places := places_perm context tree checks
  have named := selection_perm context tree checks
  rw [none, List.map_nil, List.append_nil] at places named
  constructor
  · rw [List.append_nil, static_labels]
    exact named
  · exact .nil
  · rw [List.filterMap_reverse]
    exact (List.reverse_perm _).trans (starts.trans places)
  · rw [List.filterMap_reverse]
    exact (List.reverse_perm _).trans (ends.trans places)
  · intro record result
    rw [← (conclude_ok result).2.2, List.append_nil]
    exact findings
  · intro record result
    rw [← (conclude_ok result).2.2]
    exact ⟨_, failures, by simp⟩

theorem accounted_prepared {host : Host σ} {session : Nat} {settings : RunSettings}
    {conditions : RunConditions} {context : Context} {tree : FileTree} {checks : List Check}
    {opened : σ} {scene : Scene σ} {cleanups : List Cleanup} {name : String}
    (set : (setUpAll (preparations settings context name (runtimeChecks checks))).run
      (answerSetup host session) (opened, []) = (.ok cleanups, scene))
    {checked : Option Stop × Progress σ}
    (phase : checkPhase host ⟨session, context, name⟩ settings conditions
      (staticTasks context tree checks) (runtimeChecks checks) scene = checked)
    (undisturbed : Undisturbed (finish host session cleanups checked).result) :
    Accounted checks (staticOutcomes context tree checks)
      (Progress.outcomes host ⟨session, context, name⟩ (runtimeChecks checks) scene.1 .none)
      (finish host session cleanups checked) := by
  obtain ⟨stop, p⟩ := checked
  obtain rfl : stop = none := undisturbed_conclude undisturbed
  obtain ⟨failures, findings, starts, ends⟩ := checkPhase_settled phase
  have quiet := (setUpFrom_marks host session set).1
  have undone := undoAll_adds host session cleanups (p.world, p.trace)
  have labels := Progress.outcomes_labels host ⟨session, context, name⟩ (runtimeChecks checks)
    scene.1 none
  rw [quiet.filterMap_eq _ fun _ h => h.2.1, List.filterMap_nil, List.append_nil] at starts
  rw [quiet.filterMap_eq _ fun _ h => h.2.2, List.filterMap_nil, List.append_nil] at ends
  constructor
  · rw [List.map_append, labels, static_labels]
    exact selection_perm context tree checks
  · have places := congrArg (List.map Prod.fst) labels
    rw [List.map_map, List.map_map] at places
    have sorted := runtime_places_sorted checks
    rw [show (runtimeChecks checks).map Prod.fst = _ from places.symm, List.pairwise_map] at sorted
    exact sorted
  · rw [finish, List.filterMap_reverse, undone.filterMap_eq _ fun _ h => h.2.1]
    exact (List.reverse_perm _).trans starts
  · rw [finish, List.filterMap_reverse, undone.filterMap_eq _ fun _ h => h.2.2]
    exact (List.reverse_perm _).trans ends
  · intro record result
    rw [finish_result] at result
    obtain ⟨-, -, rfl⟩ := conclude_ok result
    exact findings
  · intro record result
    rw [finish_result] at result
    obtain ⟨-, -, rfl⟩ := conclude_ok result
    exact failures

/-- Every selected check runs once, and the result accounts for each of them. -/
theorem run_accounts (host : Option (Host σ)) (settings : RunSettings)
    (conditions : RunConditions) (context : Context) (tree : FileTree) (checks : List Check)
    (world : σ)
    (undisturbed : Undisturbed (run host settings conditions context tree checks world).result) :
    Accounted checks (staticOutcomes context tree checks)
      (runtimeOutcomes host settings conditions context checks world)
      (run host settings conditions context tree checks world) := by
  by_cases some : runtimeChecks checks = []
  · have none : runtimeOutcomes host settings conditions context checks world = [] := by
      simp only [runtimeOutcomes, some]
      split <;> rfl
    rw [none]
    exact accounted_without_runtime some undisturbed
  · cases prepared : prepare host settings context (settings.namespaceName conditions.id)
      (runtimeChecks checks) world with
    | mk result scene =>
      cases result with
      | error e =>
        rw [run_unprepared some prepared] at undisturbed
        obtain ⟨failures, rfl⟩ := undisturbed e rfl
        rcases prepare_error prepared with ⟨-, same, -⟩ | ⟨_, _, -, same, -, -⟩ |
          ⟨_, _, _, _, -, same, -, -⟩ <;> cases same
      | ok prepared' =>
        obtain ⟨h, session, cleanups⟩ := prepared'
        obtain ⟨-, opened, -, set⟩ := prepare_ok prepared
        rw [run_prepared some prepared] at undisturbed ⊢
        simp only [runtimeOutcomes, prepared]
        exact accounted_prepared set rfl undisturbed

/-- The pool of a run is too large, and nothing else keeps the run from its checks. -/
def BreaksDown (host : Option (Host σ)) (settings : RunSettings) (conditions : RunConditions)
    (context : Context) (checks : List Check) (world : σ) : Prop :=
  overfills settings conditions = true ∧ (runtimeChecks checks = [] ∨
    ∃ prepared, (prepare host settings context (settings.namespaceName conditions.id)
      (runtimeChecks checks) world).1 = .ok prepared)

theorem attempt_cases (host : Option (Host σ)) (settings : RunSettings)
    (conditions : RunConditions) (context : Context) (tree : FileTree) (checks : List Check)
    (world : σ) :
    (¬BreaksDown host settings conditions context checks world ∧
      attempt host settings conditions context tree checks world =
        .reported (run host settings conditions context tree checks world)) ∨
    (BreaksDown host settings conditions context checks world ∧ ∃ left trace,
      attempt host settings conditions context tree checks world =
        .broken Pool.breakdown left trace ∧ ∀ e ∈ trace, e.OfSetup) := by
  cases full : overfills settings conditions with
  | false => exact .inl ⟨fun broken => by simpa [full] using broken.1, attempt_fitting full⟩
  | true =>
    by_cases none : runtimeChecks checks = []
    · refine .inr ⟨⟨full, .inl none⟩, world, [], ?_, by simp⟩
      rw [attempt_without_runtime none, full, if_pos rfl]
    · cases prepared : prepare host settings context (settings.namespaceName conditions.id)
        (runtimeChecks checks) world with
      | mk result scene =>
        cases result with
        | error e =>
          refine .inl ⟨?_, by rw [attempt_unprepared none prepared, run_unprepared none prepared]⟩
          rintro ⟨-, empty | ⟨_, same⟩⟩
          · exact none empty
          · rw [prepared] at same
            cases same
        | ok prepared' =>
          exact .inr ⟨⟨full, .inr ⟨_, by rw [prepared]⟩⟩, scene.1, scene.2.reverse,
            attempt_overfull full none prepared, fun e member =>
              prepare_ok_ofSetup prepared e (List.mem_reverse.mp member)⟩

/-- An attempt comes to a report, which accounts for every selected check unless the run has been
stopped or has not been prepared, or the pool is too large, and then no check has begun. -/
theorem attempt_accounts (host : Option (Host σ)) (settings : RunSettings)
    (conditions : RunConditions) (context : Context) (tree : FileTree) (checks : List Check)
    (world : σ) :
    (∀ report, attempt host settings conditions context tree checks world = .reported report →
      Undisturbed report.result →
        Accounted checks (staticOutcomes context tree checks)
          (runtimeOutcomes host settings conditions context checks world) report) ∧
    ((∃ report, attempt host settings conditions context tree checks world = .reported report) ↔
      ¬BreaksDown host settings conditions context checks world) ∧
    (BreaksDown host settings conditions context checks world → ∃ left trace,
      attempt host settings conditions context tree checks world =
        .broken Pool.breakdown left trace ∧ ∀ e ∈ trace, e.started? = none) := by
  rcases attempt_cases host settings conditions context tree checks world with
    ⟨fits, attempted⟩ | ⟨full, left, trace, attempted, calm⟩
  · refine ⟨fun report reported undisturbed => ?_, ⟨fun _ => fits, fun _ => ⟨_, attempted⟩⟩,
      fun full => absurd full fits⟩
    obtain rfl : run host settings conditions context tree checks world = report :=
      Attempt.reported.inj (attempted.symm.trans reported)
    exact run_accounts host settings conditions context tree checks world undisturbed
  · refine ⟨fun report reported => ?_, ⟨?_, fun fits => absurd full fits⟩,
      fun _ => ⟨left, trace, attempted, fun e member => (calm e member).2.1⟩⟩
    · rw [attempted] at reported
      cases reported
    · rintro ⟨report, reported⟩
      rw [attempted] at reported
      cases reported

/-- A runtime check that breaks down and a static check that fails, each after a finding. -/
def failing : List Check := [
  ⟨"breaking", [], .runtime ⟨fun _ => [], fun _ _ =>
    .ask (.emit (Finding.error "first" "")) fun _ => .done (.broken .opaqueValue)⟩⟩,
  ⟨"failing", [], .static fun _ _ =>
    ⟨[.emit (Finding.error "second" "")], .failed (.failed "obstacle")⟩⟩]

/-- An attempt to run them with room for so many static checks. -/
def failingAttempt (limit : Nat) : Attempt (World MemoryStore) :=
  attempt (some MemoryStore.storage.host) { RunSettings.initial with maxParallel := limit }
    ⟨"run1", [], none, false⟩ .sample ⟨.directory [], []⟩ failing
    ⟨.initial false false, [], ⟨[], []⟩⟩

def recordOf? : Attempt σ → Option CheckRecord
  | .reported report => report.result.toOption
  | .broken .. => none

def isBroken : Attempt σ → Bool
  | .reported _ => false
  | .broken .. => true

/-- They run in a pool that is as large as can be, and do not in a larger one. -/
theorem attempt_accounts_failing :
    (∃ report, failingAttempt Pool.capacity = .reported report ∧
      Accounted failing (staticOutcomes .sample ⟨.directory [], []⟩ failing)
        (runtimeOutcomes (some MemoryStore.storage.host)
          { RunSettings.initial with maxParallel := Pool.capacity } ⟨"run1", [], none, false⟩ .sample
          failing ⟨.initial false false, [], ⟨[], []⟩⟩) report) ∧
    ∃ left trace, failingAttempt (Pool.capacity + 1) = .broken Pool.breakdown left trace ∧
      ∀ e ∈ trace, e.started? = none := by
  have accounts (limit : Nat) := attempt_accounts (some MemoryStore.storage.host)
    { RunSettings.initial with maxParallel := limit } ⟨"run1", [], none, false⟩ .sample
    ⟨.directory [], []⟩ failing ⟨.initial false false, [], ⟨[], []⟩⟩
  constructor
  · have recorded : (recordOf? (failingAttempt Pool.capacity)).isSome = true := by decide +kernel
    cases reported : failingAttempt Pool.capacity with
    | broken how left trace =>
      rw [reported] at recorded
      cases recorded
    | reported report =>
      rw [reported] at recorded
      exact ⟨report, rfl, (accounts _).1 report reported (undisturbed_of_ok recorded)⟩
  · have broken : isBroken (failingAttempt (Pool.capacity + 1)) = true := by decide +kernel
    refine (accounts _).2.2 (Classical.byContradiction fun fits => ?_)
    obtain ⟨report, reported⟩ := (accounts _).2.1.mpr fits
    rw [show failingAttempt _ = _ from reported] at broken
    cases broken

end Run

end PluginAudit
