import PluginAudit.Proofs.RunTells
import PluginAudit.Proofs.SnapshotReadings

/-!
Runs on the host of a store. A run that has been prepared undoes its isolation last, however its
checks end. If it ends well, it went back and dropped its namespace without a problem, and found the
watched options with the values that it had captured before.
-/

namespace PluginAudit

open Preparation Isolation

namespace Isolation

variable {σ : Type} {ask : (c : HostCall) → σ → c.Answer × σ} {s : σ}

theorem leave_nil {former name : String} (left : ((leave former name).run ask s).1 = []) :
    ∃ t, ask (.switchTo former) s = (.ok (), t) ∧
      ask (.dropNamespace name) t = (.ok (), ((leave former name).run ask s).2) := by
  cases switched : ask (.switchTo former) s with
  | mk answer t =>
    cases answer with
    | error e =>
      simp only [leave, Program.run_ask, switched] at left
      cases left
    | ok _ =>
      refine ⟨t, rfl, ?_⟩
      cases dropped : ask (.dropNamespace name) t with
      | mk answer u =>
        cases answer with
        | error e =>
          simp only [leave, Program.run_ask, switched, dropped] at left
          cases left
        | ok _ => simp only [leave, Program.run_ask, switched, dropped, Program.run_pure]

end Isolation

theorem World.connect_ok {σ : Type} {storage : Storage σ} {w opened : World σ} {i : Nat}
    (connected : World.connect storage w = (.ok i, opened)) :
    i < opened.sessions.length ∧ (opened.session i).current = storage.base w.store ∧
      opened.store = w.store := by
  simp only [World.connect] at connected
  split at connected
  · cases connected
    simp [World.session]
  · cases connected

theorem Storage.store_switched {σ : Type} (storage : Storage σ) (refused : List String) (i : Nat)
    (name : String) (w : World σ) :
    ((storage.host.refusing refused).ask i (.switchTo name) w).2.store = w.store := by
  simp only [Host.refusing, Storage.host, World.ask]
  split
  · rfl
  · split <;> rfl

/-- An isolation that has been set up has taken its snapshot of the namespace where the session
was, and has created its own. -/
theorem Isolation.SetUp.snapshot_of {σ : Type} {storage : Storage σ} {refused : List String}
    {i : Nat} {basename name theme : String} {start s : World σ} {c : Cleanup}
    (way : SetUp ((storage.host.refusing refused).ask i) basename name theme start (.ok c) s) :
    ∃ ids before, c = cleanup ids (start.session i).current name (snapshotOf before) ∧
      WatchedAs ((storage.host.refusing refused).ask i) start before ∧
      storage.create name start.store = .ok s.store := by
  cases way with
  | entered snapshot former t u v x captured current created switched =>
    have reading := storage.run_still refused i (Snapshot.captureFrom_reads [] watchedKeys) start
    have same : t = start := (congrArg Prod.snd captured).symm.trans reading
    subst same
    obtain ⟨before, watched, rfl⟩ := capture_ok
      (fun c reads => storage.ask_still refused i reads t) (congrArg Prod.fst captured)
    cases current
    obtain ⟨made, creation, rfl⟩ := World.ask_createNamespace_ok storage i created
    have entering := storage.store_switched refused i name { t with store := made }
    rw [switched] at entering
    have adding := storage.run_store refused i (addAll_stays (overrides basename theme)) x
    refine ⟨_, before, rfl, watched, ?_⟩
    rw [adding, entering]
    exact creation

/-- The undoing of the isolation leaves the namespace of the run, or tells what is in the way of
that, and then compares the watched options as they are at its end. -/
theorem Isolation.undo_compares {σ : Type} (storage : Storage σ) (refused : List String)
    {i : Nat} (ids : List Nat) (base name : String) (before : String → Option Json) {w : World σ}
    (bound : i < w.sessions.length) :
    let undone := (undo ids base name (snapshotOf before)).run
      ((storage.host.refusing refused).ask i) w
    ∃ log problems told, Leaves base name log problems ∧
      (problems = [] → (undone.2.session i).current = base ∧
        ∃ u, (storage.host.refusing refused).ask i (.dropNamespace name) u = (.ok (), undone.2)) ∧
      Verified ((storage.host.refusing refused).ask i) undone.2 before told ∧
      undone.1 = verdict (problems ++ told) := by
  rw [run_undo]
  obtain ⟨stillOpen, -⟩ := (storage.lawful refused).run_stays (removeAll_stays ids) bound
  generalize ((removeAll ids).run ((storage.host.refusing refused).ask i) w).2 = removed
    at stillOpen
  have leaving := (leave_tells (storage.lawful refused) base name stillOpen).2
  have leaves := leave_exchanges ((storage.host.refusing refused).ask i) base name removed
  simp only [storage.run_still refused i (verify_reads (snapshotOf before))]
  refine ⟨_, _, _, leaves, fun quiet => ?_, verify_cases (fun c reads => ?_) before, rfl⟩
  · rcases leaving with ⟨-, back⟩ | ⟨problem, member, -⟩
    · obtain ⟨u, -, dropped⟩ := leave_nil quiet
      exact ⟨back, u, dropped⟩
    · rw [quiet] at member
      cases member
  · exact storage.ask_still refused i reads _

namespace Run

section

variable {σ : Type} {host : Host σ} {settings : RunSettings} {context : Context} {i : Nat}

/-- When all preparations have been set up, the isolation's cleanup comes last. -/
theorem isolation_undone_last {name : String} {runtime : List (Nat × String × RuntimeCheck)}
    {opened : σ} {cleanups : List Cleanup} {scene : Scene σ}
    (set : (setUpAll (preparations settings context name runtime)).run (answerSetup host i)
      (opened, []) = (.ok cleanups, scene)) :
    ∃ new last start, cleanups = new ++ [last] ∧
      SetUp (host.ask i) context.basename name settings.theme opened (.ok last) start.1 ∧
      (setUpFrom [last] (commonPreparations context runtime)).run (answerSetup host i) start =
        (.ok (new ++ [last]), scene) := by
  have way := preparation_cases host i context.basename name settings.theme
    (announced (.setUp 0 preparationName) (opened, []))
  unfold setUpAll preparations at set
  cases first : (Isolation.preparation context.basename name settings.theme).setup.run
      (answerStep host i) (announced (.setUp 0 preparationName) (opened, [])) with
  | mk answer s =>
    rw [first] at way
    cases answer with
    | error cause =>
      rw [setUpFrom_cons_error host i first] at set
      cases set
    | ok c =>
      rw [setUpFrom_cons_ok host i first] at set
      -- The isolation is the first step, and its cleanup has had this place from the beginning.
      have placed : { c with place := ([] : List Cleanup).length } = c := by
        obtain ⟨ids, former, snapshot, rfl, -⟩ := way.cleanup_eq
        rfl
      rw [placed] at set
      have ended : SetUpEnd host i (fun _ => True) [c] _ _ :=
        setUpFrom_end host i (fun _ _ => id) _ (commonPreparations context runtime) s True.intro
      rw [set] at ended
      cases ended with
      | allDone new _ kept => exact ⟨new, c, s, rfl, way, set⟩

/-- How a run ends whose isolation is undone last. -/
theorem finish_last (host : Host σ) (i : Nat) (new : List Cleanup) (ids : List Nat)
    (former name : String) (snapshot : Snapshot) (checked : Option Stop × Progress σ) :
    let others := (undoAll new).run (answerSetup host i) (checked.2.world, checked.2.trace)
    let undone := (undo ids former name snapshot).run (host.ask i) others.2.1
    let last := cleanup ids former name snapshot
    let report := finish host i (new ++ [last]) checked
    report.result = conclude checked.1 (others.1 ++ failuresAfter last undone.1 [])
        checked.2.record ∧
      report.world = undone.2 := by
  intro others undone last report
  have step := run_inStep host i (undo ids former name snapshot)
    (announced (.undo last.place last.name) others.2)
  have asked : ((undo ids former name snapshot).inStep.run (answerStep host i)
      (announced (.undo last.place last.name) others.2)).1 = undone.1 := step.1
  have left : ((undo ids former name snapshot).inStep.run (answerStep host i)
      (announced (.undo last.place last.name) others.2)).2.1 = undone.2 := step.2
  simp only [report, last, finish, undoAll_append, undoAll_cons, undoAll_nil, cleanup_undo]
  exact ⟨by rw [← asked], left⟩

end

variable {σ : Type} (storage : Storage σ) (refused : List String) (settings : RunSettings)
  (conditions : RunConditions) (context : Context) (tree : FileTree) (checks : List Check)
  (w : World σ)

/-- The run on a host of the store that does not let sessions into some namespaces. -/
abbrev runIn : RunReport (World σ) :=
  run (some (storage.host.refusing refused)) settings conditions context tree checks w

/-- The preparation of that run. -/
abbrev prepareIn : Except RunError (Host (World σ) × Nat × List Cleanup) × Scene (World σ) :=
  prepare (some (storage.host.refusing refused)) settings context
    (settings.namespaceName conditions.id) (runtimeChecks checks) w

/-- The checks of that run, in this session and after these preparations. -/
abbrev phaseIn (i : Nat) (scene : Scene (World σ)) : Option Stop × Progress (World σ) :=
  checkPhase (storage.host.refusing refused) ⟨i, context, settings.namespaceName conditions.id⟩
    settings conditions (staticTasks context tree checks) (runtimeChecks checks) scene

/-- How a run went that was prepared: the values of the watched options when its session was opened,
and what its isolation left to be undone after the cleanups of the other preparations. -/
structure Course (i : Nat) (scene : Scene (World σ)) where
  opened : World σ
  before : String → Option Json
  ids : List Nat
  last : Cleanup
  start : Scene (World σ)
  others : List Cleanup
  connected : (storage.host.refusing refused).connect w = (.ok i, opened)
  watched : WatchedAs ((storage.host.refusing refused).ask i) opened before
  created : storage.create (settings.namespaceName conditions.id) w.store = .ok start.1.store
  isolation : last = cleanup ids (storage.base w.store) (settings.namespaceName conditions.id)
    (snapshotOf before)
  set : (setUpFrom [last] (commonPreparations context (runtimeChecks checks))).run
    (answerSetup (storage.host.refusing refused) i) start = (.ok (others ++ [last]), scene)
  bound : i < scene.1.sessions.length
  run_eq : runIn storage refused settings conditions context tree checks w =
    finish (storage.host.refusing refused) i (others ++ [last])
      (phaseIn storage refused settings conditions context tree checks i scene)

variable {storage refused settings conditions context tree checks w}

variable (tree) in
theorem course_of_prepared (some : runtimeChecks checks ≠ []) {host : Host (World σ)} {i : Nat}
    {cleanups : List Cleanup} {scene : Scene (World σ)}
    (prepared : prepareIn storage refused settings conditions context checks w =
      (.ok (host, i, cleanups), scene)) :
    Nonempty (Course storage refused settings conditions context tree checks w i scene) := by
  have run_eq : runIn storage refused settings conditions context tree checks w = _ :=
    run_prepared some prepared
  obtain ⟨same, opened, connected, all⟩ := prepare_ok prepared
  cases same
  obtain ⟨others, last, start, rfl, way, set⟩ := isolation_undone_last all
  obtain ⟨ids, before, isolation, watched, created⟩ := way.snapshot_of
  obtain ⟨began, placed, store⟩ := World.connect_ok connected
  rw [placed] at isolation
  rw [store] at created
  have bound : i < ((setUpAll (preparations settings context (settings.namespaceName conditions.id)
      (runtimeChecks checks))).run (answerSetup (storage.host.refusing refused) i)
        (opened, [])).2.1.sessions.length := (storage.lawful refused).run_open _ began
  rw [all] at bound
  exact ⟨⟨opened, before, ids, last, start, others, connected, watched, created, isolation, set,
    bound, run_eq⟩⟩

namespace Course

variable {i : Nat} {scene : Scene (World σ)}
  (course : Course storage refused settings conditions context tree checks w i scene)

/-- What has come of the cleanups of the other preparations, when the undoing of the isolation
begins. -/
def cleaned : List UndoFailure × Scene (World σ) :=
  let phase := phaseIn storage refused settings conditions context tree checks i scene
  (undoAll course.others).run (answerSetup (storage.host.refusing refused) i)
    (phase.2.world, phase.2.trace)

theorem cleaned_bound : i < course.cleaned.2.1.sessions.length := by
  have checked := (storage.lawful refused).checkPhase_open
    ⟨i, context, settings.namespaceName conditions.id⟩ settings conditions
    (staticTasks context tree checks) (runtimeChecks checks) course.bound
  exact (storage.lawful refused).run_open (undoAll course.others) (s := (_, _)) checked

theorem finished :
    let report := runIn storage refused settings conditions context tree checks w
    let phase := phaseIn storage refused settings conditions context tree checks i scene
    let undone := (undo course.ids (storage.base w.store) (settings.namespaceName conditions.id)
      (snapshotOf course.before)).run ((storage.host.refusing refused).ask i) course.cleaned.2.1
    report.result = conclude phase.1
        (course.cleaned.1 ++ failuresAfter course.last undone.1 []) phase.2.record ∧
      report.world = undone.2 := by
  intro report phase
  obtain ⟨result, world⟩ := finish_last (storage.host.refusing refused) i course.others course.ids
    (storage.base w.store) (settings.namespaceName conditions.id) (snapshotOf course.before) phase
  rw [← course.isolation, ← course.run_eq] at result world
  exact ⟨result, world⟩

/-- The run ends with the leaving of its namespace and the comparison of the watched options. -/
theorem ended :
    let report := runIn storage refused settings conditions context tree checks w
    let phase := phaseIn storage refused settings conditions context tree checks i scene
    ∃ log problems told,
      Leaves (storage.base w.store) (settings.namespaceName conditions.id) log problems ∧
      (problems = [] → (report.world.session i).current = storage.base w.store ∧
        ∃ u, (storage.host.refusing refused).ask i
          (.dropNamespace (settings.namespaceName conditions.id)) u = (.ok (), report.world)) ∧
      Verified ((storage.host.refusing refused).ask i) report.world course.before told ∧
      report.result = conclude phase.1
        (course.cleaned.1 ++ failuresAfter course.last (verdict (problems ++ told)) [])
        phase.2.record := by
  intro report phase
  obtain ⟨result, world⟩ := course.finished
  obtain ⟨log, problems, told, leaves, back, verified, undone⟩ := undo_compares storage refused
    course.ids (storage.base w.store) (settings.namespaceName conditions.id) course.before
    course.cleaned_bound
  rw [← world] at back verified
  rw [undone] at result
  exact ⟨log, problems, told, leaves, back, verified, result⟩

/-- A run that ends well has dropped its namespace and reads the watched options as before. -/
theorem restored {record : CheckRecord}
    (ok : (runIn storage refused settings conditions context tree checks w).result = .ok record) :
    let report := runIn storage refused settings conditions context tree checks w
    ((report.world.session i).current = storage.base w.store ∧
        ∃ u, (storage.host.refusing refused).ask i
          (.dropNamespace (settings.namespaceName conditions.id)) u = (.ok (), report.world)) ∧
      ∃ after, WatchedAs ((storage.host.refusing refused).ask i) report.world after ∧
        changedKeys course.before after = [] := by
  intro report
  obtain ⟨log, problems, told, -, back, verified, result⟩ := course.ended
  rw [result] at ok
  obtain ⟨-, failures, -⟩ := conclude_ok ok
  obtain ⟨left, nothing⟩ := List.append_eq_nil_iff.mp
    (verdict_eq_ok.mp (failuresAfter_eq_nil (List.append_eq_nil_iff.mp failures).2))
  refine ⟨back left, ?_⟩
  cases verified with
  | restored after read same => exact ⟨after, read, same⟩
  | changed after read some => cases nothing
  | unread key member cause refusal => cases nothing

end Course

theorem course_of_ok (some : runtimeChecks checks ≠ []) {record : CheckRecord}
    (ok : (runIn storage refused settings conditions context tree checks w).result = .ok record) :
    ∃ i scene,
      Nonempty (Course storage refused settings conditions context tree checks w i scene) := by
  rcases prepared : prepareIn storage refused settings conditions context checks w with
    ⟨e | ⟨host, i, cleanups⟩, scene⟩
  · rw [runIn, run_unprepared some prepared] at ok
    cases ok
  · exact ⟨i, scene, course_of_prepared tree some prepared⟩

end Run

end PluginAudit
