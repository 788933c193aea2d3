import PluginAudit.Proofs.RunOrder

/-!
The loading of the plugin in a run. Until it succeeds, every check that asks for it makes a request
of its own and is told how that went; from then on all are given the report of the one that
succeeded, and nothing more is requested.
-/

namespace PluginAudit

namespace Progress

variable {σ : Type} (host : Host σ) (env : Environment) (watch : Watch)

/-- The request that is made if the plugin is to be loaded and has not been. -/
def requestAt (p : Progress σ) : Load.Request :=
  ⟨env.context.mainFile, env.context.basename, env.namespaceName,
    (host.ask env.session .overrides p.world).1⟩

/-- What comes of that request. -/
def outcomeAt (p : Progress σ) : Load.Outcome :=
  (host.load env.session (requestAt host env p) (host.ask env.session .overrides p.world).2).1

/-- The calls of a body that is aborted while it is at work, with the states in which it makes
them. -/
def callsAborted : Program checkCalls Ending → Progress σ → List (CheckCall × Progress σ)
  | .done _, _ => []
  | .ask c next, p =>
    (c, p) :: match answer host env c p with
      | (_, .wait _, _) => []
      | (a, .hold ms, q) => callsAborted (next a) { q with clock := q.clock + ms }
      | (a, .none, q) => callsAborted (next a) q

def callsHalted (state : TaskState) (p : Progress σ) : List (CheckCall × Progress σ) :=
  match state with
  | .spawned _ | .waiting _ => []
  | .busy rest => callsAborted host env rest p

/-- The calls of a body until it is over, with the states in which it makes them. -/
def callsOf : Program checkCalls Ending → Progress σ → List (CheckCall × Progress σ)
  | .done _, _ => []
  | .ask c next, p =>
    let (a, wait, q) := answer host env c p
    (c, p) :: match pause watch wait q with
      | (some _, q) => callsHalted host env (wait.state (next a)) q
      | (none, q) => callsOf (next a) q

/-- The calls of checks, one check after another. -/
def callsOfAll (first : Bool) :
    List (Nat × String × RuntimeCheck) → Progress σ → List (CheckCall × Progress σ)
  | [], _ => []
  | (place, slug, check) :: rest, p =>
    match stopBefore? watch first p with
    | some _ => []
    | none =>
      let body := check.body env.context env.namespaceName
      callsOf host env watch body (p.tell (.started place)) ++
        match runBody host env watch body (p.tell (.started place)) with
        | (.error _, _) => []
        | (.ok ending, q) =>
          callsOfAll false rest { q.tell (.ended place) with
            record := q.record.close slug ending }

/-- The states in which the plugin is asked to be loaded. -/
def loadPoints (calls : List (CheckCall × Progress σ)) : List (Progress σ) :=
  calls.filterMap fun
    | (.load, p) => some p
    | _ => none

/-- How loading goes on from what has been reported before: the states in which it is asked for, the
requests that are made, and what has been reported afterwards. -/
inductive Loads : Option Load.Report → List (Progress σ) → List Load.Request →
    Option Load.Report → Prop
  | rest (report : Option Load.Report) : Loads report [] [] report
  | failed (p : Progress σ) (e : HostRefusal) (points : List (Progress σ))
      (requests : List Load.Request) (last : Option Load.Report) (missing : p.report = none)
      (fails : (outcomeAt host env p).result = .error e) (more : Loads none points requests last) :
      Loads none (p :: points) (requestAt host env p :: requests) last
  | loaded (p : Progress σ) (report : Load.Report) (points : List (Progress σ))
      (requests : List Load.Request) (last : Option Load.Report) (missing : p.report = none)
      (succeeds : (outcomeAt host env p).result = .ok report)
      (more : Loads (some report) points requests last) :
      Loads none (p :: points) (requestAt host env p :: requests) last
  | again (p : Progress σ) (report : Load.Report) (points : List (Progress σ))
      (requests : List Load.Request) (last : Option Load.Report) (there : p.report = some report)
      (more : Loads (some report) points requests last) :
      Loads (some report) (p :: points) requests last

/-- The plugin is requested until it has been loaded. Whoever asks earlier is told why it could not
be, and whoever asks later is given the same report at once. -/
structure LoadedOnce (points : List (Progress σ)) (requests : List Load.Request) : Prop where
  once : ∃ failed rest, points = failed ++ rest ∧
    requests = (failed ++ rest.take 1).map (requestAt host env) ∧
    (∀ p ∈ failed, ∃ e, (outcomeAt host env p).result = .error e ∧
      (load host env p).1 = .error e) ∧
    ∀ q later, rest = q :: later → ∃ report, (outcomeAt host env q).result = .ok report ∧
      (load host env q).1 = .ok report ∧ ∀ p ∈ later, load host env p = (.ok report, .none, p)

variable {host env}

theorem Loads.append {a b c : Option Load.Report} {points later : List (Progress σ)}
    {requests more : List Load.Request} (first : Loads host env a points requests b)
    (second : Loads host env b later more c) :
    Loads host env a (points ++ later) (requests ++ more) c := by
  induction first with
  | rest report => exact second
  | failed p e points requests last missing fails _ ih =>
    exact .failed p e _ _ _ missing fails (ih second)
  | loaded p report points requests last missing succeeds _ ih =>
    exact .loaded p report _ _ _ missing succeeds (ih second)
  | again p report points requests last there _ ih => exact .again p report _ _ _ there (ih second)

theorem load_missing {p : Progress σ} (missing : p.report = none) :
    (load host env p).1 = (outcomeAt host env p).result ∧
      (load host env p).2.2.report = (outcomeAt host env p).result.toOption ∧
      (load host env p).2.2.trace = .loaded (requestAt host env p) :: p.trace := by
  simp only [load, missing]
  exact ⟨rfl, rfl, rfl⟩

theorem load_there {p : Progress σ} {report : Load.Report} (there : p.report = some report) :
    load host env p = (.ok report, .none, p) := by
  simp only [load, there]

/-- When the plugin has been loaded, nothing is requested any more. -/
theorem Loads.again_all {report : Load.Report} {points : List (Progress σ)}
    {requests : List Load.Request} {last : Option Load.Report}
    (h : Loads host env (some report) points requests last) :
    requests = [] ∧ ∀ p ∈ points, load host env p = (.ok report, .none, p) := by
  generalize start : some report = first at h
  induction h with
  | rest => simp
  | failed => cases start
  | loaded => cases start
  | again p other points requests last there _ ih =>
    cases start
    obtain ⟨nothing, others⟩ := ih rfl
    exact ⟨nothing, List.forall_mem_cons.mpr ⟨load_there there, others⟩⟩

theorem Loads.loadedOnce {points : List (Progress σ)} {requests : List Load.Request}
    {last : Option Load.Report} (h : Loads host env none points requests last) :
    LoadedOnce host env points requests := by
  generalize start : none = first at h
  induction h with
  | rest => exact ⟨[], [], rfl, rfl, by simp, by simp⟩
  | failed p e points requests last missing fails _ ih =>
    obtain ⟨failed, rest, rfl, rfl, all, later⟩ := (ih rfl).once
    refine ⟨p :: failed, rest, rfl, rfl, List.forall_mem_cons.mpr ⟨⟨e, fails, ?_⟩, all⟩, later⟩
    rw [(load_missing missing).1, fails]
  | loaded p report points requests last missing succeeds more =>
    obtain ⟨rfl, later⟩ := more.again_all
    refine ⟨[], p :: points, rfl, rfl, by simp, fun q rest same => ?_⟩
    cases same
    exact ⟨report, succeeds, (load_missing missing).1.trans succeeds, later⟩
  | again => cases start

/-- The requests that have been added to a trace, the latest event first. -/
def Requested (requests : List Load.Request) (p q : Progress σ) : Prop :=
  q.trace.filterMap Event.loaded? = requests.reverse ++ p.trace.filterMap Event.loaded?

theorem Requested.trans {requests more : List Load.Request} {p q r : Progress σ}
    (first : Requested requests p q) (second : Requested more q r) :
    Requested (requests ++ more) p r := by
  unfold Requested at first second ⊢
  rw [second, first, List.reverse_append, List.append_assoc]

variable (host env)

theorem answer_loads (c : CheckCall) (p : Progress σ) :
    ∃ requests, Loads host env p.report (loadPoints [(c, p)]) requests
        (answer host env c p).2.2.report ∧ Requested requests p (answer host env c p).2.2 := by
  cases c with
  | load =>
    cases there : p.report with
    | none =>
      obtain ⟨-, report, trace⟩ := @load_missing σ host env p there
      refine ⟨[requestAt host env p], ?_, ?_⟩
      · simp only [answer, report]
        cases result : (outcomeAt host env p).result with
        | error e => exact .failed p e [] [] none there result (.rest none)
        | ok report => exact .loaded p report [] [] _ there result (.rest _)
      · simp only [Requested, answer, trace]
        rfl
    | some report =>
      refine ⟨[], ?_, ?_⟩
      · simp only [answer, load_there there, there]
        exact .again p report [] [] _ there (.rest _)
      · simp only [Requested, answer, load_there there]
        rfl
  | option key => exact ⟨[], .rest _, rfl⟩
  | addOverride key value => exact ⟨[], .rest _, rfl⟩
  | removeOverride id => exact ⟨[], .rest _, rfl⟩
  | overrides => exact ⟨[], .rest _, rfl⟩
  | emit f => exact ⟨[], .rest _, rfl⟩
  | note text => exact ⟨[], .rest _, rfl⟩
  | sleep ms => exact ⟨[], .rest _, rfl⟩
  | block ms => exact ⟨[], .rest _, rfl⟩
  | cancel => exact ⟨[], .rest _, rfl⟩

theorem loadPoints_cons (call : CheckCall × Progress σ) (calls : List (CheckCall × Progress σ)) :
    loadPoints (call :: calls) = loadPoints [call] ++ loadPoints calls := by
  rw [← List.singleton_append, loadPoints, List.filterMap_append]
  rfl

theorem windDown_loads (body : Program checkCalls Ending) (p : Progress σ) :
    ∃ requests, Loads host env p.report (loadPoints (callsAborted host env body p)) requests
        (windDown host env body p).2.report ∧
      Requested requests p (windDown host env body p).2 := by
  induction body generalizing p with
  | done ending => exact ⟨[], .rest _, rfl⟩
  | ask c next ih =>
    obtain ⟨requests, loads, requested⟩ := answer_loads host env c p
    simp only [windDown, callsAborted]
    rw [loadPoints_cons]
    cases answered : answer host env c p with
    | mk a pausing =>
      obtain ⟨pause, q⟩ := pausing
      rw [answered] at loads requested
      cases pause with
      | wait ms =>
        refine ⟨requests, ?_, requested⟩
        rw [show loadPoints ([] : List (CheckCall × Progress σ)) = [] from rfl, List.append_nil]
        exact loads
      | hold ms =>
        obtain ⟨more, later, requested'⟩ := ih a { q with clock := q.clock + ms }
        exact ⟨requests ++ more, loads.append later, requested.trans requested'⟩
      | none =>
        obtain ⟨more, later, requested'⟩ := ih a q
        exact ⟨requests ++ more, loads.append later, requested.trans requested'⟩

theorem halt_loads (state : TaskState) (p : Progress σ) :
    ∃ requests, Loads host env p.report (loadPoints (callsHalted host env state p)) requests
        (halt host env state p).2.report ∧
      Requested requests p (halt host env state p).2 := by
  cases state with
  | spawned body => exact ⟨[], .rest _, rfl⟩
  | waiting rest => exact ⟨[], .rest _, rfl⟩
  | busy rest => exact windDown_loads host env rest p

theorem runBody_loads (body : Program checkCalls Ending) (p : Progress σ) :
    ∃ requests, Loads host env p.report (loadPoints (callsOf host env watch body p)) requests
        (runBody host env watch body p).2.report ∧
      Requested requests p (runBody host env watch body p).2 := by
  induction body generalizing p with
  | done ending =>
    rw [runBody_done]
    split <;> exact ⟨[], .rest _, rfl⟩
  | ask c next ih =>
    obtain ⟨requests, loads, requested⟩ := answer_loads host env c p
    obtain ⟨clock, kept⟩ := pause_keeps watch (answer host env c p).2.1 (answer host env c p).2.2
    rw [runBody_ask]
    simp only [callsOf]
    rw [loadPoints_cons]
    cases paused : pause watch (answer host env c p).2.1 (answer host env c p).2.2 with
    | mk stopped q =>
      -- Time that passes changes neither the report nor the trace.
      rw [paused] at kept
      cases kept
      cases stopped with
      | some stop =>
        obtain ⟨more, later, requested'⟩ := halt_loads host env
          ((answer host env c p).2.1.state (next (answer host env c p).1))
          { (answer host env c p).2.2 with clock }
        exact ⟨requests ++ more, loads.append later, requested.trans requested'⟩
      | none =>
        obtain ⟨more, later, requested'⟩ :=
          ih (answer host env c p).1 { (answer host env c p).2.2 with clock }
        exact ⟨requests ++ more, loads.append later, requested.trans requested'⟩

theorem runChecks_loads (first : Bool) (checks : List (Nat × String × RuntimeCheck))
    (p : Progress σ) :
    ∃ requests, Loads host env p.report
        (loadPoints (callsOfAll host env watch first checks p)) requests
        (runChecks host env watch first checks p).2.report ∧
      Requested requests p (runChecks host env watch first checks p).2 := by
  induction checks generalizing first p with
  | nil => exact ⟨[], .rest _, rfl⟩
  | cons entry rest ih =>
    obtain ⟨place, slug, check⟩ := entry
    obtain ⟨requests, loads, requested⟩ := runBody_loads host env watch
      (check.body env.context env.namespaceName) (p.tell (.started place))
    obtain ⟨stop, record, before, came⟩ | ⟨stop, q, record, before, ran, came⟩ |
      ⟨ending, q, before, ran, came⟩ := runChecks_cases host env watch first place slug check rest p
    · rw [came]
      simp only [callsOfAll, before]
      exact ⟨[], .rest _, rfl⟩
    · rw [came]
      rw [ran] at loads requested
      simp only [callsOfAll, before, ran, List.append_nil]
      exact ⟨requests, loads, requested⟩
    · rw [came]
      rw [ran] at loads requested
      obtain ⟨more, later, requested'⟩ := ih false { q.tell (.ended place) with
        record := q.record.close slug ending }
      have ended : Requested requests p (q.tell (.ended place)) := requested
      refine ⟨requests ++ more, ?_, ended.trans requested'⟩
      simp only [callsOfAll, before, ran]
      simp only [loadPoints, List.filterMap_append] at loads later ⊢
      exact loads.append later

end Progress

namespace Run

open Progress

variable {σ : Type}

theorem staticPhase_loads (settings : RunSettings) (conditions : RunConditions) (context : Context)
    (tree : FileTree) (checks : List Check) :
    (staticPhase settings conditions context tree checks).2.2.trace.filterMap Event.loaded? = [] := by
  rw [List.filterMap_eq_nil_iff]
  intro e member
  have quiet := ((staticPhase_trace settings conditions context tree checks).1 e member).2
  cases e <;> simp_all [Event.loaded?, Event.asksHost]

theorem undoAll_loads (host : Host σ) (session : Nat) (cleanups : List Cleanup) (s : Scene σ) :
    ((Preparation.undoAll cleanups).run (answerSetup host session) s).2.2.filterMap Event.loaded? =
      s.2.filterMap Event.loaded? :=
  (Preparation.undoAll_adds_kind host session (fun _ => rfl) (fun _ => rfl) (fun _ _ => rfl) cleanups
    s).filterMap_eq Event.loaded? fun _ unseen => unseen

theorem prepare_loads (host : Option (Host σ)) (settings : RunSettings) (context : Context)
    (name : String) (runtime : List (Nat × String × RuntimeCheck)) (world : σ) :
    (prepare host settings context name runtime world).2.2.filterMap Event.loaded? = [] :=
  (prepare_adds_kind (fun _ => rfl) (fun _ => rfl) (fun _ _ => rfl) (fun _ _ => rfl) host settings
    context name runtime world).filterMap_eq Event.loaded? fun _ unseen => unseen

/-- The calls of the runtime checks of a prepared run, with the states in which they are made. -/
def callsOfRun (host : Host σ) (env : Environment) (settings : RunSettings)
    (conditions : RunConditions) (tree : FileTree) (checks : List Check) (scene : Scene σ) :
    List (CheckCall × Progress σ) :=
  let phase := staticPhase settings conditions env.context tree checks
  match phase.1 with
  | some _ => []
  | none => callsOfAll host env (conditions.watch settings) true (runtimeChecks checks)
      (afterStatic phase scene)

theorem checkPhase_loads (host : Host σ) (env : Environment) (settings : RunSettings)
    (conditions : RunConditions) (tree : FileTree) (checks : List Check) {scene : Scene σ}
    (quiet : scene.2.filterMap Event.loaded? = []) :
    ∃ requests,
      LoadedOnce host env (loadPoints (callsOfRun host env settings conditions tree checks scene))
        requests ∧
      (checkPhase host env settings conditions (staticTasks env.context tree checks)
        (runtimeChecks checks) scene).2.trace.filterMap Event.loaded? = requests.reverse := by
  have static := staticPhase_loads settings conditions env.context tree checks
  cases stopped : (staticPhase settings conditions env.context tree checks).1 with
  | some stop =>
    rw [checkPhase_stopped stopped]
    refine ⟨[], ?_, ?_⟩
    · simp only [callsOfRun, stopped]
      exact (Loads.rest none).loadedOnce
    · simp [afterStatic, static, quiet]
  | none =>
    rw [checkPhase_unstopped stopped]
    obtain ⟨requests, loads, requested⟩ := runChecks_loads host env (conditions.watch settings) true
      (runtimeChecks checks)
      (afterStatic (staticPhase settings conditions env.context tree checks) scene)
    refine ⟨requests, ?_, ?_⟩
    · simp only [callsOfRun, stopped]
      exact loads.loadedOnce
    · rw [requested]
      simp [afterStatic, static, quiet]

/-- The plugin is loaded at most once in a run, and never in one that is not prepared. -/
def LoadsOnce (host : Option (Host σ)) (settings : RunSettings) (conditions : RunConditions)
    (context : Context) (tree : FileTree) (checks : List Check) (world : σ) : Prop :=
  let name := settings.namespaceName conditions.id
  let requests := (run host settings conditions context tree checks world).trace.filterMap
    Event.loaded?
  match prepare host settings context name (runtimeChecks checks) world with
  | (.error _, _) => requests = []
  | (.ok (h, session, _), scene) => LoadedOnce h ⟨session, context, name⟩
      (loadPoints (callsOfRun h ⟨session, context, name⟩ settings conditions tree checks scene))
      requests

theorem loadsOnce_run (host : Option (Host σ)) (settings : RunSettings)
    (conditions : RunConditions) (context : Context) (tree : FileTree) (checks : List Check)
    (world : σ) : LoadsOnce host settings conditions context tree checks world := by
  unfold LoadsOnce
  intro name requests
  have quiet := prepare_loads host settings context name (runtimeChecks checks) world
  by_cases none : runtimeChecks checks = []
  · have nothing : requests = [] := by
      simp only [requests, run_without_runtime none, List.filterMap_reverse, staticPhase_loads,
        List.reverse_nil]
    cases prepare host settings context name (runtimeChecks checks) world with
    | mk result scene =>
      cases result with
      | error e => exact nothing
      | ok prepared =>
        have points : callsOfRun prepared.1 ⟨prepared.2.1, context, name⟩ settings conditions tree
            checks scene = [] := by
          simp only [callsOfRun, none]
          split <;> rfl
        simp only [points, nothing]
        exact (Loads.rest Option.none).loadedOnce
  · cases prepared : prepare host settings context name (runtimeChecks checks) world with
    | mk result scene =>
      rw [prepared] at quiet
      cases result with
      | error e =>
        simp only [requests, run_unprepared none prepared, List.filterMap_reverse]
        rw [quiet, List.reverse_nil]
      | ok prepared' =>
        obtain ⟨h, session, cleanups⟩ := prepared'
        obtain ⟨made, once, trace⟩ := checkPhase_loads h ⟨session, context, name⟩ settings
          conditions tree checks quiet
        have same : requests = made := by
          simp only [requests, run_prepared none prepared, finish, List.filterMap_reverse,
            undoAll_loads]
          rw [trace, List.reverse_reverse]
        rw [same]
        exact once

end Run

end PluginAudit
