import PluginAudit.Proofs.CheckRegistry
import PluginAudit.Proofs.Inspection
import PluginAudit.Proofs.LeadingOption
import PluginAudit.Proofs.RunOrder
import PluginAudit.Proofs.StaticSchedules
import PluginAudit.Proofs.TreePlaces

/-!
Commands without a runner. If no checks are named, the runtime checks are left out as if they had
been ruled out, and no host is needed. If a runtime check is named and selected, there is no report.
-/

namespace PluginAudit

namespace Registry

variable {r : Registry} {s : Selection} {c : Check} {settings : CheckSettings}
  {excluded : List String} {slug : String}

/-- The slugs of the checks that need a host. -/
def runtimeSlugs (r : Registry) : List String := (r.all.filter (·.kind.needsHost)).map Check.slug

theorem Keyed.slug_mem_runtimeSlugs (keyed : r.Keyed) (member : c ∈ r.all) :
    c.slug ∈ r.runtimeSlugs ↔ c.kind.needsHost = true := by
  constructor
  · intro listed
    obtain ⟨d, runtime, same⟩ := List.mem_map.mp listed
    obtain ⟨inside, needs⟩ := List.mem_filter.mp runtime
    have one := keyed.mem_all.mp inside
    rw [same, keyed.mem_all.mp member] at one
    cases one
    exact needs
  · exact fun needs => List.mem_map_of_mem (List.mem_filter.mpr ⟨member, needs⟩)

theorem Keyed.has_of_mem_runtimeSlugs (keyed : r.Keyed) (listed : slug ∈ r.runtimeSlugs) :
    r.has slug = true := by
  obtain ⟨c, runtime, rfl⟩ := List.mem_map.mp listed
  rw [has, keyed.mem_all.mp (List.mem_filter.mp runtime).1, Option.isSome_some]

/-- To rule out the runtime checks is to select without them. -/
theorem Keyed.select_excluding (keyed : r.Keyed)
    (adds : ∀ slug, slug ∈ excluded ↔ slug ∈ s.excluded ∨ slug ∈ r.runtimeSlugs) :
    r.select { s with excluded } =
      (r.select s).map fun checks => checks.filter (!·.kind.needsHost) := by
  have unknown : r.unknown { s with excluded } = r.unknown s := by
    refine (unknown_ascending r _).eq_of_mem_iff (unknown_ascending r s) fun slug => ?_
    simp only [mem_unknown, Selection.Names, adds]
    refine and_congr_left fun absent => ?_
    have other : slug ∉ r.runtimeSlugs := fun listed => by
      rw [keyed.has_of_mem_runtimeSlugs listed] at absent
      cases absent
    simp [other]
  have admitted : r.all.filter (Selects { s with excluded }) =
      (r.all.filter (Selects s)).filter (!·.kind.needsHost) := by
    rw [List.filter_filter]
    refine List.filter_congr fun c member => ?_
    rw [Bool.eq_iff_iff, Bool.and_eq_true, selects_iff, selects_iff, Bool.not_eq_true',
      ← Bool.not_eq_true, ← keyed.slug_mem_runtimeSlugs member]
    simp only [Selection.Admits, adds]
    tauto
  rw [select_eq, select_eq, unknown, admitted]
  split <;> rfl

theorem bundled_keyed (settings : CheckSettings) : (bundled settings).Keyed := by
  rw [bundled_eq_registered]
  exact registered_keyed _

theorem mem_bundled : c ∈ (bundled settings).all ↔ c ∈ bundledChecks settings :=
  (bundled_perm settings).mem_iff

/-- The settings change nothing about which checks need a host. -/
theorem mem_runtimeSlugs_bundled : slug ∈ (bundled settings).runtimeSlugs ↔
    slug = "disallowed_runtime_calls" ∨ slug = "runtime_load_errors" := by
  have runtime : ∀ c ∈ (bundled settings).all, c.kind.needsHost = true →
      c.slug ∈ (bundled settings).runtimeSlugs :=
    fun c member needs => ((bundled_keyed settings).slug_mem_runtimeSlugs member).mpr needs
  constructor
  · intro listed
    obtain ⟨c, selected, rfl⟩ := List.mem_map.mp listed
    obtain ⟨member, needs⟩ := List.mem_filter.mp selected
    have known := mem_bundled.mp member
    simp only [bundledChecks, List.mem_cons, List.not_mem_nil, or_false] at known
    rcases known with rfl | rfl | rfl | rfl
    · cases needs
    · cases needs
    · exact .inr rfl
    · exact .inl rfl
  · rintro (rfl | rfl)
    · exact runtime ⟨_, [.security], .runtime (.calls settings.disallowed)⟩
        (mem_bundled.mpr (by simp [bundledChecks])) rfl
    · exact runtime ⟨_, [.general], .runtime .diagnostics⟩
        (mem_bundled.mpr (by simp [bundledChecks])) rfl

/-- The settings change what some checks do, but not how checks are selected. -/
theorem exists_bundled (member : c ∈ (bundled settings).all) (other : CheckSettings) :
    ∃ d ∈ (bundled other).all, d.slug = c.slug ∧ d.categories = c.categories ∧
      d.kind.needsHost = c.kind.needsHost := by
  let told : Check → String × List Category × Bool :=
    fun c => (c.slug, c.categories, c.kind.needsHost)
  have same : (bundledChecks settings).map told = (bundledChecks other).map told := by
    simp only [told, bundledChecks, List.map_cons, List.map_nil, CheckBody.needsHost]
  have listed : told c ∈ (bundledChecks other).map told :=
    same ▸ List.mem_map_of_mem (mem_bundled.mp member)
  obtain ⟨d, there, equal⟩ := List.mem_map.mp listed
  simp only [told, Prod.mk.injEq] at equal
  exact ⟨d, mem_bundled.mpr there, equal⟩

end Registry

namespace Command

variable {m : Machine} {id : String} {request : CheckRequest} {context : Context}
  {checks : List Check} {colours : Bool}

theorem runtimeChecks_static (checks : List Check) :
    Run.runtimeChecks (checks.filter (!·.kind.needsHost)) = [] := by
  refine List.filterMap_eq_nil_iff.mpr fun (c, place) member => ?_
  have selected := List.mem_filter.mp (List.fst_mem_of_mem_zipIdx member)
  obtain ⟨slug, categories, kind⟩ := c
  cases kind with
  | static check => rfl
  | runtime check => cases selected.2

/-- There is no runner, and no checks are named. -/
structure Runnerless (request : CheckRequest) : Prop where
  runner : request.runner = none
  unnamed : request.selection.included = []

theorem withoutRunner_unnamed (unnamed : request.selection.included = []) :
    withoutRunner request checks = checks.filter (!·.kind.needsHost) := by
  rw [withoutRunner, unnamed, List.isEmpty_nil, if_pos rfl]

/-- What the static checks find that run without a host. -/
def staticRecord (m : Machine) (request : CheckRequest) (context : Context)
    (checks : List Check) : CheckRecord :=
  let tasks := Run.staticTasks context m.tree (checks.filter (!·.kind.needsHost))
  ((Pool.ofTasks tasks).complete (max request.maxParallel 1) []).record

theorem staticRecord_static : staticRecord m request context (checks.filter (!·.kind.needsHost)) =
    staticRecord m request context checks := by
  rw [staticRecord, List.filter_filter]
  simp only [Bool.and_self]
  rfl

/-- The settings and the conditions of a run that a command makes. -/
def settingsOf (request : CheckRequest) : RunSettings :=
  .limited request.maxParallel request.timeoutSecs

def conditionsOf (id : String) : RunConditions := ⟨id, [], none, true⟩

/-- What the static checks come to. They break down if there are to be too many at a time. -/
def staticOutcome (m : Machine) (request : CheckRequest) (context : Context)
    (checks : List Check) : Except Fault CheckRecord :=
  if Pool.capacity < max request.maxParallel 1 then .error Pool.breakdown.fault
  else .ok (staticRecord m request context checks)

theorem overfills_settingsOf : Run.overfills (settingsOf request) (conditionsOf id) =
    decide (Pool.capacity < max request.maxParallel 1) := by
  simp [Run.overfills, settingsOf, conditionsOf, RunSettings.limited,
    RunConditions.cancelledAtOnce]

/-- The checks that are left out play no part in a run. -/
theorem runChecks_unnamed (runnerless : Runnerless request) :
    runChecks m id request context checks = staticOutcome m request context checks := by
  simp only [runChecks, runnerless.runner, withoutRunner_unnamed runnerless.unnamed, pure_bind]
  rw [show RunSettings.limited request.maxParallel request.timeoutSecs = settingsOf request from rfl,
    show (⟨id, [], none, true⟩ : RunConditions) = conditionsOf id from rfl,
    Run.attempt_without_runtime (runtimeChecks_static checks), overfills_settingsOf, staticOutcome]
  by_cases full : Pool.capacity < max request.maxParallel 1
  · simp only [full, decide_true, if_true]
    rfl
  · simp only [full, decide_false, Bool.false_eq_true, if_false,
      Run.run_without_runtime (runtimeChecks_static checks)]
    rfl

theorem recorded_unnamed (runnerless : Runnerless request) :
    recorded m id request = (chosen m request).bind fun (context, checks) =>
      (staticOutcome m request context checks).map fun record => (context, record) := by
  rw [recorded]
  cases chosen m request with
  | error fault => rfl
  | ok found => simp only [Except.bind, runChecks_unnamed runnerless]

section Excluding

variable {excluded : List String}

theorem chosen_rulingOut (adds : ∀ slug, slug ∈ excluded ↔
    slug ∈ request.selection.excluded ∨ slug ∈ (Registry.bundled .initial).runtimeSlugs) :
    chosen m (rulingOut excluded request) = (chosen m request).map fun (context, checks) =>
      (context, checks.filter (!·.kind.needsHost)) := by
  have settled : checkSettings m (rulingOut excluded request) = checkSettings m request := rfl
  have path : (rulingOut excluded request).path = request.path := rfl
  have selection :
      (rulingOut excluded request).selection = { request.selection with excluded } := rfl
  simp only [chosen, settled, path, selection, bind, Except.bind]
  cases checkSettings m request with
  | error fault => rfl
  | ok settings =>
    have selected := (Registry.bundled_keyed settings).select_excluding fun slug =>
      (adds slug).trans (or_congr_right (by simp only [Registry.mem_runtimeSlugs_bundled]))
    cases Discovery.discover m.tree request.path with
    | error fault => rfl
    | ok context =>
      simp only [mapError_ok, selected]
      cases (Registry.bundled settings).select request.selection <;> rfl

/-- Whether the runtime checks are ruled out does not matter, nor does the identifier of a run. -/
theorem recorded_rulingOut (runnerless : Runnerless request) (adds : ∀ slug, slug ∈ excluded ↔
      slug ∈ request.selection.excluded ∨ slug ∈ (Registry.bundled .initial).runtimeSlugs)
    (id' : String) : recorded m id' (rulingOut excluded request) = recorded m id request := by
  have same (context : Context) (checks : List Check) :
      staticOutcome m (rulingOut excluded request) context (checks.filter (!·.kind.needsHost)) =
        staticOutcome m request context checks := by
    rw [staticOutcome, staticRecord_static]
    rfl
  have ruled : recorded m id' (rulingOut excluded request) = _ :=
    recorded_unnamed ⟨runnerless.runner, runnerless.unnamed⟩
  rw [ruled, recorded_unnamed runnerless, chosen_rulingOut adds]
  cases chosen m request with
  | error fault => rfl
  | ok found => simp only [Except.map, Except.bind, same]

theorem execute_rulingOut (runnerless : Runnerless request) (adds : ∀ slug, slug ∈ excluded ↔
      slug ∈ request.selection.excluded ∨ slug ∈ (Registry.bundled .initial).runtimeSlugs)
    (id' : String) : execute m id' colours (.check (rulingOut excluded request)) =
      execute m id colours (.check request) := by
  rw [execute_eq, execute_eq, recorded_rulingOut runnerless adds]
  rfl

/-- The option that rules out the runtime checks. -/
def skipRuntime : String := "--exclude-checks=disallowed_runtime_calls,runtime_load_errors"

theorem run_skipRuntime {args : List String}
    (reads : ofArguments? m.environment ("check" :: args) = some (.check request))
    (runnerless : Runnerless request) (id' : String) :
    run m id' colours ("check" :: skipRuntime :: args) = run m id colours ("check" :: args) := by
  have skips : Given.read .empty skipRuntime = some (Given.empty.leading "exclude-checks"
      "disallowed_runtime_calls,runtime_load_errors") := rfl
  have slugs : Given.members "disallowed_runtime_calls,runtime_load_errors" =
      ["disallowed_runtime_calls", "runtime_load_errors"] := rfl
  rw [run, run, ofArguments?_leading args skips, reads, slugs]
  refine execute_rulingOut runnerless (fun slug => ?_) id'
  simp [Registry.mem_runtimeSlugs_bundled, or_comm, or_assoc]

end Excluding

/-- Where the database of a host would be does not matter. -/
theorem execute_hostDatabase (runnerless : Runnerless request) (file : String) :
    execute m id colours (.check { request with hostDatabase := file }) =
      execute m id colours (.check request) := by
  have moved : recorded m id { request with hostDatabase := file } = _ :=
    recorded_unnamed ⟨runnerless.runner, runnerless.unnamed⟩
  rw [execute_eq, execute_eq, moved, recorded_unnamed runnerless]
  rfl

/-- A host would not be asked for anything. -/
theorem run_withoutRunner {σ : Type} (host : Option (Host σ)) (settings : RunSettings)
    (conditions : RunConditions) (context : Context) (tree : FileTree) (checks : List Check)
    (world : σ) (unnamed : request.selection.included = []) :
    let report := Run.run host settings conditions context tree (withoutRunner request checks) world
    report.world = world ∧ (∀ e ∈ report.trace, e.OfChecks ∧ e.asksHost = false) ∧
      Run.run none settings conditions context tree (withoutRunner request checks) world =
        report := by
  rw [withoutRunner_unnamed unnamed, Run.run_without_runtime (runtimeChecks_static checks),
    Run.run_without_runtime (runtimeChecks_static checks)]
  refine ⟨rfl, fun e member => ?_, rfl⟩
  exact (Run.staticPhase_trace settings conditions context tree _).1 e (List.mem_reverse.mp member)

section Faults

/-- What is said first about a command that fails before its checks. -/
def openings : List String :=
  ["Failed to read version-check file ", "Invalid version-check response in ", "Cannot inspect ",
    "Unknown check(s): "]

/-- What is said about the fault begins in one of these ways. -/
structure Early (fault : Fault) : Prop where
  status : fault.status = 1
  opening : ∃ opening ∈ openings, ∃ rest, fault.message = opening ++ rest

theorem ofCauses_early {opening rest : String} {causes : List String} (known : opening ∈ openings) :
    Early (.ofCauses (opening ++ rest) causes) :=
  ⟨rfl, opening, known, rest, rfl⟩

theorem ofFile_early {tree : FileTree} {path : Path} {fault : Fault}
    (failed : ReleaseSource.ofFile tree path = .error fault) : Early fault := by
  unfold ReleaseSource.ofFile at failed
  split at failed
  · cases failed
    exact ofCauses_early (by simp [openings])
  · split at failed
    · cases failed
    · cases failed
      exact ofCauses_early (by simp [openings])

theorem resolve_early {source : ReleaseSource} {tree : FileTree} {fault : Fault}
    (failed : source.resolve tree = .error fault) : Early fault := by
  unfold ReleaseSource.resolve at failed
  split at failed
  · cases failed
  · exact ofFile_early (error_of_map failed)

theorem settings_early {fault : Fault} (failed : checkSettings m request = .error fault) :
    Early fault := resolve_early (error_of_map failed)

theorem chosen_early {fault : Fault} (failed : chosen m request = .error fault) :
    Early fault := by
  rcases chosen_cases m request with ⟨e, unsettled, same⟩ | ⟨e, -, same⟩ | ⟨_, _, -, -, same⟩
  all_goals rw [same] at failed
  · cases failed
    exact settings_early unsettled
  · cases failed
    exact ofCauses_early (by simp [openings])
  · split at failed
    · cases failed
    · next e unselected =>
      obtain ⟨-, rfl⟩ := Registry.select_eq_error_iff.mp unselected
      cases failed
      exact ofCauses_early (by simp [openings])

/-- Without named checks there is no fault of a host. -/
theorem recorded_opening {fault : Fault} (runnerless : Runnerless request)
    (failed : recorded m id request = .error fault) :
    ∃ opening ∈ "a semaphore may not have more than MAX_PERMITS permits (" :: openings, ∃ rest,
      fault.message = opening ++ rest := by
  rw [recorded_unnamed runnerless] at failed
  cases found : chosen m request with
  | error e =>
    rw [found] at failed
    cases failed
    obtain ⟨opening, known, rest⟩ := (chosen_early found).opening
    exact ⟨opening, .tail _ known, rest⟩
  | ok found' =>
    simp only [found, Except.bind, staticOutcome] at failed
    split at failed
    · cases failed
      exact ⟨_, .head _, _, String.append_assoc ..⟩
    · cases failed

theorem no_configuration_error (runnerless : Runnerless request) :
    ¬"Error: Configuration error".toList <+:
      (execute m id colours (.check request)).errors.toList := by
  have apart : ∀ opening ∈ "a semaphore may not have more than MAX_PERMITS permits (" :: openings,
      ¬("Configuration error".toList <+: opening.toList ∨
        opening.toList <+: "Configuration error".toList) := by decide
  rw [execute_eq]
  cases failed : recorded m id request with
  | ok found => simp
  | error fault =>
    intro told
    obtain ⟨opening, known, rest, message⟩ := recorded_opening runnerless failed
    have split : "Error: Configuration error".toList =
      "Error: ".toList ++ "Configuration error".toList := rfl
    rw [split, String.toList_append, String.toList_append, List.append_assoc,
      List.prefix_append_right_inj, Fault.text, message, String.toList_append,
      String.toList_append, List.append_assoc, List.append_assoc] at told
    exact apart opening known (List.prefix_or_prefix_of_prefix told (List.prefix_append _ _))

end Faults

section Named

theorem runtimeChecks_ne_nil {c : Check} (member : c ∈ checks) (needs : c.kind.needsHost = true) :
    Run.runtimeChecks checks ≠ [] := by
  obtain ⟨place, bound, there⟩ := List.mem_iff_getElem.mp member
  have listed : (c, place) ∈ checks.zipIdx :=
    List.mem_zipIdx_iff_getElem?.mpr (by simp [bound, there])
  intro none
  have nothing := List.filterMap_eq_nil_iff.mp none _ listed
  obtain ⟨slug, categories, kind⟩ := c
  cases kind with
  | static check => cases needs
  | runtime check => cases nothing

theorem prepare_noHost {σ : Type} (settings : RunSettings) (context : Context) (name : String)
    (runtime : List (Nat × String × RuntimeCheck)) (world : σ) :
    Run.prepare none settings context name runtime world = (.error .noHost, world, []) := rfl

/-- A runtime check that has been named is not left out. -/
theorem runChecks_named {c : Check} (runnerless : request.runner = none)
    (named : request.selection.included ≠ []) (member : c ∈ checks)
    (needs : c.kind.needsHost = true) :
    runChecks m id request context checks = .error RunError.noHost.fault := by
  have kept : withoutRunner request checks = checks := by
    rw [withoutRunner, if_neg (by simpa using named)]
  simp only [runChecks, runnerless, kept, Run.attempt_unprepared (runtimeChecks_ne_nil member needs)
    (prepare_noHost _ _ _ _ _), pure_bind]
  rfl

/-- What is said if there is no host for a runtime check. -/
def noHostText : String :=
  "Error: Configuration error: runtime checks selected but no host is configured\n"

theorem noHost_text : "Error: " ++ RunError.noHost.fault.text ++ "\n" = noHostText := by decide

/-- A request for a runtime check, by its slug and its categories. -/
def AsksRuntime (request : CheckRequest) : Prop :=
  request.selection.included ≠ [] ∧
    ∃ c ∈ (Registry.bundled .initial).all, c.kind.needsHost = true ∧ request.selection.Admits c

theorem selected_of_admits {c : Check} (found : chosen m request = .ok (context, checks))
    (known : c ∈ (Registry.bundled .initial).all) (needs : c.kind.needsHost = true)
    (admits : request.selection.Admits c) : ∃ d ∈ checks, d.kind.needsHost = true := by
  rcases chosen_cases m request with ⟨e, -, same⟩ | ⟨e, -, same⟩ | ⟨settings, context', -, -, same⟩
  all_goals rw [found] at same
  · cases same
  · cases same
  · split at same
    · next selection =>
      cases same
      obtain ⟨d, there, slug, categories, kind⟩ := Registry.exists_bundled known settings
      obtain ⟨-, rfl⟩ := Registry.select_eq_ok_iff.mp selection
      refine ⟨d, List.mem_filter.mpr ⟨there, Registry.selects_iff.mpr ?_⟩, kind.trans needs⟩
      rwa [Selection.Admits, slug, categories]
    · cases same

theorem execute_asksRuntime (runnerless : request.runner = none) (asks : AsksRuntime request) :
    execute m id colours (.check request) =
      match chosen m request with
      | .ok _ => ⟨1, "", noHostText⟩
      | .error fault => ⟨1, "", "Error: " ++ fault.text ++ "\n"⟩ := by
  obtain ⟨named, c, known, needs, admits⟩ := asks
  rw [execute_eq, recorded]
  cases found : chosen m request with
  | error fault =>
    simp only [Except.bind, (chosen_early found).status]
  | ok both =>
    obtain ⟨context, checks⟩ := both
    obtain ⟨d, member, needs'⟩ := selected_of_admits found known needs admits
    simp only [Except.bind, runChecks_named runnerless named member needs', Except.map]
    rw [noHost_text]
    rfl

end Named

/-- The version of a request can be told, its plugin is there, and it names no other checks than
there are. -/
def Ready (m : Machine) (request : CheckRequest) : Prop :=
  ∃ settings context, checkSettings m request = .ok settings ∧
    Discovery.discover m.tree request.path = .ok context ∧
    ∀ slug, request.selection.Names slug → (Registry.bundled settings).has slug = true

theorem chosen_ok_iff : (∃ both, chosen m request = .ok both) ↔ Ready m request := by
  have known (r : Registry) : r.unknown request.selection = [] ↔
      ∀ slug, request.selection.Names slug → r.has slug = true := by
    simp only [List.eq_nil_iff_forall_not_mem, Registry.mem_unknown, not_and, Bool.not_eq_false]
  constructor
  · rintro ⟨both, found⟩
    rcases chosen_cases m request with
      ⟨e, -, same⟩ | ⟨e, -, same⟩ | ⟨settings, context, settled, there, same⟩
    all_goals rw [found] at same
    · cases same
    · cases same
    · split at same
      · next selected =>
        exact ⟨settings, context, settled, there,
          (known _).mp (Registry.select_eq_ok_iff.mp selected).1⟩
      · cases same
  · rintro ⟨settings, context, settled, there, all⟩
    exact ⟨_, by rw [chosen_found settled there, Registry.select_eq, if_pos ((known _).mpr all)]⟩

/-- A command without a runner that names no checks is one that also rules out the runtime checks:
it needs no host, asks none and does not miss one. If it names a runtime check that is neither ruled
out nor of another category, it fails without a report, for want of a host at the latest. -/
theorem runtime_checks_need_runner (m : Machine) (id : String) (colours : Bool) :
    (∀ args request, ofArguments? m.environment ("check" :: args) = some (.check request) →
      request.runner = none → request.selection.included = [] → ∀ id',
        run m id' colours ("check" :: skipRuntime :: args) = run m id colours ("check" :: args)) ∧
    (∀ request : CheckRequest, request.runner = none → request.selection.included = [] →
      (∀ excluded id', (∀ slug, slug ∈ excluded ↔
          slug ∈ request.selection.excluded ∨ slug ∈ (Registry.bundled .initial).runtimeSlugs) →
        execute m id' colours (.check (rulingOut excluded request)) =
          execute m id colours (.check request)) ∧
      (∀ file, execute m id colours (.check { request with hostDatabase := file }) =
        execute m id colours (.check request)) ∧
      (∀ (σ : Type) (host : Option (Host σ)) settings conditions context checks world,
        let report := Run.run host settings conditions context m.tree
          (withoutRunner request checks) world
        report.world = world ∧ (∀ e ∈ report.trace, e.OfChecks ∧ e.asksHost = false) ∧
          Run.run none settings conditions context m.tree (withoutRunner request checks) world =
            report) ∧
      ¬"Error: Configuration error".toList <+:
        (execute m id colours (.check request)).errors.toList) ∧
    ∀ request : CheckRequest, request.runner = none → AsksRuntime request →
      (Ready m request → execute m id colours (.check request) = ⟨1, "", noHostText⟩) ∧
      (¬Ready m request → ∃ opening ∈ openings, ∃ rest,
        execute m id colours (.check request) = ⟨1, "", "Error: " ++ opening ++ rest⟩) := by
  refine ⟨fun args request reads runner unnamed => run_skipRuntime reads ⟨runner, unnamed⟩,
    fun request runner unnamed =>
      ⟨fun excluded id' adds => execute_rulingOut ⟨runner, unnamed⟩ adds id',
        execute_hostDatabase ⟨runner, unnamed⟩,
        fun σ host settings conditions context checks world =>
          run_withoutRunner host settings conditions context m.tree checks world unnamed,
        no_configuration_error ⟨runner, unnamed⟩⟩,
    fun request runnerless asks => ?_⟩
  rw [execute_asksRuntime runnerless asks, ← chosen_ok_iff]
  cases found : chosen m request with
  | ok both => exact ⟨fun _ => rfl, fun never => absurd ⟨both, rfl⟩ never⟩
  | error fault =>
    refine ⟨?_, fun _ => ?_⟩
    · rintro ⟨_, same⟩
      cases same
    obtain ⟨opening, known, rest, message⟩ := (chosen_early found).opening
    refine ⟨opening, known, rest ++ Fault.causesText fault.causes ++ "\n", ?_⟩
    simp only [Fault.text, message, String.append_assoc]

/-- A plugin that is a single file, and nothing besides it. -/
def bare : Machine := ⟨⟨.directory [("p.php", .file [])], []⟩, [], []⟩

def wanted : CheckRequest where
  path := ⟨"/p.php"⟩
  selection := ⟨["runtime_load_errors"], [], []⟩
  format := .table
  filter := ⟨false, false⟩
  ignoredWarnings := []
  showAllWarnings := false
  hostDatabase := HostDatabase.defaultFile
  runner := none
  timeoutSecs := none
  maxParallel := RunSettings.initial.maxParallel
  versions := ⟨some ⟨"/none.json"⟩, none, none⟩

def wantedArguments : List String :=
  ["check", "--checks=runtime_load_errors", "--version-check-file=/none.json", "/p.php"]

theorem wanted_asks : AsksRuntime wanted := by
  refine ⟨by decide, ⟨"runtime_load_errors", [.general], .runtime .diagnostics⟩,
    Registry.mem_bundled.mpr ?_, rfl, ?_⟩
  · simp [Registry.bundledChecks]
  · simp [Selection.Admits, wanted]

theorem bare_missing : bare.tree.readText ⟨"/none.json"⟩ = .error .notFound := by
  have walked : FileTree.walk bare.tree.root FileTree.linkLimit [] [[], "none.json".toList] =
      .error .notFound := by
    rw [FileTree.walk, FileTree.walk]
    decide
  have parts : Text.splitAt '/' "/none.json".toList = [[], "none.json".toList] := by decide
  have followed : bare.tree.follow ⟨"/none.json"⟩ = .error .notFound := by
    have plain : "/none.json".toList.contains '\x00' = false := by decide
    have some : "/none.json".toList.isEmpty = false := by decide
    have rooted : Path.isAbsolute ⟨"/none.json"⟩ = true := by decide
    simp only [FileTree.follow, FileTree.walkFrom, plain, some, rooted, parts, Bool.false_eq_true,
      if_false, if_true, walked]
  have located : bare.tree.locate ⟨"/none.json"⟩ = .error .notFound := by
    have short : ¬FileTree.pathLimit ≤ Text.byteSize "/none.json".toList := by decide
    simp only [FileTree.locate, short, decide_false, Bool.and_false, Bool.false_eq_true, if_false,
      followed]
  simp only [FileTree.readText, FileTree.read, FileTree.node, located]

/-- Where the version check cannot be read, the missing host is not told. -/
theorem unreadable_before_host :
    ofArguments? bare.environment wantedArguments = some (.check wanted) ∧ wanted.runner = none ∧
      AsksRuntime wanted ∧ (∃ context, Discovery.discover bare.tree wanted.path = .ok context) ∧
      (run bare "1" false wantedArguments).errors =
        "Error: Failed to read version-check file /none.json\n\n" ++
          "Caused by:\n    No such file or directory (os error 2)\n" ∧
      (run bare "1" false wantedArguments).errors ≠ noHostText := by
  have reads : ofArguments? bare.environment wantedArguments = some (.check wanted) := rfl
  have leads : bare.tree.follow (FileTree.pathOf ["p.php"]) = .ok ["p.php"] :=
    FileTree.follow_pathOf _ (by decide) (show _ = some (Node.file []) from rfl) (by simp) (by simp)
  have discovered : ∃ context, Discovery.discover bare.tree wanted.path = .ok context := by
    have same : wanted.path = FileTree.pathOf ["p.php"] := by decide
    rw [same, Discovery.discover, leads]
    exact ⟨_, rfl⟩
  have unsettled : checkSettings bare wanted = .error (.ofCauses
      "Failed to read version-check file /none.json" [FileError.notFound.message]) := by
    simp only [checkSettings, CheckSettings.resolve, ReleaseSource.resolve, wanted,
      ReleaseSource.ofFile, bare_missing, Except.map]
    rfl
  refine ⟨reads, rfl, wanted_asks, discovered, ?_⟩
  rw [run, reads]
  simp only [execute_asksRuntime rfl wanted_asks, chosen_unsettled unsettled]
  exact ⟨by decide, by decide⟩

end Command

end PluginAudit
