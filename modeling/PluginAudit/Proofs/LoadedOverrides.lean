import PluginAudit.Host.Memory
import PluginAudit.Proofs.LoadedOnce
import PluginAudit.Proofs.OverrideCalls
import PluginAudit.Proofs.RunRestores
import PluginAudit.Proofs.StaticSchedules

/-!
The overrides under which the plugin is loaded. A request carries what is in force in the session of
the run when it is made. The bundled checks leave that as the preparations have made it, so that
every request of theirs carries the same overrides.
-/

namespace PluginAudit

def HostCall.ChangesOptions : HostCall → Prop
  | .addOverride _ _ | .removeOverride _ => True
  | _ => False

namespace World

variable {σ : Type} (storage : Storage σ) {i : Nat} {values : List (String × Json)} {w : World σ}

/-- The session has been opened, and these overrides have been given in it. -/
def Holds (i : Nat) (values : List (String × Json)) (w : World σ) : Prop :=
  i < w.sessions.length ∧ (w.session i).overrides.given = values

theorem Holds.ask (h : w.Holds i values) {c : HostCall} (quiet : ¬c.ChangesOptions) :
    (ask storage i c w).2.Holds i values := by
  cases c with
  | currentNamespace => exact h
  | createNamespace name =>
    simp only [World.ask]
    split <;> exact h
  | switchTo name =>
    simp only [World.ask]
    split
    · refine ⟨by simpa using h.1, ?_⟩
      rw [session_setSession i h.1]
      exact h.2
    · exact h
  | dropNamespace name =>
    simp only [World.ask]
    split <;> exact h
  | option key =>
    simp only [World.ask]
    split <;> exact h
  | addOverride key value => exact absurd True.intro quiet
  | removeOverride id => exact absurd True.intro quiet
  | overrides => exact h

theorem Holds.run {α : Type} (h : w.Holds i values) {p : Program hostCalls α}
    (avoids : p.Avoids HostCall.ChangesOptions) : (p.run (World.ask storage i) w).2.Holds i values :=
  Program.run_relates_of_avoids (R := fun v w => v.Holds i values → w.Holds i values)
    (fun _ => id) (fun first second => second ∘ first) (fun _ _ quiet h => h.ask storage quiet) p
    avoids w h

theorem given_addAll (o : Overrides) (more : List (String × Json)) :
    (o.addAll more).given = o.given ++ more := by
  induction more generalizing o with
  | nil => simp [Overrides.addAll]
  | cons v rest ih =>
    have later : (o.addAll (v :: rest)).given = (o.add v.1 v.2).given ++ rest := ih _
    rw [later]
    simp [Overrides.given, Overrides.add]

theorem Holds.addAll (h : w.Holds i values) (more : List (String × Json)) :
    ((Preparation.addAll more).run (World.ask storage i) w).2.Holds i (values ++ more) := by
  rw [run_addAll storage i h.1]
  refine ⟨by simpa using h.1, ?_⟩
  rw [session_setSession i h.1, given_addAll, h.2]

theorem Holds.overriding {s : Run.Scene (World σ)} (h : s.1.Holds i values) (name : String)
    (more : List (String × Json)) :
    ((Preparation.overriding name more).setup.run (Run.answerStep storage.host i) s).2.1.Holds i
      (values ++ more) := by
  have set : (Preparation.overriding name more).setup = Program.inStep _ := rfl
  rw [set, (Preparation.run_inStep storage.host i _ s).2, Program.run_bind]
  exact h.addAll storage more

/-- The isolation adds its overrides to those of the session. -/
theorem Holds.isolation {s s' : Run.Scene (World σ)} (h : s.1.Holds i values)
    {basename name theme : String} {c : Cleanup}
    (set : (Isolation.preparation basename name theme).setup.run (Run.answerStep storage.host i) s =
      (.ok c, s')) : s'.1.Holds i (values ++ Isolation.overrides basename theme) := by
  have ways := Isolation.preparation_cases storage.host i basename name theme s
  obtain ⟨world, trace⟩ := s'
  rw [set] at ways
  change Isolation.SetUp _ _ _ _ _ _ world at ways
  change world.Holds _ _
  cases ways with
  | entered snapshot former t u v x captured current created switched =>
    have reads : (Snapshot.capture Isolation.watchedKeys).Avoids HostCall.ChangesOptions :=
      (Snapshot.captureFrom_reads [] _).mono fun call changes => by
        cases call <;> simp_all [HostCall.Reads, HostCall.ChangesOptions]
    have first := h.run storage reads
    rw [show (Snapshot.capture Isolation.watchedKeys).run (World.ask storage i) s.1 = _ from captured]
      at first
    have second := first.ask storage (c := .currentNamespace) id
    rw [show World.ask storage i .currentNamespace t = _ from current] at second
    have third := second.ask storage (c := .createNamespace name) id
    rw [show World.ask storage i (.createNamespace name) u = _ from created] at third
    have fourth := third.ask storage (c := .switchTo name) id
    rw [show World.ask storage i (.switchTo name) v = _ from switched] at fourth
    exact fourth.addAll storage _

/-- Preparations that override options add them one after another. -/
theorem Holds.setUpFrom {s s' : Run.Scene (World σ)} (h : s.1.Holds i values)
    (more : List (String × List (String × Json))) {done cs : List Cleanup}
    (set : (Preparation.setUpFrom done (more.map fun m => .overriding m.1 m.2)).run
      (Run.answerSetup storage.host i) s = (.ok cs, s')) :
    s'.1.Holds i (values ++ more.flatMap Prod.snd) := by
  induction more generalizing done s values with
  | nil =>
    cases set
    simpa using h
  | cons m rest ih =>
    have begun : (Preparation.announced (.setUp done.length m.1) s).1.Holds i values := h
    have first := begun.overriding storage m.1 m.2
    rw [List.map_cons] at set
    cases ran : (Preparation.overriding m.1 m.2).setup.run (Run.answerStep storage.host i)
      (Preparation.announced (.setUp done.length m.1) s) with
    | mk result t =>
      rw [ran] at first
      cases result with
      | error cause =>
        rw [Preparation.setUpFrom_cons_error storage.host i ran] at set
        cases set
      | ok c =>
        rw [Preparation.setUpFrom_cons_ok storage.host i ran] at set
        rw [List.flatMap_cons, ← List.append_assoc]
        exact ih first set

theorem connect_holds {opened : World σ} (connected : connect storage w = (.ok i, opened)) :
    opened.Holds i [] := by
  simp only [connect] at connected
  split at connected
  · cases connected
    refine ⟨by simp, ?_⟩
    simp [session, Overrides.given, Overrides.empty]
  · cases connected

end World

namespace Progress

variable {σ : Type} {host : Host σ} {env : Environment} {J : σ → Prop}
  {forbidden : CheckCall → Prop}
  (step : ∀ c (p : Progress σ), ¬forbidden c → J p.world → J (answer host env c p).2.2.world)
  (watch : Watch)
include step

theorem callsAborted_keep {body : Program checkCalls Ending} (avoids : body.Avoids forbidden)
    (p : Progress σ) (start : J p.world) :
    ∀ call ∈ callsAborted host env body p, J call.2.world := by
  induction body generalizing p with
  | done ending => simp [callsAborted]
  | ask c next ih =>
    intro call member
    have kept := step c p avoids.1 start
    simp only [callsAborted] at member
    rcases List.mem_cons.mp member with rfl | member
    · exact start
    · cases answered : answer host env c p with
      | mk a pausing =>
        obtain ⟨pause, q⟩ := pausing
        rw [answered] at kept member
        cases pause with
        | wait ms => cases member
        | hold ms => exact ih a (avoids.2 a) { q with clock := q.clock + ms } kept call member
        | none => exact ih a (avoids.2 a) q kept call member

/-- What every call keeps holds whenever a call is made. -/
theorem callsOf_keep {body : Program checkCalls Ending} (avoids : body.Avoids forbidden)
    (p : Progress σ) (start : J p.world) : ∀ call ∈ callsOf host env watch body p, J call.2.world := by
  induction body generalizing p with
  | done ending => simp [callsOf]
  | ask c next ih =>
    intro call member
    obtain ⟨clock, kept⟩ := pause_keeps watch (answer host env c p).2.1 (answer host env c p).2.2
    simp only [callsOf] at member
    rcases List.mem_cons.mp member with rfl | member
    · exact start
    · cases paused : pause watch (answer host env c p).2.1 (answer host env c p).2.2 with
      | mk stopped q =>
        rw [paused] at kept member
        cases kept
        cases stopped with
        | some stop =>
          cases pausing : (answer host env c p).2.1 with
          | hold ms =>
            rw [pausing] at member
            exact callsAborted_keep step (avoids.2 _)
              { (answer host env c p).2.2 with clock } (step c p avoids.1 start) call member
          | none =>
            rw [pausing] at member
            cases member
          | wait ms =>
            rw [pausing] at member
            cases member
        | none =>
          exact ih _ (avoids.2 _) { (answer host env c p).2.2 with clock }
            (step c p avoids.1 start) call member

theorem callsOfAll_keep {checks : List (Nat × String × RuntimeCheck)}
    (avoid : ∀ c ∈ checks, (c.2.2.body env.context env.namespaceName).Avoids forbidden)
    (first : Bool) (p : Progress σ) (start : J p.world) :
    ∀ call ∈ callsOfAll host env watch first checks p, J call.2.world := by
  induction checks generalizing first p with
  | nil => simp [callsOfAll]
  | cons entry rest ih =>
    obtain ⟨place, slug, check⟩ := entry
    have avoids := avoid _ List.mem_cons_self
    have ended := runBody_relates (R := fun p q => J p.world → J q.world) (fun _ => id)
      (fun first second => second ∘ first) (fun _ _ => id) step watch avoids
      (p.tell (.started place)) start
    intro call member
    simp only [callsOfAll] at member
    split at member
    · cases member
    · rcases List.mem_append.mp member with member | member
      · exact callsOf_keep step watch avoids (p.tell (.started place)) start call member
      · split at member
        · cases member
        · rename_i ending q ran
          rw [ran] at ended
          exact ih (fun c inside => avoid c (List.mem_cons_of_mem _ inside)) false
            { q.tell (.ended place) with
              record := q.record.close slug ending } ended call member

end Progress

namespace Registry

/-- What the bundled checks of a selection have overridden, by the names of their preparations. -/
def reporting (checks : List Check) : List (String × List (String × Json)) :=
  if checks.any (·.slug == "runtime_load_errors") then
    [(DiagnosticsCheck.preparationName, [(DiagnosticsCheck.reportingOption, .str "E_ALL")])]
  else []

theorem bundled_runtime {settings : CheckSettings} {c : Check}
    (known : c ∈ bundledChecks settings) {place : Nat} {r : Nat × String × RuntimeCheck}
    (isRuntime : Run.runtimeCheck? (c, place) = some r) :
    (c.slug = "runtime_load_errors" ∧ r.2.2 = .diagnostics) ∨
      (c.slug = "disallowed_runtime_calls" ∧ r.2.2 = .calls settings.disallowed) := by
  simp only [bundledChecks, List.mem_cons, List.not_mem_nil, or_false] at known
  rcases known with rfl | rfl | rfl | rfl
  · cases isRuntime
  · cases isRuntime
  · cases isRuntime
    exact .inl ⟨rfl, rfl⟩
  · cases isRuntime
    exact .inr ⟨rfl, rfl⟩

theorem bundled_avoids {settings : CheckSettings} {checks : List Check}
    (known : ∀ c ∈ checks, c ∈ bundledChecks settings) (context : Context) (name : String) :
    ∀ r ∈ Run.runtimeChecks checks,
      (r.2.2.body context name).Avoids CheckCall.ChangesOptions := by
  intro r member
  obtain ⟨⟨c, place⟩, inside, isRuntime⟩ := List.mem_filterMap.mp member
  rcases bundled_runtime (known c (List.fst_mem_of_mem_zipIdx inside)) isRuntime with
    ⟨-, same⟩ | ⟨-, same⟩
  · rw [same]
    exact RuntimeCheck.onLoad_avoids _
  · rw [same]
    exact RuntimeCheck.onLoad_avoids _

theorem distinct_seen {seen : List String} {p : Preparation} (there : p.name ∈ seen)
    {ps : List Preparation} (all : ∀ q ∈ ps, q = p) : Run.distinct seen ps = [] := by
  induction ps with
  | nil => rfl
  | cons q rest ih =>
    obtain ⟨rfl, others⟩ := List.forall_mem_cons.mp all
    rw [Run.distinct, if_pos (by simpa using there), ih others]

theorem bundled_reports {settings : CheckSettings} {checks : List Check}
    (known : ∀ c ∈ checks, c ∈ bundledChecks settings)
    (selected : checks.any (·.slug == "runtime_load_errors") = true) :
    ∃ r ∈ Run.runtimeChecks checks, r.2.2 = .diagnostics := by
  obtain ⟨c, member, slug⟩ := List.any_eq_true.mp selected
  obtain ⟨place, bound, same⟩ := List.mem_iff_getElem.mp member
  have kind : c.kind = .runtime .diagnostics := by
    have there := known c member
    simp only [bundledChecks, List.mem_cons, List.not_mem_nil, or_false] at there
    rcases there with rfl | rfl | rfl | rfl <;> simp_all
  refine ⟨(place, c.slug, .diagnostics), List.mem_filterMap.mpr ⟨(c, place), ?_, ?_⟩, rfl⟩
  · exact List.mem_zipIdx_iff_getElem?.mpr (by simp [bound, same])
  · simp [Run.runtimeCheck?, kind]

/-- The only preparation of the bundled checks is that of the host's diagnostics. -/
theorem bundled_preparations {settings : CheckSettings} {checks : List Check}
    (known : ∀ c ∈ checks, c ∈ bundledChecks settings) (context : Context) :
    Run.commonPreparations context (Run.runtimeChecks checks) =
      (reporting checks).map fun m => .overriding m.1 m.2 := by
  let reports : Preparation := .overriding DiagnosticsCheck.preparationName
    [(DiagnosticsCheck.reportingOption, .str "E_ALL")]
  have origin : ∀ p ∈ (Run.runtimeChecks checks).flatMap fun r => r.2.2.preparations context,
      p = reports ∧ checks.any (·.slug == "runtime_load_errors") = true := by
    intro p member
    obtain ⟨r, isRuntime, inside⟩ := List.mem_flatMap.mp member
    obtain ⟨⟨c, place⟩, there, same⟩ := List.mem_filterMap.mp isRuntime
    have listed := List.fst_mem_of_mem_zipIdx there
    rcases bundled_runtime (known c listed) same with ⟨slug, body⟩ | ⟨-, body⟩
    · rw [body] at inside
      exact ⟨List.mem_singleton.mp inside, List.any_eq_true.mpr ⟨c, listed, by simp [slug]⟩⟩
    · rw [body] at inside
      cases inside
  change Run.distinct [] ((Run.runtimeChecks checks).flatMap fun r => r.2.2.preparations context) = _
  cases listed : (Run.runtimeChecks checks).flatMap fun r => r.2.2.preparations context with
  | nil =>
    have none : ¬checks.any (·.slug == "runtime_load_errors") = true := by
      intro some
      have inside : reports ∈ (Run.runtimeChecks checks).flatMap fun r =>
          r.2.2.preparations context := by
        obtain ⟨r, isRuntime, same⟩ := bundled_reports known some
        exact List.mem_flatMap.mpr ⟨r, isRuntime, by rw [same]; exact List.mem_singleton.mpr rfl⟩
      rw [listed] at inside
      cases inside
    rw [reporting, if_neg none]
    rfl
  | cons p rest =>
    rw [listed] at origin
    obtain ⟨⟨rfl, some⟩, others⟩ := List.forall_mem_cons.mp origin
    rw [reporting, if_pos some, Run.distinct,
      distinct_seen List.mem_cons_self fun q member => (others q member).1]
    rfl

end Registry

namespace Run

open Progress

variable {σ : Type} {storage : Storage σ} {settings : RunSettings} {conditions : RunConditions}
  {context : Context} {tree : FileTree} {checks : List Check} {world : World σ}

theorem answer_holds {env : Environment} {values : List (String × Json)} (c : CheckCall)
    (p : Progress (World σ)) (quiet : ¬c.ChangesOptions) (h : p.world.Holds env.session values) :
    (answer storage.host env c p).2.2.world.Holds env.session values := by
  cases c with
  | option key => exact h.ask storage (c := .option key) id
  | addOverride key value => exact absurd True.intro quiet
  | removeOverride id => exact absurd True.intro quiet
  | overrides => exact h
  | load =>
    simp only [answer, load]
    split <;> exact h
  | emit f => exact h
  | note text => exact h
  | sleep ms => exact h
  | block ms => exact h
  | cancel => exact h

/-- The overrides of a prepared run of bundled checks. -/
theorem prepared_holds {bundled : CheckSettings}
    (known : ∀ c ∈ checks, c ∈ Registry.bundledChecks bundled) {name : String} {h : Host (World σ)}
    {session : Nat} {cleanups : List Cleanup} {scene : Scene (World σ)}
    (prepared : prepare (some storage.host) settings context name (runtimeChecks checks) world =
      (.ok (h, session, cleanups), scene)) :
    scene.1.Holds session (Isolation.overrides context.basename settings.theme ++
      (Registry.reporting checks).flatMap Prod.snd) := by
  obtain ⟨same, opened, connected, set⟩ := prepare_ok prepared
  cases same
  have begun := World.connect_holds storage connected
  unfold preparations at set
  rw [Registry.bundled_preparations known] at set
  cases ran : (Isolation.preparation context.basename name settings.theme).setup.run
    (answerStep storage.host session) (Preparation.announced (.setUp 0 Isolation.preparationName)
      (opened, [])) with
  | mk result s =>
    cases result with
    | error cause =>
      rw [Preparation.setUpAll, Preparation.setUpFrom_cons_error storage.host session ran] at set
      cases set
    | ok c =>
      rw [Preparation.setUpAll, Preparation.setUpFrom_cons_ok storage.host session ran] at set
      exact (World.Holds.isolation storage begun ran).setUpFrom storage _ set

/-- Whenever a bundled check makes a call, the overrides are those of the preparations. -/
theorem callsOfRun_hold {bundled : CheckSettings}
    (known : ∀ c ∈ checks, c ∈ Registry.bundledChecks bundled) (env : Environment)
    {values : List (String × Json)} {scene : Scene (World σ)}
    (held : scene.1.Holds env.session values) :
    ∀ p ∈ loadPoints (callsOfRun storage.host env settings conditions tree checks scene),
      p.world.Holds env.session values := by
  have kept : ∀ call ∈ callsOfRun storage.host env settings conditions tree checks scene,
      call.2.world.Holds env.session values := by
    intro call member
    simp only [callsOfRun] at member
    split at member
    · cases member
    · exact callsOfAll_keep (J := fun w => w.Holds env.session values)
        (fun c p quiet h => answer_holds c p quiet h) _
        (Registry.bundled_avoids known env.context env.namespaceName) true _ held call member
  intro p member
  obtain ⟨⟨c, q⟩, inside, same⟩ := List.mem_filterMap.mp member
  cases c <;> cases same
  exact kept _ inside

/-- Every request of bundled checks carries the overrides of the preparations. -/
theorem bundled_requests {bundled : CheckSettings}
    (known : ∀ c ∈ checks, c ∈ Registry.bundledChecks bundled) :
    ∀ request ∈ (run (some storage.host) settings conditions context tree checks
        world).trace.filterMap Event.loaded?,
      request.overrides = Entries.ofList (Isolation.overrides context.basename settings.theme ++
        (Registry.reporting checks).flatMap Prod.snd) := by
  intro request member
  have once := loadsOnce_run (some storage.host) settings conditions context tree checks world
  cases prepared : prepare (some storage.host) settings context
    (settings.namespaceName conditions.id) (runtimeChecks checks) world with
  | mk result scene =>
    simp only [LoadsOnce, prepared] at once
    cases result with
    | error e =>
      rw [show List.filterMap Event.loaded? _ = [] from once] at member
      cases member
    | ok prepared' =>
      obtain ⟨h, session, cleanups⟩ := prepared'
      have held := prepared_holds known prepared
      obtain ⟨same, -⟩ := prepare_ok prepared
      cases same
      obtain ⟨failed, rest, points, requests, -, -⟩ := LoadedOnce.once once
      rw [requests] at member
      obtain ⟨p, inside, rfl⟩ := List.mem_map.mp member
      have isPoint : p ∈ failed ++ rest :=
        (List.Sublist.append_left (List.take_sublist 1 rest) failed).subset inside
      rw [← points] at isPoint
      have there := callsOfRun_hold known ⟨session, context, _⟩ held p isPoint
      rw [← there.2]
      rfl

/-- The plugin is loaded at most once in every run. A request carries the overrides in force in the
session; those of bundled checks are the overrides of the isolation, and that of the reporting of
errors if the host's diagnostics are looked at. -/
theorem run_loads_once (settings : RunSettings) (conditions : RunConditions) (context : Context)
    (tree : FileTree) (checks : List Check) :
    (∀ {σ : Type} (host : Option (Host σ)) (world : σ),
      LoadsOnce host settings conditions context tree checks world) ∧
    ∀ {σ : Type} (storage : Storage σ),
      (∀ env (p : Progress (World σ)) key, (requestAt storage.host env p).overrides.lookup key =
        (p.world.session env.session).overrides.get? key) ∧
      ∀ bundled selection, (Registry.bundled bundled).select selection = .ok checks →
        ∀ world, ∀ request ∈ (run (some storage.host) settings conditions context tree checks
            world).trace.filterMap Event.loaded?,
          request.overrides = Entries.ofList (Isolation.overrides context.basename settings.theme ++
            (Registry.reporting checks).flatMap Prod.snd) := by
  refine ⟨fun host world => loadsOnce_run host settings conditions context tree checks world, ?_⟩
  intro σ storage
  refine ⟨fun env p key => Overrides.lookup_snapshot _ key, ?_⟩
  intro bundled selection selected world
  have known : ∀ c ∈ checks, c ∈ Registry.bundledChecks bundled := fun c member =>
    (Registry.bundled_perm bundled).subset ((Registry.select_sublist selected).subset member)
  exact bundled_requests known

/-- Both bundled runtime checks. -/
def runtimeSelection : Selection := ⟨["disallowed_runtime_calls", "runtime_load_errors"], [], []⟩

def runtimeSelected : List Check :=
  (Registry.bundled .initial).all.filter (Registry.Selects runtimeSelection)

/-- A run of these checks on a host that fails to load the plugin at first. -/
def retriedRun : RunReport (World MemoryStore) :=
  run (some MemoryStore.storage.host) .initial ⟨"run1", [], none, false⟩ .sample
    ⟨.directory [], []⟩ runtimeSelected
    ⟨.initial false false, [], ⟨[⟨5, .error (.load "no runner")⟩, ⟨5, .ok .empty⟩], []⟩⟩

theorem run_loads_once_retried :
    (retriedRun.trace.filterMap Event.loaded?).length = 2 ∧
      ∀ request ∈ retriedRun.trace.filterMap Event.loaded?, request.overrides = [
        ("active_plugins", .arr [.str "p/p.php"]),
        ("current_theme", .str "twentytwentyfour"),
        ("plugin_check_error_reporting", .str "E_ALL"),
        ("stylesheet", .str "twentytwentyfour"),
        ("stylesheet_root", .str Isolation.themeRoot),
        ("template", .str "twentytwentyfour"),
        ("template_root", .str Isolation.themeRoot)] := by
  have selected : (Registry.bundled .initial).select runtimeSelection = .ok runtimeSelected := by
    rw [Registry.select,
      show (Registry.bundled .initial).unknown runtimeSelection = [] by decide +kernel]
    rfl
  refine ⟨by decide +kernel, fun request member => ?_⟩
  rw [((run_loads_once .initial ⟨"run1", [], none, false⟩ .sample ⟨.directory [], []⟩
    runtimeSelected).2 MemoryStore.storage).2 _ _ selected _ request member]
  rfl

end Run

end PluginAudit
