import PluginAudit.Proofs.KeptNamespaces
import PluginAudit.Proofs.RunReturns
import PluginAudit.Proofs.RunVerified

/-!
Runs on a database. However a run ends, the namespaces that were there before are kept, unless a
check brings a preparation that does away with one; a run that ends well leaves nothing of its own
behind.
-/

namespace PluginAudit.Run

open Database

variable {settings : RunSettings} {conditions : RunConditions} {context : Context}
  {tree : FileTree} {checks : List Check} {w : World Database} {q : String} {refused : List String}

theorem connect_store (refused : List String) (w : World Database) :
    ((storage.host.refusing refused).connect w).2.store = w.store := by
  simp only [Host.refusing, Storage.host, World.connect]
  split <;> rfl

/-- A namespace that was there before a run is the same after it, unless a check brings a
preparation that does not take back what it does to it. -/
theorem run_keeps (there : Present q w)
    (spared : ∀ p ∈ commonPreparations context (runtimeChecks checks),
      Spares (storage.host.refusing refused) q p) :
    let report := run (some (storage.host.refusing refused)) settings conditions context tree
      checks w
    report.world.store.holding q = w.store.holding q := by
  intro report
  by_cases static : runtimeChecks checks = []
  · have ended : report = _ := run_without_runtime static
    rw [ended]
  · have unchanged := congrArg (holding q) (connect_store refused w)
    cases connected : (storage.host.refusing refused).connect w with
    | mk answer opened =>
      rw [connected] at unchanged
      cases answer with
      | error cause =>
        have ended : report = _ := run_unopened static connected
        rw [ended]
        exact unchanged
      | ok i =>
        refine Eq.trans ?_ unchanged
        exact run_returns static connected (there.of_holding unchanged)
          (isolation_spares q _ _ _ i) (fun p member => spared p member i)
          (fun c _ => Program.avoids_nothing _)
          fun c p _ => congrArg (holding q) (storage.answer_store refused c p)

/-- A run whose namespace would be another spelling of one that is there fails and changes
nothing in the database. -/
theorem run_respelled (some : runtimeChecks checks ≠ [])
    (there : Present (settings.namespaceName conditions.id) w) :
    let report := run (.some (storage.host.refusing refused)) settings conditions context tree
      checks w
    (∃ cause, report.result = .error cause) ∧ report.world.store = w.store := by
  intro report
  have unchanged := connect_store refused w
  cases connected : (storage.host.refusing refused).connect w with
  | mk answer opened =>
    rw [connected] at unchanged
    cases answer with
    | error cause =>
      have ended : report = _ := run_unopened some connected
      rw [ended]
      exact ⟨⟨_, rfl⟩, unchanged⟩
    | ok i =>
      have way := Isolation.preparation_cases (storage.host.refusing refused) i context.basename
        (settings.namespaceName conditions.id) settings.theme
        (Preparation.announced (.setUp 0 Isolation.preparationName) (opened, []))
      have present : Present (settings.namespaceName conditions.id) opened := by
        rw [Present, unchanged]
        exact there
      have self : (settings.namespaceName conditions.id).sameIgnoringCase
          (settings.namespaceName conditions.id) := Text.sameIgnoringCase_iff.mpr rfl
      obtain ⟨⟨cause, failed⟩, store⟩ := isolation_refused self present way
      have ended : report = _ := run_unisolated some connected (Prod.ext failed rfl)
      rw [ended]
      exact ⟨⟨_, rfl⟩, store.trans unchanged⟩

/-- After a run that ends well its namespace is gone, and its session reads the watched options as
it did when it was opened. -/
theorem run_ok_clean (some : runtimeChecks checks ≠ []) {record : CheckRecord} :
    let host := storage.host.refusing refused
    let report := run (.some host) settings conditions context tree checks w
    let name := settings.namespaceName conditions.id
    report.result = .ok record →
      report.world.store.find? (tableName name) = none ∧ name ∉ report.world.store.registered ∧
        ∃ i opened, host.connect w = (.ok i, opened) ∧
          ∀ key ∈ Isolation.watchedKeys, ∃ before after,
            (host.ask i (.option key) opened).1 = .ok before ∧
              (host.ask i (.option key) report.world).1 = .ok after ∧
                Json.sameOption after before := by
  intro host report name ok
  obtain ⟨i, scene, ⟨course⟩⟩ := course_of_ok some ok
  obtain ⟨⟨-, u, dropped⟩, after, read, same⟩ := course.restored ok
  obtain ⟨gone, unlisted⟩ := dropped_gone dropped
  refine ⟨gone, unlisted, i, course.opened, course.connected, fun key member => ?_⟩
  exact ⟨course.before key, after key, course.watched key member, read key member,
    Isolation.changedKeys_eq_nil.mp same key member⟩

/-- However a run ends, a namespace that was there before has the same table with the same rows
afterwards, also where the run's own name is another spelling of it: then the run fails and changes
nothing. A run that ends well has dropped its namespace, and its session reads the watched options
as before. -/
theorem run_spares_namespaces (refused : List String) (settings : RunSettings)
    (conditions : RunConditions) (context : Context) (tree : FileTree) (checks : List Check)
    (w : World Database) :
    let host := storage.host.refusing refused
    let report := run (some host) settings conditions context tree checks w
    let name := settings.namespaceName conditions.id
    (∀ q, Present q w →
      (∀ p ∈ commonPreparations context (runtimeChecks checks), Spares host q p) →
        report.world.store.holding q = w.store.holding q) ∧
    (runtimeChecks checks = [] → report.world = w) ∧
    (runtimeChecks checks ≠ [] → Present name w →
      (∃ cause, report.result = .error cause) ∧ report.world.store = w.store) ∧
    (runtimeChecks checks ≠ [] → ∀ record, report.result = .ok record →
      report.world.store.find? (tableName name) = none ∧ name ∉ report.world.store.registered ∧
        ∃ i opened, host.connect w = (.ok i, opened) ∧
          ∀ key ∈ Isolation.watchedKeys, ∃ before after,
            (host.ask i (.option key) opened).1 = .ok before ∧
              (host.ask i (.option key) report.world).1 = .ok after ∧
                Json.sameOption after before) := by
  intro host report name
  refine ⟨fun q there spared => ?_, fun static => ?_, fun some there => ?_,
    fun some record ok => ?_⟩
  · exact run_keeps there spared
  · have ended : report = _ := run_without_runtime static
    rw [ended]
  · exact run_respelled some there
  · exact run_ok_clean some ok

/-- A check that overrides options and works in a further namespace. -/
def furtherCheck (further : String) : Check :=
  ⟨"further", [], .runtime ⟨fun _ =>
    [.overriding "debug" [("template", .str "plain")], Isolation.preparation "p/p.php" further "t"],
    fun _ _ => .ask (.addOverride "blogname" (.str "none")) fun _ => .done .passed⟩⟩

/-- A site with an option in its base namespace and a namespace left from before. -/
def site : World Database :=
  ⟨⟨"wp_", false, true, [⟨"wp_options", [("blogname", "Site")]⟩, ⟨"wppc_old_options", []⟩],
    ["wppc_old_"]⟩, [], ⟨[], []⟩⟩

theorem furtherCheck_spares (q further : String) :
    ∀ p ∈ commonPreparations context (runtimeChecks [furtherCheck further]),
      Spares (storage.host.refusing refused) q p := by
  intro p member
  have listed : commonPreparations context (runtimeChecks [furtherCheck further]) =
      [.overriding "debug" [("template", .str "plain")],
        Isolation.preparation "p/p.php" further "t"] := by
    simp [commonPreparations, runtimeChecks, runtimeCheck?, furtherCheck, distinct,
      Preparation.overriding, Isolation.preparation, Isolation.preparationName]
  rw [listed] at member
  rcases List.mem_cons.mp member with rfl | later
  · exact overriding_spares q _ _
  · rw [List.mem_singleton.mp later]
    exact isolation_spares q _ _ _

def siteSettings (namespaceBase : String) : RunSettings :=
  { RunSettings.initial with namespaceBase }

/-- A run of the check on the site, with this beginning of its namespace's name and this
identifier. -/
def siteRun (beginning id : String) : RunReport (World Database) :=
  run (some (storage.host.refusing [])) (siteSettings beginning) ⟨id, [], none, false⟩
    Context.sample ⟨.directory [], []⟩ [furtherCheck "WPPC_NEW_"] site

theorem run_spares_namespaces_site :
    (siteRun "wppc_" "run1").world.store.holding "wp_" = site.store.holding "wp_" ∧
      (siteRun "wppc_" "run1").world.store.find? (tableName "wppc_run1_") = none ∧
      (siteRun "W" "P").world.store = site.store := by
  have there : Present "wp_" site := by
    unfold Present
    decide +kernel
  have runtime : runtimeChecks [furtherCheck "WPPC_NEW_"] ≠ [] := by
    simp [runtimeChecks, runtimeCheck?, furtherCheck]
  have named : (siteSettings "wppc_").namespaceName "run1" = "wppc_run1_" := by decide +kernel
  have ends : (siteRun "wppc_" "run1").result.isOk = true := by decide +kernel
  have respelled : Present ((siteSettings "W").namespaceName "P") site := by
    unfold Present
    decide +kernel
  obtain ⟨kept, -, -, clean⟩ := run_spares_namespaces [] (siteSettings "wppc_")
    ⟨"run1", [], none, false⟩ Context.sample ⟨.directory [], []⟩ [furtherCheck "WPPC_NEW_"] site
  obtain ⟨-, -, refused, -⟩ := run_spares_namespaces [] (siteSettings "W")
    ⟨"P", [], none, false⟩ Context.sample ⟨.directory [], []⟩ [furtherCheck "WPPC_NEW_"] site
  have unspelled := (refused runtime respelled).2
  cases ended : (siteRun "wppc_" "run1").result with
  | error cause =>
    rw [ended] at ends
    cases ends
  | ok record =>
    unfold siteRun at ended ⊢
    have gone := (clean runtime record ended).1
    rw [named] at gone
    exact ⟨kept "wp_" there (furtherCheck_spares "wp_" _), gone, unspelled⟩

/-- A preparation that drops a namespace and does not bring it back. -/
def dropping (namespaceName : String) : Preparation :=
  ⟨"dropping", .ask (.host (.dropNamespace namespaceName)) fun
    | .ok () => .done (.ok ⟨"dropping", .done (.ok ()), 0⟩)
    | .error cause => .done (.error cause)⟩

/-- A run on the site of a check that needs this preparation. -/
def droppingRun : RunReport (World Database) :=
  run (some (storage.host.refusing [])) (siteSettings "wppc_") ⟨"run1", [], none, false⟩
    Context.sample ⟨.directory [], []⟩
    [⟨"dropping", [], .runtime ⟨fun _ => [dropping "wppc_old_"], fun _ _ => .done .passed⟩⟩] site

/-- A namespace that was there before is gone, although the run has ended well. -/
theorem dropping_namespace_gone :
    Present "wppc_old_" site ∧ droppingRun.result.isOk = true ∧
      ¬Present "wppc_old_" droppingRun.world ∧
      droppingRun.world.store.holding "wppc_old_" ≠ site.store.holding "wppc_old_" := by
  have there : Present "wppc_old_" site := by
    unfold Present
    decide +kernel
  have gone : ¬Present "wppc_old_" droppingRun.world := by
    unfold Present
    decide +kernel
  exact ⟨there, by decide +kernel, gone, fun same => gone (there.of_holding same)⟩

end PluginAudit.Run
