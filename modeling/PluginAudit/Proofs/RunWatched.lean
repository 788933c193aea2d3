import PluginAudit.Proofs.BaseKept
import PluginAudit.Proofs.JsonRoundTrip
import PluginAudit.Proofs.RunVerified

/-!
The watched options across a run. The undoing of the isolation comes last and compares them after
all overrides of the preparations have been removed, so a run that ends well leaves them as they
were, and an override that a check has left behind is told with the key that it changes.
-/

namespace PluginAudit.Run

open Preparation Isolation

variable {σ : Type} (storage : Storage σ) (refused : List String) (settings : RunSettings)
  (conditions : RunConditions) (context : Context) (tree : FileTree) (checks : List Check)
  (w : World σ)

/-- The run fails in its cleanup, and the isolation tells these keys, with what has kept it from
leaving its namespace. -/
def TellsKeys (base name : String) (keys : List String) (result : Except RunError CheckRecord) :
    Prop :=
  ∃ failures log problems, Leaves base name log problems ∧
    result = .error (.cleanup (failures ++ [⟨preparationName, String.intercalate "; " (problems ++
      ["configuration not restored for keys: " ++ String.intercalate ", " keys])⟩]))

/-- What becomes of the watched options in a run. -/
structure Watched : Prop where
  /-- A run that ends well leaves its session where it was opened, with the same values as before:
  they are equal where there are no doubles in them. -/
  restored : ∀ record, (runIn storage refused settings conditions context tree checks w).result =
      .ok record →
    ∃ i opened before after,
      (storage.host.refusing refused).connect w = (.ok i, opened) ∧
      ((storage.host.refusing refused).ask i .currentNamespace
        (runIn storage refused settings conditions context tree checks w).world).1 =
          .ok (storage.base w.store) ∧
      WatchedAs ((storage.host.refusing refused).ask i) opened before ∧
      WatchedAs ((storage.host.refusing refused).ask i)
        (runIn storage refused settings conditions context tree checks w).world after ∧
      ∀ key ∈ watchedKeys, Json.sameOption (after key) (before key) = true ∧
        ((∀ v ∈ before key, v.Exact) → after key = before key)
  /-- A run whose checks come to their end tells the keys that are read differently then. -/
  told : ∀ host i cleanups scene,
    prepareIn storage refused settings conditions context checks w =
      (.ok (host, i, cleanups), scene) →
    (phaseIn storage refused settings conditions context tree checks i scene).1 = none →
    ∃ opened before,
      (storage.host.refusing refused).connect w = (.ok i, opened) ∧
      WatchedAs ((storage.host.refusing refused).ask i) opened before ∧
      ∀ after, WatchedAs ((storage.host.refusing refused).ask i)
          (runIn storage refused settings conditions context tree checks w).world after →
        changedKeys before after ≠ [] →
          TellsKeys (storage.base w.store) (settings.namespaceName conditions.id)
            (changedKeys before after)
            (runIn storage refused settings conditions context tree checks w).result
  /-- They can be read then if the base namespace is there as a whole, the session is let into it,
  and no other preparation takes it away. -/
  readable : ∀ host i cleanups scene,
    prepareIn storage refused settings conditions context checks w =
      (.ok (host, i, cleanups), scene) →
    storage.base w.store ∉ refused → storage.Holds (storage.base w.store) w.store →
    (∀ p ∈ commonPreparations context (runtimeChecks checks),
      p.Keeps (storage.host.refusing refused) (World.Keeping storage (storage.base w.store))) →
    ∃ after, WatchedAs ((storage.host.refusing refused).ask i)
      (runIn storage refused settings conditions context tree checks w).world after

variable {storage refused settings conditions context tree checks w}

namespace Course

variable {i : Nat} {scene : Scene (World σ)}
  (course : Course storage refused settings conditions context tree checks w i scene)

theorem last_name : course.last.name = preparationName := by rw [course.isolation]; rfl

theorem tells (unstopped :
      (phaseIn storage refused settings conditions context tree checks i scene).1 = none)
    {after : String → Option Json}
    (read : WatchedAs ((storage.host.refusing refused).ask i)
      (runIn storage refused settings conditions context tree checks w).world after)
    (some : changedKeys course.before after ≠ []) :
    TellsKeys (storage.base w.store) (settings.namespaceName conditions.id)
      (changedKeys course.before after)
      (runIn storage refused settings conditions context tree checks w).result := by
  obtain ⟨log, problems, told, leaves, -, verified, result⟩ := course.ended
  have alike {other : String → Option Json} (found : WatchedAs
      ((storage.host.refusing refused).ask i)
      (runIn storage refused settings conditions context tree checks w).world other) :
      changedKeys course.before other = changedKeys course.before after :=
    changedKeys_congr (fun _ _ => rfl) fun key member =>
      (found.eq_read key member).trans (read.eq_read key member).symm
  have text : told = ["configuration not restored for keys: " ++
      String.intercalate ", " (changedKeys course.before after)] := by
    cases verified with
    | restored other found same => exact absurd ((alike found).symm.trans same) some
    | changed other found _ => rw [alike found]
    | unread key member cause refusal => cases refusal.symm.trans (read key member)
  have verdict_eq : verdict (problems ++ told) =
      .error (String.intercalate "; " (problems ++ told)) :=
    if_neg (by simp [text])
  refine ⟨course.cleaned.1, log, problems, leaves, ?_⟩
  rw [result, unstopped, verdict_eq, text, failuresAfter, course.last_name]
  exact if_neg (by simp)

include course in
theorem readable (guarded : storage.Guarded) (admitted : storage.base w.store ∉ refused)
    (holds : storage.Holds (storage.base w.store) w.store)
    (keep : ∀ p ∈ commonPreparations context (runtimeChecks checks),
      p.Keeps (storage.host.refusing refused) (World.Keeping storage (storage.base w.store))) :
    ∃ after, WatchedAs ((storage.host.refusing refused).ask i)
      (runIn storage refused settings conditions context tree checks w).world after := by
  have made : World.Keeping storage (storage.base w.store) course.start.1 :=
    guarded.created holds course.created
  obtain ⟨prepared, new, same, later⟩ := setUpFrom_keeps keep made course.set
  obtain rfl := List.append_cancel_right same
  have checked : World.Keeping storage (storage.base w.store)
      (phaseIn storage refused settings conditions context tree checks i scene).2.world :=
    checkPhase_relates (R := fun a b => World.Keeping storage (storage.base w.store) a →
        World.Keeping storage (storage.base w.store) b) (fun _ => id)
      (fun first second => second ∘ first)
      (fun c p _ kept => by rwa [World.Keeping, storage.answer_store refused c p])
      (fun _ _ => Program.avoids_nothing _) settings conditions (staticTasks context tree checks)
      scene prepared
  have cleaned : World.Keeping storage (storage.base w.store) course.cleaned.2.1 :=
    undoAll_keeps later (_, _) checked
  obtain ⟨placed, kept⟩ := World.undo_keeps refused guarded holds course.created admitted
    course.ids (snapshotOf course.before) course.cleaned_bound cleaned
  rw [← course.finished.2] at placed kept
  exact World.watched_of_keeping storage refused placed kept

end Course

/-- In a run on a store that guards its namespaces the watched options are restored or told. -/
theorem watched (guarded : storage.Guarded) (some : runtimeChecks checks ≠ []) :
    Watched storage refused settings conditions context tree checks w := by
  constructor
  · intro record ok
    obtain ⟨i, scene, ⟨course⟩⟩ := course_of_ok some ok
    obtain ⟨⟨back, -⟩, after, read, same⟩ := course.restored ok
    refine ⟨i, course.opened, course.before, after, course.connected, congrArg Except.ok back,
      course.watched, read, fun key member => ?_⟩
    have alike := changedKeys_eq_nil.mp same key member
    exact ⟨alike, fun exact => Json.eq_of_sameOption exact alike⟩
  · intro host i cleanups scene prepared unstopped
    obtain ⟨course⟩ := course_of_prepared tree some prepared
    exact ⟨course.opened, course.before, course.connected, course.watched,
      fun after read changed => course.tells unstopped read changed⟩
  · intro host i cleanups scene prepared admitted holds keep
    obtain ⟨course⟩ := course_of_prepared tree some prepared
    exact course.readable guarded admitted holds keep

/-- Whatever its checks override, a run on a host that keeps its namespaces in memory or in a
database leaves the watched options as they were, or it does not end well. If its checks come to
their end and some of these options are read differently at last, it fails and tells exactly
those. -/
theorem run_watches_options (refused : List String) (settings : RunSettings)
    (conditions : RunConditions) (context : Context) (tree : FileTree) (checks : List Check)
    (some : runtimeChecks checks ≠ []) :
    (∀ w : World MemoryStore,
      Watched MemoryStore.storage refused settings conditions context tree checks w) ∧
    ∀ w : World Database,
      Watched Database.storage refused settings conditions context tree checks w :=
  ⟨fun _ => watched MemoryStore.guarded some, fun _ => watched Database.guarded some⟩

/-- A check that overrides an option and, if it is tidy, takes the override back. -/
def overridingCheck (tidy : Bool) : Check :=
  ⟨"override", [], .runtime ⟨fun _ => [.overriding "debug" [("template", .str "plain")]],
    fun _ _ => .ask (.addOverride "stylesheet" (.str "rogue")) fun id =>
      if tidy then .ask (.removeOverride id) fun _ => .done .passed else .done .passed⟩⟩

theorem overridingCheck_keeps (tidy : Bool) (base : String) :
    ∀ p ∈ commonPreparations .sample (runtimeChecks [overridingCheck tidy]),
      p.Keeps (storage.host.refusing refused) (World.Keeping storage base) := by
  intro p member
  have listed : commonPreparations .sample (runtimeChecks [overridingCheck tidy]) =
      [.overriding "debug" [("template", .str "plain")]] := by
    simp [commonPreparations, runtimeChecks, runtimeCheck?, overridingCheck, distinct,
      Preparation.overriding]
  rw [listed, List.mem_singleton] at member
  rw [member]
  exact World.overriding_keeps storage refused _ _

/-- Sites in memory and in a database. -/
def plainSite : World MemoryStore := ⟨.initial false false, [], ⟨[], []⟩⟩

def themedSite : World Database :=
  ⟨⟨"wp_", false, true, [⟨"wp_options", [("stylesheet", "\"classic\"")]⟩], []⟩, [], ⟨[], []⟩⟩

/-- The check leaves its override behind on one site, and takes it back on the other. -/
def strayRun : RunReport (World MemoryStore) :=
  runIn MemoryStore.storage [] .initial ⟨"run1", [], none, false⟩ .sample ⟨.directory [], []⟩
    [overridingCheck false] plainSite

def tidyRun : RunReport (World Database) :=
  runIn Database.storage [] .initial ⟨"run1", [], none, false⟩ .sample ⟨.directory [], []⟩
    [overridingCheck true] themedSite

theorem run_watches_options_sites :
    TellsKeys "wp_" "wppc_run1_" ["stylesheet"] strayRun.result ∧
      (∃ record, tidyRun.result = .ok record) ∧
        (Database.storage.host.ask 0 .currentNamespace tidyRun.world).1 = .ok "wp_" ∧
        (Database.storage.host.ask 0 (.option "stylesheet") tidyRun.world).1 =
          .ok (some (.str "classic")) := by
  have runtime (tidy : Bool) : runtimeChecks [overridingCheck tidy] ≠ [] := by
    simp [runtimeChecks, runtimeCheck?, overridingCheck]
  obtain ⟨inMemory, -⟩ := run_watches_options [] .initial ⟨"run1", [], none, false⟩ .sample
    ⟨.directory [], []⟩ [overridingCheck false] (runtime false)
  obtain ⟨-, inDatabase⟩ := run_watches_options [] .initial ⟨"run1", [], none, false⟩ .sample
    ⟨.directory [], []⟩ [overridingCheck true] (runtime true)
  refine ⟨?_, ?_⟩
  · have session : (prepareIn MemoryStore.storage [] .initial ⟨"run1", [], none, false⟩ .sample
        [overridingCheck false] plainSite).1.toOption.map (·.2.1) = some 0 := by decide +kernel
    have unstopped : (phaseIn MemoryStore.storage [] .initial ⟨"run1", [], none, false⟩ .sample
        ⟨.directory [], []⟩ [overridingCheck false] 0
        (prepareIn MemoryStore.storage [] .initial ⟨"run1", [], none, false⟩ .sample
          [overridingCheck false] plainSite).2).1 = none := by
      decide +kernel
    rcases prepared : prepareIn MemoryStore.storage [] .initial ⟨"run1", [], none, false⟩ .sample
      [overridingCheck false] plainSite with ⟨cause | ⟨host, i, cs⟩, scene⟩
    · rw [prepared] at session
      cases session
    · rw [prepared] at session unstopped
      obtain rfl : i = 0 := Option.some.inj session
      obtain ⟨opened, before, connected, was, told⟩ :=
        (inMemory plainSite).told host 0 cs scene prepared unstopped
      cases connected
      obtain ⟨after, is⟩ := (inMemory plainSite).readable host 0 cs scene prepared List.not_mem_nil
        (MemoryStore.holds_iff.mpr (by decide +kernel)) (overridingCheck_keeps false _)
      have changed : changedKeys before after = ["stylesheet"] := by
        rw [changedKeys_congr was.eq_read is.eq_read]
        decide +kernel
      have tells := told after is (by rw [changed]; exact List.cons_ne_nil _ _)
      rwa [changed] at tells
  · have ends : tidyRun.result.isOk = true := by decide +kernel
    cases ended : tidyRun.result with
    | error cause =>
      rw [ended] at ends
      cases ends
    | ok record =>
      obtain ⟨i, opened, before, after, connected, back, was, is, same⟩ :=
        (inDatabase themedSite).restored record ended
      cases connected
      have listed : "stylesheet" ∈ watchedKeys := by decide
      have exact : ∀ v ∈ some (Json.str "classic"), v.Exact := by
        rintro v ⟨⟩
        exact True.intro
      have first : before "stylesheet" = some (.str "classic") := by
        rw [was.eq_read "stylesheet" listed]
        exact Json.eq_of_sameOption exact (by decide +kernel)
      have last : after "stylesheet" = some (.str "classic") :=
        ((same "stylesheet" listed).2 (first ▸ exact)).trans first
      exact ⟨⟨record, rfl⟩, back, last ▸ is "stylesheet" listed⟩

end PluginAudit.Run
