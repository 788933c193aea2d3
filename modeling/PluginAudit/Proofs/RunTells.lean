import PluginAudit.Proofs.HostContract
import PluginAudit.Proofs.RunCases

/-!
What a run tells of a namespace that it leaves behind. The error of a run names it, unless the run
has been stopped, or the host did not let the run enter its namespace nor drop it again.
-/

namespace PluginAudit

namespace Isolation

open Preparation

variable {σ : Type} {host : Host σ} {p : Placement σ}

/-- Nothing of a namespace is left for a session: it is gone, and the session is elsewhere. -/
def Left (p : Placement σ) (i : Nat) (former name : String) (s : σ) : Prop :=
  ¬p.has s name ∧ p.current i s = former

theorem leave_tells (contract : host.Contract p) (former name : String) {i : Nat} {s : σ}
    (opened : p.isOpen i s) :
    let left := (leave former name).run (host.ask i) s
    p.isOpen i left.2 ∧
      (Left p i former name left.2 ∨ ∃ problem ∈ left.1, Names name problem) := by
  have stillOpen := contract.ask_open i (.switchTo former) s opened
  have switching := contract.ask i (.switchTo former) s opened
  cases switched : host.ask i (.switchTo former) s with
  | mk answer t =>
    rw [switched] at stillOpen switching
    cases answer with
    | error e =>
      simp only [leave, Program.run_ask, switched, Program.run_pure]
      refine ⟨stillOpen, .inr ⟨_, List.mem_singleton_self _, ?_⟩⟩
      exact (((Names.self name).after _).before _).before _
    | ok _ =>
      have thenOpen := contract.ask_open i (.dropNamespace name) t stillOpen
      have dropping := contract.ask i (.dropNamespace name) t stillOpen
      have moved : p.current i t = former := congrArg Place.current switching
      cases dropped : host.ask i (.dropNamespace name) t with
      | mk answer u =>
        rw [dropped] at thenOpen dropping
        cases answer with
        | error e =>
          simp only [leave, Program.run_ask, switched, dropped, Program.run_pure]
          refine ⟨thenOpen, .inr ⟨_, List.mem_singleton_self _, ?_⟩⟩
          exact (((Names.self name).after _).before _).before _
        | ok _ =>
          simp only [leave, Program.run_ask, switched, dropped, Program.run_pure]
          exact ⟨thenOpen, .inl ⟨dropping.1, dropping.2.trans moved⟩⟩

theorem undo_tells (contract : host.Contract p) (ids : List Nat) (former name : String)
    (snapshot : Snapshot) {i : Nat} {s : σ} (opened : p.isOpen i s) :
    let undone := (undo ids former name snapshot).run (host.ask i) s
    Left p i former name undone.2 ∨
      ∃ reason, undone.1 = .error reason ∧ Names name reason := by
  simp only [run_undo]
  have removed := contract.run_stays (removeAll_stays ids) opened
  have leaving := leave_tells contract former name removed.1
  generalize (leave former name).run (host.ask i)
    ((removeAll ids).run (host.ask i) s).2 = left at leaving ⊢
  obtain ⟨stillOpen, leaving⟩ := leaving
  have verified := contract.run_reads (verify_reads snapshot) stillOpen
  generalize (verify snapshot).run (host.ask i) left.2 = checked at verified ⊢
  cases leaving with
  | inl gone =>
    have has : p.has checked.2 = p.has left.2 := congrArg Place.has verified.2
    have current : p.current i checked.2 = p.current i left.2 := congrArg Place.current verified.2
    refine .inl ⟨?_, current.trans gone.2⟩
    rw [has]
    exact gone.1
  | inr told =>
    obtain ⟨problem, member, named⟩ := told
    have listed : problem ∈ left.1 ++ checked.1 := List.mem_append_left _ member
    have some : (left.1 ++ checked.1).isEmpty = false :=
      List.isEmpty_eq_false_iff.mpr (List.ne_nil_of_mem listed)
    refine .inr ⟨_, ?_, named.intercalate listed "; "⟩
    simp only [verdict, some, Bool.false_eq_true, if_false]

/-- Cleanups of which the isolation's is the last leave the namespace, or a failure names it. -/
theorem undoAll_tells (contract : host.Contract p) (cs : List Cleanup) {last : Cleanup}
    {ids : List Nat} {former name : String} {snapshot : Snapshot}
    (isolation : last.undo = (undo ids former name snapshot).inStep) {i : Nat}
    {s : Run.Scene σ} (opened : p.isOpen i s.1) :
    let undone := (undoAll (cs ++ [last])).run (Run.answerSetup host i) s
    Left p i former name undone.2.1 ∨ UndoFailure.Tells name undone.1 := by
  simp only [undoAll_append, undoAll_cons, isolation, undoAll_nil]
  have before := contract.run_open (undoAll cs) opened
  generalize (undoAll cs).run (Run.answerSetup host i) s = first at before ⊢
  have undoing := undo_tells contract ids former name snapshot before
  have result := run_inStep host i (undo ids former name snapshot)
    (announced (.undo last.place last.name) first.2)
  generalize ((undo ids former name snapshot).inStep.run (Run.answerStep host i)
    (announced (.undo last.place last.name) first.2)) = step at result ⊢
  simp only [result.1, result.2, announced]
  cases undoing with
  | inl gone => exact .inl gone
  | inr told =>
    obtain ⟨reason, failed, named⟩ := told
    refine .inr ⟨⟨last.name, reason⟩, List.mem_append_right _ ?_, named⟩
    rw [failed]
    exact List.mem_singleton_self _

/-- From one state to another nothing of a namespace has been added for a session. -/
def Tidy (p : Placement σ) (i : Nat) (name : String) (before after : σ) : Prop :=
  (p.has after name → p.has before name) ∧ (p.current i after = name → p.current i before = name)

theorem tidy_of_place {i : Nat} {name : String} {before after : σ}
    (same : p.place i after = p.place i before) : Tidy p i name before after := by
  have has : p.has after = p.has before := congrArg Place.has same
  have current : p.current i after = p.current i before := congrArg Place.current same
  exact ⟨fun h => has ▸ h, fun h => current ▸ h⟩

theorem Left.tidy {i : Nat} {former name : String} {before after : σ}
    (gone : Left p i former name after) (placed : p.current i before = former) :
    Tidy p i name before after :=
  ⟨fun h => absurd h gone.1, fun h => placed.trans (gone.2.symm.trans h)⟩

/-- In some state the host neither lets a session enter a namespace nor drops it. -/
def Stuck (host : Host σ) (i : Nat) (name : String) (cause : HostRefusal) : Prop :=
  ∃ s t refusal, host.ask i (.switchTo name) s = (.error cause, t) ∧
    (host.ask i (.dropNamespace name) t).1 = .error refusal

/-- What is known of a session once the isolation has been set up or has failed: in this case
nothing has been added, unless the host is stuck with the namespace. -/
def Isolated (host : Host σ) (p : Placement σ) (i : Nat) (name : String) (start : σ) :
    Except HostRefusal Cleanup → σ → Prop
  | .error cause, world => Tidy p i name start world ∨ Stuck host i name cause
  | .ok c, world => p.isOpen i world ∧ ∃ ids snapshot,
      c = cleanup ids (p.current i start) name snapshot

theorem setup_isolated (contract : host.Contract p) {basename name theme : String} {i : Nat}
    {start : σ} (opened : p.isOpen i start) {result : Except HostRefusal Cleanup} {world : σ}
    (way : SetUp (host.ask i) basename name theme start result world) :
    Isolated host p i name start result world := by
  have captures := contract.run_reads (Snapshot.captureFrom_reads [] watchedKeys) opened
  have reading {snapshot : Except HostRefusal Snapshot} {s : σ}
      (captured : (Snapshot.capture watchedKeys).run (host.ask i) start = (snapshot, s)) :
      p.isOpen i s ∧ p.place i s = p.place i start := by
    rw [show (Snapshot.captureFrom [] watchedKeys).run _ start = _ from captured] at captures
    exact captures
  have locating {s t : σ} {former : Except HostRefusal String} (isOpen : p.isOpen i s)
      (current : host.ask i .currentNamespace s = (former, t)) :
      p.isOpen i t ∧ p.place i t = p.place i s ∧
        ∀ place, former = .ok place → place = p.current i s := by
    have stillOpen := contract.ask_open i .currentNamespace s isOpen
    have told := contract.ask i .currentNamespace s isOpen
    rw [current] at stillOpen told
    exact ⟨stillOpen, told⟩
  have creating {s t : σ} {made : Except HostRefusal Unit} (isOpen : p.isOpen i s)
      (created : host.ask i (.createNamespace name) s = (made, t)) :
      p.isOpen i t ∧ HostCall.Effect (p.place i s) (p.place i t) (.createNamespace name) made := by
    have stillOpen := contract.ask_open i (.createNamespace name) s isOpen
    have told := contract.ask i (.createNamespace name) s isOpen
    rw [created] at stillOpen told
    exact ⟨stillOpen, told⟩
  cases way with
  | unread e s captured => exact .inl (tidy_of_place (reading captured).2)
  | unplaced snapshot e s t captured current =>
    have located := locating (reading captured).1 current
    exact .inl (tidy_of_place (located.2.1.trans (reading captured).2))
  | uncreated snapshot former e s t u captured current created =>
    have located := locating (reading captured).1 current
    have refused := creating located.1 created
    exact .inl (tidy_of_place (refused.2.trans (located.2.1.trans (reading captured).2)))
  | unswitched snapshot former e s t u v captured current created switched =>
    have located := locating (reading captured).1 current
    have made := creating located.1 created
    have isOpen := contract.ask_open i (.switchTo name) u made.1
    have stayed := contract.ask i (.switchTo name) u made.1
    rw [switched] at isOpen stayed
    have placed : p.current i start = p.current i v := by
      have unmoved : p.current i v = p.current i u := congrArg Place.current stayed
      have before : p.current i t = p.current i start :=
        congrArg Place.current (located.2.1.trans (reading captured).2)
      exact before.symm.trans (made.2.symm.trans unmoved.symm)
    -- Whether the namespace is left depends on the answer to the drop, which is not told.
    have dropping := contract.ask i (.dropNamespace name) v isOpen
    cases dropped : (host.ask i (.dropNamespace name) v).1 with
    | error refusal => exact .inr ⟨u, v, refusal, switched, dropped⟩
    | ok _ =>
      rw [dropped] at dropping
      exact .inl (Left.tidy ⟨dropping.1, dropping.2⟩ placed)
  | entered snapshot former s t u v captured current created switched =>
    have located := locating (reading captured).1 current
    have made := creating located.1 created
    have isOpen := contract.ask_open i (.switchTo name) u made.1
    rw [switched] at isOpen
    have finished := contract.run_stays (addAll_stays (overrides basename theme)) isOpen
    have placed : former = p.current i start :=
      (located.2.2 former rfl).trans (congrArg Place.current (reading captured).2)
    exact ⟨finished.1, _, snapshot, by rw [placed]⟩

end Isolation

namespace Run

open Preparation Isolation

variable {σ : Type} {host : Host σ} {p : Placement σ}

/-- What is known once all preparations of a run have been set up or one has failed. -/
def Prepared (host : Host σ) (p : Placement σ) (i : Nat) (name : String) (opened : σ) :
    Except SetupFailure (List Cleanup) → σ → Prop
  | .error failure, world => Tidy p i name opened world ∨
      UndoFailure.Tells name failure.rollbackFailures ∨
      ∃ cause, failure = ⟨preparationName, cause, []⟩ ∧ Stuck host i name cause
  | .ok cleanups, world => p.isOpen i world ∧ ∃ cs last ids snapshot, cleanups = cs ++ [last] ∧
      last.undo = (undo ids (p.current i opened) name snapshot).inStep

theorem preparations_prepared (contract : host.Contract p) {settings : RunSettings}
    {context : Context} {name : String} {runtime : List (Nat × String × RuntimeCheck)} {i : Nat}
    {opened : σ} (isOpen : p.isOpen i opened) {result : Except SetupFailure (List Cleanup)}
    {scene : Scene σ}
    (set : (setUpAll (preparations settings context name runtime)).run (answerSetup host i)
      (opened, []) = (result, scene)) :
    Prepared host p i name opened result scene.1 := by
  have isolated := setup_isolated contract isOpen
    (preparation_cases host i context.basename name settings.theme
      (announced (.setUp 0 preparationName) (opened, [])))
  unfold setUpAll preparations at set
  cases first : (Isolation.preparation context.basename name settings.theme).setup.run
      (answerStep host i) (announced (.setUp 0 preparationName) (opened, [])) with
  | mk answer s =>
    rw [first] at isolated
    cases answer with
    | error cause =>
      rw [setUpFrom_cons_error host i first] at set
      cases set
      cases isolated with
      | inl tidy => exact .inl tidy
      | inr stuck => exact .inr (.inr ⟨cause, rfl, stuck⟩)
    | ok c =>
      obtain ⟨stillOpen, ids, snapshot, rfl⟩ := isolated
      rw [setUpFrom_cons_ok host i first] at set
      obtain ⟨last, numbered, isolation⟩ : ∃ last : Cleanup,
          last = { cleanup ids (p.current i opened) name snapshot with
            place := ([] : List Cleanup).length } ∧
          last.undo = (undo ids (p.current i opened) name snapshot).inStep := ⟨_, rfl, rfl⟩
      rw [← numbered] at set
      have ended := setUpFrom_end host i
        (fun c (s : Scene σ) (isOpen : p.isOpen i s.1) => contract.run_open (.ask c .done) isOpen)
        [last] (commonPreparations context runtime) s stillOpen
      rw [set] at ended
      cases ended with
      | allDone new _ kept => exact ⟨kept, new, last, ids, snapshot, rfl, isolation⟩
      | failed new q cause u _ failures kept undone =>
        have told := undoAll_tells contract new isolation kept
        rw [undone] at told
        cases told with
        | inl gone => exact .inl (gone.tidy rfl)
        | inr told => exact .inr (.inl told)

/-- After a run a namespace is there that was not there before, or the session that has been opened
for the run is in it and was opened elsewhere. -/
def LeftBehind (host : Host σ) (p : Placement σ) (name : String)
    (runtime : List (Nat × String × RuntimeCheck)) (before after : σ) : Prop :=
  (p.has after name ∧ ¬p.has before name) ∨
    runtime ≠ [] ∧ ∃ i, (host.connect before).1 = .ok i ∧ p.current i after = name ∧
      p.current i (host.connect before).2 ≠ name

theorem not_leftBehind (contract : host.Contract p) {name : String}
    {runtime : List (Nat × String × RuntimeCheck)} {i : Nat} {before opened after : σ}
    (connected : host.connect before = (.ok i, opened)) (tidy : Tidy p i name opened after) :
    ¬LeftBehind host p name runtime before after := by
  have same := contract.connect before
  rw [connected] at same
  rintro (⟨there, missing⟩ | ⟨-, j, number, inside, elsewhere⟩)
  · exact missing (same ▸ tidy.1 there)
  · rw [connected] at number elsewhere
    cases number
    exact elsewhere (tidy.2 inside)

/-- The isolation of a run failed half way: the host let the run neither enter its namespace nor
drop it again. -/
def HalfWay (host : Host σ) (name : String) (e : RunError) : Prop :=
  ∃ i cause, e = .setup ⟨preparationName, cause, []⟩ ∧ Stuck host i name cause

theorem leftBehind_cases (contract : host.Contract p) {settings : RunSettings}
    {conditions : RunConditions} {context : Context} {tree : FileTree} {checks : List Check}
    {world : σ}
    (left : LeftBehind host p (settings.namespaceName conditions.id) (runtimeChecks checks) world
      (run (some host) settings conditions context tree checks world).world) :
    ∃ e, (run (some host) settings conditions context tree checks world).result = .error e ∧
      (Names (settings.namespaceName conditions.id) e.message ∨ (∃ stop, e = .stopped stop) ∨
        HalfWay host (settings.namespaceName conditions.id) e) := by
  generalize named : settings.namespaceName conditions.id = name at left ⊢
  by_cases none : runtimeChecks checks = []
  · rw [run_without_runtime none] at left
    rcases left with ⟨there, missing⟩ | ⟨some, -⟩
    · exact absurd there missing
    · exact absurd none some
  · cases prepared : prepare (some host) settings context name (runtimeChecks checks) world with
    | mk result scene =>
      cases result with
      | error e =>
        rw [← named] at prepared
        rw [run_unprepared none prepared] at left ⊢
        rcases prepare_error prepared with ⟨absent, -⟩ | ⟨h, cause, same, -, -, refused⟩ |
          ⟨h, i, opened, failure, same, rfl, connected, set⟩
        · cases absent
        · cases same
          have unchanged := contract.connect world
          rw [refused] at unchanged
          rcases left with ⟨there, missing⟩ | ⟨-, j, number, -⟩
          · exact absurd (unchanged ▸ there) missing
          · rw [refused] at number
            cases number
        · cases same
          have isOpen := contract.opens world i
          rw [connected] at isOpen
          -- A later step that fails is told with what the undoing of the isolation could not do.
          rcases preparations_prepared contract (isOpen rfl) set with tidy | told | stuck
          · rw [named] at tidy
            exact absurd left (not_leftBehind contract connected tidy)
          · rw [named] at told
            exact ⟨_, rfl, .inl (RunError.setup_names told _ _)⟩
          · rw [named] at stuck
            obtain ⟨cause, rfl, stuck⟩ := stuck
            exact ⟨_, rfl, .inr (.inr ⟨i, cause, rfl, stuck⟩)⟩
      | ok r =>
        obtain ⟨h, i, cleanups⟩ := r
        rw [← named] at prepared
        rw [run_prepared none prepared] at left ⊢
        obtain ⟨same, opened, connected, set⟩ := prepare_ok prepared
        cases same
        have isOpen := contract.opens world i
        rw [connected] at isOpen
        obtain ⟨stillOpen, cs, last, ids, snapshot, rfl, isolation⟩ :=
          preparations_prepared contract (isOpen rfl) set
        have checked := contract.checkPhase_open
          ⟨i, context, settings.namespaceName conditions.id⟩ settings conditions
          (staticTasks context tree checks) (runtimeChecks checks) stillOpen
        generalize checkPhase host ⟨i, context, settings.namespaceName conditions.id⟩ settings
          conditions (staticTasks context tree checks) (runtimeChecks checks) scene = phase
          at checked left ⊢
        rw [named] at isolation
        rcases undoAll_tells contract cs isolation (s := (phase.2.world, phase.2.trace)) checked with
          gone | told
        · exact absurd left (not_leftBehind contract connected (gone.tidy rfl))
        · rw [finish_result]
          cases stopped : phase.1 with
          -- The failures of the cleanups are not part of this error.
          | some stop => exact ⟨_, rfl, .inr (.inl ⟨stop, rfl⟩)⟩
          | none =>
            refine ⟨_, ?_, .inl (RunError.cleanup_names told)⟩
            obtain ⟨f, member, -⟩ := told
            exact if_neg fun empty => List.not_mem_nil (List.isEmpty_iff.mp empty ▸ member)

/-- Whenever a run leaves its namespace behind, it ends with an error. The error names the
namespace, unless it says only that the run has been stopped, or the isolation failed half way. -/
theorem run_tells_leftBehind (host : Host σ) (p : Placement σ) (contract : host.Contract p)
    (settings : RunSettings) (conditions : RunConditions) (context : Context) (tree : FileTree)
    (checks : List Check) (world : σ)
    (left : LeftBehind host p (settings.namespaceName conditions.id) (runtimeChecks checks) world
      (run (some host) settings conditions context tree checks world).world) :
    let name := settings.namespaceName conditions.id
    ∃ e, (run (some host) settings conditions context tree checks world).result = .error e ∧
      ((Names name e.message ∧ ∀ stop, e ≠ .stopped stop) ∨
        (¬Names name e.message ∧ ((∃ stop, e = .stopped stop) ∨ HalfWay host name e))) := by
  intro name
  obtain ⟨e, failed, told⟩ := leftBehind_cases contract left
  have silent : ∀ stop, e = .stopped stop → ¬Names name e.message := by
    rintro stop rfl
    exact RunError.stopped_names_nothing settings conditions.id stop
  refine ⟨e, failed, ?_⟩
  by_cases named : Names name e.message
  · exact .inl ⟨named, fun stop stopped => silent stop stopped named⟩
  · exact .inr ⟨named, told.resolve_left named⟩

/-- A check that takes a second. -/
def sleeper : Check :=
  ⟨"sleeper", [], .runtime ⟨fun _ => [], fun _ _ => .ask (.sleep 1000) fun _ => .done .passed⟩⟩

/-- A run that is stopped after 50 milliseconds, on a host that refuses to drop namespaces. -/
def stoppedRun : RunReport (World MemoryStore) :=
  run (some MemoryStore.storage.host) { RunSettings.initial with timeout := some 50 }
    ⟨"run1", [], none, false⟩ .sample ⟨.directory [], []⟩ [sleeper]
    ⟨.initial false true, [], ⟨[], []⟩⟩

theorem stoppedRun_hides_leftBehind :
    stoppedRun.world.store.has "wppc_run1_" = true ∧
      ∃ e, stoppedRun.result = .error e ∧ ¬Names "wppc_run1_" e.message ∧
        ((∃ stop, e = .stopped stop) ∨ HalfWay MemoryStore.storage.host "wppc_run1_" e) := by
  have there : stoppedRun.world.store.has "wppc_run1_" = true := by decide +kernel
  have missing : (MemoryStore.initial false true).has "wppc_run1_" = false := by decide +kernel
  have message : ((stoppedRun.result.map fun _ => "").tryCatch fun e => .ok e.message).toOption =
      some "Run timed out after 50ms" := by decide +kernel
  obtain ⟨e, failed, told⟩ := run_tells_leftBehind _ _ MemoryStore.contract
    { RunSettings.initial with timeout := some 50 } ⟨"run1", [], none, false⟩ .sample
    ⟨.directory [], []⟩ [sleeper] ⟨.initial false true, [], ⟨[], []⟩⟩
    (.inl ⟨there, Bool.eq_false_iff.mp missing⟩)
  refine ⟨there, e, failed, ?_⟩
  rcases told with ⟨named, -⟩ | silent
  · rw [show stoppedRun.result = .error e from failed] at message
    have text : e.message = "Run timed out after 50ms" := Option.some.inj message
    rw [text] at named
    exact absurd named (by decide +kernel)
  · exact silent

/-- On a host whose refusals name the namespace, as those here do, only a run that is stopped does
not name the namespace that it leaves behind. -/
theorem leftBehind_named_iff (contract : host.Contract p) (refusals : host.NamesRefused)
    {settings : RunSettings} {conditions : RunConditions} {context : Context} {tree : FileTree}
    {checks : List Check} {world : σ}
    (left : LeftBehind host p (settings.namespaceName conditions.id) (runtimeChecks checks) world
      (run (some host) settings conditions context tree checks world).world) :
    ∃ e, (run (some host) settings conditions context tree checks world).result = .error e ∧
      (Names (settings.namespaceName conditions.id) e.message ↔ ∀ stop, e ≠ .stopped stop) := by
  obtain ⟨e, failed, named | ⟨stop, rfl⟩ | ⟨i, cause, rfl, s, t, -, refused, -⟩⟩ :=
    leftBehind_cases contract left
  · refine ⟨e, failed, fun _ stop same => ?_, fun _ => named⟩
    rw [same] at named
    exact RunError.stopped_names_nothing settings conditions.id stop named
  · refine ⟨_, failed, fun named => ?_, fun unstopped => absurd rfl (unstopped stop)⟩
    exact absurd named (RunError.stopped_names_nothing settings conditions.id stop)
  · refine ⟨_, failed, fun _ stop same => (nomatch same), fun _ => ?_⟩
    exact RunError.setup_names_cause (refusals i _ s cause t refused) preparationName []

end Run

end PluginAudit
