import PluginAudit.Host.Memory
import PluginAudit.Proofs.RunAccount
import PluginAudit.Proofs.RunOrder
import Mathlib.Data.List.Perm.Subperm

/-!
Which checks of a run are executing at a time. A state of a run is what has happened in it so far.
In every such state no more static checks are executing than there is room for; runtime checks
begin in the order of the selection, one at a time, when all static checks have ended and have been
recorded.
-/

namespace PluginAudit

/-- A check begins or has ended. -/
def Event.isMark (e : Event) : Bool := e.started?.isSome || e.ended?.isSome

theorem Event.filterMap_marks {α : Type} {view : Event → Option α}
    (unseen : ∀ e, e.isMark = false → view e = none) (events : List Event) :
    (events.filter Event.isMark).filterMap view = events.filterMap view := by
  induction events with
  | nil => rfl
  | cons e rest ih =>
    by_cases mark : e.isMark = true
    · rw [List.filter_cons_of_pos mark, List.filterMap_cons, List.filterMap_cons, ih]
    · rw [List.filter_cons_of_neg mark, ih, List.filterMap_cons,
        unseen e (Bool.eq_false_iff.mpr mark)]

theorem Event.filterMap_started_marks (events : List Event) :
    (events.filter Event.isMark).filterMap Event.started? = events.filterMap Event.started? :=
  filterMap_marks (fun e quiet => by cases e <;> simp_all [isMark, started?]) events

theorem Event.filterMap_ended_marks (events : List Event) :
    (events.filter Event.isMark).filterMap Event.ended? = events.filterMap Event.ended? :=
  filterMap_marks (fun e quiet => by cases e <;> simp_all [isMark, ended?]) events

theorem Adds.filter_isMark {kind : Event → Prop} {a b : List Event} (h : Adds kind a b)
    (quiet : ∀ e, kind e → e.started? = none ∧ e.ended? = none) :
    b.filter Event.isMark = a.filter Event.isMark := by
  obtain ⟨new, rfl, all⟩ := h
  have unseen : new.filter Event.isMark = [] := by
    refine List.filter_eq_nil_iff.mpr fun e member => ?_
    obtain ⟨starts, ends⟩ := quiet e (all e member)
    simp [Event.isMark, starts, ends]
  rw [List.filter_append, unseen, List.nil_append]

namespace Run

instance (check : Nat) (events : List Event) : Decidable (Executing check events) :=
  inferInstanceAs (Decidable (_ < _))

theorem executing_marks {check : Nat} {events : List Event} :
    Executing check (events.filter Event.isMark) ↔ Executing check events := by
  simp only [Executing, Event.filterMap_started_marks, Event.filterMap_ended_marks]

theorem executing_reverse {check : Nat} {events : List Event} :
    Executing check events.reverse ↔ Executing check events := by
  simp only [Executing, List.filterMap_reverse, List.count_reverse]

/-- A check that does not occur in a part of what has happened executes regardless of it. -/
theorem executing_append_left {check : Nat} {before after : List Event}
    (starts : check ∉ after.filterMap Event.started?)
    (ends : check ∉ after.filterMap Event.ended?) :
    Executing check (before ++ after) ↔ Executing check before := by
  simp only [Executing, List.filterMap_append, List.count_append,
    List.count_eq_zero.mpr starts, List.count_eq_zero.mpr ends, Nat.add_zero]

theorem executing_append_right {check : Nat} {before after : List Event}
    (starts : check ∉ before.filterMap Event.started?)
    (ends : check ∉ before.filterMap Event.ended?) :
    Executing check (before ++ after) ↔ Executing check after := by
  simp only [Executing, List.filterMap_append, List.count_append,
    List.count_eq_zero.mpr starts, List.count_eq_zero.mpr ends, Nat.zero_add]

end Run

namespace Pool

open Run

variable {limit : Nat} {tasks collected : List StaticTask} {p q : Pool}

theorem Step.running_le (step : Step limit p q) (fits : p.running.length ≤ room limit) :
    q.running.length ≤ room limit := by
  cases step with
  | start t waiting running ended record trace free =>
    simp only [List.length_append, List.length_singleton]
    omega
  | emit t f steps waiting before after ended record trace next => simpa using fits
  | note t text steps waiting before after ended record trace next => simpa using fits
  | finish t waiting before after ended record trace spent =>
    simp only [List.length_append, List.length_cons] at fits ⊢
    omega
  | collect t waiting running before after record trace => exact fits

theorem Step.trace_cases (step : Step limit p q) :
    q.trace = p.trace ∨ ∃ e, q.trace = e :: p.trace := by
  cases step with
  | start => exact .inr ⟨_, rfl⟩
  | emit => exact .inl rfl
  | note => exact .inr ⟨_, rfl⟩
  | finish => exact .inr ⟨_, rfl⟩
  | collect => exact .inl rfl

theorem Accounts.executing_iff (h : Accounts tasks collected p) (check : Nat) :
    Executing check p.trace ↔ check ∈ p.running.map StaticTask.place := by
  rw [Executing, h.starts.count_eq, h.ends.count_eq, ← List.count_pos_iff]
  simp only [List.map_append, List.count_append]
  omega

theorem Accounts.executing_le (h : Accounts tasks collected p)
    (nodup : (tasks.map StaticTask.place).Nodup) :
    ((tasks.map StaticTask.place).filter (Executing · p.trace)).length ≤ p.running.length := by
  have inside : (tasks.map StaticTask.place).filter (Executing · p.trace) ⊆
      p.running.map StaticTask.place := by
    intro check member
    have executing := (List.mem_filter.mp member).2
    exact (h.executing_iff check).mp (of_decide_eq_true executing)
  have fewer := (List.subperm_of_subset (nodup.filter _) inside).length_le
  rwa [List.length_map] at fewer

/-- The account of a pool in which there has been room for all checks that were executing at any
time. -/
structure Bounded (limit : Nat) (tasks collected : List StaticTask) (p : Pool) : Prop where
  account : Accounts tasks collected p
  fits : p.running.length ≤ room limit
  always : ∀ earlier, earlier <:+ p.trace →
    ((tasks.map StaticTask.place).filter (Executing · earlier)).length ≤ room limit

theorem Bounded.initial (limit : Nat) (tasks : List StaticTask) :
    Bounded limit tasks [] (.ofTasks tasks) := by
  refine ⟨.initial tasks, Nat.zero_le _, fun earlier suffix => ?_⟩
  obtain rfl := List.eq_nil_of_suffix_nil suffix
  simp [Executing]

theorem Bounded.step (h : Bounded limit tasks collected p)
    (nodup : (tasks.map StaticTask.place).Nodup) (step : Step limit p q) :
    ∃ more, Bounded limit tasks (collected ++ more) q := by
  obtain ⟨more, account⟩ := h.account.step step
  have fits := step.running_le h.fits
  refine ⟨more, account, fits, fun earlier suffix => ?_⟩
  rcases step.trace_cases with same | ⟨e, added⟩
  · rw [same] at suffix
    exact h.always earlier suffix
  · rw [added, List.suffix_cons_iff] at suffix
    rcases suffix with rfl | old
    · rw [← added]
      exact Nat.le_trans (account.executing_le nodup) fits
    · exact h.always earlier old

theorem Bounded.supervise (h : Bounded limit tasks collected p)
    (nodup : (tasks.map StaticTask.place).Nodup) (watch : Watch) (moves : List PoolMove)
    (clock : Nat) :
    ∃ collected, Bounded limit tasks collected (supervise watch limit moves clock p).2.2 :=
  (supervise_keeps limit (I := fun p => ∃ collected, Bounded limit tasks collected p)
    (fun _ ⟨_, h⟩ => h.account.distinct nodup)
    (fun _ _ ⟨_, h⟩ step => (h.step nodup step).imp' _ fun _ later => later)
    ⟨collected, h⟩ watch moves clock).1

end Pool

namespace Progress

variable {σ : Type} (host : Host σ) (env : Environment) (watch : Watch)

/-- The marks of checks that run one after another. -/
def brackets (checks : List (Nat × String × RuntimeCheck)) : List Event :=
  checks.flatMap fun c => [.started c.1, .ended c.1]

theorem runChecks_marks (first : Bool) (checks : List (Nat × String × RuntimeCheck))
    (p : Progress σ) :
    ∃ begun, begun <+: checks ∧
      (runChecks host env watch first checks p).2.trace.filter Event.isMark =
        (brackets begun).reverse ++ p.trace.filter Event.isMark := by
  induction checks generalizing first p with
  | nil => exact ⟨[], List.prefix_rfl, rfl⟩
  | cons entry rest ih =>
    obtain ⟨place, slug, check⟩ := entry
    have body := runBody_adds host env watch (check.body env.context env.namespaceName)
      (p.tell (.started place))
    have leaves {q : Progress σ}
        (ran : Adds Event.Unmarked (p.tell (.started place)).trace q.trace) :
        (q.tell (.ended place)).trace.filter Event.isMark =
          .ended place :: .started place :: p.trace.filter Event.isMark := by
      have same := ran.filter_isMark fun _ h => h.2.2
      simpa [tell, List.filter_cons, Event.isMark, Event.started?, Event.ended?] using same
    obtain ⟨stop, record, -, came⟩ | ⟨stop, q, record, -, ran, came⟩ |
      ⟨ending, q, -, ran, came⟩ := runChecks_cases host env watch first place slug check rest p
    · rw [came]
      exact ⟨[], List.nil_prefix, rfl⟩
    · rw [ran] at body
      rw [came]
      refine ⟨[(place, slug, check)], by simp, ?_⟩
      simpa [brackets] using leaves body
    · rw [ran] at body
      obtain ⟨begun, initial, later⟩ := ih false { q.tell (.ended place) with
        record := q.record.close slug ending }
      rw [came]
      refine ⟨(place, slug, check) :: begun, by simpa using initial, ?_⟩
      rw [later, leaves body]
      simp [brackets]

theorem brackets_started (checks : List (Nat × String × RuntimeCheck)) :
    (brackets checks).filterMap Event.started? = checks.map Prod.fst := by
  induction checks with
  | nil => rfl
  | cons c rest ih => simpa [brackets, List.filterMap_cons, Event.started?] using ih

theorem brackets_ended (checks : List (Nat × String × RuntimeCheck)) :
    (brackets checks).filterMap Event.ended? = checks.map Prod.fst := by
  induction checks with
  | nil => rfl
  | cons c rest ih => simpa [brackets, List.filterMap_cons, Event.ended?] using ih

/-- Of checks that run one after another at most one is executing. -/
theorem brackets_single {checks : List (Nat × String × RuntimeCheck)} {before : List Event}
    (initial : before <+: brackets checks) {check other : Nat}
    (executing : Run.Executing check before) (executing' : Run.Executing other before) :
    check = other := by
  induction checks generalizing before with
  | nil =>
    obtain rfl := List.prefix_nil.mp initial
    simp [Run.Executing] at executing
  | cons c rest ih =>
    have parts : brackets (c :: rest) = .started c.1 :: .ended c.1 :: brackets rest := rfl
    rw [parts] at initial
    rcases List.prefix_cons_iff.mp initial with rfl | ⟨after, rfl, inner⟩
    · simp [Run.Executing] at executing
    · rcases List.prefix_cons_iff.mp inner with rfl | ⟨last, rfl, tail⟩
      · have only {n : Nat} (h : Run.Executing n [.started c.1]) : n = c.1 := by
          by_contra different
          simp [Run.Executing, Event.started?, Event.ended?, Ne.symm different] at h
        rw [only executing, only executing']
      · have past {n : Nat} (h : Run.Executing n (.started c.1 :: .ended c.1 :: last)) :
            Run.Executing n last := by
          simpa [Run.Executing, List.filterMap_cons, Event.started?, Event.ended?,
            List.count_cons] using h
        exact ih tail (past executing) (past executing')

/-- Runtime checks in two parts: unless the run is stopped in the first part, the second one goes on
where the first one has ended. -/
theorem runChecks_append (first : Bool) (earlier later : List (Nat × String × RuntimeCheck))
    (p : Progress σ) :
    runChecks host env watch first (earlier ++ later) p =
      match runChecks host env watch first earlier p with
      | (some stop, q) => (some stop, q)
      | (none, q) => runChecks host env watch (first && earlier.isEmpty) later q := by
  induction earlier generalizing first p with
  | nil => simp [runChecks, attend]
  | cons entry rest ih =>
    obtain ⟨place, slug, check⟩ := entry
    rw [List.cons_append, runChecks_cons, runChecks_cons]
    cases stopBefore? watch first p with
    | some stop => rfl
    | none =>
      cases fly host env watch place (check.body env.context env.namespaceName) p with
      | mk result q =>
        cases result with
        | error stopped => rfl
        | ok ending => simpa using ih false _

end Progress

namespace Run

theorem prefix_append_cases {α : Type} {before first last : List α}
    (initial : before <+: first ++ last) :
    before <+: first ∨ ∃ later, later <+: last ∧ before = first ++ later := by
  obtain ⟨rest, whole⟩ := initial
  rcases List.append_eq_append_iff.mp whole with ⟨more, same, -⟩ | ⟨later, same, parts⟩
  · exact .inl ⟨more, same.symm⟩
  · exact .inr ⟨later, ⟨rest, parts.symm⟩, same⟩

/-- How checks follow each other in what happens in a run, at every time in it. A static check is
executing from the time when it has its place in the pool. -/
structure Scheduled (limit : Nat) (statics runtime : List Nat) (trace : List Event) : Prop where
  bounded : ∀ before, before <+: trace →
    (statics.filter (Executing · before)).length ≤ max 1 limit
  statics_first : ∀ before check after, trace = before ++ .started check :: after →
    check ∈ runtime → ∀ s ∈ statics, .ended s ∈ before ∧ ¬Executing s before
  single : ∀ before, before <+: trace → ∀ check ∈ runtime, ∀ other ∈ runtime,
    Executing check before → Executing other before → check = other
  ordered : (trace.filterMap Event.started?).filter (· ∈ runtime) <+: runtime

theorem Scheduled.nothing (limit : Nat) (statics runtime : List Nat) :
    Scheduled limit statics runtime [] where
  bounded before initial := by
    obtain rfl := List.prefix_nil.mp initial
    simp [Executing]
  statics_first before check after parts := by simp at parts
  single before initial check _ other _ executing := by
    obtain rfl := List.prefix_nil.mp initial
    simp [Executing] at executing
  ordered := List.nil_prefix

/-- Only the beginnings and the ends of checks matter. -/
theorem Scheduled.congr {limit : Nat} {statics runtime : List Nat} {trace other : List Event}
    (h : Scheduled limit statics runtime trace)
    (same : other.filter Event.isMark = trace.filter Event.isMark) :
    Scheduled limit statics runtime other := by
  -- A time in the one is a time in the other with the same beginnings and ends.
  have time {before : List Event} (initial : before <+: other) :
      ∃ time, time <+: trace ∧ ∀ check, Executing check time ↔ Executing check before := by
    have marks := initial.filter Event.isMark
    rw [same] at marks
    obtain ⟨time, initial', equal⟩ := List.prefix_filter_iff.mp marks
    exact ⟨time, initial', fun check => by rw [← executing_marks, ← equal, executing_marks]⟩
  constructor
  · intro before initial
    obtain ⟨time, initial', equal⟩ := time initial
    simpa only [equal] using h.bounded time initial'
  · intro before check after parts isRuntime s isStatic
    rw [parts, List.filter_append, List.filter_cons_of_pos rfl] at same
    obtain ⟨first, last, rfl, firstMarks, lastMarks⟩ := List.filter_eq_append_iff.mp same.symm
    obtain ⟨quiet, rest, rfl, unmarked, -, -⟩ := List.filter_eq_cons_iff.mp lastMarks
    have noMarks : quiet.filter Event.isMark = [] := List.filter_eq_nil_iff.mpr unmarked
    have equal : (first ++ quiet).filter Event.isMark = before.filter Event.isMark := by
      rw [List.filter_append, noMarks, List.append_nil, firstMarks]
    obtain ⟨ended, finished⟩ :=
      h.statics_first (first ++ quiet) check rest (by simp) isRuntime s isStatic
    constructor
    · have marked : Event.ended s ∈ (first ++ quiet).filter Event.isMark :=
        List.mem_filter.mpr ⟨ended, rfl⟩
      rw [equal] at marked
      exact (List.mem_filter.mp marked).1
    · rwa [← executing_marks, equal, executing_marks] at finished
  · intro before initial check isRuntime other' isRuntime' executing executing'
    obtain ⟨time, initial', equal⟩ := time initial
    exact h.single time initial' check isRuntime other' isRuntime' ((equal _).mpr executing)
      ((equal _).mpr executing')
  · have order := h.ordered
    rwa [← Event.filterMap_started_marks, ← same, Event.filterMap_started_marks] at order

variable {σ : Type}

theorem staticPhase_bounded (settings : RunSettings) (conditions : RunConditions)
    (context : Context) (tree : FileTree) (checks : List Check) :
    ∃ collected, Pool.Bounded settings.maxParallel (staticTasks context tree checks) collected
      (staticPhase settings conditions context tree checks).2.2 :=
  (Pool.Bounded.initial settings.maxParallel (staticTasks context tree checks)).supervise
    (places_nodup context tree checks) (conditions.watch settings) conditions.moves 0

theorem runtime_absent {settings : RunSettings} {conditions : RunConditions} {context : Context}
    {tree : FileTree} {checks : List Check} {before : List Event}
    (first : before <+: (staticPhase settings conditions context tree checks).2.2.trace.reverse)
    {place : Nat} (isRuntime : place ∈ (runtimeChecks checks).map Prod.fst) :
    place ∉ before.filterMap Event.started? ∧ place ∉ before.filterMap Event.ended? := by
  obtain ⟨starts, ends⟩ :=
    (staticPhase_trace settings conditions context tree checks).2 place isRuntime
  rw [← List.mem_reverse, ← List.filterMap_reverse] at starts ends
  exact ⟨fun member => starts ((first.filterMap _).subset member),
    fun member => ends ((first.filterMap _).subset member)⟩

theorem brackets_absent {begun : List (Nat × String × RuntimeCheck)} {before : List Event}
    (first : before <+: Progress.brackets begun) {place : Nat}
    (other : place ∉ begun.map Prod.fst) :
    place ∉ before.filterMap Event.started? ∧ place ∉ before.filterMap Event.ended? := by
  constructor
  · intro member
    have inside := (first.filterMap Event.started?).subset member
    exact other (by rwa [Progress.brackets_started] at inside)
  · intro member
    have inside := (first.filterMap Event.ended?).subset member
    exact other (by rwa [Progress.brackets_ended] at inside)

/-- A static check that is over has ended and is not executing any more. -/
theorem static_over {settings : RunSettings} {conditions : RunConditions} {context : Context}
    {tree : FileTree} {checks : List Check}
    (unstopped : (staticPhase settings conditions context tree checks).1 = none) {s : Nat}
    (isStatic : s ∈ (staticTasks context tree checks).map StaticTask.place) :
    let events := (staticPhase settings conditions context tree checks).2.2.trace.reverse
    .ended s ∈ events ∧ ¬Executing s events := by
  obtain ⟨-, -, starts, ends⟩ := staticPhase_settled unstopped
  obtain ⟨e, member, same⟩ := List.mem_filterMap.mp (ends.symm.subset isStatic)
  constructor
  · have isEnd : e = .ended s := by
      cases e <;> simp_all [Event.ended?]
    rw [← isEnd]
    exact List.mem_reverse.mpr member
  · rw [executing_reverse, Executing, starts.count_eq, ends.count_eq]
    exact Nat.lt_irrefl _

/-- Static checks in a pool are scheduled, and so are they with runtime checks that run one after
another behind them, provided that nothing has stopped the static checks. -/
theorem scheduled_of_parts {settings : RunSettings} {conditions : RunConditions}
    {context : Context} {tree : FileTree} {checks : List Check}
    {begun : List (Nat × String × RuntimeCheck)} (initial : begun <+: runtimeChecks checks)
    (finished : begun ≠ [] → (staticPhase settings conditions context tree checks).1 = none) :
    Scheduled settings.maxParallel ((staticTasks context tree checks).map StaticTask.place)
      ((runtimeChecks checks).map Prod.fst)
      ((staticPhase settings conditions context tree checks).2.2.trace.reverse ++
        Progress.brackets begun) := by
  have isRuntime : begun.map Prod.fst <+: (runtimeChecks checks).map Prod.fst :=
    initial.map Prod.fst
  have static_absent {later : List Event} (last : later <+: Progress.brackets begun) {s : Nat}
      (isStatic : s ∈ (staticTasks context tree checks).map StaticTask.place) :
      s ∉ later.filterMap Event.started? ∧ s ∉ later.filterMap Event.ended? :=
    brackets_absent last fun member =>
      places_disjoint context tree checks isStatic (isRuntime.subset member)
  constructor
  · obtain ⟨collected, bounded⟩ := staticPhase_bounded settings conditions context tree checks
    have bound : ∀ before,
        before <+: (staticPhase settings conditions context tree checks).2.2.trace.reverse →
        (((staticTasks context tree checks).map StaticTask.place).filter
          (Executing · before)).length ≤ max 1 settings.maxParallel := by
      intro before first
      rw [← List.reverse_suffix, List.reverse_reverse] at first
      have fits := bounded.always _ first
      simp only [executing_reverse] at fits
      rwa [Nat.max_comm]
    intro before first
    rcases prefix_append_cases first with early | ⟨later, last, rfl⟩
    · exact bound before early
    · have same := bound _ List.prefix_rfl
      rwa [List.filter_congr fun s isStatic => decide_eq_decide.mpr
        (executing_append_left (static_absent last isStatic).1 (static_absent last isStatic).2)]
  · intro before check after whole member s isStatic
    have notYet : Event.started check ∉
        (staticPhase settings conditions context tree checks).2.2.trace.reverse := fun inside =>
      (runtime_absent List.prefix_rfl member).1 (List.mem_filterMap.mpr ⟨_, inside, rfl⟩)
    obtain ⟨early, rfl, rest⟩ := split_after whole notYet
    have some : begun ≠ [] := by
      rintro rfl
      simp [Progress.brackets] at rest
    obtain ⟨ended, calm⟩ := static_over (finished some) isStatic
    obtain ⟨starts, ends⟩ := static_absent ⟨_, rest.symm⟩ isStatic
    exact ⟨List.mem_append_left _ ended, by rwa [executing_append_left starts ends]⟩
  · intro before first check member other member' executing executing'
    rcases prefix_append_cases first with early | ⟨later, last, rfl⟩
    · unfold Executing at executing
      rw [List.count_eq_zero.mpr (runtime_absent early member).1] at executing
      exact absurd executing (Nat.not_lt_zero _)
    · obtain ⟨starts, ends⟩ := runtime_absent List.prefix_rfl member
      obtain ⟨starts', ends'⟩ := runtime_absent List.prefix_rfl member'
      rw [executing_append_right starts ends] at executing
      rw [executing_append_right starts' ends'] at executing'
      exact Progress.brackets_single last executing executing'
  · have none : ((staticPhase settings conditions context tree checks).2.2.trace.reverse.filterMap
        Event.started?).filter (· ∈ (runtimeChecks checks).map Prod.fst) = [] := by
      refine List.filter_eq_nil_iff.mpr fun place inside member => ?_
      exact (runtime_absent List.prefix_rfl (of_decide_eq_true member)).1 inside
    have all : (begun.map Prod.fst).filter (· ∈ (runtimeChecks checks).map Prod.fst) =
        begun.map Prod.fst :=
      List.filter_eq_self.mpr fun place member => decide_eq_true (isRuntime.subset member)
    rw [List.filterMap_append, List.filter_append, none, List.nil_append,
      Progress.brackets_started, all]
    exact isRuntime

theorem prepare_marks (host : Option (Host σ)) (settings : RunSettings) (context : Context)
    (name : String) (runtime : List (Nat × String × RuntimeCheck)) (world : σ) :
    (prepare host settings context name runtime world).2.2.filter Event.isMark = [] :=
  (prepare_starts_nothing host settings context name runtime world).filter_isMark fun _ h => h

theorem checkPhase_marks (host : Host σ) (env : Environment) (settings : RunSettings)
    (conditions : RunConditions) (context : Context) (tree : FileTree) (checks : List Check)
    {scene : Scene σ} (quiet : scene.2.filter Event.isMark = []) :
    let phase := staticPhase settings conditions context tree checks
    ∃ begun, begun <+: runtimeChecks checks ∧ (begun ≠ [] → phase.1 = none) ∧
      (checkPhase host env settings conditions (staticTasks context tree checks)
        (runtimeChecks checks) scene).2.trace.filter Event.isMark =
          (Progress.brackets begun).reverse ++ phase.2.2.trace.filter Event.isMark := by
  intro phase
  cases stopped : phase.1 with
  | some stop =>
    rw [checkPhase_stopped stopped]
    refine ⟨[], List.nil_prefix, fun some => absurd rfl some, ?_⟩
    simp [afterStatic, quiet, Progress.brackets, phase]
  | none =>
    rw [checkPhase_unstopped stopped]
    obtain ⟨begun, initial, marks⟩ := Progress.runChecks_marks host env (conditions.watch settings)
      true (runtimeChecks checks) (afterStatic phase scene)
    refine ⟨begun, initial, fun _ => rfl, ?_⟩
    rw [marks]
    simp [afterStatic, quiet]

theorem brackets_marks (begun : List (Nat × String × RuntimeCheck)) :
    (Progress.brackets begun).filter Event.isMark = Progress.brackets begun := by
  refine List.filter_eq_self.mpr fun e member => ?_
  obtain ⟨c, -, inside⟩ := List.mem_flatMap.mp member
  simp only [List.mem_cons, List.not_mem_nil, or_false] at inside
  rcases inside with rfl | rfl <;> rfl

/-- The beginnings and ends of checks in a run: those of the static checks, then those of the first
runtime checks. There are none if a preparation fails. -/
theorem run_marks (host : Option (Host σ)) (settings : RunSettings) (conditions : RunConditions)
    (context : Context) (tree : FileTree) (checks : List Check) (world : σ) :
    let marks := (run host settings conditions context tree checks world).trace.filter Event.isMark
    let phase := staticPhase settings conditions context tree checks
    marks = [] ∨ ∃ begun, begun <+: runtimeChecks checks ∧ (begun ≠ [] → phase.1 = none) ∧
      marks = (phase.2.2.trace.reverse ++ Progress.brackets begun).filter Event.isMark := by
  intro marks phase
  by_cases none : runtimeChecks checks = []
  · refine .inr ⟨[], List.nil_prefix, fun some => absurd rfl some, ?_⟩
    simp only [marks, run_without_runtime none, phase]
    simp [Progress.brackets]
  · have quiet := prepare_marks host settings context (settings.namespaceName conditions.id)
      (runtimeChecks checks) world
    cases prepared : prepare host settings context (settings.namespaceName conditions.id)
      (runtimeChecks checks) world with
    | mk result scene =>
      rw [prepared] at quiet
      cases result with
      | error e =>
        left
        simp only [marks, run_unprepared none prepared, List.filter_reverse]
        rw [quiet, List.reverse_nil]
      | ok prepared' =>
        obtain ⟨h, session, cleanups⟩ := prepared'
        obtain ⟨begun, initial, finished, checked⟩ := checkPhase_marks h
          ⟨session, context, settings.namespaceName conditions.id⟩ settings conditions context tree
          checks quiet
        refine .inr ⟨begun, initial, finished, ?_⟩
        have undone (checked : Option Stop × Progress σ) :
            ((Preparation.undoAll cleanups).run (answerSetup h session)
              (checked.2.world, checked.2.trace)).2.2.filter Event.isMark =
                checked.2.trace.filter Event.isMark :=
          (Preparation.undoAll_adds h session cleanups _).filter_isMark fun _ h => h.2
        simp only [marks, run_prepared none prepared, finish, List.filter_reverse, undone, checked]
        rw [List.filter_append, brackets_marks, List.reverse_append, List.reverse_reverse,
          List.filter_reverse]

/-- When a part of the runtime checks is to begin in a prepared run, the static checks are over and
their outcomes are recorded. It begins unless the run has been stopped before. -/
def Recorded (host : Host σ) (env : Environment) (settings : RunSettings)
    (conditions : RunConditions) (context : Context) (tree : FileTree) (checks : List Check)
    (scene : Scene σ) : Prop :=
  let phase := staticPhase settings conditions context tree checks
  let tasks := staticTasks context tree checks
  ∀ earlier later, runtimeChecks checks = earlier ++ later →
    match checkPhase host env settings conditions tasks earlier scene with
    | (some stop, p) =>
      checkPhase host env settings conditions tasks (earlier ++ later) scene = (some stop, p)
    | (none, p) =>
      checkPhase host env settings conditions tasks (earlier ++ later) scene =
        Progress.runChecks host env (conditions.watch settings) earlier.isEmpty later p ∧
      phase.2.2.present = [] ∧
      (∃ failures more,
        failures.Perm ((staticOutcomes context tree checks).filterMap Outcome.failure?) ∧
        p.record.failures = failures ++ more) ∧
      ∃ more, p.record.findings.Perm
        ((staticOutcomes context tree checks).flatMap Outcome.found ++ more)

theorem checkPhase_recorded (host : Host σ) (env : Environment) (settings : RunSettings)
    (conditions : RunConditions) (context : Context) (tree : FileTree) (checks : List Check)
    (scene : Scene σ) : Recorded host env settings conditions context tree checks scene := by
  unfold Recorded
  intro phase tasks earlier later _
  cases stopped : phase.1 with
  | some stop =>
    rw [checkPhase_stopped stopped, checkPhase_stopped stopped]
  | none =>
    rw [checkPhase_unstopped stopped, checkPhase_unstopped stopped, Progress.runChecks_append]
    cases begun : Progress.runChecks host env (conditions.watch settings) true earlier
      (afterStatic phase scene) with
    | mk result p =>
      cases result with
      | some stop => rfl
      | none =>
        obtain ⟨failures, findings, -, -⟩ := staticPhase_settled stopped
        obtain ⟨laterFailures, laterFindings⟩ := Progress.runChecks_record begun
        obtain ⟨_, _, empty⟩ := (Pool.Accounts.initial tasks).supervise settings.maxParallel
          (places_nodup context tree checks) (conditions.watch settings) conditions.moves 0
        exact ⟨rfl, empty stopped, ⟨_, _, failures, laterFailures⟩, _,
          laterFindings.trans (findings.append_right _)⟩

/-- Static checks run first, no more at a time than there is room for; then the runtime checks run
one at a time, in the order of the selection. At every time of every run this is so. -/
theorem run_scheduled (host : Option (Host σ)) (settings : RunSettings)
    (conditions : RunConditions) (context : Context) (tree : FileTree) (checks : List Check)
    (world : σ) :
    Scheduled settings.maxParallel ((staticTasks context tree checks).map StaticTask.place)
        ((runtimeChecks checks).map Prod.fst)
        (run host settings conditions context tree checks world).trace ∧
      match prepare host settings context (settings.namespaceName conditions.id)
        (runtimeChecks checks) world with
      | (.ok (h, session, _), scene) =>
        Recorded h ⟨session, context, settings.namespaceName conditions.id⟩ settings conditions
          context tree checks scene
      | (.error _, _) => True := by
  constructor
  · rcases run_marks host settings conditions context tree checks world with
      nothing | ⟨begun, initial, finished, marks⟩
    · exact (Scheduled.nothing _ _ _).congr nothing
    · exact (scheduled_of_parts initial finished).congr marks
  · cases prepare host settings context (settings.namespaceName conditions.id)
      (runtimeChecks checks) world with
    | mk result scene =>
      cases result with
      | error e => trivial
      | ok prepared => exact checkPhase_recorded _ _ settings conditions context tree checks scene

end Run

end PluginAudit
