import PluginAudit.Proofs.CheckFrame
import PluginAudit.Proofs.Findings
import PluginAudit.Proofs.Trace

/-!
Runtime checks under supervision. A check that begins also ends before anything else is done, and
the checks that begin are the first ones of the selection. If the run is not stopped, each check
ends as it would end alone, and what it finds and how it fails is in the record.
-/

namespace PluginAudit

/-- What comes of a check that nothing stops. -/
structure Outcome where
  place : Nat
  slug : String
  ending : Ending
  found : List Finding

/-- The checks that have begun and are still in the slot. -/
def RuntimeSlot.begun (slot : RuntimeSlot) : List Nat :=
  (slot.tasks.filter (·.state.hasBegun)).map RuntimeTask.place

def Outcome.failure? (o : Outcome) : Option Failure := CheckRecord.failureOf? o.slug o.ending

def CheckCall.emitted? : CheckCall → Option Finding
  | .emit f => some f
  | .option _ | .addOverride _ _ | .removeOverride _ | .overrides | .load | .note _ | .sleep _
  | .block _ | .cancel => none

namespace Progress

open Preparation

variable {σ : Type} (host : Host σ) (env : Environment) (watch : Watch)

theorem answer_adds (c : CheckCall) (p : Progress σ) :
    Adds Event.Unmarked p.trace (answer host env c p).2.2.trace := by
  cases c with
  | option key => exact .one (Event.asked_unmarked _)
  | addOverride key value => exact .one (Event.asked_unmarked _)
  | removeOverride id => exact .one (Event.asked_unmarked _)
  | overrides => exact .one (Event.asked_unmarked _)
  | load =>
    simp only [answer, load]
    split
    · exact .refl _
    · exact .one (Event.loaded_unmarked _)
  | emit f => exact .refl _
  | note text => exact .one (Event.note_unmarked text)
  | sleep ms => exact .refl _
  | block ms => exact .refl _
  | cancel => exact .refl _

theorem runBody_adds (body : Program checkCalls Ending) (p : Progress σ) :
    Adds Event.Unmarked p.trace (runBody host env watch body p).2.trace :=
  runBody_relates (R := fun p q => Adds Event.Unmarked p.trace q.trace) (fun _ => .refl _)
    (fun first second => first.trans second) (fun _ _ => .refl _)
    (fun c p _ => answer_adds host env c p) watch body.avoids_nothing p

section InFlight

theorem proceed_adds (body : Program checkCalls Ending) (p : Progress σ) :
    Adds Event.Unmarked p.trace (proceed host env watch body p).2.trace := by
  induction body generalizing p with
  | done ending =>
    simp only [proceed]
    split <;> exact .refl _
  | ask c next ih =>
    have answered := answer_adds host env c p
    obtain ⟨clock, kept⟩ := pause_keeps watch (answer host env c p).2.1 (answer host env c p).2.2
    simp only [proceed]
    split
    · rename_i stop q stopped
      rw [stopped] at kept
      rw [show q = _ from kept]
      exact answered
    · rename_i q unstopped
      rw [unstopped] at kept
      have later := ih (answer host env c p).1 q
      rw [show q = _ from kept] at later ⊢
      exact answered.trans later

theorem halt_adds (state : TaskState) (p : Progress σ) :
    Adds Event.Unmarked p.trace (halt host env state p).2.trace := by
  cases state with
  | spawned body => exact .refl _
  | waiting rest => exact .refl _
  | busy rest =>
    exact windDown_relates (R := fun p q => Adds Event.Unmarked p.trace q.trace) (fun _ => .refl _)
      (fun first second => first.trans second) (fun _ _ => .refl _)
      (fun c p _ => answer_adds host env c p) rest.avoids_nothing p

/-- What of a check is executing is in the slot. -/
def InFlight (check : Nat) (slot : RuntimeSlot) (trace : List Event) : Prop :=
  (trace.filterMap Event.started?).count check =
    (trace.filterMap Event.ended?).count check + slot.begun.count check

theorem InFlight.adds {check : Nat} {slot : RuntimeSlot} {trace later : List Event}
    (h : InFlight check slot trace) (adds : Adds Event.Unmarked trace later) :
    InFlight check slot later := by
  unfold InFlight at h ⊢
  rw [adds.filterMap_eq Event.started? fun _ h => h.2.2.1,
    adds.filterMap_eq Event.ended? fun _ h => h.2.2.2]
  exact h

theorem InFlight.begins {check : Nat} {trace : List Event} (h : InFlight check .empty trace)
    {t : RuntimeTask} (begun : t.state.hasBegun = true) (current : Option String) :
    InFlight check ⟨[t], current⟩ (.started t.place :: trace) := by
  simp only [InFlight, RuntimeSlot.begun, RuntimeSlot.empty, List.filter_nil, List.map_nil,
    List.count_nil, Nat.add_zero] at h ⊢
  simp [Event.started?, Event.ended?, List.filterMap_cons, List.count_cons, h, begun]

theorem InFlight.ends {check : Nat} {trace : List Event} {t : RuntimeTask}
    {rest : List RuntimeTask} {current : Option String}
    (h : InFlight check ⟨t :: rest, current⟩ trace) :
    InFlight check ⟨rest, none⟩ (if t.state.hasBegun then .ended t.place :: trace else trace) := by
  simp only [InFlight, RuntimeSlot.begun] at h ⊢
  cases begun : t.state.hasBegun with
  | false => simpa [begun] using h
  | true =>
    simp only [begun, List.filter_cons_of_pos, List.map_cons, List.count_cons] at h
    simp only [if_true, Event.started?, Event.ended?, List.filterMap_cons, List.count_cons]
    omega

/-- A check that the run does not wait for any more is executing if it is in the slot and has begun,
and only then. -/
theorem attend_inFlight {check : Nat} (first : Bool) (checks : List (Nat × String × RuntimeCheck))
    (p : Progress σ) (start : InFlight check .empty p.trace) :
    let left := attend host env watch first checks .empty p
    InFlight check left.2.1 left.2.2.trace := by
  induction checks generalizing first p with
  | nil => exact start
  | cons entry rest ih =>
    obtain ⟨place, slug, runtime⟩ := entry
    have ran := proceed_adds host env watch (runtime.body env.context env.namespaceName)
      (p.tell (.started place))
    rw [attend_cons]
    split
    · exact start
    · simp only [fly]
      cases proceeded : proceed host env watch (runtime.body env.context env.namespaceName)
        (p.tell (.started place)) with
      | mk result q =>
        rw [proceeded] at ran
        cases result with
        | error stopped =>
          obtain ⟨stop, state⟩ := stopped
          have flying : InFlight check ⟨[⟨place, slug, state⟩], some slug⟩ _ :=
            start.begins (proceed_hasBegun proceeded) (some slug)
          exact flying.adds ran
        | ok ending =>
          have flying : InFlight check ⟨[⟨place, slug, .busy (.done ending)⟩], some slug⟩ _ :=
            start.begins rfl (some slug)
          exact ih false _ (flying.adds ran).ends

/-- When the checks in flight have been aborted, none is executing. -/
theorem drainTasks_inFlight {check : Nat} (stop : Stop) (tasks : List RuntimeTask)
    (current : Option String) (p : Progress σ) (flying : InFlight check ⟨tasks, current⟩ p.trace) :
    InFlight check .empty (drainTasks host env stop tasks current p).trace := by
  induction tasks generalizing current p with
  | nil => exact flying
  | cons t rest ih =>
    have ended := (flying.adds (halt_adds host env t.state p)).ends
    have aborted : InFlight check ⟨rest, none⟩ (abort host env t p).2.trace := by
      unfold abort
      cases begun : t.state.hasBegun with
      | false => simpa [begun] using ended
      | true => simpa [begun, tell] using ended
    cases current with
    | none => exact ih none _ aborted
    | some slug => exact ih none _ aborted

theorem attend_unstopped {first : Bool} {checks : List (Nat × String × RuntimeCheck)}
    {p q : Progress σ} {slot : RuntimeSlot}
    (attended : attend host env watch first checks .empty p = (none, slot, q)) : slot = .empty := by
  induction checks generalizing first p with
  | nil =>
    cases attended
    rfl
  | cons entry rest ih =>
    obtain ⟨place, slug, check⟩ := entry
    rw [attend_cons] at attended
    split at attended
    · cases attended
    · split at attended
      · cases attended
      · exact ih attended

/-- After the runtime checks none of them is executing, wherever they have been stopped. -/
theorem runChecks_over {check : Nat} (first : Bool)
    (checks : List (Nat × String × RuntimeCheck)) (p : Progress σ)
    (start : InFlight check .empty p.trace) :
    InFlight check .empty (runChecks host env watch first checks p).2.trace := by
  have left := attend_inFlight host env watch first checks p start
  unfold runChecks
  cases attended : attend host env watch first checks .empty p with
  | mk stopped rest =>
    obtain ⟨slot, q⟩ := rest
    rw [attended] at left
    cases stopped with
    | none =>
      rw [attend_unstopped host env watch attended] at left
      exact left
    | some stop => exact drainTasks_inFlight host env stop slot.tasks slot.current q left

end InFlight

/-- The checks that begin are the first ones, each ends before the next begins, and all of them
begin unless the run is stopped. -/
theorem runChecks_trace (first : Bool) (checks : List (Nat × String × RuntimeCheck))
    (p : Progress σ) :
    ∃ begun, begun <+: checks ∧
      ((runChecks host env watch first checks p).1 = none → begun = checks) ∧
      Adds Event.OfChecks p.trace (runChecks host env watch first checks p).2.trace ∧
      (runChecks host env watch first checks p).2.trace.filterMap Event.started? =
        (begun.map Prod.fst).reverse ++ p.trace.filterMap Event.started? ∧
      (runChecks host env watch first checks p).2.trace.filterMap Event.ended? =
        (begun.map Prod.fst).reverse ++ p.trace.filterMap Event.ended? := by
  induction checks generalizing first p with
  | nil => exact ⟨[], List.prefix_rfl, fun _ => rfl, .refl _, rfl, rfl⟩
  | cons entry rest ih =>
    obtain ⟨place, slug, check⟩ := entry
    have body := runBody_adds host env watch (check.body env.context env.namespaceName)
      (p.tell (.started place))
    have begin : Adds Event.OfChecks p.trace (p.tell (.started place)).trace := .one ⟨rfl, rfl⟩
    -- What a check leaves that has begun: its own marks, at the beginning and at the end.
    have leaves {q : Progress σ} (record : CheckRecord)
        (ran : Adds Event.Unmarked (p.tell (.started place)).trace q.trace) :
        let r : Progress σ := { q.tell (.ended place) with record }
        Adds Event.OfChecks p.trace r.trace ∧
          r.trace.filterMap Event.started? = place :: p.trace.filterMap Event.started? ∧
          r.trace.filterMap Event.ended? = place :: p.trace.filterMap Event.ended? := by
      have starts := ran.filterMap_eq Event.started? fun _ h => h.2.2.1
      have ends := ran.filterMap_eq Event.ended? fun _ h => h.2.2.2
      refine ⟨(begin.trans (ran.mono fun _ h => h.ofChecks)).trans (.one ⟨rfl, rfl⟩), ?_, ?_⟩
      · simpa [tell, List.filterMap_cons, Event.started?] using starts
      · simpa [tell, List.filterMap_cons, Event.ended?] using ends
    obtain ⟨stop, record, -, came⟩ | ⟨stop, q, record, -, ran, came⟩ |
      ⟨ending, q, -, ran, came⟩ := runChecks_cases host env watch first place slug check rest p
    · rw [came]
      exact ⟨[], List.nil_prefix, by simp, .refl _, rfl, rfl⟩
    · rw [ran] at body
      obtain ⟨whole, starts, ends⟩ := leaves record body
      rw [came]
      exact ⟨[(place, slug, check)], by simp, by simp, whole, by simpa using starts,
        by simpa using ends⟩
    · rw [ran] at body
      obtain ⟨whole, starts, ends⟩ := leaves (q.record.close slug ending) body
      obtain ⟨begun, initial, all, adds, later, later'⟩ :=
        ih false { q.tell (.ended place) with record := q.record.close slug ending }
      rw [came]
      refine ⟨(place, slug, check) :: begun, by simpa using initial, ?_, whole.trans adds, ?_, ?_⟩
      · intro unstopped
        rw [all unstopped]
      · rw [later, starts]
        simp
      · rw [later', ends]
        simp

section Alone

/-- What there is for a check that nothing stops: the world, the loaded plugin, and the calls that
the check has made. -/
structure Alone (σ : Type) where
  world : σ
  report : Option Load.Report
  made : List CheckCall

namespace Alone

def askHost (c : HostCall) (s : Alone σ) : c.Answer × Alone σ :=
  let (a, world) := host.ask env.session c s.world
  (a, { s with world })

def load (s : Alone σ) : Except HostRefusal Load.Report × Alone σ :=
  match s.report with
  | some report => (.ok report, s)
  | none =>
    let (overrides, world) := host.ask env.session .overrides s.world
    let (outcome, world) := host.load env.session
      ⟨env.context.mainFile, env.context.basename, env.namespaceName, overrides⟩ world
    (outcome.result, { s with world, report := outcome.result.toOption })

def answer (c : CheckCall) (s : Alone σ) : c.Answer × Alone σ :=
  let s := { s with made := s.made ++ [c] }
  match c with
  | .option key => askHost host env (.option key) s
  | .addOverride key value => askHost host env (.addOverride key value) s
  | .removeOverride id => askHost host env (.removeOverride id) s
  | .overrides => askHost host env .overrides s
  | .load => load host env s
  | .emit _ | .note _ | .sleep _ | .block _ | .cancel => ((), s)

/-- What the check has found is what it has emitted. -/
def found (s : Alone σ) : List Finding := s.made.filterMap CheckCall.emitted?

end Alone

/-- What comes of checks, one after another, that nothing stops. -/
def outcomes : List (Nat × String × RuntimeCheck) → σ → Option Load.Report → List Outcome
  | [], _, _ => []
  | (place, slug, check) :: rest, world, report =>
    let ended := (check.body env.context env.namespaceName).run (Alone.answer host env)
      ⟨world, report, []⟩
    ⟨place, slug, ended.1, ended.2.found⟩ :: outcomes rest ended.2.world ended.2.report

theorem outcomes_labels (checks : List (Nat × String × RuntimeCheck)) (world : σ)
    (report : Option Load.Report) :
    (outcomes host env checks world report).map (fun o => (o.place, o.slug)) =
      checks.map fun c => (c.1, c.2.1) := by
  induction checks generalizing world report with
  | nil => rfl
  | cons entry rest ih =>
    obtain ⟨place, slug, check⟩ := entry
    simp [outcomes, ih]

/-- The progress of a run and a check alone have come equally far, from a time when the record
held `findings`. -/
structure Abreast (findings : List Finding) (failures : List Failure) (p : Progress σ)
    (s : Alone σ) : Prop where
  world : p.world = s.world
  report : p.report = s.report
  findings : p.record.findings.Perm (findings ++ s.found)
  failures : p.record.failures = failures

variable {host env watch}

/-- Only the world and the loaded plugin decide what a check is answered. -/
theorem Abreast.answer {findings : List Finding} {failures : List Failure} {p : Progress σ}
    {s : Alone σ} (h : Abreast findings failures p s) (c : CheckCall) :
    (answer host env c p).1 = (Alone.answer host env c s).1 ∧
      Abreast findings failures (Progress.answer host env c p).2.2
        (Alone.answer host env c s).2 := by
  obtain ⟨world, record, trace, clock, requested, report⟩ := p
  obtain ⟨_, _, made⟩ := s
  obtain ⟨sameWorld, sameReport, perm, same⟩ := h
  simp only at sameWorld sameReport perm same
  subst sameWorld sameReport
  have emitted (c : CheckCall) : (⟨world, report, made ++ [c]⟩ : Alone σ).found =
      (⟨world, report, made⟩ : Alone σ).found ++ c.emitted?.toList := by
    simp only [Alone.found, List.filterMap_append]
    cases c <;> rfl
  have kept {c : CheckCall} (silent : c.emitted? = none) : record.findings.Perm
      (findings ++ (⟨world, report, made ++ [c]⟩ : Alone σ).found) := by
    rw [emitted, silent]
    simpa using perm
  cases c with
  | option key => exact ⟨rfl, rfl, rfl, kept rfl, same⟩
  | addOverride key value => exact ⟨rfl, rfl, rfl, kept rfl, same⟩
  | removeOverride id => exact ⟨rfl, rfl, rfl, kept rfl, same⟩
  | overrides => exact ⟨rfl, rfl, rfl, kept rfl, same⟩
  | load => cases report <;> exact ⟨rfl, rfl, rfl, kept rfl, same⟩
  | emit f =>
    have added : (record.add f).findings.Perm
        (findings ++ (⟨world, report, made ++ [.emit f]⟩ : Alone σ).found) := by
      rw [emitted, ← List.append_assoc]
      exact (record.findings_add_perm f).trans
        ((perm.cons f).trans (List.perm_append_singleton f _).symm)
    exact ⟨rfl, rfl, rfl, added, same⟩
  | note text => exact ⟨rfl, rfl, rfl, kept rfl, same⟩
  | sleep ms => exact ⟨rfl, rfl, rfl, kept rfl, same⟩
  | block ms => exact ⟨rfl, rfl, rfl, kept rfl, same⟩
  | cancel => exact ⟨rfl, rfl, rfl, kept rfl, same⟩

theorem Abreast.runBody {findings : List Finding} {failures : List Failure} {p q : Progress σ}
    {s : Alone σ} (h : Abreast findings failures p s) {body : Program checkCalls Ending}
    {ending : Ending} (ended : runBody host env watch body p = (.ok ending, q)) :
    (body.run (Alone.answer host env) s).1 = ending ∧
      Abreast findings failures q (body.run (Alone.answer host env) s).2 := by
  induction body generalizing p s with
  | done e =>
    rw [runBody_done] at ended
    split at ended
    · cases ended
    · cases ended
      exact ⟨rfl, h⟩
  | ask c next ih =>
    obtain ⟨answered, abreast⟩ := h.answer c
    obtain ⟨clock, kept⟩ := pause_keeps watch (Progress.answer host env c p).2.1
      (Progress.answer host env c p).2.2
    rw [runBody_ask] at ended
    split at ended
    · cases ended
    · rename_i r paused
      rw [paused] at kept
      cases kept
      -- A pause changes the clock, which the check alone does not have.
      have later : Abreast findings failures
          { (Progress.answer host env c p).2.2 with clock } (Alone.answer host env c s).2 :=
        ⟨abreast.world, abreast.report, abreast.findings, abreast.failures⟩
      rw [answered] at ended
      exact ih _ later ended

/-- If checks are not stopped, the record holds all they found, and a failure for each that failed,
in their order. -/
theorem runChecks_record {checks : List (Nat × String × RuntimeCheck)} {first : Bool}
    {p q : Progress σ} (unstopped : runChecks host env watch first checks p = (none, q)) :
    q.record.failures = p.record.failures ++
        (outcomes host env checks p.world p.report).filterMap Outcome.failure? ∧
      q.record.findings.Perm (p.record.findings ++
        (outcomes host env checks p.world p.report).flatMap Outcome.found) := by
  induction checks generalizing first p with
  | nil =>
    cases unstopped
    simp [outcomes]
  | cons entry rest ih =>
    obtain ⟨place, slug, check⟩ := entry
    obtain ⟨stop, record, -, came⟩ | ⟨stop, r, record, -, ran, came⟩ |
      ⟨ending, r, -, ran, came⟩ := runChecks_cases host env watch first place slug check rest p
    · rw [came] at unstopped
      cases unstopped
    · rw [came] at unstopped
      cases unstopped
    · rw [came] at unstopped
      have start : Abreast p.record.findings p.record.failures (p.tell (.started place))
          ⟨p.world, p.report, []⟩ := ⟨rfl, rfl, by simp [tell, Alone.found], rfl⟩
      obtain ⟨ends, world, report, findings, failures⟩ := start.runBody ran
      obtain ⟨laterFailures, laterFindings⟩ := ih unstopped
      simp only [tell, CheckRecord.failures_close, CheckRecord.findings_close, world, report]
        at laterFailures laterFindings
      constructor
      · rw [laterFailures, failures]
        simp only [outcomes, List.append_assoc, ends]
        cases entry : CheckRecord.failureOf? slug ending <;>
          simp [Outcome.failure?, entry]
      · refine laterFindings.trans ((findings.append_right _).trans ?_)
        simp [outcomes]

end Alone

end Progress

end PluginAudit
