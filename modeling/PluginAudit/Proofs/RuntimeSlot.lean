import PluginAudit.Run.Supervision

/-!
The slot of the runtime checks. It is free when a check is spawned and again when the check is over,
and a check that the run is stopped behind is over before anything else is done. So the checks run
as if each of them were run to its end at once.
-/

namespace PluginAudit.Progress

variable {σ : Type}

theorem pause_keeps (watch : Watch) (w : Pause) (p : Progress σ) :
    ∃ clock, (pause watch w p).2 = { p with clock } := by
  cases w with
  | none => exact ⟨p.clock, rfl⟩
  | wait ms =>
    simp only [pause]
    split
    · exact ⟨_, rfl⟩
    · exact ⟨_, rfl⟩
  | hold ms => exact ⟨_, rfl⟩

variable (host : Host σ) (env : Environment) (watch : Watch)

/-- The body of a check until it is over: it has ended, or the run has been stopped and the check has
come to its end behind that. -/
def runBody (body : Program checkCalls Ending) (p : Progress σ) :
    Except Stop Ending × Progress σ :=
  match proceed host env watch body p with
  | (.ok ending, q) => (.ok ending, q)
  | (.error (stop, state), q) => (.error stop, (halt host env state q).2)

theorem runBody_done (ending : Ending) (p : Progress σ) :
    runBody host env watch (.done ending) p =
      match if watch.parallel then watch.stop? p.cancelRequested p.clock 0 else none with
      | some (stop, _) => (.error stop, p)
      | none => (.ok ending, p) := by
  simp only [runBody, proceed]
  cases if watch.parallel then watch.stop? p.cancelRequested p.clock 0 else none <;> rfl

theorem runBody_ask (c : CheckCall) (next : c.Answer → Program checkCalls Ending)
    (p : Progress σ) :
    runBody host env watch (.ask c next) p =
      match pause watch (answer host env c p).2.1 (answer host env c p).2.2 with
      | (some stop, q) => (.error stop, (halt host env
          ((answer host env c p).2.1.state (next (answer host env c p).1)) q).2)
      | (none, q) => runBody host env watch (next (answer host env c p).1) q := by
  simp only [runBody, proceed]
  cases pause watch (answer host env c p).2.1 (answer host env c p).2.2 with
  | mk stop q => cases stop <;> rfl

variable {host env watch} in
/-- A check that the run is stopped behind has begun. -/
theorem proceed_hasBegun {body : Program checkCalls Ending} {stop : Stop} {state : TaskState}
    {p q : Progress σ} (left : proceed host env watch body p = (.error (stop, state), q)) :
    state.hasBegun = true := by
  induction body generalizing p with
  | done ending =>
    simp only [proceed] at left
    split at left
    · cases left
      rfl
    · cases left
  | ask c next ih =>
    simp only [proceed] at left
    split at left
    · cases left
      cases (answer host env c p).2.1 <;> rfl
    · exact ih _ left

/-- One check more, in a slot that is free for it and for the next one. -/
theorem attend_cons (first : Bool) (place : Nat) (slug : String) (check : RuntimeCheck)
    (rest : List (Nat × String × RuntimeCheck)) (p : Progress σ) :
    let body := check.body env.context env.namespaceName
    let flying state : RuntimeSlot := ⟨[⟨place, slug, state⟩], some slug⟩
    attend host env watch first ((place, slug, check) :: rest) .empty p =
      match stopBefore? watch first p with
      | some stop => (some stop, flying (.spawned body), p)
      | none =>
        match fly host env watch place body p with
        | (.error (stop, state), q) => (some stop, flying state, q)
        | (.ok ending, q) => attend host env watch false rest .empty
            { q with record := q.record.close slug ending } := by
  intro body flying
  have spawned : RuntimeSlot.empty.spawn ⟨place, slug, .spawned body⟩ = flying (.spawned body) := rfl
  have joined : (flying (.spawned body)).join place = .empty := by
    simp [flying, RuntimeSlot.join, RuntimeSlot.empty]
  have advanced (state : TaskState) :
      (flying (.spawned body)).advance place state = flying state := by
    simp [flying, RuntimeSlot.advance]
  rw [attend]
  dsimp only
  rw [spawned]
  cases stopBefore? watch first p with
  | some stop => rfl
  | none =>
    cases fly host env watch place body p with
    | mk result q =>
      cases result with
      | error stopped => simp only [advanced]
      | ok ending => simp only [joined, flying]

theorem runChecks_cons (first : Bool) (place : Nat) (slug : String) (check : RuntimeCheck)
    (rest : List (Nat × String × RuntimeCheck)) (p : Progress σ) :
    let body := check.body env.context env.namespaceName
    let flying state : RuntimeSlot := ⟨[⟨place, slug, state⟩], some slug⟩
    runChecks host env watch first ((place, slug, check) :: rest) p =
      match stopBefore? watch first p with
      | some stop => (some stop, drain host env stop (flying (.spawned body)) p)
      | none =>
        match fly host env watch place body p with
        | (.error (stop, state), q) => (some stop, drain host env stop (flying state) q)
        | (.ok ending, q) =>
          runChecks host env watch false rest { q with record := q.record.close slug ending } := by
  intro body flying
  unfold runChecks
  rw [attend_cons]
  cases stopBefore? watch first p with
  | some stop => rfl
  | none =>
    cases fly host env watch place (check.body env.context env.namespaceName) p with
    | mk result q => cases result <;> rfl

/-- What one check more comes to: the run is stopped before it begins, or it begins and is over,
stopped or not, before anything else is done. -/
theorem runChecks_cases (first : Bool) (place : Nat) (slug : String) (check : RuntimeCheck)
    (rest : List (Nat × String × RuntimeCheck)) (p : Progress σ) :
    let body := check.body env.context env.namespaceName
    let ran := runChecks host env watch first ((place, slug, check) :: rest) p
    (∃ stop record, stopBefore? watch first p = some stop ∧ ran = (some stop, { p with record })) ∨
      (∃ stop q record, stopBefore? watch first p = none ∧
        runBody host env watch body (p.tell (.started place)) = (.error stop, q) ∧
        ran = (some stop, { q.tell (.ended place) with record })) ∨
      ∃ ending q, stopBefore? watch first p = none ∧
        runBody host env watch body (p.tell (.started place)) = (.ok ending, q) ∧
        ran = runChecks host env watch false rest
          { q.tell (.ended place) with record := q.record.close slug ending } := by
  intro body ran
  have one : ran = _ := runChecks_cons host env watch first place slug check rest p
  cases before : stopBefore? watch first p with
  | some stop =>
    rw [before] at one
    exact .inl ⟨stop, _, rfl, one⟩
  | none =>
    simp only [before] at one
    cases proceeded : proceed host env watch body (p.tell (.started place)) with
    | mk result q =>
      simp only [fly, show check.body env.context env.namespaceName = body from rfl,
        proceeded] at one
      cases result with
      | ok ending => exact .inr (.inr ⟨ending, q, rfl, by simp only [runBody, proceeded], one⟩)
      | error stopped =>
        obtain ⟨stop, state⟩ := stopped
        have begun := proceed_hasBegun proceeded
        simp only [drain, drainTasks, abort, begun, if_true] at one
        exact .inr (.inl ⟨stop, (halt host env state q).2, _, rfl,
          by simp only [runBody, proceeded], one⟩)

end PluginAudit.Progress
