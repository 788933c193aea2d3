import PluginAudit.Proofs.Steps

/-!
What the setup of the isolation can come to, and what its undoing consists of, for any way in which
its calls are answered.
-/

namespace PluginAudit

/-- A call that only reads. -/
def HostCall.Reads : HostCall → Prop
  | .currentNamespace | .option _ | .overrides => True
  | _ => False

namespace Snapshot

theorem captureFrom_reads (taken : List (String × Option Json)) (keys : List String) :
    (captureFrom taken keys).Avoids fun c : HostCall => ¬c.Reads := by
  induction keys generalizing taken with
  | nil => exact True.intro
  | cons key rest ih =>
    refine ⟨Classical.not_not.mpr True.intro, fun answer => ?_⟩
    cases answer with
    | error e => exact True.intro
    | ok value => exact ih _

theorem divergingFrom_reads (values : List (String × Option Json)) :
    (divergingFrom values).Avoids fun c : HostCall => ¬c.Reads := by
  induction values with
  | nil => exact True.intro
  | cons entry rest ih =>
    refine ⟨Classical.not_not.mpr True.intro, fun answer => ?_⟩
    cases answer with
    | error e => exact True.intro
    | ok value =>
      refine ih.bind fun result => ?_
      cases result with
      | error e => exact True.intro
      | ok keys => exact True.intro

end Snapshot

namespace Isolation

theorem verify_reads (snapshot : Snapshot) :
    (verify snapshot).Avoids fun c : HostCall => ¬c.Reads := by
  refine (Snapshot.divergingFrom_reads snapshot.values).bind fun result => ?_
  split <;> exact True.intro

variable {σ : Type} (ask : (c : HostCall) → σ → c.Answer × σ)

/-- The cleanup of the isolation. -/
def cleanup (ids : List Nat) (former name : String) (snapshot : Snapshot) : Cleanup where
  name := preparationName
  undo := (undo ids former name snapshot).inStep

@[simp] theorem cleanup_undo (ids : List Nat) (former name : String) (snapshot : Snapshot) :
    (cleanup ids former name snapshot).undo = (undo ids former name snapshot).inStep := rfl

/-- What the undoing of the isolation tells, from the problems on the way. -/
def verdict (problems : List String) : Except String Unit :=
  if problems.isEmpty then .ok () else .error (String.intercalate "; " problems)

theorem run_undo (ids : List Nat) (former name : String) (snapshot : Snapshot) (s : σ) :
    (undo ids former name snapshot).run ask s =
      let removed := ((Preparation.removeAll ids).run ask s).2
      let left := (leave former name).run ask removed
      let verified := (verify snapshot).run ask left.2
      (verdict (left.1 ++ verified.1), verified.2) := by
  simp only [undo, Program.run_bind, Program.run_pure]
  rfl

/-- The ways a setup goes. The states are those before each call that changes something. -/
inductive SetUp (basename name theme : String) (start : σ) : Except HostRefusal Cleanup → σ → Prop
  | unread (e : HostRefusal) (s : σ)
      (captured : (Snapshot.capture watchedKeys).run ask start = (.error e, s)) :
      SetUp basename name theme start (.error e) s
  | unplaced (snapshot : Snapshot) (e : HostRefusal) (s t : σ)
      (captured : (Snapshot.capture watchedKeys).run ask start = (.ok snapshot, s))
      (current : ask .currentNamespace s = (.error e, t)) :
      SetUp basename name theme start (.error e) t
  | uncreated (snapshot : Snapshot) (former : String) (e : HostRefusal) (s t u : σ)
      (captured : (Snapshot.capture watchedKeys).run ask start = (.ok snapshot, s))
      (current : ask .currentNamespace s = (.ok former, t))
      (created : ask (.createNamespace name) t = (.error e, u)) :
      SetUp basename name theme start (.error e) u
  | unswitched (snapshot : Snapshot) (former : String) (e : HostRefusal) (s t u v : σ)
      (captured : (Snapshot.capture watchedKeys).run ask start = (.ok snapshot, s))
      (current : ask .currentNamespace s = (.ok former, t))
      (created : ask (.createNamespace name) t = (.ok (), u))
      (switched : ask (.switchTo name) u = (.error e, v)) :
      SetUp basename name theme start (.error e) (ask (.dropNamespace name) v).2
  | entered (snapshot : Snapshot) (former : String) (s t u v : σ)
      (captured : (Snapshot.capture watchedKeys).run ask start = (.ok snapshot, s))
      (current : ask .currentNamespace s = (.ok former, t))
      (created : ask (.createNamespace name) t = (.ok (), u))
      (switched : ask (.switchTo name) u = (.ok (), v)) :
      SetUp basename name theme start
        (.ok (cleanup ((Preparation.addAll (overrides basename theme)).run ask v).1 former name
          snapshot))
        ((Preparation.addAll (overrides basename theme)).run ask v).2

theorem setup_cases (basename name theme : String) (start : σ) :
    SetUp ask basename name theme start ((setup basename name theme).run ask start).1
      ((setup basename name theme).run ask start).2 := by
  cases captured : (Snapshot.capture watchedKeys).run ask start with
  | mk result s =>
    cases result with
    | error e =>
      simp only [setup, Program.run_bind, captured, Program.run_pure]
      exact .unread e s captured
    | ok snapshot =>
      cases current : ask .currentNamespace s with
      | mk result t =>
        cases result with
        | error e =>
          simp only [setup, Program.run_bind, captured, Program.run_ask, current, Program.run_pure]
          exact .unplaced snapshot e s t captured current
        | ok former =>
          cases created : ask (.createNamespace name) t with
          | mk result u =>
            cases result with
            | error e =>
              simp only [setup, enter, Program.run_bind, captured, Program.run_ask, current,
                created, Program.run_pure]
              exact .uncreated snapshot former e s t u captured current created
            | ok _ =>
              cases switched : ask (.switchTo name) u with
              | mk result v =>
                cases result with
                | error e =>
                  simp only [setup, enter, Program.run_bind, captured, Program.run_ask, current,
                    created, switched, Program.run_pure]
                  exact .unswitched snapshot former e s t u v captured current created switched
                | ok _ =>
                  simp only [setup, enter, Program.run_bind, captured, Program.run_ask, current,
                    created, switched, Program.run_pure]
                  exact .entered snapshot former s t u v captured current created switched

theorem preparation_cases (host : Host σ) (session : Nat) (basename name theme : String)
    (s : Run.Scene σ) :
    SetUp (host.ask session) basename name theme s.1
      ((preparation basename name theme).setup.run (Run.answerStep host session) s).1
      ((preparation basename name theme).setup.run (Run.answerStep host session) s).2.1 := by
  have asked := Preparation.run_inStep host session (setup basename name theme) s
  have ways := setup_cases (host.ask session) basename name theme s.1
  rw [← asked.1, ← asked.2] at ways
  exact ways

theorem SetUp.cleanup_eq {basename name theme : String} {start s : σ} {c : Cleanup}
    (h : SetUp ask basename name theme start (.ok c) s) :
    ∃ ids former snapshot, c = cleanup ids former name snapshot ∧
      ((Snapshot.capture watchedKeys).run ask start).1 = .ok snapshot := by
  cases h with
  | entered snapshot former s t u v captured current created switched =>
    exact ⟨_, former, snapshot, rfl, congrArg Prod.fst captured⟩

end Isolation

end PluginAudit
