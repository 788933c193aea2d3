import Mathlib.Logic.Function.Iterate
import PluginAudit.Proofs.Interpretation

/-!
Programs of several parties over one state, interleaved call by call. If each party keeps to calls
that the others do not notice, every program goes on as it would alone.
-/

namespace PluginAudit

namespace Program

variable {I : Interface} {α β σ : Type} (answer : (c : I.Call) → σ → I.Answer c × σ)

def calls : Program I α → σ → List I.Call
  | .done _, _ => []
  | .ask c next, s => c :: (next (answer c s).1).calls (answer c s).2

/-- Makes one call. A program that is done stays as it is. -/
def step : Program I α × σ → Program I α × σ
  | (.done a, s) => (.done a, s)
  | (.ask c next, s) => (next (answer c s).1, (answer c s).2)

theorem calls_bind (p : Program I α) (f : α → Program I β) (s : σ) :
    (p >>= f).calls answer s =
      p.calls answer s ++ (f (p.run answer s).1).calls answer (p.run answer s).2 := by
  induction p generalizing s with
  | done a => rfl
  | ask c next ih => exact congrArg (c :: ·) (ih _ _)

theorem calls_avoid {forbidden : I.Call → Prop} {p : Program I α} (avoids : p.Avoids forbidden)
    (s : σ) : ∀ c ∈ p.calls answer s, ¬forbidden c := by
  induction p generalizing s with
  | done a => exact fun c member => absurd member List.not_mem_nil
  | ask c next ih =>
    intro d member
    rcases List.mem_cons.mp member with rfl | later
    · exact avoids.1
    · exact ih _ (avoids.2 _) _ d later

theorem run_step (x : Program I α × σ) :
    (step answer x).1.run answer (step answer x).2 = x.1.run answer x.2 := by
  obtain ⟨p, s⟩ := x
  cases p with
  | done a => rfl
  | ask c next => rfl

theorem run_steps (n : Nat) (x : Program I α × σ) :
    ((step answer)^[n] x).1.run answer ((step answer)^[n] x).2 = x.1.run answer x.2 := by
  induction n generalizing x with
  | zero => rfl
  | succ n ih =>
    rw [Function.iterate_succ_apply, ih]
    exact run_step answer x

theorem steps_done (n : Nat) (a : α) (s : σ) :
    (step answer)^[n] (.done a, s) = (.done a, s) := by
  induction n with
  | zero => rfl
  | succ n ih => exact ih

theorem steps_all {n : Nat} {p : Program I α} {s : σ} (enough : (p.calls answer s).length ≤ n) :
    (step answer)^[n] (p, s) = (.done (p.run answer s).1, (p.run answer s).2) := by
  induction p generalizing n s with
  | done a => exact steps_done answer n a s
  | ask c next ih =>
    cases n with
    | zero => exact absurd enough (Nat.not_succ_le_zero _)
    | succ n => exact ih _ (Nat.le_of_succ_le_succ enough)

end Program

/-- A program for each party, and the state that they share. -/
structure Joint (I : Interface) (ι α σ : Type) where
  programs : ι → Program I α
  state : σ

namespace Joint

variable {I : Interface} {ι α σ : Type} [DecidableEq ι]
  (answer : ι → (c : I.Call) → σ → I.Answer c × σ)

def turn (j : Joint I ι α σ) (i : ι) : Joint I ι α σ :=
  let next := Program.step (answer i) (j.programs i, j.state)
  ⟨Function.update j.programs i next.1, next.2⟩

def run (schedule : List ι) (j : Joint I ι α σ) : Joint I ι α σ := schedule.foldl (turn answer) j

variable (allowed : ι → I.Call → Prop) (Alike : ι → σ → σ → Prop)

/-- What a party can tell of a state decides what it is answered, and no other party's calls have
an effect on it. -/
structure Separate : Prop where
  own : ∀ {i : ι} {c : I.Call} {s t : σ}, allowed i c → Alike i s t →
    (answer i c s).1 = (answer i c t).1 ∧ Alike i (answer i c s).2 (answer i c t).2
  other : ∀ {i k : ι} {c : I.Call} {s t : σ}, k ≠ i → allowed k c → Alike i s t →
    Alike i (answer k c s).2 t

/-- Each party is where it would be alone. -/
structure Follows (j : Joint I ι α σ) (alone : ι → Program I α × σ) : Prop where
  programs : ∀ i, j.programs i = (alone i).1
  alike : ∀ i, Alike i j.state (alone i).2
  allowed : ∀ i, ∀ c ∈ (alone i).1.calls (answer i) (alone i).2, allowed i c

variable {answer allowed Alike} {j : Joint I ι α σ} {alone : ι → Program I α × σ}

theorem Follows.turn (separate : Separate answer allowed Alike)
    (h : Follows answer allowed Alike j alone) (i : ι) :
    Follows answer allowed Alike (j.turn answer i)
      (Function.update alone i (Program.step (answer i) (alone i))) := by
  have program := h.programs i
  have alike := h.alike i
  have calls := h.allowed i
  rcases here : alone i with ⟨p, t⟩
  rw [here] at program alike calls
  cases p with
  -- A turn of a party that is done changes nothing, alone or among the others.
  | done a =>
    have stays : Function.update alone i (Program.step (answer i) (.done a, t)) = alone :=
      Function.update_eq_self_iff.mpr here.symm
    have idle : j.turn answer i = j := by
      simp only [Joint.turn, program, Program.step]
      exact congrArg (Joint.mk · j.state) (Function.update_eq_self_iff.mpr program.symm)
    rw [stays, idle]
    exact h
  | ask c next =>
    have fine : allowed i c := calls c List.mem_cons_self
    obtain ⟨same, next_alike⟩ := separate.own fine alike
    have moved : j.turn answer i =
        ⟨Function.update j.programs i (next (answer i c t).1), (answer i c j.state).2⟩ := by
      simp only [Joint.turn, program, Program.step, same]
    rw [moved]
    -- For the party itself all goes as it does alone, and the others do not notice the call.
    constructor
    · intro k
      by_cases mine : k = i
      · subst mine
        simp only [Function.update_self, Program.step]
      · simp only [Function.update_of_ne mine, h.programs k]
    · intro k
      by_cases mine : k = i
      · subst mine
        simpa only [Function.update_self, Program.step] using next_alike
      · simp only [Function.update_of_ne mine]
        exact separate.other (Ne.symm mine) fine (h.alike k)
    · intro k
      by_cases mine : k = i
      · subst mine
        simp only [Function.update_self]
        exact fun d later => calls d (List.mem_cons_of_mem c later)
      · simp only [Function.update_of_ne mine]
        exact h.allowed k

/-- After any schedule each party is where it would be alone after as many calls. -/
theorem Follows.run (separate : Separate answer allowed Alike)
    (h : Follows answer allowed Alike j alone) (schedule : List ι) :
    Follows answer allowed Alike (j.run answer schedule)
      fun i => (Program.step (answer i))^[schedule.count i] (alone i) := by
  induction schedule generalizing j alone with
  | nil => exact h
  | cons i rest ih =>
    have later := ih (h.turn separate i)
    have counts : (fun k => (Program.step (answer k))^[(i :: rest).count k] (alone k)) =
        fun k => (Program.step (answer k))^[rest.count k]
          (Function.update alone i (Program.step (answer i) (alone i)) k) := by
      funext k
      by_cases mine : k = i
      · subst mine
        rw [List.count_cons_self, Function.iterate_succ_apply, Function.update_self]
      · rw [List.count_cons_of_ne (Ne.symm mine), Function.update_of_ne mine]
    rw [counts]
    exact later

/-- A party that has come to an end has the result that it would have alone. -/
theorem Follows.result (separate : Separate answer allowed Alike)
    (h : Follows answer allowed Alike j alone) (schedule : List ι) {i : ι} {a : α}
    (done : (j.run answer schedule).programs i = .done a) :
    a = ((alone i).1.run (answer i) (alone i).2).1 ∧
      Alike i (j.run answer schedule).state ((alone i).1.run (answer i) (alone i).2).2 := by
  have later := h.run separate schedule
  have program := later.programs i
  have alike := later.alike i
  have ran := Program.run_steps (answer i) (schedule.count i) (alone i)
  rw [← program, done] at ran
  rw [← ran]
  exact ⟨rfl, alike⟩

theorem Follows.finished (separate : Separate answer allowed Alike)
    (h : Follows answer allowed Alike j alone) {schedule : List ι} {i : ι}
    (enough : ((alone i).1.calls (answer i) (alone i).2).length ≤ schedule.count i) :
    (j.run answer schedule).programs i =
      .done ((alone i).1.run (answer i) (alone i).2).1 := by
  rw [(h.run separate schedule).programs i]
  exact congrArg Prod.fst (Program.steps_all (answer i) enough)

end Joint

end PluginAudit
