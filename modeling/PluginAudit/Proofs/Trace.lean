import PluginAudit.Proofs.Steps

/-!
Traces of runs: which marks there are, and which of them a part of a run can add. A trace under
way has its latest event first.
-/

namespace PluginAudit

namespace Event

def setUp? : Event → Option (Nat × String)
  | .setUp place name => some (place, name)
  | _ => none

def undo? : Event → Option (Nat × String)
  | .undo place name => some (place, name)
  | _ => none

def started? : Event → Option Nat
  | .started check => some check
  | _ => none

def ended? : Event → Option Nat
  | .ended check => some check
  | _ => none

def loaded? : Event → Option Load.Request
  | .loaded request => some request
  | _ => none

/-- Whether the host is called. -/
def asksHost : Event → Bool
  | .asked _ | .loaded _ => true
  | _ => false

/-- What happens while steps are set up. -/
def OfSetup (e : Event) : Prop := e.undo? = none ∧ e.started? = none ∧ e.ended? = none

/-- What happens while steps are undone. -/
def OfTeardown (e : Event) : Prop := e.setUp? = none ∧ e.started? = none ∧ e.ended? = none

/-- What happens while checks run. -/
def OfChecks (e : Event) : Prop := e.setUp? = none ∧ e.undo? = none

/-- Neither a step nor a check begins or ends. -/
def Unmarked (e : Event) : Prop :=
  e.setUp? = none ∧ e.undo? = none ∧ e.started? = none ∧ e.ended? = none

theorem Unmarked.ofSetup {e : Event} (h : e.Unmarked) : e.OfSetup := h.2

theorem Unmarked.ofTeardown {e : Event} (h : e.Unmarked) : e.OfTeardown := ⟨h.1, h.2.2⟩

theorem Unmarked.ofChecks {e : Event} (h : e.Unmarked) : e.OfChecks := ⟨h.1, h.2.1⟩

theorem note_unmarked (text : String) : (Event.note text).Unmarked := ⟨rfl, rfl, rfl, rfl⟩

theorem asked_unmarked (c : HostCall) : (Event.asked c).Unmarked := ⟨rfl, rfl, rfl, rfl⟩

theorem loaded_unmarked (r : Load.Request) : (Event.loaded r).Unmarked := ⟨rfl, rfl, rfl, rfl⟩

end Event

/-- A check has begun more often than it has ended. -/
def Run.Executing (check : Nat) (events : List Event) : Prop :=
  (events.filterMap Event.ended?).count check < (events.filterMap Event.started?).count check

/-- The later trace has more events than the earlier one, all of one kind. -/
def Adds (kind : Event → Prop) (earlier later : List Event) : Prop :=
  ∃ new, later = new ++ earlier ∧ ∀ e ∈ new, kind e

namespace Adds

variable {kind other : Event → Prop} {a b c : List Event}

theorem refl (a : List Event) : Adds kind a a := ⟨[], rfl, by simp⟩

theorem one {e : Event} (h : kind e) : Adds kind a (e :: a) := ⟨[e], rfl, by simpa using h⟩

theorem trans (first : Adds kind a b) (second : Adds kind b c) : Adds kind a c := by
  obtain ⟨new, rfl, all⟩ := first
  obtain ⟨newer, rfl, all'⟩ := second
  refine ⟨newer ++ new, by simp, ?_⟩
  intro e member
  rcases List.mem_append.mp member with member | member
  · exact all' e member
  · exact all e member

theorem mono (h : Adds kind a b) (weaker : ∀ e, kind e → other e) : Adds other a b := by
  obtain ⟨new, rfl, all⟩ := h
  exact ⟨new, rfl, fun e member => weaker e (all e member)⟩

theorem filterMap_eq {α : Type} (h : Adds kind a b) (view : Event → Option α)
    (unseen : ∀ e, kind e → view e = none) : b.filterMap view = a.filterMap view := by
  obtain ⟨new, rfl, all⟩ := h
  have empty : new.filterMap view = [] := by
    rw [List.filterMap_eq_nil_iff]
    exact fun e member => unseen e (all e member)
  rw [List.filterMap_append, empty, List.nil_append]

end Adds

namespace Preparation

open Run

variable {σ α : Type} (host : Host σ) (session : Nat)

section Kinds

variable {kind : Event → Prop} (asked : ∀ c, kind (.asked c)) (noted : ∀ text, kind (.note text))
include asked noted

theorem step_adds_kind (p : Program stepCalls α) (s : Scene σ) :
    Adds kind s.2 (p.run (answerStep host session) s).2.2 := by
  refine Program.run_relates (R := fun s t : Scene σ => Adds kind s.2 t.2)
    (fun s => .refl s.2) (fun {_ _ _} first second => first.trans second) ?_ p s
  intro c s
  cases c with
  | host c => exact .one (asked c)
  | tell remark => exact .one (noted remark.text)

variable (undoing : ∀ place name, kind (.undo place name))
include undoing

theorem undoAll_adds_kind (cs : List Cleanup) (s : Scene σ) :
    Adds kind s.2 ((undoAll cs).run (answerSetup host session) s).2.2 := by
  induction cs generalizing s with
  | nil => exact .refl s.2
  | cons c rest ih =>
    rw [undoAll_cons]
    have mark : Adds kind s.2 (announced (.undo c.place c.name) s).2 := .one (undoing _ _)
    exact (mark.trans (step_adds_kind host session asked noted c.undo _)).trans (ih _)

variable (setting : ∀ place name, kind (.setUp place name))
include setting

theorem setUpFrom_adds_kind (done : List Cleanup) (ps : List Preparation) (s : Scene σ) :
    Adds kind s.2 ((setUpFrom done ps).run (answerSetup host session) s).2.2 := by
  induction ps generalizing done s with
  | nil => exact .refl s.2
  | cons p rest ih =>
    have mark : Adds kind s.2 (announced (.setUp done.length p.name) s).2 := .one (setting _ _)
    have body := step_adds_kind host session asked noted p.setup
      (announced (.setUp done.length p.name) s)
    cases r : p.setup.run (answerStep host session) (announced (.setUp done.length p.name) s) with
    | mk result t =>
      rw [r] at body
      cases result with
      | error cause =>
        rw [setUpFrom_cons_error host session r]
        exact (mark.trans body).trans (undoAll_adds_kind host session asked noted undoing done t)
      | ok c =>
        rw [setUpFrom_cons_ok host session r]
        exact (mark.trans body).trans (ih _ _)

end Kinds

theorem step_adds (p : Program stepCalls α) (s : Scene σ) :
    Adds Event.Unmarked s.2 (p.run (answerStep host session) s).2.2 :=
  step_adds_kind host session Event.asked_unmarked Event.note_unmarked p s

theorem undoAll_adds (cs : List Cleanup) (s : Scene σ) :
    Adds Event.OfTeardown s.2 ((undoAll cs).run (answerSetup host session) s).2.2 :=
  undoAll_adds_kind host session (fun c => (Event.asked_unmarked c).ofTeardown)
    (fun text => (Event.note_unmarked text).ofTeardown) (fun _ _ => ⟨rfl, rfl, rfl⟩) cs s

theorem undoAll_undos (cs : List Cleanup) (s : Scene σ) :
    ((undoAll cs).run (answerSetup host session) s).2.2.filterMap Event.undo? =
      (cs.map fun c => (c.place, c.name)).reverse ++ s.2.filterMap Event.undo? := by
  induction cs generalizing s with
  | nil => rfl
  | cons c rest ih =>
    rw [undoAll_cons]
    have body := (step_adds host session c.undo (announced (.undo c.place c.name) s)).filterMap_eq
      Event.undo? fun _ h => h.2.1
    rw [ih, body]
    simp [announced, Event.undo?]

/-- The marks of the setups of steps at the places from `start` on. -/
def marksFrom (start : Nat) (ps : List Preparation) : List (Nat × String) :=
  (ps.zipIdx start).map fun (p, place) => (place, p.name)

/-- If all steps are set up, each is begun once and in order, and nothing is undone. The cleanups
stand in the opposite order. -/
theorem setUpFrom_marks {done : List Cleanup} {ps : List Preparation} {s s' : Scene σ}
    {cs : List Cleanup}
    (h : (setUpFrom done ps).run (answerSetup host session) s = (.ok cs, s')) :
    Adds Event.OfSetup s.2 s'.2 ∧
      s'.2.filterMap Event.setUp? =
        (marksFrom done.length ps).reverse ++ s.2.filterMap Event.setUp? ∧
      ∃ new, cs = new ++ done ∧
        new.map Cleanup.place = (List.range' done.length ps.length).reverse := by
  induction ps generalizing done s with
  | nil =>
    cases h
    exact ⟨.refl _, by simp [marksFrom], [], rfl, rfl⟩
  | cons p rest ih =>
    cases r : p.setup.run (answerStep host session) (announced (.setUp done.length p.name) s) with
    | mk result t =>
      have body := step_adds host session p.setup (announced (.setUp done.length p.name) s)
      rw [r] at body
      cases result with
      | error cause =>
        rw [setUpFrom_cons_error host session r] at h
        cases h
      | ok c =>
        rw [setUpFrom_cons_ok host session r] at h
        obtain ⟨adds, marks, new, same, places⟩ := ih h
        have mark : Adds Event.OfSetup s.2 (announced (.setUp done.length p.name) s).2 :=
          .one ⟨rfl, rfl, rfl⟩
        refine ⟨(mark.trans (body.mono fun _ h => h.ofSetup)).trans adds, ?_,
          new ++ [{ c with place := done.length }], by simp [same], ?_⟩
        · rw [marks, body.filterMap_eq _ fun _ h => h.1]
          simp [marksFrom, announced, Event.setUp?]
        · simp [List.range'_succ, places]

end Preparation

end PluginAudit
