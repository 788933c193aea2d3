import PluginAudit.Proofs.Interleaving
import PluginAudit.Proofs.MemorySteps

/-!
Sessions of one store in memory, each with a namespace name of its own. As long as a session creates
and drops nothing but its namespace and keeps out of the others', no other session notices it.
-/

namespace PluginAudit

namespace World

variable {σ : Type}

theorem session_setSession_of_ne {w : World σ} {i k : Nat} (other : k ≠ i) (s : Session) :
    (w.setSession k s).session i = w.session i := by
  simp [session, setSession, List.getElem?_set_ne other]

end World

namespace MemoryStore

variable (first : Nat) {n : Nat} (names : Fin n → String)

/-- The name is not that of another session. -/
def Open (i : Fin n) (name : String) : Prop := ∀ k, names k = name → k = i

def Unowned (name : String) : Bool := decide (∀ k, names k ≠ name)

/-- The calls of a session that creates and drops its own namespace only, and enters no other's. -/
def KeepsApart (i : Fin n) : StepCall → Prop
  | .host (.createNamespace name) | .host (.dropNamespace name) => name = names i
  | .host (.switchTo name) => Open names i name
  | _ => True

structure StoreAlike (i : Fin n) (a b : MemoryStore) : Prop where
  lookup : ∀ name, Open names i name → a.namespaces.lookup name = b.namespaces.lookup name
  unowned : a.namespaces.filter (Unowned names ·.1) = b.namespaces.filter (Unowned names ·.1)
  creation : a.refusesCreation = b.refusesCreation
  dropping : a.refusesDropping = b.refusesDropping

/-- The worlds are alike for a session: it is in the same place, and only what belongs to others
may differ. -/
structure Alike (i : Fin n) (v w : World MemoryStore) : Prop where
  count : v.sessions.length = w.sessions.length
  opened : first + i < w.sessions.length
  session : v.session (first + i) = w.session (first + i)
  place : Open names i (w.session (first + i)).current
  store : StoreAlike names i v.store w.store

variable {first names} {i k : Fin n} {a b made : MemoryStore} {v w : World MemoryStore}
  {name : String}

theorem unowned_own (i : Fin n) : Unowned names (names i) = false := by
  simp only [Unowned, decide_eq_false_iff_not]
  exact fun h => h i rfl

theorem open_own (distinct : Function.Injective names) (i : Fin n) : Open names i (names i) :=
  fun _ same => distinct same

namespace StoreAlike

theorem has (h : StoreAlike names i a b) (visible : Open names i name) : a.has name = b.has name :=
  congrArg Option.isSome (h.lookup name visible)

theorem create (h : StoreAlike names i a b) (visible : Open names i (names i)) :
    (∃ e, a.create (names i) = .error e ∧ b.create (names i) = .error e) ∨
      ∃ x y, a.create (names i) = .ok x ∧ b.create (names i) = .ok y ∧ StoreAlike names i x y := by
  simp only [MemoryStore.create, h.creation, h.has visible]
  split
  · exact .inl ⟨_, rfl, rfl⟩
  · split
    · exact .inl ⟨_, rfl, rfl⟩
    · split
      · exact .inl ⟨_, rfl, rfl⟩
      · refine .inr ⟨_, _, rfl, rfl, ?_, ?_, rfl, h.dropping⟩
        · intro q open_q
          simp only [Entries.lookup_put, h.lookup q open_q]
        · exact (Entries.filter_put (unowned_own i)).trans
            (h.unowned.trans (Entries.filter_put (unowned_own i)).symm)

theorem drop (h : StoreAlike names i a b) (current : String) :
    (∃ e, a.drop current (names i) = .error e ∧ b.drop current (names i) = .error e) ∨
      ∃ x y, a.drop current (names i) = .ok x ∧ b.drop current (names i) = .ok y ∧
        StoreAlike names i x y := by
  simp only [MemoryStore.drop, h.dropping]
  split
  · exact .inl ⟨_, rfl, rfl⟩
  · refine .inr ⟨_, _, rfl, rfl, ?_, ?_, h.creation, rfl⟩
    · intro q open_q
      simp only [Entries.lookup_erase, h.lookup q open_q]
    · exact (Entries.filter_erase (unowned_own i)).trans
        (h.unowned.trans (Entries.filter_erase (unowned_own i)).symm)

theorem created_other (h : StoreAlike names i a b) (other : k ≠ i)
    (created : a.create (names k) = .ok made) : StoreAlike names i made b := by
  simp only [MemoryStore.create] at created
  split at created
  · cases created
  · split at created
    · cases created
    · split at created
      · cases created
      · cases created
        refine ⟨fun q open_q => ?_, (Entries.filter_put (unowned_own k)).trans h.unowned,
          h.creation, h.dropping⟩
        have apart : q ≠ names k := fun same => other (open_q k same.symm)
        rw [Entries.lookup_put, if_neg apart]
        exact h.lookup q open_q

theorem dropped_other (h : StoreAlike names i a b) (other : k ≠ i) (current : String)
    (dropped : a.drop current (names k) = .ok made) : StoreAlike names i made b := by
  simp only [MemoryStore.drop] at dropped
  split at dropped
  · cases dropped
  · cases dropped
    refine ⟨fun q open_q => ?_, (Entries.filter_erase (unowned_own k)).trans h.unowned,
      h.creation, h.dropping⟩
    have apart : q ≠ names k := fun same => other (open_q k same.symm)
    rw [Entries.lookup_erase, if_neg apart]
    exact h.lookup q open_q

end StoreAlike

namespace Alike

theorem setSession (h : Alike first names i v w) {s : Session} (place : Open names i s.current) :
    Alike first names i (v.setSession (first + i) s) (w.setSession (first + i) s) := by
  have same : (w.setSession (first + i) s).session (first + i) = s :=
    World.session_setSession _ h.opened s
  have also : (v.setSession (first + i) s).session (first + i) = s :=
    World.session_setSession _ (h.count ▸ h.opened) s
  refine ⟨by simpa using h.count, by simpa using h.opened, also.trans same.symm, ?_, h.store⟩
  rw [same]
  exact place

theorem setSession_other (h : Alike first names i v w) (other : k ≠ i) (s : Session) :
    Alike first names i (v.setSession (first + k) s) w := by
  have apart : first + k.val ≠ first + i.val := by
    have different := Fin.val_ne_of_ne other
    omega
  refine ⟨by simpa using h.count, h.opened, ?_, h.place, h.store⟩
  rw [World.session_setSession_of_ne apart]
  exact h.session

theorem withStore (h : Alike first names i v w) (stores : StoreAlike names i a b) :
    Alike first names i { v with store := a } { w with store := b } :=
  ⟨h.count, h.opened, h.session, h.place, stores⟩

end Alike

/-- A session's own call is answered alike in worlds that are alike for it. -/
theorem ask_own (distinct : Function.Injective names) {c : HostCall}
    (apart : KeepsApart names i (.host c)) (h : Alike first names i v w) :
    (World.ask storage (first + i) c v).1 = (World.ask storage (first + i) c w).1 ∧
      Alike first names i (World.ask storage (first + i) c v).2
        (World.ask storage (first + i) c w).2 := by
  have session := h.session
  cases c with
  | currentNamespace => exact ⟨congrArg (Except.ok ∘ Session.current) session, h⟩
  | overrides => exact ⟨congrArg (Overrides.snapshot ∘ Session.overrides) session, h⟩
  | addOverride key value =>
    simp only [World.ask, session]
    exact ⟨trivial, h.setSession h.place⟩
  | removeOverride id =>
    simp only [World.ask, session]
    exact ⟨trivial, h.setSession h.place⟩
  | option key =>
    have place := h.store.lookup _ h.place
    simp only [World.ask, session]
    split
    · exact ⟨rfl, h⟩
    · simp only [storage, read, place]
      exact ⟨trivial, h⟩
  | switchTo name =>
    have there := h.store.has apart
    simp only [World.ask, storage, enter, there, session]
    cases w.store.has name with
    | true => exact ⟨rfl, h.setSession apart⟩
    | false => exact ⟨rfl, h⟩
  | createNamespace name =>
    have own : name = names i := apart
    subst own
    simp only [World.ask, storage]
    rcases h.store.create (open_own distinct i) with ⟨e, left, right⟩ | ⟨x, y, left, right, alike⟩
    · rw [left, right]
      exact ⟨rfl, h⟩
    · rw [left, right]
      exact ⟨rfl, h.withStore alike⟩
  | dropNamespace name =>
    have own : name = names i := apart
    subst own
    simp only [World.ask, storage, session]
    rcases h.store.drop (w.session (first + i)).current with
      ⟨e, left, right⟩ | ⟨x, y, left, right, alike⟩
    · rw [left, right]
      exact ⟨rfl, h⟩
    · rw [left, right]
      exact ⟨rfl, h.withStore alike⟩

theorem ask_other (other : k ≠ i) {c : HostCall} (apart : KeepsApart names k (.host c))
    (h : Alike first names i v w) : Alike first names i (World.ask storage (first + k) c v).2 w := by
  cases c with
  | currentNamespace => exact h
  | overrides => exact h
  | addOverride key value => exact h.setSession_other other _
  | removeOverride id => exact h.setSession_other other _
  | option key =>
    rw [World.ask_reads storage (first + k) (c := .option key) True.intro v]
    exact h
  | switchTo name =>
    simp only [World.ask]
    split
    · exact h.setSession_other other _
    · exact h
  | createNamespace name =>
    have own : name = names k := apart
    subst own
    simp only [World.ask]
    split
    · rename_i made created
      exact h.withStore (h.store.created_other other created)
    · exact h
  | dropNamespace name =>
    have own : name = names k := apart
    subst own
    simp only [World.ask]
    split
    · rename_i made dropped
      exact h.withStore (h.store.dropped_other other (v.session (first + k)).current dropped)
    · exact h

/-- Sessions with names of their own, each of which keeps apart, can go on as if they were alone. -/
theorem separate (first : Nat) (distinct : Function.Injective names) :
    Joint.Separate (I := stepCalls) (fun i : Fin n => Run.answerStep storage.host (first + i))
      (KeepsApart names) fun i s t => Alike first names i s.1 t.1 := by
  constructor
  · intro i c s t apart alike
    cases c with
    | host c => exact ask_own distinct apart alike
    | tell remark => exact ⟨rfl, alike⟩
  · intro i k c s t other apart alike
    cases c with
    | host c => exact ask_other other apart alike
    | tell remark => exact alike

end MemoryStore

end PluginAudit
