import Mathlib.Data.List.Nodup
import PluginAudit.Proofs.Visits

/-!
Visits to one store, interleaved call by call in any order.
-/

namespace PluginAudit

namespace MemoryStore

def gathered (n : Nat) (w : World MemoryStore) : World MemoryStore :=
  (fun w => (storage.host.connect w).2)^[n] w

variable {w : World MemoryStore}

theorem gathered_eq (n : Nat) (w : World MemoryStore) :
    gathered n w = { w with sessions := w.sessions ++ List.replicate n ⟨baseName, .empty⟩ } := by
  induction n generalizing w with
  | zero => simp [gathered]
  | succ n ih =>
    have next : gathered (n + 1) w = gathered n (storage.host.connect w).2 := rfl
    rw [next, ih]
    simp [Storage.host, World.connect, storage, List.replicate_succ]

theorem gathered_store (n : Nat) (w : World MemoryStore) : (gathered n w).store = w.store := by
  rw [gathered_eq]

theorem gathered_arrived (hospitable : Hospitable w.store) {n : Nat} (i : Fin n) :
    Arrived (w.sessions.length + i) (gathered n w) := by
  have session : (gathered n w).session (w.sessions.length + i) = ⟨baseName, .empty⟩ := by
    simp [gathered_eq, World.session]
  have opened : w.sessions.length + i < (gathered n w).sessions.length := by
    simp [gathered_eq]
  have store := gathered_store n w
  refine ⟨store ▸ hospitable, ⟨⟨opened, ?_⟩, ?_, store ▸ hospitable.dropping⟩, ?_⟩
  · rw [session]
    exact Overrides.empty_numbered
  · rw [session]
    rfl
  · rw [session]

end MemoryStore

namespace Visit

open MemoryStore

def together (visits : List Visit) (w : World MemoryStore) :
    Joint stepCalls (Fin visits.length) (Except HostRefusal Account)
      (Run.Scene (World MemoryStore)) :=
  ⟨fun i => visits[i].program, (gathered visits.length w, [])⟩

/-- Each visit has one of the sessions that have been opened last. -/
def answers (visits : List Visit) (w : World MemoryStore) (i : Fin visits.length) (c : StepCall)
    (s : Run.Scene (World MemoryStore)) : c.Answer × Run.Scene (World MemoryStore) :=
  Run.answerStep storage.host (w.sessions.length + i) c s

variable {visits : List Visit} {w : World MemoryStore}

def names (visits : List Visit) (i : Fin visits.length) : String := visits[i].name

/-- The store takes the visits in: their names are valid, all different, and not those of namespaces
that are there. -/
structure Welcome (visits : List Visit) (m : MemoryStore) : Prop extends Hospitable m where
  distinct : (visits.map Visit.name).Nodup
  valid : ∀ v ∈ visits, Namespace.check v.name = .ok ()
  absent : ∀ v ∈ visits, m.has v.name = false

namespace Welcome

variable {m after : MemoryStore}

theorem injective (h : Welcome visits m) : Function.Injective (names visits) := by
  intro i k same
  have equal : visits.get i = visits.get k :=
    List.inj_on_of_nodup_map h.distinct (visits.get_mem i) (visits.get_mem k) same
  exact (h.distinct.of_map _).get_inj_iff.mp equal

theorem absent_name (h : Welcome visits m) (i : Fin visits.length) :
    m.has (names visits i) = false := h.absent visits[i] (List.getElem_mem i.isLt)

theorem lookup_none (h : Welcome visits m) (i : Fin visits.length) :
    m.namespaces.lookup (names visits i) = none := by
  have absent := h.absent_name i
  simpa [has] using absent

theorem home (h : Welcome visits m) (i : Fin visits.length) : Open (names visits) i baseName := by
  intro k same
  have absent := h.absent_name k
  rw [same, h.has] at absent
  cases absent

theorem created (h : Welcome visits w.store) (i : Fin visits.length) :
    ∃ store, (gathered visits.length w).store.create visits[i].name = .ok store := by
  rw [gathered_store]
  exact h.creates (h.valid visits[i] (List.getElem_mem i.isLt)) (h.absent_name i)

theorem arrived (h : Welcome visits w.store) (i : Fin visits.length) :
    Arrived (w.sessions.length + i) (gathered visits.length w) :=
  gathered_arrived h.toHospitable i

theorem follows (h : Welcome visits w.store) :
    Joint.Follows (answers visits w) (KeepsApart (names visits))
      (fun i s t => Alike w.sessions.length (names visits) i s.1 t.1) (together visits w)
      fun i => (visits[i].program, (gathered visits.length w, [])) := by
  constructor
  · exact fun _ => rfl
  · intro i
    refine ⟨rfl, (h.arrived i).fresh.opened.1, rfl, ?_, fun _ _ => rfl, rfl, rfl, rfl⟩
    rw [(h.arrived i).here]
    exact h.home i
  · intro i
    obtain ⟨store, created⟩ := h.created i
    exact calls_alone h.injective (h.home i) rfl (h.arrived i) created []

/-- A visit that is over has the account of an undisturbed one. Of its own namespace nothing is
left, and those of nobody are as they were. -/
theorem ended (h : Welcome visits w.store) (schedule : List (Fin visits.length))
    {i : Fin visits.length} {account : Except HostRefusal Account}
    (done : ((together visits w).run (answers visits w) schedule).programs i = .done account) :
    let store := ((together visits w).run (answers visits w) schedule).state.1.store
    account = .ok visits[i].undisturbed ∧ store.namespaces.lookup (names visits i) = none ∧
      store.namespaces.filter (Unowned (names visits) ·.1) =
        w.store.namespaces.filter (Unowned (names visits) ·.1) := by
  obtain ⟨made, created⟩ := h.created i
  obtain ⟨undisturbed, restored⟩ := run_alone (h.arrived i) created []
  obtain ⟨same, alike⟩ := h.follows.result (separate w.sessions.length h.injective) schedule done
  have namespaces : _ = (gathered visits.length w).store.namespaces :=
    congrArg (Prod.fst ∘ Visible.store) restored
  rw [gathered_store] at namespaces
  have own := alike.store.lookup _ (open_own h.injective i)
  refine ⟨same.trans undisturbed, own.trans ?_, alike.store.unowned.trans ?_⟩
  · exact (congrArg (List.lookup (names visits i)) namespaces).trans (h.lookup_none i)
  · exact congrArg (List.filter (Unowned (names visits) ·.1)) namespaces

theorem all_unowned (gone : ∀ i, m.namespaces.lookup (names visits i) = none) :
    m.namespaces.filter (Unowned (names visits) ·.1) = m.namespaces := by
  refine List.filter_eq_self.mpr fun e member => decide_eq_true fun i same => ?_
  have other := List.lookup_eq_none_iff.mp (gone i) e member
  simp [same] at other

end Welcome

/-- Whatever the order in which the calls of visits with different names are answered, no visit
fails, and each reads its own overrides and nothing else. With as many turns as it makes calls
alone it is over, and when all are over the namespaces are those from before. Its overrides hold for
every option that is watched. -/
theorem together_undisturbed (visits : List Visit) (w : World MemoryStore)
    (welcome : Welcome visits w.store) (schedule : List (Fin visits.length)) :
    let start := together visits w
    let after := start.run (answers visits w) schedule
    (∀ i account, after.programs i = .done account → account = .ok visits[i].undisturbed) ∧
      (∀ i, (visits[i].program.calls (answers visits w i) start.state).length ≤ schedule.count i →
        ∃ account, after.programs i = .done account) ∧
      ((∀ i, ∃ account, after.programs i = .done account) →
        after.state.1.store.namespaces = w.store.namespaces) ∧
      ∀ i : Fin visits.length, ∀ key ∈ Isolation.watchedKeys,
        ∃ value, visits[i].overrides.lookup key = some value := by
  intro start after
  refine ⟨?_, ?_, ?_, fun i => visits[i].overrides_watched⟩
  · intro i account done
    exact (welcome.ended schedule done).1
  · intro i enough
    exact ⟨_, welcome.follows.finished (separate w.sessions.length welcome.injective) enough⟩
  · intro allDone
    have left : ∀ i, _ := fun i => (welcome.ended schedule (allDone i).choose_spec).2
    rcases Nat.eq_zero_or_pos visits.length with nobody | somebody
    -- Without visits there is nobody whose view tells of the store, but no turn either.
    · have idle : schedule = [] := by
        cases schedule with
        | nil => rfl
        | cons i rest => exact absurd i.isLt (by omega)
      subst idle
      exact congrArg MemoryStore.namespaces (gathered_store visits.length w)
    · have now := Welcome.all_unowned fun i => (left i).1
      have before := Welcome.all_unowned welcome.lookup_none
      exact now.symm.trans ((left ⟨0, somebody⟩).2.trans before)

def guests : List Visit :=
  [⟨"hello.php", "wppc_a_", "twentyten", ["template", "siteurl"]⟩,
    ⟨"akismet/akismet.php", "wppc_b_", "twentyeleven", ["template", "active_plugins"]⟩]

def inTurn : List (Fin guests.length) := (List.range 31).flatMap fun _ => List.finRange _

def site : World MemoryStore := ⟨.initial false false, [], ⟨[], []⟩⟩

theorem together_undisturbed_inTurn :
    (∀ i, ((together guests site).run (answers guests site) inTurn).programs i =
      .done (.ok guests[i].undisturbed)) ∧
      ((together guests site).run (answers guests site) inTurn).state.1.store.namespaces =
        site.store.namespaces := by
  have hospitable : Hospitable site.store := by
    refine ⟨rfl, rfl, _, rfl, ?_⟩
    decide +kernel
  have welcome : Welcome guests site.store := by
    refine ⟨hospitable, by decide, ?_, ?_⟩
    · simp only [guests, List.forall_mem_cons]
      exact ⟨rfl, rfl, nofun⟩
    · decide +kernel
  obtain ⟨same, finished, restored, -⟩ :=
    together_undisturbed guests site welcome inTurn
  have enough : ∀ i, (guests[i].program.calls (answers guests site i)
      (together guests site).state).length ≤ inTurn.count i := by
    decide +kernel
  have allDone := fun i => finished i (enough i)
  refine ⟨fun i => ?_, restored allDone⟩
  obtain ⟨account, done⟩ := allDone i
  rw [done, same i account done]

end Visit

end PluginAudit
