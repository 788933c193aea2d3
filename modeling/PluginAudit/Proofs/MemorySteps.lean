import PluginAudit.Host.Memory
import PluginAudit.Proofs.IsolationSteps
import PluginAudit.Proofs.Maps
import PluginAudit.Proofs.Reversal
import PluginAudit.Proofs.Sessions

/-!
The steps of a run on a host that keeps its namespaces in memory and does not refuse to drop them:
the isolation and the overriding of options can be taken back.
-/

namespace PluginAudit

namespace MemoryStore

theorem has_iff (m : MemoryStore) (name : String) :
    m.has name = true ↔ name ∈ m.namespaces.map Prod.fst := Entries.mem_keys_iff.symm

theorem create_ok {name : String} {m made : MemoryStore} (h : m.create name = .ok made) :
    name ∉ m.namespaces.map Prod.fst ∧ made.namespaces = Entries.put name [] m.namespaces ∧
      made.refusesDropping = m.refusesDropping := by
  simp only [create] at h
  split at h
  · cases h
  · split at h
    · cases h
    · split at h
      · cases h
      · rename_i absent
        cases h
        rw [has_iff] at absent
        exact ⟨absent, rfl, rfl⟩

theorem enter_ok {name : String} {m : MemoryStore} (h : name ∈ m.namespaces.map Prod.fst) :
    m.enter name = .ok () := by
  simp [enter, (has_iff m name).mpr h]

theorem enter_created {name : String} {m made : MemoryStore} (h : m.create name = .ok made) :
    made.enter name = .ok () := by
  obtain ⟨_, entries, _⟩ := create_ok h
  refine enter_ok ?_
  rw [entries]
  exact Entries.mem_keys_put.mpr (.inl rfl)

theorem has_of_read {name key : String} {m : MemoryStore} {value : Option Json}
    (h : m.read name key = .ok value) : name ∈ m.namespaces.map Prod.fst := by
  rw [← has_iff, has]
  simp only [read] at h
  split at h
  · rename_i options found
    rw [found]
    rfl
  · cases h

theorem drop_gone {name : String} {m left : MemoryStore} (current : String)
    (h : m.drop current name = .ok left) : left.has name = false := by
  simp only [drop] at h
  split at h
  · cases h
  · cases h
    refine Bool.eq_false_iff.mpr fun there => ?_
    obtain ⟨entry, member, same⟩ := List.mem_map.mp ((has_iff _ name).mp there)
    simp [Entries.erase, same] at member

/-- What counts of a store: its namespaces with their options, and whether they can be dropped. -/
def look (m : MemoryStore) : List (String × List (String × Json)) × Bool :=
  (m.namespaces, m.refusesDropping)

/-- The session has been opened and overrides nothing yet, and namespaces can be dropped. -/
structure Fresh (i : Nat) (w : World MemoryStore) : Prop where
  opened : w.Opened i
  none : (w.session i).overrides.live = []
  droppable : w.store.refusesDropping = false

variable {i : Nat} {w : World MemoryStore}

/-- A snapshot of a session without overrides is taken of a namespace that is there. -/
theorem has_of_capture (fresh : Fresh i w) {snapshot : Snapshot}
    (captured : ((Snapshot.capture Isolation.watchedKeys).run (World.ask storage i) w).1 =
      .ok snapshot) :
    (w.session i).current ∈ w.store.namespaces.map Prod.fst := by
  have unset : (w.session i).overrides.get? "active_plugins" = none := by
    simp [Overrides.get?, fresh.none]
  have reading : (World.ask storage i (.option "active_plugins") w).1 =
      w.store.read (w.session i).current "active_plugins" := by
    simp only [World.ask, unset]
    rfl
  cases read : w.store.read (w.session i).current "active_plugins" with
  | ok value => exact has_of_read read
  | error e =>
    rw [read] at reading
    simp only [Snapshot.capture, Isolation.watchedKeys, Snapshot.captureFrom, Program.run_ask,
      reading, Program.run_pure] at captured
    cases captured

theorem run_leave {former name : String} {u : World MemoryStore}
    (there : former ∈ u.store.namespaces.map Prod.fst)
    (droppable : u.store.refusesDropping = false) :
    ((Isolation.leave former name).run (World.ask storage i) u).2.visible look =
      ⟨(Entries.erase name u.store.namespaces, false),
        (u.visible look).sessions.set i (former, (u.session i).overrides.live)⟩ := by
  have entered : storage.enter former u.store = .ok () := enter_ok there
  have dropped : ∀ current, storage.drop current name u.store = .ok { u.store with
      namespaces := Entries.erase name u.store.namespaces
      dropped := u.store.dropped ++ [name] } := by
    intro current
    simp [storage, drop, droppable]
  have switched := World.ask_switchTo storage i entered
  have sessions := congrArg Visible.sessions (World.visible_setSession i look u
    { u.session i with current := former })
  have store : (u.setSession i { u.session i with current := former }).store = u.store := rfl
  simp only [Isolation.leave, Program.run_ask, switched]
  simp only [World.ask, store, dropped, Program.run_pure]
  rw [← droppable]
  exact congrArg (Visible.mk (Entries.erase name u.store.namespaces, u.store.refusesDropping))
    sessions

/-- The undoing of the isolation leads back from every world that looks like the one in which the
run has its namespace and its overrides. -/
theorem undo_restores (fresh : Fresh i w) {name : String} {made : MemoryStore}
    (created : w.store.create name = .ok made)
    (placed : (w.session i).current ∈ w.store.namespaces.map Prod.fst)
    {values : List (String × Json)} {u : World MemoryStore}
    (same : u.visible look =
      (World.added { w with store := made } i name values).visible look)
    (snapshot : Snapshot) :
    ((Isolation.undo (List.range' (w.session i).overrides.nextId values.length)
        (w.session i).current name snapshot).run (World.ask storage i) u).2.visible look =
      w.visible look := by
  obtain ⟨new, entries, droppable⟩ := create_ok created
  have removed : ((Preparation.removeAll (List.range' (w.session i).overrides.nextId
      values.length)).run (World.ask storage i) u).2.visible look =
        ⟨look made, (w.visible look).sessions.set i
          (name, (w.session i).overrides.live)⟩ :=
    World.run_removeAll_added storage i (w := { w with store := made })
      fresh.opened.1 fresh.opened.2 same
  rw [Isolation.run_undo]
  simp only [World.run_reads storage i (Isolation.verify_reads snapshot)]
  generalize ((Preparation.removeAll (List.range' (w.session i).overrides.nextId
    values.length)).run (World.ask storage i) u).2 = v at removed ⊢
  have stores : look v.store = look made := congrArg Visible.store removed
  have namespaces : v.store.namespaces = Entries.put name [] w.store.namespaces :=
    (congrArg Prod.fst stores).trans entries
  have drops : v.store.refusesDropping = false :=
    (congrArg Prod.snd stores).trans (droppable.trans fresh.droppable)
  have there : (w.session i).current ∈ v.store.namespaces.map Prod.fst := by
    rw [namespaces]
    exact Entries.mem_keys_put.mpr (.inr placed)
  have live : (v.session i).overrides.live = (w.session i).overrides.live := by
    have bound := fresh.opened.1
    have seen := World.session_visible i look v
    rw [removed] at seen
    simp only [World.visible, List.getElem?_set_self, List.length_map, bound,
      Option.getD_some] at seen
    exact congrArg Prod.snd seen
  rw [run_leave there drops, live, removed, List.set_set, namespaces, Entries.erase_put new,
    ← fresh.droppable]
  exact congrArg (Visible.mk (look w.store)) (World.visible_set_session i w)

theorem isolation_reversible (basename name theme : String) :
    Preparation.Reversible storage.host i (World.visible look) (Fresh i) (World.Opened i)
      (Isolation.preparation basename name theme) := by
  intro s fresh
  obtain ⟨bound, numbered⟩ := fresh.opened
  have ways := Isolation.preparation_cases storage.host i basename name theme s
  have captures := World.run_reads storage i (Snapshot.captureFrom_reads [] Isolation.watchedKeys)
    s.1
  generalize ((Isolation.preparation basename name theme).setup.run
    (Run.answerStep storage.host i) s).1 = result at ways ⊢
  generalize ((Isolation.preparation basename name theme).setup.run
    (Run.answerStep storage.host i) s).2.1 = world at ways ⊢
  cases ways with
  | unread e _ captured =>
    have unchanged : world = s.1 := (congrArg Prod.snd captured).symm.trans captures
    exact congrArg (World.visible look) unchanged
  -- A session of this host always tells where it is.
  | unplaced snapshot e t _ captured current => cases current
  | uncreated snapshot former e t u _ captured current created =>
    have unchanged : t = s.1 := (congrArg Prod.snd captured).symm.trans captures
    subst unchanged
    cases current
    simp only [Storage.host, World.ask] at created
    split at created
    · cases created
    · cases created
      exact rfl
  | unswitched snapshot former e t u v x captured current created switched =>
    have unchanged : t = s.1 := (congrArg Prod.snd captured).symm.trans captures
    subst unchanged
    cases current
    obtain ⟨made, creation, rfl⟩ := World.ask_createNamespace_ok storage i created
    -- The namespace has just been created, so one can switch to it.
    have other := World.ask_switchTo storage i (w := { s.1 with store := made })
      (enter_created creation)
    rw [show World.ask storage i (.switchTo name) _ = _ from switched] at other
    cases other
  | entered snapshot former t u v x captured current created switched =>
    have unchanged : t = s.1 := (congrArg Prod.snd captured).symm.trans captures
    subst unchanged
    cases current
    obtain ⟨made, creation, rfl⟩ := World.ask_createNamespace_ok storage i created
    have other := World.ask_switchTo storage i (w := { s.1 with store := made })
      (enter_created creation)
    rw [show World.ask storage i (.switchTo name) _ = _ from switched] at other
    cases other
    have placed := has_of_capture fresh (congrArg Prod.fst captured)
    have adding := World.run_addAll_switched storage i (w := { s.1 with store := made }) bound name
      (Isolation.overrides basename theme)
    rw [show (Preparation.addAll _).run (MemoryStore.storage.host.ask i) _ = _ from adding]
    refine ⟨World.added_opened (w := { s.1 with store := made }) fresh.opened name _,
      fun u same => ?_⟩
    rw [Isolation.cleanup_undo, (Preparation.run_inStep MemoryStore.storage.host i _ u).2]
    exact undo_restores fresh creation placed same snapshot

end MemoryStore

end PluginAudit
