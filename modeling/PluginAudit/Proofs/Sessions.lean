import PluginAudit.Host.Session
import PluginAudit.Proofs.IsolationSteps
import PluginAudit.Proofs.Reversal

/-!
What the calls of one session do to a host of sessions: reading changes nothing, and overrides that
have been added and are removed again leave those that were there.
-/

namespace PluginAudit

namespace Overrides

/-- The overrides that are there have been numbered before the next one. -/
def Numbered (o : Overrides) : Prop := ∀ v ∈ o.live, v.id < o.nextId

theorem empty_numbered : empty.Numbered := by
  intro v member
  simp [empty] at member

theorem add_numbered {o : Overrides} (h : o.Numbered) (key : String) (value : Json) :
    (o.add key value).Numbered := by
  intro v member
  simp only [add, List.mem_append, List.mem_singleton] at member
  cases member with
  | inl old => exact Nat.lt_succ_of_lt (h v old)
  | inr new =>
    rw [new]
    exact Nat.lt_succ_self _

/-- Adds overrides one after another. -/
def addAll (o : Overrides) (values : List (String × Json)) : Overrides :=
  values.foldl (fun o v => o.add v.1 v.2) o

theorem addAll_numbered {o : Overrides} (h : o.Numbered) (values : List (String × Json)) :
    (o.addAll values).Numbered := by
  induction values generalizing o with
  | nil => exact h
  | cons v rest ih => exact ih (add_numbered h v.1 v.2)

/-- Overrides that are added come after the others, and their numbers follow one another. -/
theorem addAll_live (o : Overrides) (values : List (String × Json)) :
    ∃ new, (o.addAll values).live = o.live ++ new ∧
      new.map Override.id = List.range' o.nextId values.length := by
  induction values generalizing o with
  | nil => exact ⟨[], by simp [addAll], rfl⟩
  | cons v rest ih =>
    obtain ⟨new, live, ids⟩ := ih (o.add v.1 v.2)
    refine ⟨⟨o.nextId, v.1, v.2⟩ :: new, ?_, ?_⟩
    · change ((o.add v.1 v.2).addAll rest).live = _
      rw [live]
      simp [add]
    · simp only [List.map_cons, ids, add, List.length_cons, List.range'_succ]

/-- What remains of overrides if some numbers are removed. -/
def without (ids : List Nat) (live : List Override) : List Override :=
  live.filter fun v => !ids.contains v.id

@[simp] theorem without_nil (live : List Override) : without [] live = live := by
  simp [without]

theorem remove_live (o : Overrides) (id : Nat) (ids : List Nat) :
    without ids (o.remove id).live = without (id :: ids) o.live := by
  simp only [without, remove, List.filter_filter]
  refine List.filter_congr fun v _ => ?_
  simp only [List.contains_cons, Bool.not_or, bne, Bool.and_comm]

theorem without_addAll {o : Overrides} (h : o.Numbered) (values : List (String × Json)) :
    without (List.range' o.nextId values.length) (o.addAll values).live = o.live := by
  obtain ⟨new, live, ids⟩ := o.addAll_live values
  have kept : without (List.range' o.nextId values.length) o.live = o.live := by
    refine List.filter_eq_self.mpr fun v member => ?_
    have small := h v member
    simp only [List.contains_eq_mem, List.mem_range'_1, Bool.not_eq_true', decide_eq_false_iff_not]
    omega
  have gone : without (List.range' o.nextId values.length) new = [] := by
    refine List.filter_eq_nil_iff.mpr fun v member => ?_
    have listed : v.id ∈ List.range' o.nextId values.length := by
      rw [← ids]
      exact List.mem_map_of_mem member
    simp only [List.contains_eq_mem, listed, decide_true, Bool.not_true, Bool.false_eq_true,
      not_false_eq_true]
  rw [live]
  change List.filter _ (o.live ++ new) = _
  rw [List.filter_append]
  change without _ o.live ++ without _ new = _
  rw [kept, gone, List.append_nil]

end Overrides

namespace World

variable {σ : Type} (storage : Storage σ) (i : Nat)

theorem ask_reads {c : HostCall} (h : c.Reads) (w : World σ) : (ask storage i c w).2 = w := by
  cases c with
  | currentNamespace => rfl
  | option key =>
    simp only [ask]
    split <;> rfl
  | overrides => rfl
  | createNamespace name => cases h
  | switchTo name => cases h
  | dropNamespace name => cases h
  | addOverride key value => cases h
  | removeOverride id => cases h

/-- An override shadows what is stored. -/
theorem ask_option (key : String) (w : World σ) : (ask storage i (.option key) w).1 =
    match (w.session i).overrides.get? key with
    | some value => .ok (some value)
    | none => storage.read (w.session i).current key w.store := by
  simp only [ask]
  split <;> simp_all

theorem run_reads {α : Type} {p : Program hostCalls α} (h : p.Avoids fun c : HostCall => ¬c.Reads)
    (w : World σ) : (p.run (ask storage i) w).2 = w := by
  have kept := Program.run_relates_of_avoids (R := fun a b => b = a) (fun _ => rfl)
    (fun first second => second.trans first)
    (fun c v allowed => ask_reads storage i (Classical.not_not.mp allowed) v) p h w
  exact kept

theorem ask_createNamespace_ok {name : String} {w made : World σ}
    (h : ask storage i (.createNamespace name) w = (.ok (), made)) :
    ∃ store, storage.create name w.store = .ok store ∧ made = { w with store } := by
  simp only [ask] at h
  split at h
  · rename_i store created
    cases h
    exact ⟨store, created, rfl⟩
  · cases h

theorem ask_switchTo {name : String} {w : World σ} (h : storage.enter name w.store = .ok ()) :
    ask storage i (.switchTo name) w =
      (.ok (), w.setSession i { w.session i with current := name }) := by
  simp only [ask, h]

theorem session_setSession {w : World σ} (bound : i < w.sessions.length) (s : Session) :
    (w.setSession i s).session i = s := by
  simp [session, setSession, bound]

theorem setSession_session {w : World σ} (bound : i < w.sessions.length) :
    w.setSession i (w.session i) = w := by
  cases w
  simp_all [session, setSession]

theorem setSession_setSession (w : World σ) (s t : Session) :
    (w.setSession i s).setSession i t = w.setSession i t := by
  simp [setSession]

@[simp] theorem setSession_length (w : World σ) (s : Session) :
    (w.setSession i s).sessions.length = w.sessions.length := by
  simp [setSession]

theorem run_addAll {w : World σ} (bound : i < w.sessions.length)
    (values : List (String × Json)) :
    (Preparation.addAll values).run (ask storage i) w =
      (List.range' (w.session i).overrides.nextId values.length,
        w.setSession i { w.session i with
          overrides := (w.session i).overrides.addAll values }) := by
  induction values generalizing w with
  | nil =>
    have same : w.setSession i (w.session i) = w := setSession_session i bound
    simp only [Preparation.addAll, Program.run_pure, List.length_nil, List.range'_zero,
      Overrides.addAll, List.foldl_nil, same]
  | cons v rest ih =>
    obtain ⟨key, value⟩ := v
    simp only [Preparation.addAll, Program.run_ask, Program.run_bind, Program.run_pure, ask]
    rw [ih (by simpa using bound)]
    simp only [session_setSession i bound, setSession_setSession, List.length_cons,
      List.range'_succ]
    rfl

end World

/-- What tells two sessions apart, but for the numbers of overrides to come. -/
def Session.visible (s : Session) : String × List Override := (s.current, s.overrides.live)

/-- What can be seen of a world: of its store what matters, and its sessions. -/
structure Visible (ε : Type) where
  store : ε
  sessions : List (String × List Override)

namespace World

variable {σ ε : Type} (storage : Storage σ) (i : Nat) (look : σ → ε)

def visible (w : World σ) : Visible ε := ⟨look w.store, w.sessions.map Session.visible⟩

theorem session_visible (w : World σ) :
    (w.session i).visible = (w.visible look).sessions[i]?.getD ("", []) := by
  simp only [session, visible, List.getElem?_map]
  cases w.sessions[i]? <;> rfl

variable {look}

theorem session_alike {u w : World σ} (same : u.visible look = w.visible look) :
    (u.session i).current = (w.session i).current ∧
      (u.session i).overrides.live = (w.session i).overrides.live := by
  have alike : (u.session i).visible = (w.session i).visible := by
    rw [session_visible i look u, session_visible i look w, same]
  exact ⟨congrArg Prod.fst alike, congrArg Prod.snd alike⟩

variable (look) in
theorem visible_setSession (w : World σ) (s : Session) :
    (w.setSession i s).visible look =
      ⟨look w.store, (w.visible look).sessions.set i s.visible⟩ := by
  simp [visible, setSession, List.map_set]

theorem visible_set_session (w : World σ) :
    (w.visible look).sessions.set i (w.session i).visible = (w.visible look).sessions := by
  rw [session_visible i look w]
  refine List.ext_getElem (by simp) fun n _ bound => ?_
  rw [List.getElem_set]
  split
  · rename_i same
    subst same
    simp [List.getElem?_eq_getElem bound]
  · rfl

variable (look) in
theorem run_removeAll {w : World σ} (bound : i < w.sessions.length) (ids : List Nat) :
    ((Preparation.removeAll ids).run (ask storage i) w).2.store = w.store ∧
      (((Preparation.removeAll ids).run (ask storage i) w).2.visible look).sessions =
        (w.visible look).sessions.set i
          ((w.session i).current, Overrides.without ids (w.session i).overrides.live) := by
  induction ids generalizing w with
  | nil =>
    refine ⟨rfl, ?_⟩
    rw [Overrides.without_nil]
    exact (visible_set_session i w).symm
  | cons id rest ih =>
    simp only [Preparation.removeAll, Program.run_ask, Program.run_bind, Program.run_pure, ask]
    obtain ⟨store, sessions⟩ := ih (w := w.setSession i { w.session i with
      overrides := (w.session i).overrides.remove id }) (by simpa using bound)
    refine ⟨store, ?_⟩
    rw [sessions, session_setSession i bound, visible_setSession]
    simp only [List.set_set, Overrides.remove_live]

/-- The session with overrides added, in the namespace `current`. -/
def added (w : World σ) (i : Nat) (current : String) (values : List (String × Json)) : World σ :=
  w.setSession i ⟨current, (w.session i).overrides.addAll values⟩

theorem run_addAll_switched {w : World σ} (bound : i < w.sessions.length) (current : String)
    (values : List (String × Json)) :
    (Preparation.addAll values).run (ask storage i)
        (w.setSession i { w.session i with current }) =
      (List.range' (w.session i).overrides.nextId values.length, w.added i current values) := by
  have adding := run_addAll storage i (w := w.setSession i { w.session i with current })
    (by simpa using bound) values
  rw [session_setSession i bound, setSession_setSession] at adding
  exact adding

/-- Removing the overrides that have been added leaves those from before, in every world that looks
like the one after the adding. -/
theorem run_removeAll_added {w u : World σ} (bound : i < w.sessions.length)
    (numbered : (w.session i).overrides.Numbered) {current : String}
    {values : List (String × Json)}
    (same : u.visible look = (w.added i current values).visible look) :
    ((Preparation.removeAll (List.range' (w.session i).overrides.nextId values.length)).run
        (ask storage i) u).2.visible look =
      ⟨look w.store, (w.visible look).sessions.set i
        (current, (w.session i).overrides.live)⟩ := by
  have stores : look u.store = look w.store := congrArg Visible.store same
  have seen : (u.visible look).sessions = (w.visible look).sessions.set i
      (current, ((w.session i).overrides.addAll values).live) := by
    rw [same, added, visible_setSession]
    rfl
  -- Worlds that look alike have equally many sessions, so the session is open in `u` as well.
  have lengths : u.sessions.length = w.sessions.length := by
    simpa [visible] using congrArg List.length seen
  obtain ⟨here, overrides⟩ := session_alike i same
  rw [added, session_setSession i bound] at here overrides
  obtain ⟨store, sessions⟩ := run_removeAll storage i look (lengths ▸ bound)
    (List.range' (w.session i).overrides.nextId values.length)
  rw [here, overrides, seen, List.set_set, Overrides.without_addAll numbered] at sessions
  rw [← sessions, ← stores, ← store]
  rfl

/-- The session has been opened, and its overrides are numbered. -/
def Opened (i : Nat) (w : World σ) : Prop :=
  i < w.sessions.length ∧ (w.session i).overrides.Numbered

theorem added_opened {w : World σ} {i : Nat} (h : w.Opened i) (current : String)
    (values : List (String × Json)) : (w.added i current values).Opened i := by
  refine ⟨by simpa [added] using h.1, ?_⟩
  rw [added, session_setSession i h.1]
  exact Overrides.addAll_numbered h.2 values

theorem overriding_reversible (name : String) (values : List (String × Json)) :
    Preparation.Reversible storage.host i (visible look) (Opened i) (Opened i)
      (Preparation.overriding name values) := by
  intro s ready
  have adding : (Preparation.addAll values).run (storage.host.ask i) s.1 =
      (List.range' (s.1.session i).overrides.nextId values.length,
        s.1.added i (s.1.session i).current values) := run_addAll storage i ready.1 values
  have set : (Preparation.overriding name values).setup = Program.inStep _ := rfl
  rw [set, (Preparation.run_inStep storage.host i _ s).1,
    (Preparation.run_inStep storage.host i _ s).2]
  simp only [Program.run_bind, adding, Program.run_pure]
  refine ⟨added_opened ready _ values, fun u same => ?_⟩
  have removed := run_removeAll_added storage i ready.1 ready.2 same
  have back : (s.1.visible look).sessions.set i
      ((s.1.session i).current, (s.1.session i).overrides.live) = (s.1.visible look).sessions :=
    visible_set_session i s.1
  rw [(Preparation.run_inStep storage.host i _ u).2]
  simp only [Program.run_bind]
  rw [back] at removed
  split <;> exact removed

end World

end PluginAudit
