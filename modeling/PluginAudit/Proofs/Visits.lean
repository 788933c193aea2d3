import PluginAudit.Proofs.IsolationCalls
import PluginAudit.Proofs.Seclusion

/-!
Visits to one store in memory: each session isolates itself, reads options, and takes its isolation
back. Whatever the order in which the calls of several visits are answered, each visit reads its own
overrides, no visit fails, and the store is left as it was.
-/

namespace PluginAudit

namespace Overrides

theorem get?_add (o : Overrides) (key k : String) (value : Json) :
    (o.add key value).get? k = if k = key then some value else o.get? k := by
  simp only [get?, add, List.reverse_append, List.reverse_singleton, List.singleton_append,
    List.find?_cons]
  by_cases same : k = key
  · simp [same]
  · simp [same, beq_eq_false_iff_ne.mpr (Ne.symm same)]

theorem get?_addAll {values : List (String × Json)} (distinct : (values.map Prod.fst).Nodup)
    (o : Overrides) (k : String) :
    (o.addAll values).get? k = (values.lookup k).or (o.get? k) := by
  induction values generalizing o with
  | nil => rfl
  | cons v rest ih =>
    obtain ⟨key, value⟩ := v
    obtain ⟨new, others⟩ := List.nodup_cons.mp distinct
    have added : (o.addAll ((key, value) :: rest)).get? k =
        (rest.lookup k).or ((o.add key value).get? k) := ih others (o.add key value)
    rw [added, get?_add, Entries.lookup_cons]
    by_cases same : k = key
    · have absent : rest.lookup k = none := by
        rw [List.lookup_eq_none_iff]
        intro e member
        have other : k ≠ e.1 := by
          rintro rfl
          exact new (List.mem_map.mpr ⟨e, member, same⟩)
        simpa using other
      rw [if_pos same, if_pos same, absent]
      rfl
    · rw [if_neg same, if_neg same]

end Overrides

namespace Snapshot

variable {σ : Type} {ask : (c : HostCall) → σ → c.Answer × σ} {s : σ}

/-- Where options can be read, what is captured are the values that are read. -/
theorem captureFrom_ok (taken : List (String × Option Json)) (keys : List String)
    (readable : ∀ key, ∃ value, ask (.option key) s = (.ok value, s))
    (read : ∀ e ∈ taken, ask (.option e.1) s = (.ok e.2, s)) :
    ∃ snapshot, (captureFrom taken keys).run ask s = (.ok snapshot, s) ∧
      ∀ e ∈ snapshot.values, ask (.option e.1) s = (.ok e.2, s) := by
  induction keys generalizing taken with
  | nil => exact ⟨⟨taken⟩, rfl, read⟩
  | cons key rest ih =>
    obtain ⟨value, here⟩ := readable key
    have more : ∀ e ∈ Entries.put key value taken, ask (.option e.1) s = (.ok e.2, s) := by
      intro e member
      rcases Entries.mem_put member with rfl | old
      · exact here
      · exact read e old
    simp only [captureFrom, Program.run_ask, here]
    exact ih _ more

theorem divergingFrom_nil {values : List (String × Option Json)}
    (read : ∀ e ∈ values, ask (.option e.1) s = (.ok e.2, s))
    (comparable : ∀ e ∈ values, Json.sameOption e.2 e.2) :
    (divergingFrom values).run ask s = (.ok [], s) := by
  induction values with
  | nil => rfl
  | cons e rest ih =>
    have here := read e List.mem_cons_self
    have same := comparable e List.mem_cons_self
    have later := ih (fun f member => read f (List.mem_cons_of_mem e member))
      fun f member => comparable f (List.mem_cons_of_mem e member)
    simp only [divergingFrom, Program.run_ask, here, Program.run_bind, later, same, if_true,
      Program.run_pure]

end Snapshot

/-- A visit of the host by a session of its own, in which options are read. -/
structure Visit where
  basename : String
  name : String
  theme : String
  keys : List String

namespace Visit

structure Account where
  values : List (Except HostRefusal (Option Json))
  undone : Except String Unit

def readAll : List String → Program hostCalls (List (Except HostRefusal (Option Json)))
  | [] => pure []
  | key :: rest => .ask (.option key) fun value => do return value :: (← readAll rest)

def program (v : Visit) : Program stepCalls (Except HostRefusal Account) := do
  match ← (Isolation.preparation v.basename v.name v.theme).setup with
  | .error e => return .error e
  | .ok cleanup => do
    let values ← (readAll v.keys).inStep
    let undone ← cleanup.undo
    return .ok ⟨values, undone⟩

def overrides (v : Visit) : List (String × Json) := Isolation.overrides v.basename v.theme

/-- Every watched option is overridden, so a visit sees none of the host's values of them. -/
theorem overrides_watched (v : Visit) :
    ∀ key ∈ Isolation.watchedKeys, ∃ value, v.overrides.lookup key = some value := by
  simp only [Isolation.watchedKeys, List.forall_mem_cons]
  exact ⟨⟨_, rfl⟩, ⟨_, rfl⟩, ⟨_, rfl⟩, ⟨_, rfl⟩, ⟨_, rfl⟩, ⟨_, rfl⟩, List.forall_mem_nil _⟩

/-- The account of a visit that sees its own overrides and nothing else. -/
def undisturbed (v : Visit) : Account :=
  ⟨v.keys.map fun key => .ok (v.overrides.lookup key), .ok ()⟩

theorem readAll_reads (keys : List String) :
    (readAll keys).Avoids fun c : HostCall => ¬c.Reads := by
  induction keys with
  | nil => exact True.intro
  | cons key rest ih =>
    refine ⟨Classical.not_not.mpr True.intro, fun value => ?_⟩
    exact ih.bind fun values => True.intro

theorem run_readAll {σ : Type} {ask : (c : HostCall) → σ → c.Answer × σ} {s : σ}
    {value : String → Option Json} (read : ∀ key, ask (.option key) s = (.ok (value key), s))
    (keys : List String) :
    (readAll keys).run ask s = (keys.map fun key => .ok (value key), s) := by
  induction keys with
  | nil => rfl
  | cons key rest ih =>
    simp only [readAll, Program.run_ask, read, Program.run_bind, ih, Program.run_pure,
      List.map_cons]

end Visit

namespace MemoryStore

/-- Namespaces can be created and dropped, and the base namespace is there. Its values equal
themselves, as all values do but those with a float that is no number. -/
structure Hospitable (m : MemoryStore) : Prop where
  creating : m.refusesCreation = false
  dropping : m.refusesDropping = false
  base : ∃ options, m.namespaces.lookup baseName = some options ∧ ∀ e ∈ options, e.2.same e.2

theorem Hospitable.has {m : MemoryStore} (h : Hospitable m) : m.has baseName := by
  obtain ⟨options, found, -⟩ := h.base
  rw [MemoryStore.has, found]
  rfl

structure Arrived (i : Nat) (w : World MemoryStore) : Prop where
  hospitable : Hospitable w.store
  fresh : Fresh i w
  here : (w.session i).current = baseName

variable {i : Nat} {u w : World MemoryStore} {made : MemoryStore} {name : String}

theorem Arrived.reads (h : Arrived i w) (key : String) : ∃ value,
    World.ask storage i (.option key) w = (.ok value, w) ∧ Json.sameOption value value := by
  obtain ⟨options, found, comparable⟩ := h.hospitable.base
  have unset : (w.session i).overrides.get? key = none := by
    simp [Overrides.get?, h.fresh.none]
  refine ⟨options.lookup key, ?_, ?_⟩
  · simp only [World.ask, unset, storage, read, h.here, found]
  · cases value : options.lookup key with
    | none => rfl
    | some v =>
      obtain ⟨before, after, rfl, -⟩ := List.lookup_eq_some_iff.mp value
      exact comparable (key, v) (List.mem_append_right before List.mem_cons_self)

theorem reads_alike (same : u.visible look = w.visible look) {key : String} {value : Option Json}
    (read : World.ask storage i (.option key) w = (.ok value, w)) :
    World.ask storage i (.option key) u = (.ok value, u) := by
  obtain ⟨current, live⟩ := World.session_alike i same
  have namespaces : u.store.namespaces = w.store.namespaces :=
    congrArg (Prod.fst ∘ Visible.store) same
  have overrides : (u.session i).overrides.get? key = (w.session i).overrides.get? key := by
    rw [Overrides.get?, Overrides.get?, live]
  have answers : (World.ask storage i (.option key) u).1 =
      (World.ask storage i (.option key) w).1 := by
    simp only [World.ask, overrides, current]
    split
    · rfl
    · simp only [storage, MemoryStore.read, namespaces]
  have stays := World.ask_reads storage i (c := .option key) True.intro u
  rw [read] at answers
  exact Prod.ext answers stays

theorem Hospitable.creates {m : MemoryStore} (h : Hospitable m) (valid : Namespace.check name = .ok ())
    (absent : m.has name = false) : ∃ made, m.create name = .ok made := by
  simp [create, valid, h.creating, absent]

theorem run_setup (h : Arrived i w) (basename theme : String)
    (created : w.store.create name = .ok made) : ∃ snapshot : Snapshot,
    (Isolation.setup basename name theme).run (World.ask storage i) w =
      (.ok (Isolation.cleanup (List.range' (w.session i).overrides.nextId
        (Isolation.overrides basename theme).length) baseName name snapshot),
        World.added { w with store := made } i name (Isolation.overrides basename theme)) ∧
      ∀ e ∈ snapshot.values, World.ask storage i (.option e.1) w = (.ok e.2, w) := by
  obtain ⟨snapshot, captured, read⟩ := Snapshot.captureFrom_ok [] Isolation.watchedKeys
    (fun key => (h.reads key).imp fun _ => And.left) nofun
  refine ⟨snapshot, ?_, read⟩
  have current : World.ask storage i .currentNamespace w = (.ok baseName, w) := by
    simp only [World.ask, h.here]
  have creating : World.ask storage i (.createNamespace name) w =
      (.ok (), { w with store := made }) := by
    simp only [World.ask, show storage.create name w.store = .ok made from created]
  have entering := World.ask_switchTo storage i (w := { w with store := made })
    (enter_created created)
  have adding := World.run_addAll_switched storage i (w := { w with store := made })
    h.fresh.opened.1 name (Isolation.overrides basename theme)
  simp only [Isolation.setup, Isolation.enter, Snapshot.capture, Program.run_bind, captured,
    Program.run_ask, current, creating, entering, Program.run_pure, adding]
  rfl

/-- In its own namespace the session reads its overrides and nothing else. -/
theorem reads_own (h : Arrived i w) (created : w.store.create name = .ok made)
    {values : List (String × Json)} (distinct : (values.map Prod.fst).Nodup) (key : String) :
    World.ask storage i (.option key) (World.added { w with store := made } i name values) =
      (.ok (values.lookup key), World.added { w with store := made } i name values) := by
  obtain ⟨-, entries, -⟩ := create_ok created
  have session : (World.added { w with store := made } i name values).session i =
      ⟨name, (w.session i).overrides.addAll values⟩ :=
    World.session_setSession i h.fresh.opened.1 _
  have unset : (w.session i).overrides.get? key = none := by
    simp [Overrides.get?, h.fresh.none]
  have empty : made.namespaces.lookup name = some [] := by
    rw [entries, Entries.lookup_put, if_pos rfl]
  have store : (World.added { w with store := made } i name values).store = made := rfl
  simp only [World.ask, session, Overrides.get?_addAll distinct, unset, Option.or_none, store,
    storage, read, empty]
  cases values.lookup key <;> rfl

theorem leave_ok (i : Nat) {former : String} (name : String)
    (there : former ∈ u.store.namespaces.map Prod.fst)
    (droppable : u.store.refusesDropping = false) :
    ((Isolation.leave former name).run (World.ask storage i) u).1 = [] := by
  have switched := World.ask_switchTo storage i (enter_ok there)
  have store : (u.setSession i { u.session i with current := former }).store = u.store := rfl
  simp only [Isolation.leave, Program.run_ask, switched]
  simp only [World.ask, storage, store, drop, droppable, Bool.false_eq_true, if_false,
    Program.run_pure]

/-- A world that looks as it did when the snapshot was taken has not diverged from it. -/
theorem verify_ok (h : Arrived i w) (same : u.visible look = w.visible look) {snapshot : Snapshot}
    (read : ∀ e ∈ snapshot.values, World.ask storage i (.option e.1) w = (.ok e.2, w)) :
    ((Isolation.verify snapshot).run (World.ask storage i) u).1 = [] := by
  have comparable : ∀ e ∈ snapshot.values, Json.sameOption e.2 e.2 := by
    intro e member
    obtain ⟨value, got, equal⟩ := h.reads e.1
    rw [read e member] at got
    cases got
    exact equal
  have unchanged := Snapshot.divergingFrom_nil
    (fun e member => reads_alike same (read e member)) comparable
  simp only [Isolation.verify, Snapshot.diverging, Program.run_bind, unchanged, Program.run_pure]

theorem run_undo (h : Arrived i w) (created : w.store.create name = .ok made)
    {values : List (String × Json)}
    (same : u.visible look = (World.added { w with store := made } i name values).visible look)
    {snapshot : Snapshot}
    (read : ∀ e ∈ snapshot.values, World.ask storage i (.option e.1) w = (.ok e.2, w)) :
    let undone := (Isolation.undo (List.range' (w.session i).overrides.nextId values.length)
      baseName name snapshot).run (World.ask storage i) u
    undone.1 = .ok () ∧ undone.2.visible look = w.visible look := by
  obtain ⟨-, entries, droppable⟩ := create_ok created
  have placed : (w.session i).current ∈ w.store.namespaces.map Prod.fst := by
    rw [h.here]
    exact (has_iff _ _).mp h.hospitable.has
  have restored := undo_restores h.fresh created placed same snapshot
  have removed : look ((Preparation.removeAll (List.range' (w.session i).overrides.nextId
      values.length)).run (World.ask storage i) u).2.store = look made :=
    congrArg Visible.store (World.run_removeAll_added storage i (w := { w with store := made })
      h.fresh.opened.1 h.fresh.opened.2 same)
  rw [h.here] at restored placed
  rw [Isolation.run_undo] at restored ⊢
  generalize ((Preparation.removeAll (List.range' (w.session i).overrides.nextId
    values.length)).run (World.ask storage i) u).2 = v at removed restored ⊢
  have namespaces : v.store.namespaces = Entries.put name [] w.store.namespaces :=
    (congrArg Prod.fst removed).trans entries
  have there : baseName ∈ v.store.namespaces.map Prod.fst := by
    rw [namespaces]
    exact Entries.mem_keys_put.mpr (.inr placed)
  have drops : v.store.refusesDropping = false :=
    (congrArg Prod.snd removed).trans (droppable.trans h.hospitable.dropping)
  have left := leave_ok i name there drops
  simp only [World.run_reads storage i (Isolation.verify_reads snapshot)] at restored ⊢
  generalize (Isolation.leave baseName name).run (World.ask storage i) v = leaving at left restored ⊢
  refine ⟨?_, restored⟩
  rw [left, verify_ok h restored read]
  rfl

end MemoryStore

theorem Program.Avoids.inStep {α : Type} {forbidden : StepCall → Prop} {p : Program hostCalls α}
    (avoids : p.Avoids fun c : HostCall => forbidden (.host c)) : p.inStep.Avoids forbidden := by
  induction p with
  | done a => exact True.intro
  | ask c next ih => exact ⟨avoids.1, fun answer => ih answer (avoids.2 answer)⟩

namespace Visit

open MemoryStore

variable {first n : Nat} {names : Fin n → String} {i : Fin n}

theorem stays_apart {c : HostCall} (stays : c.Stays) : KeepsApart names i (.host c) := by
  cases c with
  | createNamespace name => cases stays
  | switchTo name => cases stays
  | dropNamespace name => cases stays
  | currentNamespace => exact True.intro
  | option key => exact True.intro
  | addOverride key value => exact True.intro
  | removeOverride id => exact True.intro
  | overrides => exact True.intro

theorem strays_apart (c : HostCall) (strays : ¬KeepsApart names i (.host c)) : ¬c.Stays :=
  fun stays => strays (stays_apart stays)

theorem setup_apart (distinct : Function.Injective names) {name : String} (named : name = names i)
    (basename theme : String) : (Isolation.setup basename name theme).Avoids
      fun c : HostCall => ¬KeepsApart names i (.host c) := by
  subst named
  have own : KeepsApart names i (.host (.switchTo (names i))) := open_own distinct i
  exact Isolation.setup_avoids strays_apart (fun strays => strays rfl) (fun strays => strays own)
    (fun strays => strays rfl) basename theme

theorem undo_apart {former name : String} (home : Open names i former) (named : name = names i)
    (ids : List Nat) (snapshot : Snapshot) : (Isolation.undo ids former name snapshot).Avoids
      fun c : HostCall => ¬KeepsApart names i (.host c) := by
  subst named
  exact Isolation.undo_avoids strays_apart (fun strays => strays home) (fun strays => strays rfl)
    ids snapshot

theorem calls_apart {α : Type} {p : Program hostCalls α}
    (avoids : p.Avoids fun c : HostCall => ¬KeepsApart names i (.host c))
    {answer : (c : StepCall) → Run.Scene (World MemoryStore) → c.Answer × Run.Scene (World MemoryStore)}
    (s : Run.Scene (World MemoryStore)) : ∀ c ∈ p.inStep.calls answer s, KeepsApart names i c := by
  have avoided : p.inStep.Avoids fun c : StepCall => ¬KeepsApart names i c := .inStep avoids
  exact fun c member => Classical.not_not.mp (Program.calls_avoid answer avoided s c member)

section

variable {session : Nat} {w : World MemoryStore} {store : MemoryStore} {v : Visit}
  {trace : List Event}

theorem set_up (h : Arrived session w) (created : w.store.create v.name = .ok store)
    (trace : List Event) : ∃ (snapshot : Snapshot) (later : List Event),
    (Isolation.preparation v.basename v.name v.theme).setup.run
        (Run.answerStep storage.host session) (w, trace) =
      (.ok (Isolation.cleanup (List.range' (w.session session).overrides.nextId v.overrides.length)
        baseName v.name snapshot), World.added { w with store } session v.name v.overrides, later) ∧
      ∀ e ∈ snapshot.values, World.ask storage session (.option e.1) w = (.ok e.2, w) := by
  obtain ⟨snapshot, set, read⟩ := run_setup h v.basename v.theme created
  obtain ⟨result, world⟩ := Preparation.run_inStep storage.host session
    (Isolation.setup v.basename v.name v.theme) (w, trace)
  rw [show (Isolation.setup v.basename v.name v.theme).run (storage.host.ask session) (w, trace).1 =
    _ from set] at result world
  exact ⟨snapshot, _, Prod.ext result (Prod.ext world rfl), read⟩

theorem read_all (h : Arrived session w) (created : w.store.create v.name = .ok store)
    (trace : List Event) : ∃ later : List Event,
    (readAll v.keys).inStep.run (Run.answerStep storage.host session)
        (World.added { w with store } session v.name v.overrides, trace) =
      (v.keys.map fun key => .ok (v.overrides.lookup key),
        World.added { w with store } session v.name v.overrides, later) := by
  have distinct : (v.overrides.map Prod.fst).Nodup := by
    simp only [Visit.overrides, Isolation.overrides, List.map_cons, List.map_nil]
    decide
  have reading : (readAll v.keys).run (storage.host.ask session) _ = _ :=
    run_readAll (reads_own h created distinct) v.keys
  obtain ⟨result, world⟩ := Preparation.run_inStep storage.host session (readAll v.keys)
    (World.added { w with store } session v.name v.overrides, trace)
  rw [reading] at result world
  exact ⟨_, Prod.ext result (Prod.ext world rfl)⟩

/-- What a visit comes to if no other session makes a call. -/
theorem run_alone (h : Arrived session w) (created : w.store.create v.name = .ok store)
    (trace : List Event) :
    let ended := v.program.run (Run.answerStep storage.host session) (w, trace)
    ended.1 = .ok v.undisturbed ∧ ended.2.1.visible look = w.visible look := by
  obtain ⟨snapshot, later, set, read⟩ := set_up h created trace
  obtain ⟨latest, reading⟩ := read_all h created later
  obtain ⟨result, world⟩ := Preparation.run_inStep storage.host session
    (Isolation.undo (List.range' (w.session session).overrides.nextId v.overrides.length)
      baseName v.name snapshot) (World.added { w with store } session v.name v.overrides, latest)
  obtain ⟨undone, restored⟩ := run_undo h created rfl read
  simp only [Visit.program, Program.run_bind, set, reading, Isolation.cleanup_undo,
    Program.run_pure]
  refine ⟨?_, (congrArg (World.visible look) world).trans restored⟩
  rw [result]
  exact congrArg (fun told => Except.ok (Account.mk _ told)) undone

theorem calls_alone (distinct : Function.Injective names) (home : Open names i baseName)
    (named : v.name = names i) (h : Arrived session w)
    (created : w.store.create v.name = .ok store) (trace : List Event) :
    ∀ c ∈ v.program.calls (Run.answerStep storage.host session) (w, trace),
      KeepsApart names i c := by
  obtain ⟨snapshot, later, set, -⟩ := set_up h created trace
  obtain ⟨latest, reading⟩ := read_all h created later
  intro c member
  simp only [Visit.program, Program.calls_bind, set, reading, Isolation.cleanup_undo,
    List.mem_append] at member
  rcases member with setting | reads | undoing | nothing
  · exact calls_apart (setup_apart distinct named v.basename v.theme) _ c setting
  · exact calls_apart (Isolation.avoids_of_reads strays_apart (readAll_reads v.keys)) _ c reads
  · exact calls_apart (undo_apart home named _ snapshot) _ c undoing
  · cases nothing

end

end Visit

end PluginAudit
