import PluginAudit.Proofs.Sessions
import PluginAudit.Proofs.Spelling

/-!
What can be done with a database and its sessions, and which tables the dropping of a namespace
takes away. A table is lost under another spelling of its name, even if it is the base namespace's
or that of the session.
-/

namespace PluginAudit

def HostCall.refusal? : (c : HostCall) → c.Answer → Option HostRefusal
  | .currentNamespace, .error e => some e
  | .createNamespace _, .error e => some e
  | .switchTo _, .error e => some e
  | .dropNamespace _, .error e => some e
  | .option _, .error e => some e
  | _, _ => none

namespace Database

/-- What can be done with a database: a migration, the opening of a session, a call of a session,
and the storing of an option. -/
inductive Call where
  | migrate (base : String)
  | connect
  | ask (session : Nat) (c : HostCall)
  | update (name key : String) (value : Json)

/-- Does what is called for. If it is refused, the refusal is told. -/
def answer : Call → World Database → Option HostRefusal × World Database
  | .migrate base, w =>
    match w.store.migrate base with
    | .ok store => (none, { w with store })
    | .error e => (some e, w)
  | .connect, w =>
    match World.connect storage w with
    | (.ok _, w) => (none, w)
    | (.error e, w) => (some e, w)
  | .ask i c, w =>
    let (a, w) := World.ask storage i c w
    (c.refusal? a, w)
  | .update name key value, w =>
    match w.store.update name key value with
    | .ok store => (none, { w with store })
    | .error e => (some e, w)

def after (calls : List Call) (w : World Database) : World Database :=
  calls.foldl (fun w call => (answer call w).2) w

inductive Change (d : Database) : Call → Database → Prop
  | migrated {base : String} {e : Database} (h : d.migrate base = .ok e) :
      Change d (.migrate base) e
  | created {i : Nat} {name : String} {e : Database} (h : d.create name = .ok e) :
      Change d (.ask i (.createNamespace name)) e
  | dropped {i : Nat} {current name : String} {e : Database} (h : d.drop current name = .ok e) :
      Change d (.ask i (.dropNamespace name)) e
  | updated {name key : String} {value : Json} {e : Database}
      (h : d.update name key value = .ok e) : Change d (.update name key value) e
  | notUpdated {name key : String} {value : Json} {cause : HostRefusal}
      (h : d.update name key value = .error cause) : Change d (.update name key value) d
  | none {call : Call} (h : ∀ name key value, call ≠ .update name key value) : Change d call d

theorem answer_change (call : Call) (w : World Database) :
    Change w.store call (answer call w).2.store := by
  cases call with
  | migrate base =>
    simp only [answer]
    split
    · rename_i store migrated
      exact .migrated migrated
    · exact .none (by simp)
  | connect =>
    simp only [answer, World.connect]
    cases storage.ready w.store with
    | ok _ => exact .none (by simp)
    | error e => exact .none (by simp)
  | update name key value =>
    simp only [answer]
    split
    · rename_i store updated
      exact .updated updated
    · rename_i e refused
      exact .notUpdated refused
  | ask i c =>
    cases c with
    | createNamespace name =>
      simp only [answer, World.ask]
      cases created : storage.create name w.store with
      | ok store => exact .created created
      | error e => exact .none (by simp)
    | dropNamespace name =>
      simp only [answer, World.ask]
      cases dropped : storage.drop (w.session i).current name w.store with
      | ok store => exact .dropped dropped
      | error e => exact .none (by simp)
    | switchTo name =>
      simp only [answer, World.ask]
      cases storage.enter name w.store with
      | ok _ => exact .none (by simp)
      | error e => exact .none (by simp)
    | option key =>
      have unchanged : (World.ask storage i (.option key) w).2 = w :=
        World.ask_reads storage i (c := .option key) True.intro w
      simp only [answer, unchanged]
      exact .none (by simp)
    | currentNamespace => exact .none (by simp)
    | addOverride key value => exact .none (by simp)
    | removeOverride id => exact .none (by simp)
    | overrides => exact .none (by simp)

/-- Tables have the names of namespaces, and there are none before the migration. -/
structure Sound (d : Database) : Prop where
  named : ∀ t ∈ d.tables, ∃ name, t.name = tableName name ∧ Namespace.check name = .ok () ∧
    checkToken (tableName name) = .ok ()
  migrated : d.tables ≠ [] → d.migrated = true

theorem Sound.added {d : Database} (sound : Sound d) {name : String}
    (valid : Namespace.check name = .ok ()) (token : checkToken (tableName name) = .ok ()) :
    ∀ t ∈ d.tables ++ [⟨tableName name, []⟩], ∃ name, t.name = tableName name ∧
      Namespace.check name = .ok () ∧ checkToken (tableName name) = .ok () := by
  intro t member
  rcases List.mem_append.mp member with old | new
  · exact sound.named t old
  · rw [List.mem_singleton.mp new]
    exact ⟨name, rfl, valid, token⟩

theorem Change.sound {d e : Database} {call : Call} (change : Change d call e) (sound : Sound d) :
    Sound e := by
  cases change with
  | migrated h =>
    rcases migrate_ok h with ⟨rfl, -⟩ | ⟨valid, token, -, -, ⟨-, rfl⟩ | ⟨-, rfl⟩⟩
    · exact sound
    · exact ⟨sound.named, fun _ => rfl⟩
    · exact ⟨sound.added valid token, fun _ => rfl⟩
  | created h =>
    obtain ⟨valid, -, token, -, migrated, -, rfl⟩ := create_ok h
    exact ⟨sound.added valid token, fun _ => migrated⟩
  | dropped h =>
    obtain ⟨-, -, -, -, migrated, rfl⟩ := drop_eq_ok.mp h
    exact ⟨fun t member => sound.named t (List.mem_filter.mp member).1, fun _ => migrated⟩
  | updated h =>
    obtain ⟨-, t, -, -, rfl⟩ := update_eq_ok.mp h
    refine ⟨fun u member => ?_, fun some => sound.migrated (by simpa using some)⟩
    obtain ⟨v, old, rfl⟩ := List.mem_map.mp member
    split
    · exact sound.named v old
    · exact sound.named v old
  | notUpdated h => exact sound
  | none h => exact sound

/-- A database without tables, as it is before its migration, and no session. -/
def blank (base : String) (readOnly : Bool) (loader : Loader) : World Database :=
  ⟨{ Database.empty base with readOnly }, [], loader⟩

theorem after_sound (calls : List Call) {w : World Database} (sound : Sound w.store) :
    Sound (after calls w).store := by
  induction calls generalizing w with
  | nil => exact sound
  | cons call rest ih => exact ih ((answer_change call w).sound sound)

theorem Sound.valid_of_found {d : Database} (sound : Sound d) {name : String}
    (there : (d.find? (tableName name)).isSome) :
    Namespace.check name = .ok () ∧ checkToken (tableName name) = .ok () ∧ d.migrated = true := by
  obtain ⟨t, found⟩ := Option.isSome_iff_exists.mp there
  obtain ⟨member, matched⟩ := find?_spec found
  obtain ⟨n, named, valid, token⟩ := sound.named t member
  rw [named, same_tableName] at matched
  exact ⟨(Namespace.check_respelled matched).mp valid, (checkToken_respelled matched).mp token,
    sound.migrated (List.ne_nil_of_mem member)⟩

/-- Whether `p` is a spelling of `q`, but not the name of the base namespace nor of the one that
the session is in. -/
def Respells (w : World Database) (i : Nat) (p q : String) : Prop :=
  p.sameIgnoringCase q ∧ p ≠ w.store.base ∧ p ≠ (w.session i).current

theorem drop_respelled {w : World Database} (sound : Sound w.store) {i : Nat} {p q : String}
    (there : (w.store.find? (tableName q)).isSome) (respelled : Respells w i p q) :
    ∃ e, w.store.drop (w.session i).current p = .ok e := by
  obtain ⟨same, notBase, notCurrent⟩ := respelled
  rw [← find?_respelled w.store same] at there
  obtain ⟨valid, token, migrated⟩ := sound.valid_of_found there
  exact ⟨_, drop_eq_ok.mpr ⟨valid, notBase, notCurrent.symm, token, migrated, rfl⟩⟩

/-- A session's attempt to drop a namespace takes away exactly the tables that it respells. -/
theorem find?_after_drop {w : World Database} (sound : Sound w.store) (i : Nat) (p q : String) :
    (World.ask storage i (.dropNamespace p) w).2.store.find? (tableName q) =
        w.store.find? (tableName q) ↔
      ¬((w.store.find? (tableName q)).isSome ∧ Respells w i p q) := by
  simp only [World.ask]
  cases dropped : storage.drop (w.session i).current p w.store with
  -- A refusal keeps everything, so no table that is there can be respelled.
  | error cause =>
    refine ⟨fun _ lost => ?_, fun _ => rfl⟩
    obtain ⟨there, respelled⟩ := lost
    obtain ⟨e, succeeds⟩ := drop_respelled sound there respelled
    cases succeeds.symm.trans dropped
  | ok e =>
    have same := drop_find? dropped q
    obtain ⟨-, notBase, notCurrent, -⟩ := drop_eq_ok.mp dropped
    rw [same]
    split
    · rename_i spelled
      cases found : w.store.find? (tableName q) with
      | none => simp
      | some t => simp [Respells, spelled, notBase, notCurrent.symm]
    · rename_i other
      simp [Respells, other]

/-- In every database that migrations and calls can lead to, the options tables of the base
namespace and of the namespace that a session is in are kept when the session drops a namespace,
unless its name is another spelling of theirs. -/
theorem drop_keeps_iff (base : String) (readOnly : Bool) (loader : Loader) (calls : List Call)
    (i : Nat) (p : String) :
    let w := after calls (blank base readOnly loader)
    let left := (World.ask storage i (.dropNamespace p) w).2.store
    let kept := fun q => left.find? (tableName q) = w.store.find? (tableName q)
    let respelled := fun q => (w.store.find? (tableName q)).isSome ∧ Respells w i p q
    (kept w.store.base ↔ ¬respelled w.store.base) ∧
      (kept (w.session i).current ↔ ¬respelled (w.session i).current) := by
  intro w left kept respelled
  have blankSound : Sound (blank base readOnly loader).store :=
    ⟨fun t member => absurd member List.not_mem_nil, fun some => absurd rfl some⟩
  have sound := after_sound calls blankSound
  exact ⟨find?_after_drop sound i p _, find?_after_drop sound i p _⟩

def visited : World Database :=
  after [.migrate "wp_", .connect, .update "wp_" "template" (.str "twentytwenty"),
    .ask 0 (.createNamespace "wppc_a_"), .ask 0 (.switchTo "wppc_a_")]
    (blank "wp_" false ⟨[], []⟩)

theorem drop_loses_respelled :
    (visited.store.find? "wp_options").isSome ∧ (visited.store.find? "wppc_a_options").isSome ∧
      (World.ask storage 0 (.dropNamespace "WP_") visited).2.store.find? "wp_options" ≠
        visited.store.find? "wp_options" ∧
      (World.ask storage 0 (.dropNamespace "WPPC_A_") visited).2.store.find? "wppc_a_options" ≠
        visited.store.find? "wppc_a_options" := by
  have base : (visited.store.find? "wp_options").isSome ∧ Respells visited 0 "WP_" "wp_" := by
    unfold Respells
    decide +kernel
  have current : (visited.store.find? "wppc_a_options").isSome ∧
      Respells visited 0 "WPPC_A_" "wppc_a_" := by
    unfold Respells
    decide +kernel
  refine ⟨base.1, current.1, fun kept => ?_, fun kept => ?_⟩
  · exact (drop_keeps_iff "wp_" false ⟨[], []⟩ _ 0 "WP_").1.mp kept base
  · exact (drop_keeps_iff "wp_" false ⟨[], []⟩ _ 0 "WPPC_A_").2.mp kept current

end Database

end PluginAudit
