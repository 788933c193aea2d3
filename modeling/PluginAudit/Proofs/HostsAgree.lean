import Mathlib.Data.List.Permutation
import PluginAudit.Proofs.MirrorStores

/-!
The host that keeps its namespaces in memory and the one with a database agree. Whatever sessions
do on both, they are answered the same, as long as they name namespaces that both take for one and
the same and drop none in which a session is.
-/

namespace PluginAudit

/-- What can be done with sessions: one is opened, or one is asked. -/
inductive SessionStep where
  | connect
  | ask (session : Nat) (c : HostCall)

abbrev SessionStep.Answer : SessionStep → Type
  | .connect => Except HostRefusal Nat
  | .ask _ c => c.Answer

namespace Host

variable {σ : Type}

def perform (host : Host σ) : (step : SessionStep) → σ → step.Answer × σ
  | .connect, s => host.connect s
  | .ask i c, s => host.ask i c s

/-- The answers to steps, one after another. -/
def replies (host : Host σ) : List SessionStep → σ → List (Σ step : SessionStep, step.Answer)
  | [], _ => []
  | step :: rest, s =>
    ⟨step, (host.perform step s).1⟩ :: host.replies rest (host.perform step s).2

end Host

namespace Database

open Namespace

variable {v : World MemoryStore} {w : World Database} {i : Nat}

/-- The sessions are the same, each in a namespace that is there, and so are the namespaces. -/
structure Alike (v : World MemoryStore) (w : World Database) : Prop where
  sessions : v.sessions = w.sessions
  stores : Mirrors v.store w.store
  placed : ∀ s ∈ v.sessions, Plain s.current ∧ v.store.has s.current = true

/-- The call names a namespace with a plain name. What is dropped is not the base namespace, and no
session is in it. -/
def Suits (v : World MemoryStore) : HostCall → Prop
  | .createNamespace name | .switchTo name => Plain name
  | .dropNamespace name => Plain name ∧ name ≠ MemoryStore.baseName ∧
      ∀ s ∈ v.sessions, s.current ≠ name
  | _ => True

instance suitsDecidable (v : World MemoryStore) : (c : HostCall) → Decidable (Suits v c)
  | .createNamespace name | .switchTo name => inferInstanceAs (Decidable (Plain name))
  | .dropNamespace name => inferInstanceAs (Decidable (Plain name ∧ name ≠ MemoryStore.baseName ∧
      ∀ s ∈ v.sessions, s.current ≠ name))
  | .currentNamespace | .option _ | .addOverride _ _ | .removeOverride _ | .overrides =>
    inferInstanceAs (Decidable True)

/-- A session is opened, or one that is open is asked. -/
def Permitted (v : World MemoryStore) : SessionStep → Prop
  | .connect => True
  | .ask i c => i < v.sessions.length ∧ Suits v c

instance permittedDecidable (v : World MemoryStore) :
    (step : SessionStep) → Decidable (Permitted v step)
  | .connect => inferInstanceAs (Decidable True)
  | .ask i c => inferInstanceAs (Decidable (i < v.sessions.length ∧ Suits v c))

def AllPermitted : List SessionStep → World MemoryStore → Prop
  | [], _ => True
  | step :: rest, v =>
    Permitted v step ∧ AllPermitted rest (MemoryStore.storage.host.perform step v).2

instance allPermittedDecidable : (steps : List SessionStep) → (v : World MemoryStore) →
    Decidable (AllPermitted steps v)
  | [], _ => inferInstanceAs (Decidable True)
  | step :: rest, v =>
    have := allPermittedDecidable rest (MemoryStore.storage.host.perform step v).2
    inferInstanceAs (Decidable (Permitted v step ∧
      AllPermitted rest (MemoryStore.storage.host.perform step v).2))

/-- The step is answered the same, and what comes of it is alike. -/
def Agrees (v : World MemoryStore) (w : World Database) (step : SessionStep) : Prop :=
  (MemoryStore.storage.host.perform step v).1 = (storage.host.perform step w).1 ∧
    Alike (MemoryStore.storage.host.perform step v).2 (storage.host.perform step w).2

theorem baseName_plain : Plain MemoryStore.baseName := by decide +kernel

namespace Alike

theorem session (h : Alike v w) (i : Nat) : v.session i = w.session i := by
  rw [World.session, World.session, h.sessions]

theorem session_mem (bound : i < v.sessions.length) : v.session i ∈ v.sessions := by
  simp [World.session, bound]

theorem setSession (h : Alike v w) {s : Session} (plain : Plain s.current)
    (there : v.store.has s.current = true) : Alike (v.setSession i s) (w.setSession i s) where
  sessions := by simp only [World.setSession, h.sessions]
  stores := h.stores
  placed := by
    intro t member
    rcases List.mem_or_eq_of_mem_set member with old | rfl
    · exact h.placed t old
    · exact ⟨plain, there⟩

theorem connect (h : Alike v w) : Agrees v w .connect := by
  obtain ⟨rows, inStep⟩ := h.stores.inStep
  have there : w.store.has w.store.base = true := inStep.has_of_mem List.mem_cons_self
  have ready : storage.ready w.store = .ok () := by
    simp [storage, Database.ready, there]
  have base : v.store.has MemoryStore.baseName = true := by
    rw [← h.stores.has baseName_plain.lower, ← h.stores.base]
    exact there
  have opened : storage.host.perform .connect w = (.ok w.sessions.length,
      { w with sessions := w.sessions ++ [⟨w.store.base, .empty⟩] }) := by
    simp only [Host.perform, Storage.host, World.connect, ready]
    rfl
  have inMemory : MemoryStore.storage.host.perform .connect v = (.ok v.sessions.length,
      { v with sessions := v.sessions ++ [⟨MemoryStore.baseName, .empty⟩] }) := rfl
  rw [Agrees, opened, inMemory, h.sessions, h.stores.base]
  refine ⟨rfl, rfl, h.stores, fun s member => ?_⟩
  rcases List.mem_append.mp member with old | new
  · exact h.placed s (h.sessions ▸ old)
  · rw [List.mem_singleton.mp new]
    exact ⟨baseName_plain, base⟩

/-- Both stores refuse a call for the same reason, or both have become stores that are alike. -/
theorem stored (h : Alike v w) {a : Except HostRefusal MemoryStore}
    {b : Except HostRefusal Database} (matched : Matched Mirrors a b)
    (kept : ∀ store, a = .ok store → ∀ s ∈ v.sessions, store.has s.current = true) :
    (∃ cause, a = .error cause ∧ b = .error cause) ∨
      ∃ store database, a = .ok store ∧ b = .ok database ∧
        Alike { v with store } { w with store := database } := by
  cases a with
  | error cause =>
    cases b with
    | error other => exact .inl ⟨cause, rfl, congrArg Except.error (Eq.symm matched)⟩
    | ok database => cases matched
  | ok store =>
    cases b with
    | error other => cases matched
    | ok database =>
      refine .inr ⟨store, database, rfl, rfl, h.sessions, matched, fun s member => ?_⟩
      exact ⟨(h.placed s member).1, kept store rfl s member⟩

theorem create (h : Alike v w) {name : String} (plain : Plain name) :
    Agrees v w (.ask i (.createNamespace name)) := by
  have kept : ∀ store, v.store.create name = .ok store →
      ∀ s ∈ v.sessions, store.has s.current = true := by
    intro store created s member
    obtain ⟨-, entries, -⟩ := MemoryStore.create_ok created
    rw [MemoryStore.has_iff, entries, Entries.mem_keys_put]
    exact .inr ((MemoryStore.has_iff _ _).mp (h.placed s member).2)
  simp only [Agrees, Host.perform, Storage.host, World.ask, MemoryStore.storage, storage]
  rcases h.stored (h.stores.create plain) kept with ⟨cause, memory, database⟩ |
    ⟨store, created, memory, database, alike⟩
  · rw [memory, database]
    exact ⟨rfl, h⟩
  · rw [memory, database]
    exact ⟨rfl, alike⟩

theorem switch (h : Alike v w) {name : String} (plain : Plain name) :
    Agrees v w (.ask i (.switchTo name)) := by
  have entered := h.stores.enter plain
  simp only [Agrees, Host.perform, Storage.host, World.ask, MemoryStore.storage, storage, ← entered,
    ← h.session]
  cases there : v.store.has name with
  | false =>
    simp only [MemoryStore.enter, there]
    exact ⟨rfl, h⟩
  | true =>
    simp only [MemoryStore.enter, there]
    exact ⟨rfl, h.setSession plain there⟩

theorem drop (h : Alike v w) {name : String} (plain : Plain name)
    (notBase : name ≠ MemoryStore.baseName) (vacant : ∀ s ∈ v.sessions, s.current ≠ name)
    (bound : i < v.sessions.length) : Agrees v w (.ask i (.dropNamespace name)) := by
  have elsewhere : (v.session i).current ≠ name := vacant _ (session_mem bound)
  have kept : ∀ store, v.store.drop (v.session i).current name = .ok store →
      ∀ s ∈ v.sessions, store.has s.current = true := by
    intro store dropped s member
    simp only [MemoryStore.drop, h.stores.drops] at dropped
    cases dropped
    have there := (h.placed s member).2
    simp only [MemoryStore.has, Entries.lookup_erase, if_neg (vacant s member)] at there ⊢
    exact there
  simp only [Agrees, Host.perform, Storage.host, World.ask, MemoryStore.storage, storage,
    ← h.session]
  rcases h.stored (h.stores.drop plain notBase elsewhere) kept with ⟨cause, memory, database⟩ |
    ⟨store, left, memory, database, alike⟩
  · rw [memory, database]
    exact ⟨rfl, h⟩
  · rw [memory, database]
    exact ⟨rfl, alike⟩

theorem option (h : Alike v w) (bound : i < v.sessions.length) (key : String) :
    Agrees v w (.ask i (.option key)) := by
  obtain ⟨plain, there⟩ := h.placed _ (session_mem bound)
  have values := h.stores.read plain there key
  simp only [Agrees, Host.perform, Storage.host, World.ask, MemoryStore.storage, storage,
    ← h.session, ← values]
  split
  · exact ⟨rfl, h⟩
  · exact ⟨rfl, h⟩

theorem overriding (h : Alike v w) (bound : i < v.sessions.length)
    (change : Overrides → Overrides) :
    Alike (v.setSession i { v.session i with overrides := change (v.session i).overrides })
      (w.setSession i { w.session i with overrides := change (w.session i).overrides }) := by
  obtain ⟨plain, there⟩ := h.placed _ (session_mem bound)
  rw [← h.session]
  exact h.setSession plain there

theorem perform (h : Alike v w) {step : SessionStep} (permitted : Permitted v step) :
    Agrees v w step := by
  cases step with
  | connect => exact h.connect
  | ask i c =>
    obtain ⟨bound, named⟩ := permitted
    have session := h.session i
    cases c with
    | createNamespace name => exact h.create named
    | switchTo name => exact h.switch named
    | dropNamespace name => exact h.drop named.1 named.2.1 named.2.2 bound
    | option key => exact h.option bound key
    | currentNamespace =>
      exact ⟨congrArg (fun s : Session => Except.ok s.current) session, h⟩
    | overrides => exact ⟨congrArg (fun s : Session => s.overrides.snapshot) session, h⟩
    | addOverride key value =>
      have added := h.overriding bound (·.add key value)
      exact ⟨congrArg (fun s : Session => s.overrides.nextId) session, added⟩
    | removeOverride id =>
      have removed := h.overriding bound (·.remove id)
      exact ⟨congrArg (fun s : Session => s.overrides.holds id) session, removed⟩

theorem replies (h : Alike v w) {steps : List SessionStep} (permitted : AllPermitted steps v) :
    MemoryStore.storage.host.replies steps v = storage.host.replies steps w := by
  induction steps generalizing v w with
  | nil => rfl
  | cons step rest ih =>
    obtain ⟨first, others⟩ := permitted
    obtain ⟨answer, alike⟩ := h.perform first
    have later := ih alike others
    simp only [Host.replies, answer, later]

end Alike

/-- A store in memory with these options of the base namespace. -/
def inMemory (options : List (String × Json)) : MemoryStore :=
  ⟨[(MemoryStore.baseName, options)], [], [], false, false⟩

/-- What stores values under keys of the base namespace. -/
def storing (values : List (String × Json)) : List Call :=
  values.map fun v => .update MemoryStore.baseName v.1 v.2

/-- A migrated database, in whose base namespace options have been stored. -/
def withOptions (values : List (String × Json)) (loader : Loader) : World Database :=
  after (.migrate MemoryStore.baseName :: storing values) (blank MemoryStore.baseName false loader)

theorem update_keeps (name key : String) (value : Json) (w : World Database) :
    let u := (answer (.update name key value) w).2
    u.sessions = w.sessions ∧ u.store.registered = w.store.registered ∧
      u.store.readOnly = w.store.readOnly := by
  intro u
  cases updated : w.store.update name key value with
  | error cause =>
    have same : u = w := by simp only [u, answer, updated]
    rw [same]
    exact ⟨rfl, rfl, rfl⟩
  | ok store =>
    have changed : u = { w with store } := by simp only [u, answer, updated]
    obtain ⟨-, t, -, -, rfl⟩ := update_eq_ok.mp updated
    rw [changed]
    exact ⟨rfl, rfl, rfl⟩

theorem storing_keeps (values : List (String × Json)) (w : World Database) :
    let u := after (storing values) w
    u.sessions = w.sessions ∧ u.store.registered = w.store.registered ∧
      u.store.readOnly = w.store.readOnly := by
  induction values generalizing w with
  | nil => exact ⟨rfl, rfl, rfl⟩
  | cons v rest ih =>
    obtain ⟨sessions, registered, readOnly⟩ := update_keeps MemoryStore.baseName v.1 v.2 w
    obtain ⟨sessions', registered', readOnly'⟩ :=
      ih (answer (.update MemoryStore.baseName v.1 v.2) w).2
    exact ⟨sessions'.trans sessions, registered'.trans registered, readOnly'.trans readOnly⟩

theorem withOptions_alike {values options : List (String × Json)} {loader loader' : Loader}
    (same : ∀ key, (withOptions values loader').store.read MemoryStore.baseName key =
      .ok (options.lookup key)) :
    Alike ⟨inMemory options, [], loader⟩ (withOptions values loader') := by
  have migrated : withOptions values loader' = after (storing values) ⟨prepared, [], loader'⟩ := rfl
  have lower : ∀ call ∈ storing values, call.IsLower := by
    intro call member
    obtain ⟨v, -, rfl⟩ := List.mem_map.mp member
    exact baseName_plain.lower
  obtain ⟨-, start⟩ := migrate_inStep baseName_plain.lower (d := prepared) rfl
  obtain ⟨base, inStep⟩ := after_inStep lower (w := ⟨prepared, [], loader'⟩) start
  obtain ⟨sessions, registered, writable⟩ := storing_keeps values ⟨prepared, [], loader'⟩
  rw [← migrated] at base inStep sessions registered writable
  have named : (withOptions values loader').store.base = MemoryStore.baseName := base
  have token := inStep.token
  have found := inStep.base
  rw [named] at token found
  refine ⟨sessions.symm, ⟨base, writable, rfl, rfl, ⟨_, inStep⟩, fun name lower key => ?_⟩,
    fun s member => absurd member List.not_mem_nil⟩
  by_cases here : name = MemoryStore.baseName
  · have value := same key
    rw [read_found token found] at value
    rw [here, found, inMemory, Entries.lookup_cons, if_pos rfl]
    exact congrArg some (Except.ok.inj value).symm
  · have absent : (withOptions values loader').store.find? (tableName name) = none := by
      refine Option.not_isSome_iff_eq_none.mp fun there => here ?_
      rw [← inStep.has_eq lower] at there
      have listed := inStep.mem_of_has there
      rw [registered, named] at listed
      exact List.mem_singleton.mp listed
    rw [absent, inMemory, Entries.lookup_cons, if_neg here]
    rfl

/-- On a store in memory and on a database with the same options, every sequence of steps that
are permitted is answered the same. -/
theorem hosts_agree (values options : List (String × Json)) (loader loader' : Loader)
    (same : ∀ key, (withOptions values loader').store.read MemoryStore.baseName key =
      .ok (options.lookup key)) (steps : List SessionStep)
    (permitted : AllPermitted steps ⟨inMemory options, [], loader⟩) :
    MemoryStore.storage.host.replies steps ⟨inMemory options, [], loader⟩ =
      storage.host.replies steps (withOptions values loader') :=
  (withOptions_alike same).replies permitted

/-- The options of the store that is there at first. -/
def siteOptions : List (String × Json) := [
  ("active_plugins", .arr [.str "akismet/akismet.php", .str "hello.php"]),
  ("current_theme", .str "Twenty Twenty Child"),
  ("stylesheet", .str "twentytwenty-child"),
  ("template", .str "twentytwenty")]

def exchange : List SessionStep := [
  .connect, .connect, .ask 0 (.option "template"), .ask 0 (.createNamespace "wppc_a_"),
  .ask 1 (.createNamespace "wppc_a_"), .ask 0 (.switchTo "wppc_a_"), .ask 0 (.option "template"),
  .ask 1 (.switchTo "wppc_b_"), .ask 0 (.addOverride "template" (.str "plain")),
  .ask 0 (.option "template"), .ask 0 (.switchTo "wp_"), .ask 1 (.dropNamespace "wppc_a_"),
  .ask 1 (.dropNamespace "wppc_a_"), .ask 0 .overrides, .ask 0 (.removeOverride 0)]

theorem hosts_agree_exchange :
    MemoryStore.storage.host.replies exchange ⟨.initial false false, [], ⟨[], []⟩⟩ =
      storage.host.replies exchange (withOptions siteOptions ⟨[], []⟩) := by
  have permitted : AllPermitted exchange ⟨.initial false false, [], ⟨[], []⟩⟩ := by decide +kernel
  have table : ((withOptions siteOptions ⟨[], []⟩).store.find? (tableName MemoryStore.baseName)).map
      OptionTable.rows = some (siteOptions.map fun v => (v.1, v.2.compact)) := by decide +kernel
  have decoded : siteOptions.map (fun v => (v.1, decode v.2.compact)) = siteOptions := by cbv
  refine hosts_agree siteOptions siteOptions ⟨[], []⟩ ⟨[], []⟩ (fun key => ?_) exchange permitted
  obtain ⟨t, found, rows⟩ := Option.map_eq_some_iff.mp table
  rw [read_found baseName_plain.token found, rows, ← Entries.lookup_map, List.map_map]
  exact congrArg (fun options => Except.ok (options.lookup key)) decoded

end Database

end PluginAudit
