import PluginAudit.Host.Call
import PluginAudit.Host.Overrides

/-!
Sessions over a shared store. A session has a current namespace and overrides of its own; the
namespaces with their options are shared.
-/

namespace PluginAudit

/-- What a store of namespaces does. A refused call leaves the store as it is. -/
structure Storage (σ : Type) where
  base : σ → String
  /-- Whether a session can be opened. -/
  ready : σ → Except HostRefusal Unit
  create : (name : String) → σ → Except HostRefusal σ
  enter : (name : String) → σ → Except HostRefusal Unit
  drop : (current name : String) → σ → Except HostRefusal σ
  read : (current key : String) → σ → Except HostRefusal (Option Json)
  /-- Whether other work goes on while the store is asked. -/
  suspends : Bool

structure Session where
  current : String
  overrides : Overrides

/-- A loader that gives its outcomes in turn, the last one again and again. -/
structure Loader where
  outcomes : List Load.Outcome
  requests : List Load.Request

namespace Loader

def next (l : Loader) : Load.Outcome :=
  match l.outcomes[l.requests.length]? with
  | some o => o
  | none => l.outcomes.getLast?.getD ⟨0, .ok .empty⟩

def load (l : Loader) (request : Load.Request) : Load.Outcome × Loader :=
  (l.next, { l with requests := l.requests ++ [request] })

end Loader

/-- A store with its sessions in the order of their opening, and a loader. -/
structure World (σ : Type) where
  store : σ
  sessions : List Session
  loader : Loader

namespace World

variable {σ : Type}

def session (w : World σ) (i : Nat) : Session := w.sessions[i]?.getD ⟨"", .empty⟩

def setSession (w : World σ) (i : Nat) (s : Session) : World σ :=
  { w with sessions := w.sessions.set i s }

def connect (storage : Storage σ) (w : World σ) : Except HostRefusal Nat × World σ :=
  match storage.ready w.store with
  | .ok () =>
    (.ok w.sessions.length,
      { w with sessions := w.sessions ++ [⟨storage.base w.store, .empty⟩] })
  | .error e => (.error e, w)

def ask (storage : Storage σ) (i : Nat) (c : HostCall) (w : World σ) : c.Answer × World σ :=
  let s := w.session i
  match c with
  | .currentNamespace => (.ok s.current, w)
  | .createNamespace name =>
    match storage.create name w.store with
    | .ok store => (.ok (), { w with store })
    | .error e => (.error e, w)
  | .switchTo name =>
    match storage.enter name w.store with
    | .ok () => (.ok (), w.setSession i { s with current := name })
    | .error e => (.error e, w)
  | .dropNamespace name =>
    match storage.drop s.current name w.store with
    | .ok store => (.ok (), { w with store })
    | .error e => (.error e, w)
  | .option key =>
    match s.overrides.get? key with
    | some v => (.ok (some v), w)
    | none => (storage.read s.current key w.store, w)
  | .addOverride key value =>
    (s.overrides.nextId, w.setSession i { s with overrides := s.overrides.add key value })
  | .removeOverride id =>
    (s.overrides.holds id, w.setSession i { s with overrides := s.overrides.remove id })
  | .overrides => (s.overrides.snapshot, w)

def load (_ : Nat) (request : Load.Request) (w : World σ) : Load.Outcome × World σ :=
  let (outcome, loader) := w.loader.load request
  (outcome, { w with loader })

def suspends (storage : Storage σ) (i : Nat) (c : HostCall) (w : World σ) : Bool :=
  storage.suspends &&
    match c with
    | .createNamespace _ | .switchTo _ | .dropNamespace _ => true
    | .option key => ((w.session i).overrides.get? key).isNone
    | _ => false

end World

def Storage.host {σ : Type} (storage : Storage σ) : Host (World σ) where
  connect := World.connect storage
  ask := World.ask storage
  load := World.load
  suspends := World.suspends storage

end PluginAudit
