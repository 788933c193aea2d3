/-!
Cancellation of a run: a sender, and tokens that observe its signal. One who waits on a token looks
at the signal whenever it has changed, and waits for ever once the sender is gone without having
cancelled.
-/

namespace PluginAudit.Cancellation

structure Signal where
  value : Bool
  /-- The number of times the value has been sent. -/
  version : Nat
  hasSender : Bool

namespace Signal

def initial : Signal := ⟨false, 0, true⟩

/-- A signal that nobody can send any more. -/
def silent : Signal := ⟨false, 0, false⟩

def send (s : Signal) : Signal :=
  if s.hasSender then { s with value := true, version := s.version + 1 } else s

def dropSender (s : Signal) : Signal := { s with hasSender := false }

inductive News where
  | changed
  | none
  | closed

/-- A change is heard of even after the sender is gone. -/
def news (s : Signal) (seen : Nat) : News :=
  if s.version ≠ seen then .changed else if s.hasSender then .none else .closed

end Signal

/-- A token; it may belong to no sender, and it knows which version of the signal it saw last. -/
structure Token where
  hasSource : Bool
  seen : Nat

namespace Token

def never : Token := ⟨false, 0⟩

def source (t : Token) (s : Signal) : Signal := if t.hasSource then s else .silent

def isCancelled (t : Token) (s : Signal) : Bool := (t.source s).value

/-- Waits on a token: it looks at the signal, and looks again as long as there is news and it has
looks left. Without news it goes on waiting, and for ever if the sender is gone. -/
def pollFrom (s : Signal) : (looks : Nat) → Token → Bool × Token
  | 0, t => (false, t)
  | looks + 1, t =>
    let t := { t with seen := s.version }
    if s.value then (true, t)
    else
      match s.news t.seen with
      | .changed => pollFrom s looks t
      | .none | .closed => (false, t)

def poll (t : Token) (s : Signal) : Bool × Token := pollFrom (t.source s) 2 t

end Token

end PluginAudit.Cancellation

namespace PluginAudit

structure Cancellation where
  signal : Cancellation.Signal
  tokens : List Cancellation.Token

namespace Cancellation

def initial : Cancellation := ⟨.initial, [⟨true, 0⟩]⟩

def token? (c : Cancellation) (i : Nat) : Option Token := c.tokens[i]?

/-- Whether there was a sender to cancel with, and what is left of it. -/
def cancel (c : Cancellation) : Bool × Cancellation :=
  (c.signal.hasSender, { c with signal := c.signal.send })

/-- Whether there was a sender to drop, and what is left of it. -/
def dropSender (c : Cancellation) : Bool × Cancellation :=
  (c.signal.hasSender, { c with signal := c.signal.dropSender })

def add (c : Cancellation) (t : Token) : Cancellation :=
  { c with tokens := c.tokens ++ [t] }

/-- A copy of a token has seen what the token has seen. -/
def clone (c : Cancellation) (i : Nat) : Cancellation := c.add ((c.token? i).getD .never)

def isCancelled (c : Cancellation) (i : Nat) : Bool :=
  (c.token? i).any (·.isCancelled c.signal)

def poll (c : Cancellation) (i : Nat) : Bool × Cancellation :=
  match c.token? i with
  | some t =>
    let (ready, t) := t.poll c.signal
    (ready, { c with tokens := c.tokens.set i t })
  | none => (false, c)

end Cancellation

end PluginAudit
