/-!
Programs as trees over an interface: a program is done, or it makes a call and goes on with the
answer. What the answers are is decided where a program is run.
-/

namespace PluginAudit

/-- The calls a program can make, and the type of each call's answer. -/
structure Interface where
  Call : Type
  Answer : Call → Type

inductive Program (I : Interface) (α : Type) where
  | done (value : α)
  | ask (call : I.Call) (next : I.Answer call → Program I α)

namespace Program

variable {I J : Interface} {α β σ : Type}

def bind : Program I α → (α → Program I β) → Program I β
  | .done a, f => f a
  | .ask c next, f => .ask c fun answer => (next answer).bind f

instance : Monad (Program I) where
  pure := .done
  bind := .bind

/-- The program that makes one call. -/
def call (c : I.Call) : Program I (I.Answer c) := .ask c .done

/-- Answers every call from a state. -/
def run (answer : (c : I.Call) → σ → I.Answer c × σ) : Program I α → σ → α × σ
  | .done a, s => (a, s)
  | .ask c next, s =>
    let (a, s) := answer c s
    (next a).run answer s

/-- The same program over a larger interface. -/
def lift (into : I.Call → J.Call) (back : (c : I.Call) → J.Answer (into c) → I.Answer c) :
    Program I α → Program J α
  | .done a => .done a
  | .ask c next => .ask (into c) fun answer => (next (back c answer)).lift into back

end Program

end PluginAudit
