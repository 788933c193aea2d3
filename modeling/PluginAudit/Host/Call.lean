import PluginAudit.Host.Refusal
import PluginAudit.Json.Basic
import PluginAudit.Path
import PluginAudit.Program

/-!
What a session of the host can be asked for, and what the loading of a plugin reports.
-/

namespace PluginAudit

/-- A request to load a plugin under the overrides in force. -/
structure Load.Request where
  pluginFile : Path
  pluginBasename : String
  tableNamespace : String
  overrides : List (String × Json)

structure ObservedCall where
  function : String
  file : Option Path
  line : Nat

inductive Diagnostic.Level where
  | notice
  | deprecated
  | warning
  | fatal
deriving DecidableEq

namespace Diagnostic.Level

def text : Diagnostic.Level → String
  | .notice => "notice"
  | .deprecated => "deprecated"
  | .warning => "warning"
  | .fatal => "fatal"

def all : List Diagnostic.Level := [.notice, .deprecated, .warning, .fatal]

def ofText? (text : String) : Option Diagnostic.Level := all.find? (·.text == text)

end Diagnostic.Level

structure Diagnostic where
  level : Diagnostic.Level
  message : String
  file : Option Path
  line : Nat

structure Load.Report where
  calls : List ObservedCall
  diagnostics : List Diagnostic
  durationMs : Int

namespace Load.Report

def empty : Load.Report := ⟨[], [], 0⟩

def isFatal (r : Load.Report) : Bool := r.diagnostics.any (·.level = .fatal)

end Load.Report

inductive HostCall where
  | currentNamespace
  | createNamespace (name : String)
  | switchTo (name : String)
  | dropNamespace (name : String)
  | option (key : String)
  | addOverride (key : String) (value : Json)
  | removeOverride (id : Nat)
  | overrides

abbrev HostCall.Answer : HostCall → Type
  | .currentNamespace => Except HostRefusal String
  | .createNamespace _ | .switchTo _ | .dropNamespace _ => Except HostRefusal Unit
  | .option _ => Except HostRefusal (Option Json)
  | .addOverride _ _ => Nat
  | .removeOverride _ => Bool
  | .overrides => List (String × Json)

abbrev hostCalls : Interface := ⟨HostCall, HostCall.Answer⟩

/-- What comes of a request to load, and after how many milliseconds. -/
structure Load.Outcome where
  delay : Nat
  result : Except HostRefusal Load.Report

/-- A host: sessions are opened, numbered and asked. -/
structure Host (σ : Type) where
  connect : σ → Except HostRefusal Nat × σ
  ask : (session : Nat) → (c : HostCall) → σ → c.Answer × σ
  load : (session : Nat) → Load.Request → σ → Load.Outcome × σ
  /-- Whether other work goes on while the call is answered. -/
  suspends : (session : Nat) → HostCall → σ → Bool

/-- The host that refuses to switch to some namespaces. -/
def Host.refusing {σ : Type} (host : Host σ) (names : List String) : Host σ :=
  { host with
    ask := fun session c s =>
      match c with
      | .switchTo name =>
        if names.contains name then (.error (.namespaces ("cannot switch to " ++ name)), s)
        else host.ask session (.switchTo name) s
      | c => host.ask session c s }

end PluginAudit
