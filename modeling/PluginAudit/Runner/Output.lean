import PluginAudit.Host.Call
import PluginAudit.Json.Document
import PluginAudit.Text.Blank
import PluginAudit.Text.Lines
import PluginAudit.Text.Utf8

/-!
The output of a host runner: one event a line, written as a JSON object. What is no event is
passed over.
-/

namespace PluginAudit

inductive Runner.Event where
  | call (c : ObservedCall)
  | diagnostic (d : Diagnostic)

namespace Runner.Event

open Json (Document soleMember?)

def text? : Document → Option String
  | .str s => s
  | _ => none

/-- A path, which may be left out or null. -/
def file? : Option Document → Option (Option Path)
  | none | some .null => some none
  | some d => (text? d).map fun s => some ⟨s⟩

/-- A whole number of 32 bits; zero if it is left out. -/
def line? : Option Document → Option Nat
  | none => some 0
  | some (.num n) =>
    match n.value? with
    | some (.int i) => if 0 ≤ i && i < 0x100000000 then some i.toNat else none
    | _ => none
  | some _ => none

/-- A level is a text, or an object with the text as its only key and nothing behind it. -/
def level? : Document → Option Diagnostic.Level
  | .obj [(some key, .null)] | .obj [(some key, .obj [])] => Diagnostic.Level.ofText? key
  | d => (text? d).bind Diagnostic.Level.ofText?

abbrev Members := List (Option String × Document)

def call? (members : Members) : Option Runner.Event := do
  let function ← (← soleMember? "function" members).bind text?
  let file ← file? (← soleMember? "file" members)
  let line ← line? (← soleMember? "line" members)
  return .call ⟨function, file, line⟩

def diagnostic? (members : Members) : Option Runner.Event := do
  let level ← (← soleMember? "level" members).bind level?
  let message ← (← soleMember? "message" members).bind text?
  let file ← file? (← soleMember? "file" members)
  let line ← line? (← soleMember? "line" members)
  return .diagnostic ⟨level, message, file, line⟩

def ofMembers? (members : Members) : Option Runner.Event :=
  match (soleMember? "event" members).join.bind text? with
  | some "call" => call? members
  | some "diagnostic" => diagnostic? members
  | _ => none

/-- The event of a document, all of which has to have a value. -/
def ofDocument? (d : Document) : Option Runner.Event :=
  match d, d.value? Json.nestingLimit with
  | .obj members, some _ => ofMembers? members
  | _, _ => none

/-- The event of a line; blanks around it do not count. -/
def ofLine? (line : List Char) : Option Runner.Event :=
  match Text.trim line with
  | '{' :: rest => (Document.read? ('{' :: rest)).bind ofDocument?
  | _ => none

def ofText (output : List Char) : List Runner.Event := (Text.lines output).filterMap ofLine?

/-- The events of an output, the malformed parts of which are read as replacement characters. -/
def ofOutput (output : Text.Bytes) : List Runner.Event := ofText (Text.decodeLossy output)

def asCall? : Runner.Event → Option ObservedCall
  | .call c => some c
  | .diagnostic _ => none

def asDiagnostic? : Runner.Event → Option Diagnostic
  | .call _ => none
  | .diagnostic d => some d

end Runner.Event

/-- The calls and the diagnostics among some events, each in their order. -/
def Load.Report.ofEvents (events : List Runner.Event) (durationMs : Int) : Load.Report :=
  ⟨events.filterMap Runner.Event.asCall?, events.filterMap Runner.Event.asDiagnostic?, durationMs⟩

end PluginAudit
