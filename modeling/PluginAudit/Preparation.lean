import PluginAudit.Host.Call

/-!
Preparations of a run: steps with an undo. They are set up in order and undone in the reverse
order; if one fails, the steps before it are undone at once.
-/

namespace PluginAudit

inductive Event where
  | note (text : String)
  /-- The preparation at this place begins, or its cleanup does. -/
  | setUp (place : Nat) (preparation : String)
  | undo (place : Nat) (preparation : String)
  | asked (c : HostCall)
  | loaded (request : Load.Request)
  /-- The check at this place of the selection begins or has ended. -/
  | started (check : Nat)
  | ended (check : Nat)

structure Remark where note ::
  text : String

inductive StepCall where
  | host (c : HostCall)
  | tell (remark : Remark)

abbrev StepCall.Answer : StepCall → Type
  | .host c => c.Answer
  | .tell _ => Unit

abbrev stepCalls : Interface := ⟨StepCall, StepCall.Answer⟩

/-- What going through the steps consists of: what the steps do, and where they begin. -/
inductive SetupCall where
  | step (c : StepCall)
  | tell (event : Event)

abbrev SetupCall.Answer : SetupCall → Type
  | .step c => c.Answer
  | .tell _ => Unit

abbrev setupCalls : Interface := ⟨SetupCall, SetupCall.Answer⟩

/-- A program that asks the host only, as part of a step. -/
def Program.inStep {α : Type} (p : Program hostCalls α) : Program stepCalls α :=
  p.lift (J := stepCalls) StepCall.host fun _ a => a

/-- A step among others. -/
def Program.inSetup {α : Type} (p : Program stepCalls α) : Program setupCalls α :=
  p.lift (J := setupCalls) SetupCall.step fun _ a => a

structure Cleanup where
  name : String
  undo : Program stepCalls (Except String Unit)
  /-- The place of the step among those that have been set up. -/
  place : Nat := 0

structure Preparation where
  name : String
  setup : Program stepCalls (Except HostRefusal Cleanup)

structure UndoFailure where
  step : String
  reason : String
deriving DecidableEq

namespace UndoFailure

def message (f : UndoFailure) : String := f.step ++ ": " ++ f.reason

def joined (fs : List UndoFailure) : String :=
  String.intercalate "; " (fs.map message)

def summary (fs : List UndoFailure) : String :=
  fs.length.repr ++ " cleanup step(s) failed: " ++ joined fs

end UndoFailure

/-- A preparation failed; the steps before it have been undone, but for the failures. -/
structure SetupFailure where
  preparation : String
  cause : HostRefusal
  rollbackFailures : List UndoFailure

def SetupFailure.message (e : SetupFailure) : String :=
  "preparation '" ++ e.preparation ++ "' failed: " ++ e.cause.message ++
    if e.rollbackFailures.isEmpty then ""
    else " (rollback incomplete: " ++ UndoFailure.joined e.rollbackFailures ++ ")"

namespace Preparation

def tell (remark : Remark) : Program stepCalls Unit := .ask (.tell remark) fun _ => .done ()

def announce (event : Event) : Program setupCalls Unit := .ask (.tell event) fun _ => .done ()

/-- Undoes steps, the first of the list first. A failure does not stop the others. -/
def undoAll : List Cleanup → Program setupCalls (List UndoFailure)
  | [] => pure []
  | c :: rest => do
    announce (.undo c.place c.name)
    let result ← c.undo.inSetup
    let failures ← undoAll rest
    match result with
    | .ok () => return failures
    | .error reason => return ⟨c.name, reason⟩ :: failures

/-- Sets up preparations in order, after those of `done`, the latest first. -/
def setUpFrom (done : List Cleanup) :
    List Preparation → Program setupCalls (Except SetupFailure (List Cleanup))
  | [] => pure (.ok done)
  | p :: rest => do
    announce (.setUp done.length p.name)
    match ← p.setup.inSetup with
    | .ok c => setUpFrom ({ c with place := done.length } :: done) rest
    | .error cause => do
      let failures ← undoAll done
      return .error ⟨p.name, cause, failures⟩

def setUpAll (ps : List Preparation) : Program setupCalls (Except SetupFailure (List Cleanup)) :=
  setUpFrom [] ps

def addAll : List (String × Json) → Program hostCalls (List Nat)
  | [] => pure []
  | (key, value) :: rest =>
    .ask (.addOverride key value) fun id => do return id :: (← addAll rest)

/-- Removes overrides and counts those that were not there. -/
def removeAll : List Nat → Program hostCalls Nat
  | [] => pure 0
  | id :: rest =>
    .ask (.removeOverride id) fun found => do
      let missing ← removeAll rest
      return if found then missing else missing + 1

def overriding (name : String) (values : List (String × Json)) : Preparation where
  name
  setup := Program.inStep do
    let ids ← addAll values
    return .ok {
      name
      undo := Program.inStep do
        let missing ← removeAll ids
        return if missing = 0 then .ok ()
          else .error (missing.repr ++ " override(s) already removed") }

end Preparation

end PluginAudit
