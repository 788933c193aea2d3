import PluginAudit.Context
import PluginAudit.FileTree
import PluginAudit.Finding
import PluginAudit.Preparation

/-!
Checks. A static check reads the plugin's files; a runtime check asks the host and may have the
plugin loaded. Either may fail or break down, which is told from what it has found.
-/

namespace PluginAudit

inductive CheckObstacle where
  | file (path : Path) (cause : FileError)
  | host (cause : HostRefusal)
  | failed (reason : String)

def CheckObstacle.message : CheckObstacle → String
  | .file path cause => "IO error at " ++ path.text ++ ": " ++ cause.message
  | .host cause => "Host error: " ++ cause.message
  | .failed reason => reason

/-- What a check leaves behind when it breaks down. -/
inductive Breakdown where
  | text (message : String)
  | opaqueValue

namespace Breakdown

def message : Breakdown → String
  | .text s => s
  | .opaqueValue => "Unknown panic"

/-- A sum has no number. -/
def overflow : Breakdown := .text "attempt to add with overflow"

end Breakdown

inductive Ending where
  | passed
  | failed (cause : CheckObstacle)
  | broken (how : Breakdown)

def Ending.failure? : Ending → Option String
  | .passed => none
  | .failed cause => some cause.message
  | .broken how => some ("check panicked: " ++ how.message)

def CheckRecord.close (r : CheckRecord) (slug : String) (ending : Ending) : CheckRecord :=
  match ending.failure? with
  | some reason => r.fail slug reason
  | none => r

inductive StaticStep where
  | emit (f : Finding)
  | note (text : String)

/-- What a static check does, step by step, and how it ends. -/
structure StaticResult where
  steps : List StaticStep
  ending : Ending

namespace StaticResult

/-- Findings one after another, and then an end. -/
def emitting (fs : List Finding) (e : Ending) : StaticResult := ⟨fs.map .emit, e⟩

def ofFindings (fs : List Finding) : StaticResult := emitting fs .passed

def findings (r : StaticResult) : List Finding :=
  r.steps.filterMap fun
    | .emit f => some f
    | .note _ => none

end StaticResult

abbrev StaticCheck := Context → FileTree → StaticResult

inductive CheckCall where
  | option (key : String)
  | addOverride (key : String) (value : Json)
  | removeOverride (id : Nat)
  | overrides
  /-- Has the plugin loaded, unless it has been before. -/
  | load
  | emit (f : Finding)
  | note (text : String)
  /-- Waits and lets other work go on. A check that hangs waits for longer than the run lasts. -/
  | sleep (milliseconds : Nat)
  /-- Waits and lets nothing else go on in its place. -/
  | block (milliseconds : Nat)
  | cancel

abbrev CheckCall.Answer : CheckCall → Type
  | .option _ => Except HostRefusal (Option Json)
  | .addOverride _ _ => Nat
  | .removeOverride _ => Bool
  | .overrides => List (String × Json)
  | .load => Except HostRefusal Load.Report
  | .emit _ | .note _ | .sleep _ | .block _ | .cancel => Unit

abbrev checkCalls : Interface := ⟨CheckCall, CheckCall.Answer⟩

structure RuntimeCheck where
  /-- What has to be prepared, for a context. -/
  preparations : Context → List Preparation
  /-- What is done in a context and in the namespace of the run. -/
  body : Context → (namespaceName : String) → Program checkCalls Ending

inductive CheckBody where
  | static (check : StaticCheck)
  | runtime (check : RuntimeCheck)

def CheckBody.needsHost : CheckBody → Bool
  | .static _ => false
  | .runtime _ => true

inductive Category where
  | general
  | pluginRepo
  | security
  | performance
  | accessibility
deriving DecidableEq

namespace Category

def text : Category → String
  | .general => "general"
  | .pluginRepo => "plugin_repo"
  | .security => "security"
  | .performance => "performance"
  | .accessibility => "accessibility"

def all : List Category := [.general, .pluginRepo, .security, .performance, .accessibility]

def ofText (text : String) : Except ValueError Category :=
  match all.find? (·.text == text) with
  | some c => .ok c
  | none => .error (.invalidValue ("unknown check category: " ++ text))

end Category

structure Check where
  slug : String
  categories : List Category
  kind : CheckBody

end PluginAudit
