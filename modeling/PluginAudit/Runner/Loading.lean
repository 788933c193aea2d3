import PluginAudit.Entries
import PluginAudit.Json.Writer
import PluginAudit.Runner.Launch
import PluginAudit.Runner.Output

/-!
The host runner: a program that loads a plugin and tells what happened. It sees nothing of the
environment but some variables of known names and the request. A runner that fails leaves a fatal
diagnostic.
-/

namespace PluginAudit

structure Runner where
  program : String
  args : List String
  allowed : List String
  timeoutMs : Nat

namespace Runner

def defaultAllowed : List String := ["PATH", "HOME", "LANG", "TMPDIR", "PHP_INI_SCAN_DIR"]

def defaultTimeoutMs : Nat := 30000

/-- The program and its arguments are separated by blanks. -/
def ofCommandLine (line : String) : Except HostRefusal Runner :=
  match Text.words line.toList with
  | [] => .error (.spawn "empty runner command")
  | program :: args =>
    .ok ⟨.ofList program, args.map .ofList, defaultAllowed, defaultTimeoutMs⟩

def overridesText (request : Load.Request) : String := (Json.object request.overrides).compact

def requestVariables (request : Load.Request) : List (String × String) := [
  ("PLUGIN_CHECK_TABLE_PREFIX", request.tableNamespace),
  ("PLUGIN_CHECK_PLUGIN_FILE", request.pluginFile.text),
  ("PLUGIN_CHECK_PLUGIN_BASENAME", request.pluginBasename),
  ("PLUGIN_CHECK_OVERRIDES", overridesText request)]

/-- The variables whose names and values are texts. The others are passed over. -/
def readable (parent : List (Text.Bytes × Text.Bytes)) : List (String × String) :=
  parent.filterMap fun (name, value) => do
    return (.ofList (← Text.decode? name), .ofList (← Text.decode? value))

/-- The runner's environment; the request's variables replace others of their names. -/
def environment (r : Runner) (parent : List (String × String)) (request : Load.Request) :
    List (String × String) :=
  Entries.ofList (parent.filter (r.allowed.contains ·.1) ++ requestVariables request)

/-- The runner is started beside the plugin's main file, which is its last argument. -/
def launch (r : Runner) (parent : List (Text.Bytes × Text.Bytes)) (request : Load.Request) :
    Launch where
  program := r.program
  args := r.args ++ [request.pluginFile.text]
  environment := r.environment (readable parent) request
  directory := request.pluginFile.parent.getD ⟨"."⟩

def excerptLimit : Nat := 512

/-- The beginning of what a failed runner wrote to its error stream. -/
def excerpt (errors : Text.Bytes) : String :=
  .ofList (Text.takeBytes excerptLimit (Text.trim (Text.decodeLossy errors)))

def exitDiagnostic (exit : Exit) : Diagnostic where
  level := .fatal
  message := "host runner exited with " ++ exit.status.text ++ ": " ++ excerpt exit.errors
  file := none
  line := 0

def report (exit : Exit) (durationMs : Int) : Load.Report :=
  let told := Load.Report.ofEvents (Runner.Event.ofOutput exit.output) durationMs
  if exit.status.isSuccess || told.isFatal then told
  else { told with diagnostics := told.diagnostics ++ [exitDiagnostic exit] }

/-- What comes of a started runner. Its time is up when it takes as long as the limit. -/
def outcome (r : Runner) (durationMs : Int) : Execution → Load.Outcome
  | .refused cause => ⟨0, .error (.spawn (r.program ++ ": " ++ cause.message))⟩
  | .ended after exit =>
    if r.timeoutMs ≤ after then ⟨r.timeoutMs, .error (.timeout r.timeoutMs)⟩
    else ⟨after, .ok (report exit durationMs)⟩

def load (r : Runner) (start : Launch → Execution) (parent : List (Text.Bytes × Text.Bytes))
    (durationMs : Int) (request : Load.Request) : Load.Outcome :=
  r.outcome durationMs (start (r.launch parent request))

end Runner

end PluginAudit
