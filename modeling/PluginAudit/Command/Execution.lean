import PluginAudit.Command.Help
import PluginAudit.Discovery
import PluginAudit.Host.Opening
import PluginAudit.Machine.Basic
import PluginAudit.Runner.Loading

/-!
The execution of a command on a machine: what is printed, and the exit status.
-/

namespace PluginAudit

structure CommandResult where
  status : Nat
  output : String
  errors : String

def NoPlugin.fault (path : Path) (e : NoPlugin) : Fault :=
  .ofCauses ("Cannot inspect " ++ path.text)
    (match e with
      | .file _ cause => [e.message, cause.message]
      | _ => [e.message])

/-- The error of a run is the cause of what is said about it, unless all is said. -/
def RunError.fault (e : RunError) : Fault :=
  .ofCauses e.message
    (match e with
      | .host cause => [cause.message]
      | .setup cause => [cause.message]
      | .cleanup failures => [UndoFailure.summary failures]
      | .stopped _ | .noHost => [])

/-- A command that breaks down ends with a status of its own. -/
def Breakdown.fault (how : Breakdown) : Fault := ⟨how.message, [], 101⟩

namespace Command

/-- The host of a command: a database, and a runner that loads the plugin. -/
def host (m : Machine) (runner : Runner) : Host (World Database) :=
  { Database.storage.host with
    load := fun _ request w => (runner.load m.start m.inherited 0 request, w) }

def worldOf (d : Database) : World Database := ⟨d, [], ⟨[], []⟩⟩

def openDatabase (m : Machine) (file : String) : Except Fault (Database × FileTree) := do
  let (address, tree) ← HostDatabase.address (m.valueOf? "HOME") file m.tree
  let database ←
    (Database.open? address HostDatabase.baseNamespace tree).mapError fun e =>
      .ofCauses "Host database connection failed" [e.message]
  let database ← (database.migrate HostDatabase.baseNamespace).mapError fun e =>
    .ofCauses "Host database migration failed" [e.message]
  return (database, tree)

/-- The host that a runner's command line asks for, its world, and the files with the database. -/
def connect (m : Machine) (commandLine file : String) :
    Except Fault (Host (World Database) × World Database × FileTree) := do
  let runner ← (Runner.ofCommandLine commandLine).mapError fun e =>
    .ofCauses "Invalid runner command" [e.message]
  let (database, tree) ← openDatabase m file
  return (host { m with tree } runner, worldOf database, tree)

/-- Without a runner, runtime checks are left out, unless checks are asked for by their slugs. -/
def withoutRunner (request : CheckRequest) (checks : List Check) : List Check :=
  if request.selection.included.isEmpty then checks.filter (!·.kind.needsHost) else checks

/-- Runs the selected checks on the plugin. -/
def runChecks (m : Machine) (id : String) (request : CheckRequest) (context : Context)
    (checks : List Check) : Except Fault CheckRecord := do
  let settings := RunSettings.limited request.maxParallel request.timeoutSecs
  let conditions : RunConditions := ⟨id, [], none, true⟩
  let attempt ←
    match request.runner with
    | some commandLine => do
      let (host, world, tree) ← connect m commandLine request.hostDatabase
      pure (Run.attempt (some host) settings conditions context tree checks world)
    | none =>
      pure (Run.attempt none settings conditions context m.tree (withoutRunner request checks)
        (worldOf (.empty HostDatabase.baseNamespace)))
  match attempt with
  | .reported report => report.result.mapError RunError.fault
  | .broken how _ _ => throw how.fault

def inspect (m : Machine) (id : String) (request : CheckRequest) : Except Fault Report := do
  let settings ←
    CheckSettings.resolve request.versions request.showAllWarnings request.ignoredWarnings m.tree
  let context ←
    (Discovery.discover m.tree request.path).mapError (NoPlugin.fault request.path)
  let checks ← ((Registry.bundled settings).select request.selection).mapError fun e =>
    .ofCauses e.message []
  let record ← runChecks m id request context checks
  return .ofRecord context.slug record request.filter

def listColumns : List String := ["slug", "kind", "categories"]

def kindText (k : CheckBody) : String := if k.needsHost then "runtime" else "static"

def checkCells (c : Check) : List String :=
  [c.slug, kindText c.kind, String.intercalate ", " (c.categories.map Category.text)]

def listText (colours : Bool) : String :=
  Paint.boldCyan.apply colours "Available checks" ++ "\n\n" ++
    Grid.render (listColumns :: (Registry.bundled .initial).all.map checkCells) ++ "\n"

def versionText : String := programName ++ " 0.1.0\n"

def usageText : String :=
  "Usage: plugin-check check [OPTIONS] <PATH>\n       plugin-check list-checks\n" ++
    "       plugin-check --version\n"

def usageStatus : Nat := 2

def execute (m : Machine) (id : String) (colours : Bool) : Command → CommandResult
  | .version => ⟨0, versionText, ""⟩
  | .help topic => ⟨0, helpText m.environment topic, ""⟩
  | .listChecks => ⟨0, listText colours, ""⟩
  | .check request =>
    match inspect m id request with
    | .ok report => ⟨report.status, report.render colours request.format ++ "\n", ""⟩
    | .error fault => ⟨fault.status, "", "Error: " ++ fault.text ++ "\n"⟩

/-- Runs a command line on a machine. The identifier has to be one that no run has had before. -/
def run (m : Machine) (id : String) (colours : Bool) (args : List String) : CommandResult :=
  match ofArguments? m.environment args with
  | some command => execute m id colours command
  | none => ⟨usageStatus, "", usageText⟩

end Command

end PluginAudit
