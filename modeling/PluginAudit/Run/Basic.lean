import PluginAudit.Isolation
import PluginAudit.Run.Supervision

/-!
A run of checks on a plugin. If there are runtime checks, the host is prepared first and restored
last, however the checks end. Static checks run in a pool, then the runtime checks one by one.
-/

namespace PluginAudit

inductive RunError where
  | host (cause : HostRefusal)
  | setup (cause : SetupFailure)
  | cleanup (failures : List UndoFailure)
  | stopped (stop : Stop)
  /-- Runtime checks have been selected, but there is no host. -/
  | noHost

def RunError.message : RunError → String
  | .host e => "Host error: " ++ e.message
  | .setup e => "Setup failed: " ++ e.message
  | .cleanup failures => "Cleanup failed: " ++ UndoFailure.summary failures
  | .stopped stop => stop.message
  | .noHost => "Configuration error: runtime checks selected but no host is configured"

structure RunSettings where
  maxParallel : Nat
  timeout : Option Nat
  theme : String
  /-- What the names of all namespaces of runs begin with. -/
  namespaceBase : String

namespace RunSettings

def initial : RunSettings := ⟨4, none, "twentytwentyfour", "wppc_"⟩

def namespaceName (s : RunSettings) (id : String) : String := s.namespaceBase ++ id ++ "_"

end RunSettings

/-- What is left to chance or to others in a run: its identifier, the order and the pace in which
the static checks proceed and the run looks after them, and when it is cancelled. -/
structure RunConditions where
  id : String
  moves : List PoolMove
  cancelAt : Option Nat
  parallel : Bool

namespace RunConditions

/-- When a run under these conditions is to be stopped. -/
def watch (c : RunConditions) (settings : RunSettings) : Watch :=
  ⟨settings.timeout, c.cancelAt, c.parallel⟩

/-- Whether the run finds itself cancelled before it looks after its checks for the first time. -/
def cancelledAtOnce (c : RunConditions) : Bool :=
  match c.moves with
  | .heed :: _ => c.cancelAt = some 0
  | _ => false

end RunConditions

/-- How a run ended, the state of the world after it, and what happened in it. -/
structure RunReport (σ : Type) where
  result : Except RunError CheckRecord
  world : σ
  trace : List Event

/-- What comes of an attempt at a run: a report, or it breaks down and leaves everything as it is. -/
inductive Attempt (σ : Type) where
  | reported (report : RunReport σ)
  | broken (how : Breakdown) (world : σ) (trace : List Event)

namespace Run

variable {σ : Type}

def staticTask? (context : Context) (tree : FileTree) : Check × Nat → Option StaticTask
  | (c, place) =>
    match c.kind with
    | .static run => let r := run context tree; some ⟨place, c.slug, r.steps, r.ending⟩
    | .runtime _ => none

/-- The static checks of a selection with their places in it. -/
def staticTasks (context : Context) (tree : FileTree) (checks : List Check) : List StaticTask :=
  checks.zipIdx.filterMap (staticTask? context tree)

def runtimeCheck? : Check × Nat → Option (Nat × String × RuntimeCheck)
  | (c, place) =>
    match c.kind with
    | .static _ => none
    | .runtime check => some (place, c.slug, check)

def runtimeChecks (checks : List Check) : List (Nat × String × RuntimeCheck) :=
  checks.zipIdx.filterMap runtimeCheck?

/-- Of preparations with one name the first is kept. -/
def distinct (seen : List String) : List Preparation → List Preparation
  | [] => []
  | p :: rest =>
    if seen.contains p.name then distinct seen rest else p :: distinct (p.name :: seen) rest

def commonPreparations (context : Context) (checks : List (Nat × String × RuntimeCheck)) :
    List Preparation :=
  distinct [] (checks.flatMap fun (_, _, check) => check.preparations context)

def preparations (settings : RunSettings) (context : Context) (name : String)
    (checks : List (Nat × String × RuntimeCheck)) : List Preparation :=
  Isolation.preparation context.basename name settings.theme :: commonPreparations context checks

/-- The world and the trace of a run, the latest event first. -/
abbrev Scene (σ : Type) := σ × List Event

def answerStep (host : Host σ) (session : Nat) (c : StepCall) (s : Scene σ) :
    c.Answer × Scene σ :=
  match c with
  | .host c => let (a, world) := host.ask session c s.1; (a, world, .asked c :: s.2)
  | .tell remark => ((), s.1, .note remark.text :: s.2)

def answerSetup (host : Host σ) (session : Nat) (c : SetupCall) (s : Scene σ) :
    c.Answer × Scene σ :=
  match c with
  | .step c => answerStep host session c s
  | .tell event => ((), s.1, event :: s.2)

def prepare (host : Option (Host σ)) (settings : RunSettings) (context : Context) (name : String)
    (checks : List (Nat × String × RuntimeCheck)) (world : σ) :
    Except RunError (Host σ × Nat × List Cleanup) × Scene σ :=
  match host with
  | none => (.error .noHost, world, [])
  | some host =>
    match host.connect world with
    | (.error e, world) => (.error (.host e), world, [])
    | (.ok session, world) =>
      let program := Preparation.setUpAll (preparations settings context name checks)
      match program.run (answerSetup host session) (world, []) with
      | (.error e, scene) => (.error (.setup e), scene)
      | (.ok cleanups, scene) => (.ok (host, session, cleanups), scene)

def conclude (stop : Option Stop) (failures : List UndoFailure) (record : CheckRecord) :
    Except RunError CheckRecord :=
  match stop with
  | some s => .error (.stopped s)
  | none => if failures.isEmpty then .ok record else .error (.cleanup failures)

/-- The checks of a run that has been prepared: the static ones, then the runtime checks. When this is
over no runtime check is in flight. -/
def checkPhase (host : Host σ) (env : Environment) (settings : RunSettings)
    (conditions : RunConditions) (tasks : List StaticTask)
    (runtime : List (Nat × String × RuntimeCheck)) (scene : Scene σ) :
    Option Stop × Progress σ :=
  let watch := conditions.watch settings
  let (stop, clock, pool) :=
    Pool.supervise watch settings.maxParallel conditions.moves 0 (.ofTasks tasks)
  let p : Progress σ := ⟨scene.1, pool.record, pool.trace ++ scene.2, clock, false, none⟩
  match stop with
  | some stop => (some stop, p)
  | none => Progress.runChecks host env watch true runtime p

/-- A run for which a pool can be made. -/
def run (host : Option (Host σ)) (settings : RunSettings) (conditions : RunConditions)
    (context : Context) (tree : FileTree) (checks : List Check) (world : σ) : RunReport σ :=
  let tasks := staticTasks context tree checks
  let runtime := runtimeChecks checks
  if runtime.isEmpty then
    let (stop, _, pool) :=
      Pool.supervise (conditions.watch settings) settings.maxParallel conditions.moves 0
        (.ofTasks tasks)
    ⟨conclude stop [] pool.record, world, pool.trace.reverse⟩
  else
    let name := settings.namespaceName conditions.id
    match prepare host settings context name runtime world with
    | (.error e, world, trace) => ⟨.error e, world, trace.reverse⟩
    | (.ok (host, session, cleanups), scene) =>
      let (stop, p) :=
        checkPhase host ⟨session, context, name⟩ settings conditions tasks runtime scene
      let (failures, world, trace) :=
        (Preparation.undoAll cleanups).run (answerSetup host session) (p.world, p.trace)
      ⟨conclude stop failures p.record, world, trace.reverse⟩

/-- Whether the run comes to make a pool that is too large. -/
def overfills (settings : RunSettings) (conditions : RunConditions) : Bool :=
  Pool.capacity < settings.maxParallel && !conditions.cancelledAtOnce

/-- A run breaks down if its pool is too large. It has been prepared then, and is not restored. -/
def attempt (host : Option (Host σ)) (settings : RunSettings) (conditions : RunConditions)
    (context : Context) (tree : FileTree) (checks : List Check) (world : σ) : Attempt σ :=
  if overfills settings conditions then
    let runtime := runtimeChecks checks
    if runtime.isEmpty then .broken Pool.breakdown world []
    else
      match prepare host settings context (settings.namespaceName conditions.id) runtime world with
      | (.error e, world, trace) => .reported ⟨.error e, world, trace.reverse⟩
      | (.ok _, world, trace) => .broken Pool.breakdown world trace.reverse
  else .reported (run host settings conditions context tree checks world)

end Run

end PluginAudit
