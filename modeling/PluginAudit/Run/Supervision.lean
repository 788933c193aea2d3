import PluginAudit.Run.Pool

/-!
Checks under supervision. While a run waits for its checks it may be stopped, because its time is
up or because it is cancelled. Runtime checks run one after another, each in a slot that outlives
the waiting: a check that is in the slot when the run is stopped is aborted, and nothing else is done
until it has come to its end. Static checks that are still at work are not waited for, and what they
do later is not part of the run.
-/

namespace PluginAudit

inductive Stop where
  | timedOut (milliseconds : Nat)
  | cancelled
deriving DecidableEq

def Stop.message : Stop → String
  | .timedOut ms => "Run timed out after " ++ ms.repr ++ "ms"
  | .cancelled => "Run cancelled"

/-- When a run is to be stopped, in milliseconds from the beginning of its checks. -/
structure Watch where
  timeout : Option Nat
  cancelAt : Option Nat
  /-- Whether the run is stopped even while a check does not let other work go on. -/
  parallel : Bool

/-- A run in the midst of its runtime checks. -/
structure Progress (σ : Type) where
  world : σ
  record : CheckRecord
  trace : List Event
  clock : Nat
  cancelRequested : Bool
  /-- What the loading of the plugin reported, once it has succeeded. -/
  report : Option Load.Report

namespace Watch

/-- Whether the run has to stop now, or by the end of the next `wait` milliseconds. A time limit
is met when it is reached; a cancellation that comes at the very end is met later. -/
def stop? (w : Watch) (requested : Bool) (now wait : Nat) : Option (Stop × Nat) :=
  let asked : Option Nat :=
    if requested then some now
    else w.cancelAt.bind fun t =>
      if t ≤ now then some now else if t < now + wait then some t else none
  let out : Option Nat :=
    w.timeout.bind fun t => if t ≤ now then some now else if t ≤ now + wait then some t else none
  match asked, out with
  | none, none => none
  | some t, none => some (.cancelled, t)
  | none, some t => some (.timedOut (w.timeout.getD 0), t)
  | some t, some u =>
    if u ≤ t && !requested then some (.timedOut (w.timeout.getD 0), u) else some (.cancelled, t)

end Watch

/-- Whether the run has been cancelled by now. -/
def Watch.cancelled (w : Watch) (now : Nat) : Bool := w.cancelAt.any (· ≤ now)

/-- Makes moves until nothing is left to do, unless the run is stopped while time passes or when it
looks for a cancellation. Tells whether it was stopped, and the time. -/
def Pool.supervise (watch : Watch) (limit : Nat) :
    List PoolMove → Nat → Pool → Option Stop × Nat × Pool
  | [], clock, p => (none, clock, p.complete limit [])
  | .heed :: rest, clock, p =>
    if watch.cancelled clock then (some .cancelled, clock, p)
    else supervise watch limit rest clock p
  | .wait ms :: rest, clock, p =>
    if p.isDone then (none, clock, p)
    else
      match watch.stop? false clock ms with
      | some (stop, clock) => (some stop, clock, p)
      | none => supervise watch limit rest (clock + ms) p
  | m :: rest, clock, p => supervise watch limit rest clock (p.move limit m)

structure Environment where
  session : Nat
  context : Context
  namespaceName : String

/-- Whether a check goes on after a call: at once, after it has let other work go on for some
milliseconds, or after it has kept other work from going on in its place for as long. -/
inductive Pause where
  | none
  | wait (milliseconds : Nat)
  | hold (milliseconds : Nat)

/-- What a runtime check that has been spawned has still to do. -/
inductive TaskState where
  /-- It has not begun. -/
  | spawned (body : Program checkCalls Ending)
  /-- It lets other work go on. -/
  | waiting (rest : Program checkCalls Ending)
  /-- It is at work. -/
  | busy (rest : Program checkCalls Ending)

def TaskState.hasBegun : TaskState → Bool
  | .spawned _ => false
  | .waiting _ | .busy _ => true

/-- How a check stands that the run is stopped behind. -/
def Pause.state (rest : Program checkCalls Ending) : Pause → TaskState
  | .hold _ => .busy rest
  | .none | .wait _ => .waiting rest

structure RuntimeTask where
  place : Nat
  slug : String
  state : TaskState

/-- The runtime checks in flight, and the slug of the one that is waited for. -/
structure RuntimeSlot where
  tasks : List RuntimeTask
  current : Option String

namespace RuntimeSlot

def empty : RuntimeSlot := ⟨[], none⟩

def spawn (t : RuntimeTask) (slot : RuntimeSlot) : RuntimeSlot := ⟨slot.tasks ++ [t], some t.slug⟩

/-- The check at a place has got further. -/
def advance (place : Nat) (state : TaskState) (slot : RuntimeSlot) : RuntimeSlot :=
  { slot with tasks := slot.tasks.map fun t => if t.place = place then { t with state } else t }

/-- The check at a place has ended and is not waited for any more. -/
def join (place : Nat) (slot : RuntimeSlot) : RuntimeSlot :=
  ⟨slot.tasks.filter (·.place != place), none⟩

end RuntimeSlot

namespace Progress

variable {σ : Type}

def tell (e : Event) (p : Progress σ) : Progress σ := { p with trace := e :: p.trace }

def askHost (host : Host σ) (env : Environment) (c : HostCall) (p : Progress σ) :
    c.Answer × Pause × Progress σ :=
  let pause := if host.suspends env.session c p.world then Pause.wait 0 else .none
  let (answer, world) := host.ask env.session c p.world
  (answer, pause, { p with world, trace := .asked c :: p.trace })

/-- Loads the plugin under the overrides in force, unless a report is there. -/
def load (host : Host σ) (env : Environment) (p : Progress σ) :
    Except HostRefusal Load.Report × Pause × Progress σ :=
  match p.report with
  | some report => (.ok report, .none, p)
  | none =>
    let (overrides, world) := host.ask env.session .overrides p.world
    let request : Load.Request :=
      ⟨env.context.mainFile, env.context.basename, env.namespaceName, overrides⟩
    let (outcome, world) := host.load env.session request world
    let pause := if outcome.delay = 0 then Pause.none else .wait outcome.delay
    (outcome.result, pause,
      { p with world, report := outcome.result.toOption, trace := .loaded request :: p.trace })

def answer (host : Host σ) (env : Environment) (c : CheckCall) (p : Progress σ) :
    c.Answer × Pause × Progress σ :=
  match c with
  | .option key => askHost host env (.option key) p
  | .addOverride key value => askHost host env (.addOverride key value) p
  | .removeOverride id => askHost host env (.removeOverride id) p
  | .overrides => askHost host env .overrides p
  | .load => load host env p
  | .emit f => ((), .none, { p with record := p.record.add f })
  | .note text => ((), .none, p.tell (.note text))
  | .sleep ms => ((), if ms = 0 then .none else .wait ms, p)
  | .block ms => ((), .hold ms, p)
  | .cancel => ((), .none, { p with cancelRequested := true })

/-- Waits, unless the run is stopped meanwhile. A check that keeps its place is not to be stopped
before it has done so. -/
def pause (watch : Watch) (pause : Pause) (p : Progress σ) : Option Stop × Progress σ :=
  match pause with
  | .none => (.none, p)
  | .wait ms =>
    match watch.stop? p.cancelRequested p.clock ms with
    | some (stop, clock) => (some stop, { p with clock })
    | none => (none, { p with clock := p.clock + ms })
  | .hold ms =>
    (if watch.parallel then (watch.stop? p.cancelRequested p.clock ms).map (·.1) else none,
      { p with clock := p.clock + ms })

/-- Has a check go on to its end, or until the run is stopped and leaves the check as it is. -/
def proceed (host : Host σ) (env : Environment) (watch : Watch) :
    Program checkCalls Ending → Progress σ → Except (Stop × TaskState) Ending × Progress σ
  | .done ending, p =>
    match if watch.parallel then watch.stop? p.cancelRequested p.clock 0 else none with
    | some (stop, _) => (.error (stop, .busy (.done ending)), p)
    | none => (.ok ending, p)
  | .ask c next, p =>
    let (a, wait, p) := answer host env c p
    match pause watch wait p with
    | (some stop, p) => (.error (stop, wait.state (next a)), p)
    | (none, p) => proceed host env watch (next a) p

/-- A check tells when it begins and when it has ended. -/
def fly (host : Host σ) (env : Environment) (watch : Watch) (place : Nat)
    (body : Program checkCalls Ending) (p : Progress σ) :
    Except (Stop × TaskState) Ending × Progress σ :=
  match proceed host env watch body (p.tell (.started place)) with
  | (.ok ending, p) => (.ok ending, p.tell (.ended place))
  | (.error stopped, p) => (.error stopped, p)

/-- What a check at work still does when it is aborted: it goes on to its end, or until it lets other
work go on. -/
def windDown (host : Host σ) (env : Environment) :
    Program checkCalls Ending → Progress σ → Option Ending × Progress σ
  | .done ending, p => (some ending, p)
  | .ask c next, p =>
    match answer host env c p with
    | (_, .wait _, p) => (none, p)
    | (a, .hold ms, p) => windDown host env (next a) { p with clock := p.clock + ms }
    | (a, .none, p) => windDown host env (next a) p

def halt (host : Host σ) (env : Environment) (state : TaskState) (p : Progress σ) :
    Option Ending × Progress σ :=
  match state with
  | .spawned _ | .waiting _ => (none, p)
  | .busy rest => windDown host env rest p

/-- Aborts a check, which is over then. It tells so if it has begun. -/
def abort (host : Host σ) (env : Environment) (t : RuntimeTask) (p : Progress σ) :
    Option Ending × Progress σ :=
  let (ending, q) := halt host env t.state p
  (ending, if t.state.hasBegun then q.tell (.ended t.place) else q)

def abortReason (stop : Stop) : String := "check aborted: " ++ stop.message

/-- Aborts checks one after another. The first one is recorded under the slug that is waited for. -/
def drainTasks (host : Host σ) (env : Environment) (stop : Stop) :
    List RuntimeTask → Option String → Progress σ → Progress σ
  | [], _, p => p
  | t :: rest, current, p =>
    let (ending, p) := abort host env t p
    match current with
    | none => drainTasks host env stop rest none p
    | some slug =>
      let record :=
        match ending with
        | some e => p.record.close slug e
        | none => p.record.fail slug (abortReason stop)
      drainTasks host env stop rest none { p with record }

/-- Has the checks in flight come to their end when the run has been stopped. -/
def drain (host : Host σ) (env : Environment) (stop : Stop) (slot : RuntimeSlot)
    (p : Progress σ) : Progress σ :=
  drainTasks host env stop slot.tasks slot.current p

/-- Whether the run is stopped before the next check begins. Before the first one the run has looked
for a cancellation already, and only a time limit can stop it. -/
def stopBefore? (watch : Watch) (first : Bool) (p : Progress σ) : Option Stop :=
  (if first then Watch.stop? { watch with cancelAt := none } false p.clock 0
    else watch.stop? p.cancelRequested p.clock 0).map (·.1)

/-- Waits for checks, given by their places and slugs, one after another. Tells whether the run has
been stopped, and what is still in flight then. -/
def attend (host : Host σ) (env : Environment) (watch : Watch) (first : Bool) :
    List (Nat × String × RuntimeCheck) → RuntimeSlot → Progress σ →
      Option Stop × RuntimeSlot × Progress σ
  | [], slot, p => (none, slot, p)
  | (place, slug, check) :: rest, slot, p =>
    let body := check.body env.context env.namespaceName
    let slot := slot.spawn ⟨place, slug, .spawned body⟩
    match stopBefore? watch first p with
    | some stop => (some stop, slot, p)
    | none =>
      match fly host env watch place body p with
      | (.error (stop, state), p) => (some stop, slot.advance place state, p)
      | (.ok ending, p) =>
        let record :=
          match slot.current with
          | some slug => p.record.close slug ending
          | none => p.record
        attend host env watch false rest (slot.join place) { p with record }

/-- Runs checks one after another. If the run is stopped, the check in flight comes to its end before
anything else is done. -/
def runChecks (host : Host σ) (env : Environment) (watch : Watch) (first : Bool)
    (checks : List (Nat × String × RuntimeCheck)) (p : Progress σ) : Option Stop × Progress σ :=
  match attend host env watch first checks .empty p with
  | (none, _, p) => (none, p)
  | (some stop, slot, p) => (some stop, drain host env stop slot p)

end Progress

end PluginAudit
