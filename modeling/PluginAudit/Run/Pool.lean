import PluginAudit.Check.Basic

/-!
The pool in which static checks run. Checks begin in order as long as there is room, go on step by
step in any order, and are recorded in any order once they have ended. A list of moves says which
order it is; moves that are not possible are passed over, and what the moves leave is done in
order.
-/

namespace PluginAudit

/-- A static check by its place in the selection, with the steps still to do. -/
structure StaticTask where
  place : Nat
  slug : String
  steps : List StaticStep
  ending : Ending

structure Pool where
  waiting : List StaticTask
  running : List StaticTask
  ended : List StaticTask
  record : CheckRecord
  trace : List Event

inductive PoolMove where
  | start
  /-- A running check does its next step. -/
  | step (place : Nat)
  /-- A running check without further steps ends. -/
  | finish (place : Nat)
  /-- The outcome of an ended check is recorded. -/
  | collect (place : Nat)
  /-- Time passes while the checks are at work. -/
  | wait (milliseconds : Nat)
  /-- The run looks whether it has been cancelled. -/
  | heed

namespace Pool

def ofTasks (tasks : List StaticTask) : Pool := ⟨tasks, [], [], .empty, []⟩

/-- No pool can be made for more checks at a time. -/
def capacity : Nat := 0x1FFFFFFFFFFFFFFF

/-- The attempt to make a larger pool. -/
def breakdown : Breakdown :=
  .text ("a semaphore may not have more than MAX_PERMITS permits (" ++ capacity.repr ++ ")")

/-- At least one check runs at a time. -/
def room (limit : Nat) : Nat := max limit 1

def perform (step : StaticStep) (p : Pool) : Pool :=
  match step with
  | .emit f => { p with record := p.record.add f }
  | .note text => { p with trace := .note text :: p.trace }

def setTask (task : StaticTask) (tasks : List StaticTask) : List StaticTask :=
  tasks.map fun t => if t.place = task.place then task else t

def move? (limit : Nat) (p : Pool) (m : PoolMove) : Option Pool :=
  match m with
  | .start =>
    match p.waiting with
    | [] => none
    | t :: rest =>
      if p.running.length < room limit then
        some { p with
          waiting := rest, running := p.running ++ [t], trace := .started t.place :: p.trace }
      else none
  | .step place =>
    match p.running.find? (·.place == place) with
    | some t =>
      match t.steps with
      | [] => none
      | s :: rest =>
        some (perform s { p with running := setTask { t with steps := rest } p.running })
    | none => none
  | .finish place =>
    match p.running.find? (·.place == place) with
    | some t =>
      if t.steps.isEmpty then
        some { p with
          running := p.running.filter (·.place != place)
          ended := p.ended ++ [t]
          trace := .ended place :: p.trace }
      else none
    | none => none
  | .collect place =>
    match p.ended.find? (·.place == place) with
    | some t =>
      some { p with
        ended := p.ended.filter (·.place != place)
        record := p.record.close t.slug t.ending }
    | none => none
  | .wait _ | .heed => some p

def move (limit : Nat) (p : Pool) (m : PoolMove) : Pool := (p.move? limit m).getD p

def isDone (p : Pool) : Bool := p.waiting.isEmpty && p.running.isEmpty && p.ended.isEmpty

/-- The moves that finish a running check and record it. -/
def completion (t : StaticTask) : List PoolMove :=
  List.replicate t.steps.length (.step t.place) ++ [.finish t.place, .collect t.place]

/-- The moves that do in order all that is left to do. -/
def remaining (p : Pool) : List PoolMove :=
  p.ended.map (fun t => .collect t.place) ++ p.running.flatMap completion ++
    p.waiting.flatMap fun t => .start :: completion t

/-- Runs all checks: first as the moves say, then in order. -/
def complete (limit : Nat) (moves : List PoolMove) (p : Pool) : Pool :=
  let p := moves.foldl (move limit) p
  p.remaining.foldl (move limit) p

end Pool

end PluginAudit
