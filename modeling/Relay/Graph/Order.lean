import Relay.Graph.Problem
import Relay.Task

/-!
# The order in which tasks run

Tasks are put in an order in which every task comes after its fathers.  A task
is ready when all its fathers have been put out; ready tasks wait in a queue, in
which those that become ready together stand in input order.

The order is defined for any list of tasks.  Of several tasks of one name the
last owns the name, a father that is no task is ignored, and a father that is
named twice counts twice.
-/

namespace Relay

namespace Graph

/-- The position of the owner of every name: the last task that has it. -/
def owners (tasks : List Task) : Dict Nat :=
  .ofList (tasks.zipIdx.map fun entry => (entry.1.name, entry.2))

/-- For every position the positions of the fathers that are tasks. -/
def links (tasks : List Task) : List (List Nat) :=
  let owners := owners tasks
  tasks.map fun task => task.fathers.filterMap owners.get?

/-- The positions that name a position as a father, in order and as often as they do. -/
def dependents (links : List (List Nat)) (position : Nat) : List Nat :=
  links.zipIdx.flatMap fun entry => List.replicate (entry.1.count position) entry.2

/-- A state of the ordering. -/
structure Progress where
  /-- For every position the number of father links that are still open. -/
  pending : List Nat
  /-- Positions that are ready, the next one first. -/
  ready : List Nat
  /-- Positions that were put out, the last one first. -/
  done : List Nat
  deriving DecidableEq, Repr

namespace Progress

/-- The state before anything is put out. -/
def start (links : List (List Nat)) : Progress :=
  let pending := links.map List.length
  { pending
    ready := (List.range links.length).filter fun position => pending[position]? == some 0
    done := [] }

/-- Close one link to a dependent, which is ready when it was the last. -/
def close (progress : Progress) (dependent : Nat) : Progress :=
  let left := (progress.pending.getD dependent 0) - 1
  { progress with
    pending := progress.pending.set dependent left
    ready := if left = 0 then progress.ready ++ [dependent] else progress.ready }

/-- Put out the next ready position. -/
def step (links : List (List Nat)) (progress : Progress) : Progress :=
  match progress.ready with
  | [] => progress
  | position :: rest =>
      (dependents links position).foldl close
        { progress with ready := rest, done := position :: progress.done }

/-- Put out ready positions until there are none; every step puts out one. -/
def run (links : List (List Nat)) : Nat → Progress → Progress
  | 0, progress => progress
  | steps + 1, progress => run links steps (progress.step links)

/-- The state when nothing is left that could be put out. -/
def finish (links : List (List Nat)) : Progress := run links links.length (start links)

end Progress

/-- The positions of tasks in the order in which the tasks run, or the first
position that never gets ready. -/
def orderPositions (links : List (List Nat)) : Except Nat (List Nat) :=
  let final := Progress.finish links
  if final.done.length = links.length then .ok final.done.reverse
  else
    .error (((List.range links.length).find? fun position =>
      0 < final.pending.getD position 0).getD 0)

/-- The tasks in the order in which they run. -/
def order (tasks : List Task) : Except GraphProblem (List Task) :=
  match orderPositions (links tasks) with
  | .ok positions => .ok (positions.filterMap fun position => tasks[position]?)
  | .error position =>
      .error (.cycleDetected ((tasks[position]?.map Task.name).getD ""))

end Graph

end Relay
