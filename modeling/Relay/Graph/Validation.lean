import Relay.Graph.Problem
import Relay.Task
import Relay.Text.Blank

/-!
# Validation of a workflow graph

Four checks stand between a list of tasks and its submission: there is a task,
every name is present and given once, every father is among the tasks, and no
task is its own ancestor.  The first check that fails is reported.  Cycles are
found by a depth-first search along the fathers that keeps the tasks it has
visited and the path on which it stands.
-/

namespace Relay

namespace Graph

/-- Check the names of tasks in order; `seen` holds the names before them. -/
def checkNames : (seen : List String) → List Task → Except GraphProblem Unit
  | _, [] => .ok ()
  | seen, task :: rest =>
      if Text.isBlank task.name then .error .missingName
      else if seen.contains task.name then .error (.duplicateName task.name)
      else checkNames (task.name :: seen) rest

/-- Check that every father of every task is one of the given names. -/
def checkFathers (names : List String) : List Task → Except GraphProblem Unit
  | [] => .ok ()
  | task :: rest =>
      match task.fathers.find? fun father => !names.contains father with
      | some father => .error (.unresolvedFather task.name father)
      | none => checkFathers names rest

/-- The fathers of the task with a given name. -/
def fathersOf (tasks : List Task) (name : String) : List String :=
  ((tasks.find? fun task => task.name == name).map Task.fathers).getD []

/-- Visit a task and then, one after another, its fathers.  Returns the tasks
visited so far, or the task at which the path closes.  The path has no
repetitions, so the depth is at most the number of tasks. -/
def visit (tasks : List Task) : (depth : Nat) → (path visited : List String) →
    (name : String) → Except GraphProblem (List String)
  | 0, _, visited, _ => .ok visited
  | depth + 1, path, visited, name =>
      if path.contains name then .error (.cycleDetected name)
      else if visited.contains name then .ok visited
      else
        (fathersOf tasks name).foldlM
          (fun visited father => visit tasks depth (name :: path) visited father)
          (name :: visited)

/-- Search for a cycle from every task that no earlier search has visited. -/
def checkCycles (tasks : List Task) : Except GraphProblem Unit := do
  let _ ← tasks.foldlM
    (fun visited task =>
      if visited.contains task.name then .ok visited
      else visit tasks (tasks.length + 1) [] visited task.name)
    []
  return ()

/-- Validate a list of tasks. -/
def validate (tasks : List Task) : Except GraphProblem Unit := do
  if tasks.isEmpty then .error .emptyWorkflow
  checkNames [] tasks
  checkFathers (tasks.map Task.name) tasks
  checkCycles tasks

end Graph

end Relay
