/-!
# Problems of a workflow graph
-/

namespace Relay

/-- Why a list of tasks is not a workflow. -/
inductive GraphProblem where
  /-- There is no task. -/
  | emptyWorkflow
  /-- The name of a task is blank. -/
  | missingName
  /-- Two tasks have the same name. -/
  | duplicateName (name : String)
  /-- A father is not among the tasks. -/
  | unresolvedFather (task father : String)
  /-- Following fathers leads from a task back to it. -/
  | cycleDetected (name : String)
  deriving DecidableEq, Repr

/-- The wording of a problem. -/
def GraphProblem.message : GraphProblem → String
  | .emptyWorkflow => "workflow must contain at least one task"
  | .missingName => "all tasks must have a name"
  | .duplicateName name => "duplicate task name found: '" ++ name ++ "'"
  | .unresolvedFather task father =>
      "task '" ++ task ++ "' depends on unknown father '" ++ father ++ "'"
  | .cycleDetected name => "cycle detected involving task '" ++ name ++ "'"

end Relay
