import Relay.Flow.Basic
import Relay.Graph.Problem
import Relay.Routing

/-!
# Chains

The queues know only trees in which children run before their parent.  So an
ordered list of tasks becomes a chain: the first task is the innermost job, and
every later task wraps the one before it as its only child.  A step that fails
takes everything that is wrapped around it along.
-/

namespace Relay

namespace Chain

/-- The job of one task around the jobs of the tasks before it. -/
def wrap (workflowId : Uuid) (routing : Routing) (inner : List Flow) (task : Task) : Flow :=
  { name := task.name
    queueName := routing.queueFor task
    data := (StepData.ofTask task workflowId).toJson
    options := ⟨true, none⟩
    children := inner }

/-- Wrap the jobs of tasks around each other.  The list has one flow, or none
before the first task. -/
def wrapAll (workflowId : Uuid) (routing : Routing) (order : List Task) : List Flow :=
  order.foldl (fun inner task => [wrap workflowId routing inner task]) []

/-- The chain of an ordered list of tasks. -/
def compile (order : List Task) (workflowId : Uuid) (routing : Routing) :
    Except GraphProblem Flow :=
  match wrapAll workflowId routing order with
  | chain :: _ => .ok chain
  | [] => .error .emptyWorkflow

end Chain

end Relay
