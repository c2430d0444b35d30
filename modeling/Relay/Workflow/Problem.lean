import Relay.Graph.Problem
import Relay.Queue.Problem
import Relay.Record.Store
import Relay.Template

/-!
# Problems of a request

A request fails because of what the caller asks for, or because the queues or
the store cannot serve it.  Only problems of the first kind are the caller's to
mend.
-/

namespace Relay

/-- Why a request fails. -/
inductive WorkflowProblem where
  | graph (problem : GraphProblem)
  | template (problem : TemplateProblem)
  | queue (problem : QueueError)
  | store (problem : StoreError)
  deriving DecidableEq, Repr

namespace WorkflowProblem

/-- The wording of a problem. -/
def message : WorkflowProblem → String
  | .graph problem => problem.message
  | .template problem => problem.message
  | .queue problem => "queue error: " ++ problem.message
  | .store problem => "database error: " ++ problem.message

/-- Whether the caller can mend the problem by asking for something else. -/
def isValidation : WorkflowProblem → Bool
  | .graph _ | .template _ => true
  | .queue _ | .store _ => false

end WorkflowProblem

end Relay
