import Relay.Chain
import Relay.Graph.Order
import Relay.Graph.Validation
import Relay.Workflow.Problem
import Relay.Workflow.Routine
import Relay.Workflow.View

/-!
# Submitting a workflow

A list of tasks is checked, ordered and compiled before anything is touched.
The chain is then handed to the queues, and a record of it to the store.
-/

namespace Relay

namespace Submission

/-- The chain that a list of tasks is submitted as. -/
def chainOf (routing : Routing) (id : Uuid) (tasks : List Task) : Except GraphProblem Flow := do
  Graph.validate tasks
  let order ← Graph.order tasks
  Chain.compile order id routing

/-- Follow the events of several queues. -/
def listenAll : List String → Routine Unit
  | [] => return ()
  | queue :: rest => do
      Routine.act (.listen queue)
      listenAll rest

/-- What the store is to remember of a submitted chain. -/
def newRecord (id : Uuid) (added : AddedFlow) (tasks : List Task) : NewWorkflow :=
  { id, rootJobId := added.jobId, queueName := added.queueName, status := .active
    definition := Task.listToJson tasks }

/-- Hand a chain to the queues and a record of it to the store. -/
def submitChain (routing : Routing) (id : Uuid) (tasks : List Task) (chain : Flow) :
    Routine (Except WorkflowProblem SubmittedWorkflow) := do
  listenAll (routing.queueNames ++ [chain.queueName])
  match ← Routine.act (.addFlow chain) with
  | .error problem => return .error (.queue problem)
  | .ok added =>
      match ← Routine.act (.insertRecord (newRecord id added tasks)) with
      | .error problem => return .error (.store problem)
      | .ok _ => return .ok ⟨id, added.jobId, added.name, added.queueName⟩

/-- Submit a list of tasks as a workflow with a fresh identifier. -/
def submit (routing : Routing) (id : Uuid) (tasks : List Task) :
    Routine (Except WorkflowProblem SubmittedWorkflow) :=
  match chainOf routing id tasks with
  | .error problem => return .error (.graph problem)
  | .ok chain => submitChain routing id tasks chain

/-- Submit the tasks that a template makes of some parameters. -/
def submitTemplate (routing : Routing) (id : Uuid) (name : String) (parameters : Json) :
    Routine (Except WorkflowProblem SubmittedWorkflow) :=
  match Template.build name parameters with
  | .error problem => return .error (.template problem)
  | .ok tasks => submit routing id tasks

end Submission

end Relay
