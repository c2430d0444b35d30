import Relay.Queue.Submit
import Relay.Queue.Subscription
import Relay.Workflow.Inspection
import Relay.Workflow.Submission
import Relay.Workflow.Tracking

/-!
# The workflow system

The queues, the records and the listeners that connect them.  The functions here
run every routine without interruption.
-/

namespace Relay

/-- Everything that the routines act on. -/
structure WorkflowSystem where
  routing : Routing
  queues : Queues
  records : RecordStore
  /-- How far the listener of a queue has read, by queue. -/
  listeners : Dict Subscription

namespace WorkflowSystem

/-- A system before anything is submitted. -/
def start (routing : Routing) (settings : Dict QueueSettings) : WorkflowSystem :=
  { routing, queues := .start settings, records := .empty, listeners := .empty }

/-- The present time. -/
def time (system : WorkflowSystem) : Timestamp := .ofMilliseconds system.queues.now

/-- Follow the events of a queue from now on, unless they are followed already. -/
def listen (system : WorkflowSystem) (queue : String) : WorkflowSystem :=
  if system.listeners.contains queue then system
  else
    { system with
      listeners := system.listeners.insert queue (.after (system.queues.lane queue).events)
      queues := system.queues.touch queue }

/-- Follow the events of every queue that tasks are routed to. -/
def listenToRouted (system : WorkflowSystem) : WorkflowSystem :=
  system.routing.queueNames.foldl listen system

/-- What an action gives back and does. -/
def answer : (action : Action) → WorkflowSystem → action.Reply × WorkflowSystem
  | .insertRecord new, system =>
      let record := RecordStore.recordOf system.time new
      (.ok record, { system with records := system.records.insert record })
  | .getRecord id, system => (.ok (system.records.get? id), system)
  | .findRecord queue job, system => (.ok (system.records.findByRoot? queue job), system)
  | .updateStatus id status, system =>
      match system.records.updateStatus system.time id status with
      | .ok records => (.ok (), { system with records })
      | .error problem => (.error problem, system)
  | .deleteRecord id, system =>
      match system.records.delete id with
      | .ok records => (.ok (), { system with records })
      | .error problem => (.error problem, system)
  | .addFlow flow, system =>
      let (added, queues) := system.queues.add flow
      (added, { system with queues })
  | .jobState key, system => (.ok (system.queues.jobState? key), system)
  | .getFlow key, system => (.ok (system.queues.tree? key), system)
  | .listen queue, system => ((), system.listen queue)
  | .lock _, system => ((), system)
  | .unlock _, system => ((), system)

/-- Run a routine on the system without interruption. -/
def perform {α : Type} (system : WorkflowSystem) (routine : Routine α) : α × WorkflowSystem :=
  routine.run answer system

/-- Submit tasks as a workflow with a fresh identifier. -/
def submit (system : WorkflowSystem) (id : Uuid) (tasks : List Task) :
    Except WorkflowProblem SubmittedWorkflow × WorkflowSystem :=
  system.perform (Submission.submit system.routing id tasks)

/-- Submit the tasks of a template as a workflow with a fresh identifier. -/
def submitTemplate (system : WorkflowSystem) (id : Uuid) (name : String) (parameters : Json) :
    Except WorkflowProblem SubmittedWorkflow × WorkflowSystem :=
  system.perform (Submission.submitTemplate system.routing id name parameters)

/-- Read a workflow. -/
def read (system : WorkflowSystem) (id : Uuid) :
    Except WorkflowProblem (Option WorkflowView) × WorkflowSystem :=
  system.perform (Inspection.read id)

/-- The listener of a queue receives what comes next, if there is anything. -/
def receive? (system : WorkflowSystem) (queue : String) : Option (Delivery × WorkflowSystem) :=
  (system.listeners.get? queue).bind fun subscription =>
    (subscription.receive? (system.queues.lane queue).events).map fun (delivery, subscription) =>
      (delivery, { system with listeners := system.listeners.insert queue subscription })

/-- What the listener of a queue does with what it receives; missed events are
passed over. -/
def react (queue : String) : Delivery → Routine Unit
  | .event event => Tracking.handle queue event
  | .lagged _ => return ()

/-- The listener of a queue receives an event, if there is one, and handles it. -/
def deliver? (system : WorkflowSystem) (queue : String) : Option WorkflowSystem :=
  (system.receive? queue).map fun (delivery, system) => (system.perform (react queue delivery)).2

end WorkflowSystem

end Relay
