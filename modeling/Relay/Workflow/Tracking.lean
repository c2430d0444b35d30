import Relay.Flow.Event
import Relay.Workflow.Routine

/-!
# Following the events of the queues

When the root job of a workflow finishes, its record gets the final status.
Events of other jobs find no record.  Nobody waits for the outcome, so whatever
goes wrong is passed over: the next reader of the workflow brings its record up
to date.
-/

namespace Relay

namespace Tracking

/-- The final status of a workflow whose root job an event is about. -/
def statusOf : QueueEvent → WorkflowStatus
  | .completed _ => .completed
  | .failed _ _ => .failed

/-- Write a final status to a record that is still there. -/
def writeLocked (id : Uuid) (status : WorkflowStatus) : Routine Unit := do
  match ← Routine.act (.getRecord id) with
  | .ok (some _) =>
      let _ ← Routine.act (.updateStatus id status.text)
      return ()
  | .ok none | .error _ => return ()

/-- Handle an event of a queue.  The record is looked up before its lock is taken,
and again afterwards, because it may have been deleted meanwhile. -/
def handle (queue : String) (event : QueueEvent) : Routine Unit := do
  match ← Routine.act (.findRecord queue event.jobId) with
  | .ok (some record) =>
      Routine.act (.lock record.id)
      writeLocked record.id (statusOf event)
      Routine.act (.unlock record.id)
  | .ok none | .error _ => return ()

end Tracking

end Relay
