import Relay.Workflow.Problem
import Relay.Workflow.Routine
import Relay.Workflow.View

/-!
# Reading a workflow

The queues know how far a workflow has come; its record only remembers what was
seen last.  So reading a workflow first brings the status of its record up to
date.  A record whose jobs the queues no longer have is expired and is deleted
by whoever reads it next.
-/

namespace Relay

namespace Inspection

/-- What the queues say of a recorded workflow. -/
inductive Finding where
  | live (view : WorkflowView)
  | expired

/-- The jobs of a record; none if the queues do not have them. -/
def treeOf (record : WorkflowRecord) : Routine (Option JobTree) := do
  match ← Routine.act (.getFlow ⟨record.queueName, record.rootJobId⟩) with
  | .ok tree => return tree
  | .error _ => return none

/-- The state of the root job of a record; none if the queues do not have it. -/
def rootState (record : WorkflowRecord) : Routine (Option JobState) := do
  match ← Routine.act (.jobState ⟨record.queueName, record.rootJobId⟩) with
  | .ok state => return state
  | .error _ => return none

/-- Write a status to a record and read the record again.  If it is gone by then,
the reader goes on with what it has. -/
def refresh (record : WorkflowRecord) (status : String) :
    Routine (Except StoreError WorkflowRecord) := do
  match ← Routine.act (.updateStatus record.id status) with
  | .error problem => return .error problem
  | .ok () =>
      match ← Routine.act (.getRecord record.id) with
      | .error problem => return .error problem
      | .ok found => return .ok (found.getD { record with status })

/-- Bring the status of a record up to date; none if the record is expired.  A
final status is not looked at again. -/
def reconcile (record : WorkflowRecord) : Routine (Except StoreError (Option WorkflowRecord)) := do
  if record.isTerminal then return .ok (some record)
  else
    match ← rootState record with
    | none => return .ok none
    | some state =>
        if state.text = record.status then return .ok (some record)
        else return (← refresh record state.text).map some

/-- Compare a record with the queues. -/
def examine (record : WorkflowRecord) : Routine (Except StoreError Finding) := do
  match ← reconcile record with
  | .error problem => return .error problem
  | .ok none => return .ok .expired
  | .ok (some record) =>
      match ← treeOf record with
      | none => return .ok .expired
      | some tree => return .ok (.live (.ofRecord record tree))

/-- Delete an expired record, which may be gone already. -/
def expire (id : Uuid) : Routine (Except StoreError Unit) := do
  match ← Routine.act (.deleteRecord id) with
  | .error .poolTimeout => return .error .poolTimeout
  | .error .notFound | .ok () => return .ok ()

/-- Read a workflow while its lock is held. -/
def readLocked (id : Uuid) : Routine (Except StoreError (Option WorkflowView)) := do
  match ← Routine.act (.getRecord id) with
  | .error problem => return .error problem
  | .ok none => return .ok none
  | .ok (some record) =>
      match ← examine record with
      | .error problem => return .error problem
      | .ok (.live view) => return .ok (some view)
      | .ok .expired => return (← expire id).map fun _ => none

/-- Read a workflow. -/
def read (id : Uuid) : Routine (Except WorkflowProblem (Option WorkflowView)) := do
  Routine.act (.lock id)
  let answer ← readLocked id
  Routine.act (.unlock id)
  return answer.mapError .store

end Inspection

end Relay
