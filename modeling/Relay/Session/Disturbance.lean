import Relay.Workflow.Routine

/-!
# Disturbed surroundings

To see how routines cope, a session can put fixed answers in the place of the
queues, and it can make single calls of the store fail or take long.
-/

namespace Relay

/-- What is wrong with one call of the store. -/
inductive Disturbance where
  | refusal (problem : StoreError)
  /-- A record that is there is not found. -/
  | absence
  /-- The call takes some milliseconds. -/
  | delay (duration : Nat)
  deriving DecidableEq, Repr

namespace Disturbance

/-- The reply of a disturbed call; none if it is the usual reply. -/
def reply? (disturbance : Disturbance) : (action : Action) → Option action.Reply
  | .insertRecord _ => match disturbance with
      | .refusal problem => some (.error problem)
      | .absence | .delay _ => none
  | .getRecord _ | .findRecord _ _ => match disturbance with
      | .refusal problem => some (.error problem)
      | .absence => some (.ok none)
      | .delay _ => none
  | .updateStatus _ _ | .deleteRecord _ => match disturbance with
      | .refusal problem => some (.error problem)
      | .absence | .delay _ => none
  | .addFlow _ | .jobState _ | .getFlow _ | .listen _ | .lock _ | .unlock _ => none

end Disturbance

/-- What is wrong with the next calls of the store, by the kind of call.  Every
call uses up one entry; calls after the last entry are undisturbed. -/
structure Disturbances where
  insert : List (Option Disturbance)
  get : List (Option Disturbance)
  find : List (Option Disturbance)
  update : List (Option Disturbance)
  delete : List (Option Disturbance)
  deriving DecidableEq, Repr

namespace Disturbances

/-- The first entry of a list and the entries after it. -/
def take (entries : List (Option Disturbance)) :
    Option Disturbance × List (Option Disturbance) :=
  (entries.head?.join, entries.tail)

/-- What is wrong with the next call of an action. -/
def next (disturbances : Disturbances) (action : Action) : Option Disturbance × Disturbances :=
  match action with
  | .insertRecord _ =>
      let (disturbance, insert) := take disturbances.insert
      (disturbance, { disturbances with insert })
  | .getRecord _ =>
      let (disturbance, get) := take disturbances.get
      (disturbance, { disturbances with get })
  | .findRecord _ _ =>
      let (disturbance, find) := take disturbances.find
      (disturbance, { disturbances with find })
  | .updateStatus _ _ =>
      let (disturbance, update) := take disturbances.update
      (disturbance, { disturbances with update })
  | .deleteRecord _ =>
      let (disturbance, delete) := take disturbances.delete
      (disturbance, { disturbances with delete })
  | .addFlow _ | .jobState _ | .getFlow _ | .listen _ | .lock _ | .unlock _ =>
      (none, disturbances)

end Disturbances

/-- Fixed answers in the place of the queues. -/
structure StandIn where
  /-- The root job of every submitted flow. -/
  addFlow : Except QueueError String
  jobState : Except QueueError (Option JobState)
  getFlow : Except QueueError (Option JobTree)

namespace StandIn

/-- The reply to an action on the queues. -/
def reply? (standIn : StandIn) : (action : Action) → Option action.Reply
  | .addFlow flow => some (standIn.addFlow.map fun jobId => ⟨jobId, flow.name, flow.queueName⟩)
  | .jobState _ => some standIn.jobState
  | .getFlow _ => some standIn.getFlow
  | .insertRecord _ | .getRecord _ | .findRecord _ _ | .updateStatus _ _ | .deleteRecord _
  | .listen _ | .lock _ | .unlock _ => none

end StandIn

end Relay
