import Relay.Decode.Basic

/-!
# Workflow records

A record remembers a submitted workflow: its root job and the status in which it
was last seen.  The status is kept as text, because it may be any state that the
queue reports.
-/

namespace Relay

/-- The status of a workflow. -/
inductive WorkflowStatus where
  | active
  | completed
  | failed
  /-- Another state of the root job. -/
  | reported (state : String)
  deriving DecidableEq, Repr

namespace WorkflowStatus

/-- The status that a text stands for. -/
def ofText (text : String) : WorkflowStatus :=
  if text = "active" then .active
  else if text = "completed" then .completed
  else if text = "failed" then .failed
  else .reported text

/-- The text of a status. -/
def text : WorkflowStatus → String
  | .active => "active"
  | .completed => "completed"
  | .failed => "failed"
  | .reported state => state

/-- Whether the queue is no longer asked for the status. -/
def isTerminal : WorkflowStatus → Bool
  | .completed | .failed => true
  | .active | .reported _ => false

/-- The value that stands for a status. -/
def toJson : WorkflowStatus → Json
  | .active => .string "Active"
  | .completed => .string "Completed"
  | .failed => .string "Failed"
  | .reported state => .object [("Reported", .string state)]

/-- Read a status. -/
def decoder : Decoder WorkflowStatus :=
  .enumeration
    [.bare "Active" .active, .bare "Completed" .completed, .bare "Failed" .failed,
      .holding "Reported" fun place document => (Decoder.string place document).map .reported]

end WorkflowStatus

/-- The record of a submitted workflow. -/
structure WorkflowRecord where
  id : Uuid
  /-- The outermost job of the chain. -/
  rootJobId : String
  queueName : String
  status : String
  /-- The tasks as they were submitted. -/
  definition : Json
  createdAt : Timestamp
  updatedAt : Timestamp
  deriving DecidableEq, Repr

namespace WorkflowRecord

/-- Whether the status of the record is final. -/
def isTerminal (record : WorkflowRecord) : Bool := (WorkflowStatus.ofText record.status).isTerminal

/-- The value that stands for a record. -/
def toJson (record : WorkflowRecord) : Json :=
  .object [("created_at", .string record.createdAt.text), ("definition", record.definition),
    ("id", .string record.id.text), ("queue_name", .string record.queueName),
    ("root_job_id", .string record.rootJobId), ("status", .string record.status),
    ("updated_at", .string record.updatedAt.text)]

/-- Read a record. -/
def decoder : Decoder WorkflowRecord :=
  .record "struct WorkflowRow"
    [.of "id" .required .uuid fun record id => { record with id },
      .of "root_job_id" .required .string fun record rootJobId => { record with rootJobId },
      .of "queue_name" .required .string fun record queueName => { record with queueName },
      .of "status" .required .string fun record status => { record with status },
      .of "definition" .required Decoder.json fun record definition => { record with definition },
      .of "created_at" .required .timestamp fun record createdAt => { record with createdAt },
      .of "updated_at" .required .timestamp fun record updatedAt => { record with updatedAt }]
    ⟨Uuid.ofNat 0, "", "", "", .null, ⟨0, 0⟩, ⟨0, 0⟩⟩

end WorkflowRecord

/-- What a submission stores; the store adds the times. -/
structure NewWorkflow where
  id : Uuid
  rootJobId : String
  queueName : String
  status : WorkflowStatus
  definition : Json
  deriving DecidableEq, Repr

end Relay
