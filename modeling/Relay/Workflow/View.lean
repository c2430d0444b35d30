import Relay.Flow.Tree
import Relay.Record.Basic

/-!
# What callers see of a workflow
-/

namespace Relay

/-- What the submission of a workflow answers. -/
structure SubmittedWorkflow where
  workflowId : Uuid
  rootJobId : String
  /-- The name of the root job, which is the last step. -/
  name : String
  queueName : String
  deriving DecidableEq, Repr

namespace SubmittedWorkflow

/-- The value that stands for the answer. -/
def toJson (submitted : SubmittedWorkflow) : Json :=
  .object [("name", .string submitted.name), ("queue_name", .string submitted.queueName),
    ("root_job_id", .string submitted.rootJobId),
    ("workflow_id", .string submitted.workflowId.text)]

/-- Read the answer. -/
def decoder : Decoder SubmittedWorkflow :=
  .record "struct SubmittedWorkflow"
    [.of "workflow_id" .required .uuid fun submitted workflowId => { submitted with workflowId },
      .of "root_job_id" .required .string fun submitted rootJobId => { submitted with rootJobId },
      .of "name" .required .string fun submitted name => { submitted with name },
      .of "queue_name" .required .string fun submitted queueName => { submitted with queueName }]
    ⟨Uuid.ofNat 0, "", "", ""⟩

end SubmittedWorkflow

/-- One step of a workflow as the queue sees it. -/
structure StepStatus where
  jobId : String
  jobName : String
  status : String
  deriving DecidableEq, Repr

namespace StepStatus

/-- The status of the step of a job. -/
def ofSnapshot (job : JobSnapshot) : StepStatus :=
  { jobId := job.id, jobName := job.name, status := job.state.text }

/-- The value that stands for the status of a step. -/
def toJson (step : StepStatus) : Json :=
  .object [("job_id", .string step.jobId), ("job_name", .string step.jobName),
    ("status", .string step.status)]

/-- Read the status of a step. -/
def decoder : Decoder StepStatus :=
  .record "struct StepStatus"
    [.of "job_id" .required .string fun step jobId => { step with jobId },
      .of "job_name" .required .string fun step jobName => { step with jobName },
      .of "status" .required .string fun step status => { step with status }]
    ⟨"", "", ""⟩

end StepStatus

/-- A workflow as its record and the queue describe it together. -/
structure WorkflowView where
  id : Uuid
  rootJobId : String
  queueName : String
  status : String
  createdAt : Timestamp
  updatedAt : Timestamp
  /-- The steps in the order in which they run. -/
  steps : List StepStatus
  deriving DecidableEq, Repr

namespace WorkflowView

/-- The view of a record and the tree of its root job. -/
def ofRecord (record : WorkflowRecord) (tree : JobTree) : WorkflowView :=
  { id := record.id, rootJobId := record.rootJobId, queueName := record.queueName
    status := record.status, createdAt := record.createdAt, updatedAt := record.updatedAt
    steps := tree.postOrder.map StepStatus.ofSnapshot }

/-- The value that stands for a view. -/
def toJson (view : WorkflowView) : Json :=
  .object [("created_at", .string view.createdAt.text), ("id", .string view.id.text),
    ("queue_name", .string view.queueName), ("root_job_id", .string view.rootJobId),
    ("status", .string view.status), ("steps", .array (view.steps.map StepStatus.toJson)),
    ("updated_at", .string view.updatedAt.text)]

/-- Read a view. -/
def decoder : Decoder WorkflowView :=
  .record "struct WorkflowView"
    [.of "id" .required .uuid fun view id => { view with id },
      .of "root_job_id" .required .string fun view rootJobId => { view with rootJobId },
      .of "queue_name" .required .string fun view queueName => { view with queueName },
      .of "status" .required .string fun view status => { view with status },
      .of "created_at" .required .timestamp fun view createdAt => { view with createdAt },
      .of "updated_at" .required .timestamp fun view updatedAt => { view with updatedAt },
      .of "steps" .required (.list StepStatus.decoder) fun view steps => { view with steps }]
    ⟨Uuid.ofNat 0, "", "", "", ⟨0, 0⟩, ⟨0, 0⟩, []⟩

end WorkflowView

end Relay
