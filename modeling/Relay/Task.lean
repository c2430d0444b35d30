import Relay.Decode.Basic

/-!
# Tasks of a workflow

A workflow is submitted as a list of tasks.  A task names the tasks whose
results it wants to see, its fathers, and says by its type, and if need be by an
explicit queue name, where it runs.
-/

namespace Relay

/-- One named step of a workflow graph. -/
structure Task where
  /-- The name by which other tasks of the workflow refer to this one. -/
  name : String
  /-- Tasks that run before this one and whose results it sees. -/
  fathers : List String
  /-- Decides on the handler and, unless a queue is named, on the queue. -/
  type : String
  /-- Whether the identity of the step matters to the outside. -/
  track : Bool
  /-- Data for the handler; a text under `target` refines the choice of the handler. -/
  payload : Json
  /-- The queue to run on, if it is not to be found by the type. -/
  queueName : Option String
  deriving DecidableEq, Repr

namespace Task

/-- A task with nothing but a name and a type. -/
def plain (name type : String) : Task :=
  { name, fathers := [], type, track := false, payload := .null, queueName := none }

/-- The value that stands for a task; a missing queue name is left out. -/
def toJson (task : Task) : Json :=
  .object ([("fathers", Json.ofStrings task.fathers), ("name", .string task.name),
    ("payload", task.payload)] ++
    (match task.queueName with
      | some queueName => [("queue_name", .string queueName)]
      | none => []) ++
    [("track", .bool task.track), ("type", .string task.type)])

/-- Read a task. -/
def decoder : Decoder Task :=
  .record "struct TaskDefinition"
    [.of "name" .required .string fun task name => { task with name },
      .of "fathers" .defaulted (.list .string) fun task fathers => { task with fathers },
      .of "type" .required .string fun task type => { task with type },
      .of "track" .defaulted .bool fun task track => { task with track },
      .of "payload" .defaulted Decoder.json fun task payload => { task with payload },
      .of "queue_name" .defaulted (.optional .string) fun task queueName => { task with queueName }]
    (plain "" "")

/-- Read a list of tasks. -/
def listDecoder : Decoder (List Task) := .list decoder

/-- The value that stands for a list of tasks. -/
def listToJson (tasks : List Task) : Json := .array (tasks.map toJson)

end Task

/-- What the job of one step carries through the queue.  The fathers are all
that is left of the graph once it has become a chain. -/
structure StepData where
  workflowId : Uuid
  taskName : String
  taskType : String
  track : Bool
  fathers : List String
  payload : Json
  deriving DecidableEq, Repr

namespace StepData

/-- The data of the step that runs a task. -/
def ofTask (task : Task) (workflowId : Uuid) : StepData :=
  { workflowId, taskName := task.name, taskType := task.type, track := task.track
    fathers := task.fathers, payload := task.payload }

/-- The value that stands for the data of a step. -/
def toJson (step : StepData) : Json :=
  .object [("fathers", Json.ofStrings step.fathers), ("payload", step.payload),
    ("task_name", .string step.taskName), ("task_type", .string step.taskType),
    ("track", .bool step.track), ("workflow_id", .string step.workflowId.text)]

/-- Read the data of a step. -/
def decoder : Decoder StepData :=
  .record "struct StepData"
    [.of "workflow_id" .required .uuid fun step workflowId => { step with workflowId },
      .of "task_name" .required .string fun step taskName => { step with taskName },
      .of "task_type" .required .string fun step taskType => { step with taskType },
      .of "track" .required .bool fun step track => { step with track },
      .of "fathers" .required (.list .string) fun step fathers => { step with fathers },
      .of "payload" .required Decoder.json fun step payload => { step with payload }]
    (ofTask (Task.plain "" "") (Uuid.ofNat 0))

end StepData

end Relay
