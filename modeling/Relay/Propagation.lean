import Relay.Ancestors
import Relay.Handler.Registry
import Relay.Task

/-!
# Running one step

A step is run by decoding its job data, finding its handler, showing the handler
the results of the step's fathers, and wrapping the handler's result into an
envelope together with everything that is known of earlier steps.
-/

namespace Relay

/-- Why a job gives no value. -/
inductive JobError where
  /-- Another attempt may succeed. -/
  | retryable (message : String)
  /-- The job fails at once. -/
  | unrecoverable (message : String)
  deriving DecidableEq, Repr

namespace JobError

/-- The wording of a job error. -/
def message : JobError → String
  | .retryable message => message
  | .unrecoverable message => "unrecoverable: " ++ message

/-- What a handler's error means for the job. -/
def ofHandler : HandlerError → JobError
  | .retryable message => .retryable message
  | .fatal message => .unrecoverable message

end JobError

namespace Propagation

/-- Decode the data of a job. -/
def decodeStep (data : Json) : Except JobError StepData :=
  match data.decode StepData.decoder with
  | .ok step => .ok step
  | .error problem => .error (.unrecoverable ("malformed step data: " ++ problem.message))

/-- The key of the handler of a step. -/
def stepKey (step : StepData) : String := handlerKey step.taskType step.payload

/-- How long a job takes, in milliseconds: as long as its handler, or no time at
all if there is none. -/
def duration (registry : Registry) (data : Json) : Nat :=
  match decodeStep data with
  | .ok step =>
      match registry.resolve (stepKey step) with
      | .ok registration => registration.handler.duration
      | .error _ => 0
  | .error _ => 0

/-- What the handler of a step is told about its job. -/
def context (step : StepData) (jobId : String) : ExecutionContext :=
  { taskName := step.taskName, payload := step.payload, workflowId := step.workflowId
    jobId, taskType := step.taskType, track := step.track }

/-- The envelope of a step's result. -/
def envelope (step : StepData) (ancestors : Ancestors) (result : StepResult) : Envelope :=
  { name := step.taskName, result, ancestors := (ancestors.record step.taskName result).results }

/-- Run the job of a step on the return values of its children, with any handlers. -/
def processWith {σ : Type} (handlers : Handlers σ) (jobId : String) (data : Json)
    (children : Dict Json) (state : σ) : Except JobError Json × σ :=
  match decodeStep data with
  | .error problem => (.error problem, state)
  | .ok step =>
      match handlers.resolve (stepKey step) with
      | .error problem => (.error (.ofHandler problem), state)
      | .ok handle =>
          let ancestors := Ancestors.ofChildren children
          match handle (context step jobId) (ancestors.visibleTo step.fathers) state with
          | (.ok result, state) => (.ok (envelope step ancestors result).toJson, state)
          | (.error problem, state) => (.error (.ofHandler problem), state)

/-- Run the job of a step with the handlers of a registry. -/
def process (registry : Registry) (data : Json) (children : Dict Json) :
    Except JobError Json × Registry :=
  processWith registry.handlers "" data children registry

end Propagation

end Relay
