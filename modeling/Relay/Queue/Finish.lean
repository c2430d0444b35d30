import Relay.Propagation
import Relay.Queue.Worker

/-!
# The end of an attempt

A call returns a value or an error.  A value completes the job and may make its
parent ready.  An error after which another attempt is allowed delays the job.
Any other error fails the job and, as long as the options say so, the jobs
above it.
-/

namespace Relay

namespace Queues

/-- Whether a job waits for its last child. -/
def awaitsLastChild (job : Job) : Prop :=
  job.pendingChildren - 1 = 0 ∧ job.state = .waitingChildren

instance (job : Job) : Decidable (awaitsLastChild job) := inferInstanceAs (Decidable (_ ∧ _))

/-- A job after one more of its children has completed. -/
def afterChild (job : Job) : Job :=
  { job with
    pendingChildren := job.pendingChildren - 1
    state := if awaitsLastChild job then .waiting else job.state }

/-- Tell the parent of a completed job, which becomes ready after its last child. -/
def childCompleted (queues : Queues) (parent : JobKey) : Queues :=
  match queues.job? parent with
  | some job =>
      let told := queues.setJob parent (afterChild job)
      if awaitsLastChild job then told.enqueue parent else told
  | none => queues

/-- A job as it is stored after it has completed. -/
def completedJob (queues : Queues) (job : Job) (value : Json) : Job :=
  { job with state := .completed, returnValue := some value, finishedAt := some queues.now }

/-- Note that a stored job has completed, free its place and announce it. -/
def noteCompleted [Freeing] (queues : Queues) (key : JobKey) (job : Job) (value : Json) :
    Queues :=
  let stored := queues.setJob key (queues.completedJob job value)
  let freed := if job.state.isFinished then stored else stored.release key.queue 1
  freed.publish key.queue (.completed key.id)

/-- Complete a job with a value. -/
def complete [Freeing] (queues : Queues) (key : JobKey) (value : Json) : Queues :=
  match queues.job? key with
  | some job =>
      match job.parent with
      | some parent => (queues.noteCompleted key job value).childCompleted parent
      | none => queues.noteCompleted key job value
  | none => queues

/-- Delay a job before its next attempt. -/
def retryLater (queues : Queues) (key : JobKey) (attempt : Nat) : Queues :=
  let delayed := match queues.job? key with
    | some job => queues.setJob key { job with state := .delayed }
    | none => queues
  let delay := (delayed.lane key.queue).settings.backoff attempt
  { delayed.touch key.queue with timers := delayed.timers ++ [⟨key, queues.now + delay⟩] }

/-- The reason for which the jobs above a failed job fail. -/
def inheritedReason (name reason : String) : String :=
  "step '" ++ name ++ "' failed: " ++ reason

/-- A job as it is stored after it has failed. -/
def failedJob (queues : Queues) (job : Job) (reason : String) : Job :=
  { job with state := .failed, failedReason := some reason, finishedAt := some queues.now }

/-- Note that a stored job has failed, free its place and announce it. -/
def noteFailed [Freeing] (queues : Queues) (key : JobKey) (job : Job) (reason : String) : Queues :=
  ((queues.setJob key (queues.failedJob job reason)).release key.queue 1).publish key.queue
    (.failed key.id reason)

/-- Fail a job and the jobs above it, up to the first that is missing or
finished or that keeps its failure to itself.  The first argument bounds the
number of jobs. -/
def failUpward [Freeing] (inherited : String) :
    Nat → Queues → JobKey → (reason : String) → Queues
  | 0, queues, _, _ => queues
  | height + 1, queues, key, reason =>
      match queues.job? key with
      | some job =>
          if job.state.isFinished then queues
          else
            match job.options.failParentOnFailure, job.parent with
            | true, some parent =>
                failUpward inherited height (queues.noteFailed key job reason) parent inherited
            | _, _ => queues.noteFailed key job reason
      | none => queues

/-- Fail a job for good. -/
def fail [Freeing] (queues : Queues) (key : JobKey) (name reason : String) : Queues :=
  failUpward (inheritedReason name reason) queues.jobs.size queues key reason

/-- A call returns.  Nothing is done for a job that is no longer stored, except
that a delay runs to its end. -/
def callReturns [Freeing] (queues : Queues) (call : Call) (outcome : Except JobError Json) :
    Queues :=
  let queues := { queues with running := queues.running.erase call }
  match outcome with
  | .ok value => queues.complete call.key value
  | .error (.retryable message) =>
      if call.attempt < call.maxAttempts then queues.retryLater call.key call.attempt
      else queues.fail call.key call.name (JobError.retryable message).message
  | .error (.unrecoverable message) =>
      queues.fail call.key call.name (JobError.unrecoverable message).message

/-- A delay ends: the job is ready again, if it is still there and delayed. -/
def timerFires (queues : Queues) (timer : RetryTimer) : Queues :=
  let queues := { queues with timers := queues.timers.erase timer }
  match queues.job? timer.key with
  | some job =>
      if job.state = .delayed then
        (queues.setJob timer.key { job with state := .waiting }).enqueue timer.key
      else queues
  | none => queues

end Queues

end Relay
