import Relay.Queue.Basic

/-!
# Workers

The worker of a queue takes the next ready job, waits for a token, then until
fewer jobs than the limit are running, and starts the job.  Whatever happened to
the job meanwhile, its token is used up; a job that is no longer there or no
longer waiting is not started.
-/

namespace Relay

namespace Queues

/-- Start the worker of a queue.  A queue has one worker in its life. -/
def startWorker (queues : Queues) (queue : String) : Except QueueError Unit × Queues :=
  if (queues.lane queue).worker = .absent then
    (.ok (), queues.changeLane queue fun lane => { lane with worker := .idle })
  else (.error (.workerAlreadyRunning queue), queues.touch queue)

/-- Whether the worker of a queue is at work. -/
def hasWorker (queues : Queues) (queue : String) : Bool :=
  match (queues.lane queue).worker with
  | .absent | .stopped => false
  | .idle | .awaitingToken _ _ | .awaitingSlot _ => true

/-- Stop the worker of a queue.  What is ready, and what the worker holds, is lost. -/
def stopWorker (queues : Queues) (queue : String) : Queues :=
  queues.changeLane queue fun lane => { lane with worker := .stopped, ready := [] }

/-- Number of running calls of a queue. -/
def runningCount (queues : Queues) (queue : String) : Nat :=
  queues.running.countP fun call => call.key.queue == queue

/-- Number of jobs of a queue that may run at the same time. -/
def slots (lane : Lane) : Nat := max lane.settings.concurrencyLimit 1

/-- The return values of children that are stored and have one. -/
def childrenValues (queues : Queues) (children : List JobKey) : Dict Json :=
  .ofList (children.filterMap fun child =>
    ((queues.job? child).bind Job.returnValue).map fun value => (child.childKey, value))

/-- The attempt after which a job is not tried again. -/
def attemptLimit (queues : Queues) (job : Job) : Nat :=
  job.options.attempts.getD (queues.lane job.queue).settings.maxAttempts

/-- The call that the next attempt of a job makes. -/
def callOf (queues : Queues) (key : JobKey) (job : Job) : Call :=
  { key, name := job.name, data := job.data, attempt := job.attemptsMade + 1
    maxAttempts := queues.attemptLimit job, children := queues.childrenValues job.children
    startedAt := queues.now }

/-- Start the next attempt of a job, if it is there and waiting. -/
def startJob (queues : Queues) (key : JobKey) : Queues :=
  match queues.job? key with
  | some job =>
      if job.state = .waiting then
        { queues.setJob key { job with state := .active, attemptsMade := job.attemptsMade + 1 } with
          running := queues.running ++ [queues.callOf key job] }
      else queues
  | none => queues

/-- The worker of a queue takes the next ready job. -/
def takeReady? (queues : Queues) (queue : String) : Option Queues :=
  let lane := queues.lane queue
  match lane.worker, lane.ready with
  | .idle, jobId :: rest =>
      some (queues.setLane queue
        { lane with worker := .awaitingToken jobId queues.now, ready := rest })
  | _, _ => none

/-- The worker of a queue asks for a token, if it is time to. -/
def takeToken? (queues : Queues) (queue : String) : Option Queues :=
  let lane := queues.lane queue
  match lane.worker with
  | .awaitingToken jobId askAt =>
      if askAt ≤ queues.now then
        match lane.bucket.take queues.now with
        | .ok bucket =>
            some (queues.setLane queue { lane with bucket, worker := .awaitingSlot jobId })
        | .error later =>
            some (queues.setLane queue { lane with worker := .awaitingToken jobId later })
      else none
  | _ => none

/-- The worker of a queue starts the job that it holds, if fewer jobs than the
limit are running. -/
def takeSlot? (queues : Queues) (queue : String) : Option Queues :=
  let lane := queues.lane queue
  match lane.worker with
  | .awaitingSlot jobId =>
      if queues.runningCount queue < slots lane then
        some ((queues.setLane queue { lane with worker := .idle }).startJob ⟨queue, jobId⟩)
      else none
  | _ => none

/-- The next step of the worker of a queue, if it can make one now. -/
def advanceWorker? (queues : Queues) (queue : String) : Option Queues :=
  (queues.takeReady? queue).or ((queues.takeToken? queue).or (queues.takeSlot? queue))

end Queues

end Relay
