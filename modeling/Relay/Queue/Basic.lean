import Relay.Queue.Job
import Relay.Queue.Problem
import Relay.Queue.Settings
import Relay.Queue.TokenBucket

/-!
# The state of the queues

All queues share one table of jobs.  A queue of its own is a `Lane`: its limits,
the jobs that are ready to start, its worker, its tokens, the number of its
unfinished jobs and the events it has published.  A lane comes into being when
its queue is first touched.

Everything that is under way is part of the state: the ready jobs, the job in
the hands of a worker, the running calls and the retry timers.  What happens is
a sequence of steps, each a function on this state; they stand in the modules
`Submit`, `Worker`, `Finish` and `Evict`.
-/

namespace Relay

/-- How many places are left when a number of them are freed.  This is settled only as long as
there are that many. -/
class Freeing where
  left : (places count : Nat) → Nat
  left_of_le : ∀ {places count : Nat}, count ≤ places → left places count = places - count

/-- What the queues do: where there are fewer places than are freed, none is left. -/
instance Freeing.saturating : Freeing where
  left places count := places - count
  left_of_le _ := rfl

@[simp] theorem Freeing.left_saturating (places count : Nat) :
    Freeing.left places count = places - count := rfl

/-- Where the worker of a queue stands. -/
inductive Worker where
  /-- No worker was started. -/
  | absent
  /-- The worker waits for a ready job. -/
  | idle
  /-- The worker holds a job and asks for a token at a given time. -/
  | awaitingToken (jobId : String) (askAt : Nat)
  /-- The worker holds a job and a token and waits until fewer jobs are running. -/
  | awaitingSlot (jobId : String)
  /-- The worker was stopped; the queue starts no jobs any more. -/
  | stopped
  deriving DecidableEq, Repr

/-- One named queue. -/
structure Lane where
  settings : QueueSettings
  bucket : TokenBucket
  /-- Ready jobs, the next one first. -/
  ready : List String
  worker : Worker
  /-- Jobs of the queue that count against its length. -/
  unfinished : Nat
  /-- All events of the queue, the first one first. -/
  events : List QueueEvent
  deriving DecidableEq, Repr

/-- A queue that was just touched. -/
def Lane.fresh (settings : QueueSettings) (now : Nat) : Lane :=
  { settings, bucket := .full settings.maxRequestToken settings.regenerationInterval now
    ready := [], worker := .absent, unfinished := 0, events := [] }

/-- All queues with their jobs and everything that is under way. -/
structure Queues where
  /-- The limits of the queues for which some were given. -/
  settings : Dict QueueSettings
  now : Nat
  lanes : Dict Lane
  /-- The stored jobs by identifier. -/
  jobs : Dict Job
  running : List Call
  timers : List RetryTimer
  /-- The serial number of the next job. -/
  nextSerial : Nat
  deriving DecidableEq, Repr

namespace Queues

/-- The queues before anything is submitted. -/
def start (settings : Dict QueueSettings) : Queues :=
  { settings, now := 0, lanes := .empty, jobs := .empty, running := [], timers := []
    nextSerial := 0 }

/-- The limits that apply to a queue. -/
def settingsOf (queues : Queues) (queue : String) : QueueSettings :=
  (queues.settings.get? queue).getD .standard

/-- The lane of a queue, as it is or as it would be if it were touched now. -/
def lane (queues : Queues) (queue : String) : Lane :=
  (queues.lanes.get? queue).getD (.fresh (queues.settingsOf queue) queues.now)

/-- Replace the lane of a queue. -/
def setLane (queues : Queues) (queue : String) (lane : Lane) : Queues :=
  { queues with lanes := queues.lanes.insert queue lane }

/-- Make sure that a queue has a lane. -/
def touch (queues : Queues) (queue : String) : Queues :=
  queues.setLane queue (queues.lane queue)

/-- Change the lane of a queue, which touches it. -/
def changeLane (queues : Queues) (queue : String) (change : Lane → Lane) : Queues :=
  queues.setLane queue (change (queues.lane queue))

/-- The stored job with a key. -/
def job? (queues : Queues) (key : JobKey) : Option Job :=
  (queues.jobs.get? key.id).filter fun job => job.queue == key.queue

/-- Replace a stored job. -/
def setJob (queues : Queues) (key : JobKey) (job : Job) : Queues :=
  { queues with jobs := queues.jobs.insert key.id job }

/-- Number of stored jobs, finished ones included. -/
def jobCount (queues : Queues) : Nat := queues.jobs.size

/-- Number of jobs of a queue that count against its length. -/
def unfinishedCount (queues : Queues) (queue : String) : Nat :=
  ((queues.lanes.get? queue).map Lane.unfinished).getD 0

/-- Free a number of places in a queue. -/
def release [Freeing] (queues : Queues) (queue : String) (count : Nat) : Queues :=
  queues.changeLane queue fun lane =>
    { lane with unfinished := Freeing.left lane.unfinished count }

/-- Announce an event on a queue. -/
def publish (queues : Queues) (queue : String) (event : QueueEvent) : Queues :=
  queues.changeLane queue fun lane => { lane with events := lane.events ++ [event] }

/-- Hand a job to its queue as ready.  A queue whose worker was stopped drops it. -/
def enqueue (queues : Queues) (key : JobKey) : Queues :=
  queues.changeLane key.queue fun lane =>
    if lane.worker = .stopped then lane else { lane with ready := lane.ready ++ [key.id] }

/-- The state of a stored job. -/
def jobState? (queues : Queues) (key : JobKey) : Option JobState :=
  (queues.job? key).map Job.state

/-- A stored job as a reader sees it. -/
def snapshotOf (key : JobKey) (job : Job) : JobSnapshot :=
  { id := key.id, name := job.name, queueName := key.queue, state := job.state
    failedReason := job.failedReason }

/-- The stored jobs at and below a key; a missing child is left out.  The first
argument bounds the depth. -/
def treeWithin (queues : Queues) : Nat → JobKey → Option JobTree
  | 0, _ => none
  | depth + 1, key =>
      (queues.job? key).map fun job =>
        ⟨snapshotOf key job, job.children.filterMap (treeWithin queues depth)⟩

/-- The tree of a stored job.  No branch is longer than the table of jobs. -/
def tree? (queues : Queues) (key : JobKey) : Option JobTree :=
  queues.treeWithin queues.jobs.size key

end Queues

end Relay
