import Relay.Queue.Basic

/-!
# Evicting jobs

A job is evicted together with everything below it.  Flows that finished long
enough ago are evicted from time to time.
-/

namespace Relay

namespace Queues

/-- Drop a stored job, freeing its place if it is unfinished. -/
def dropJob [Freeing] (queues : Queues) (key : JobKey) (job : Job) : Queues :=
  let dropped := { queues with jobs := queues.jobs.erase key.id }
  if job.state.isFinished then dropped else dropped.release key.queue 1

/-- Drop a job and everything below it; returns the number of dropped jobs.  The
first argument bounds the depth. -/
def removeWithin [Freeing] : Nat → Queues × Nat → JobKey → Queues × Nat
  | 0, state, _ => state
  | depth + 1, (queues, count), key =>
      match queues.job? key with
      | some job =>
          job.children.foldl (removeWithin depth) (queues.dropJob key job, count + 1)
      | none => (queues, count)

/-- Drop several jobs with everything below them. -/
def removeAll [Freeing] (queues : Queues) (keys : List JobKey) : Queues × Nat :=
  keys.foldl (removeWithin queues.jobs.size) (queues, 0)

/-- Evict a job; tells whether it was there. -/
def remove [Freeing] (queues : Queues) (key : JobKey) : Bool × Queues :=
  let (queues, count) := queues.removeAll [key]
  (0 < count, queues)

/-- Whether a job is the root of a flow that finished a given time ago or earlier. -/
def isExpired (queues : Queues) (olderThan : Nat) (job : Job) : Bool :=
  job.parent.isNone && job.state.isFinished &&
    (match job.finishedAt with
      | some time => olderThan ≤ queues.now - time
      | none => false)

/-- The roots of the flows that finished a given time ago or earlier. -/
def expired (queues : Queues) (olderThan : Nat) : List JobKey :=
  (queues.jobs.entries.filter fun entry => queues.isExpired olderThan entry.2).map
    fun entry => ⟨entry.2.queue, entry.1⟩

/-- Evict the flows that finished a given time ago or earlier; returns the number
of dropped jobs. -/
def prune [Freeing] (queues : Queues) (olderThan : Nat) : Nat × Queues :=
  let (queues, count) := queues.removeAll (queues.expired olderThan)
  (count, queues)

end Queues

end Relay
