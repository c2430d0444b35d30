import Relay.Queue.Basic

/-!
# Submitting a flow

A flow is admitted if every queue has room for all jobs of the flow that belong
to it.  Places are claimed queue by queue; if one queue is full, the places that
were claimed before are given back, so a rejected flow leaves no trace in the
numbers.  An admitted flow is stored as a whole and its leaves become ready.
-/

namespace Relay

namespace Queues

/-- How many jobs of a flow belong to each queue. -/
def countsOf (flow : Flow) : List (String × Nat) :=
  let queues := flow.queueList
  (sortedSet queues).map fun queue => (queue, queues.count queue)

/-- Claim places in the lane of a queue. -/
def claim (queues : Queues) (queue : String) (count : Nat) : Queues :=
  queues.changeLane queue fun lane => { lane with unfinished := lane.unfinished + count }

/-- Whether a queue has room for a number of jobs. -/
def hasRoom (queues : Queues) (queue : String) (count : Nat) : Bool :=
  (queues.lane queue).unfinished + count ≤ (queues.lane queue).settings.maxQueueLength

/-- Claim places in several queues, all or none. -/
def reserve [Freeing] : List (String × Nat) → Queues → Option QueueError × Queues
  | [], queues => (none, queues)
  | (queue, count) :: rest, queues =>
      if queues.hasRoom queue count then
        match reserve rest (queues.claim queue count) with
        | (none, queues) => (none, queues)
        | (some problem, queues) => (some problem, queues.release queue count)
      else
        (some (.queueFull queue (queues.lane queue).settings.maxQueueLength), queues.touch queue)

/-- Store the jobs of a planted flow and make its leaves ready. -/
def plant (queues : Queues) (planting : Planting) : Queues :=
  planting.ready.foldl enqueue
    { queues with
      jobs := queues.jobs.insertAll planting.jobs
      nextSerial := planting.next }

/-- Submit a flow whose places are claimed in a given order. -/
def addInOrder [Freeing] (counts : List (String × Nat)) (queues : Queues) (flow : Flow) :
    Except QueueError AddedFlow × Queues :=
  match reserve counts queues with
  | (some problem, queues) => (.error problem, queues)
  | (none, queues) =>
      let planting := Planting.ofFlow none queues.nextSerial flow
      (.ok ⟨jobIdOf queues.nextSerial, flow.name, flow.queueName⟩, queues.plant planting)

/-- Submit a flow. -/
def add [Freeing] (queues : Queues) (flow : Flow) : Except QueueError AddedFlow × Queues :=
  addInOrder (countsOf flow) queues flow

end Queues

end Relay
