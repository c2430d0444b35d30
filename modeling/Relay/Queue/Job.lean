import Relay.Flow.Basic
import Relay.Flow.Event
import Relay.Flow.Tree

/-!
# Jobs in the queues

What the queues keep of a submitted job, and what is under way for a job: a
running call of its processor or a timer that ends a delay.
-/

namespace Relay

/-- A job by its queue and its identifier. -/
structure JobKey where
  queue : String
  id : String
  deriving DecidableEq, Repr

/-- The key under which a parent sees the value of a job. -/
def JobKey.childKey (key : JobKey) : String := key.queue ++ ":" ++ key.id

/-- A job as it is kept from its submission to its eviction. -/
structure Job where
  queue : String
  name : String
  data : Json
  options : JobOptions
  state : JobState
  parent : Option JobKey
  children : List JobKey
  /-- Number of children that have not completed. -/
  pendingChildren : Nat
  returnValue : Option Json
  failedReason : Option String
  /-- Number of attempts that were started. -/
  attemptsMade : Nat
  finishedAt : Option Nat
  deriving DecidableEq, Repr

/-- A running call of the processor of a queue. -/
structure Call where
  key : JobKey
  name : String
  data : Json
  /-- Which attempt of the job this is, counted from one. -/
  attempt : Nat
  /-- The attempt after which the job is not tried again. -/
  maxAttempts : Nat
  /-- The return values of the children of the job. -/
  children : Dict Json
  startedAt : Nat
  deriving DecidableEq, Repr

/-- A job that waits for its next attempt. -/
structure RetryTimer where
  key : JobKey
  due : Nat
  deriving DecidableEq, Repr

/-- The identifier of the job that was submitted after a number of others. -/
def jobIdOf (serial : Nat) : String := "j" ++ Nat.repr serial

/-- What a flow becomes when it is submitted. -/
structure Planting where
  /-- The roots of the planted trees. -/
  roots : List JobKey
  jobs : List (String × Job)
  /-- The leaves, from left to right. -/
  ready : List JobKey
  /-- The serial number of the next job. -/
  next : Nat
  deriving Repr

namespace Planting

/-- The job at the root of a flow, above the roots of its children. -/
def rootJob (flow : Flow) (parent : Option JobKey) (children : List JobKey) : Job :=
  { queue := flow.queueName, name := flow.name, data := flow.data, options := flow.options
    state := if children.isEmpty then .waiting else .waitingChildren
    parent, children, pendingChildren := children.length
    returnValue := none, failedReason := none, attemptsMade := 0, finishedAt := none }

mutual

/-- Number the jobs of a flow, parents first, and set them up. -/
def ofFlow (parent : Option JobKey) (serial : Nat) : Flow → Planting
  | ⟨name, queueName, data, options, children⟩ =>
      let key : JobKey := ⟨queueName, jobIdOf serial⟩
      let below := ofFlows key (serial + 1) children
      { roots := [key]
        jobs := below.jobs ++
          [(key.id, rootJob ⟨name, queueName, data, options, children⟩ parent below.roots)]
        ready := if below.roots.isEmpty then [key] else below.ready
        next := below.next }

/-- Set up the flows below a job, from left to right. -/
def ofFlows (parent : JobKey) (serial : Nat) : List Flow → Planting
  | [] => { roots := [], jobs := [], ready := [], next := serial }
  | flow :: rest =>
      let first := ofFlow (some parent) serial flow
      let others := ofFlows parent first.next rest
      { roots := first.roots ++ others.roots, jobs := first.jobs ++ others.jobs
        ready := first.ready ++ others.ready, next := others.next }

end

end Planting

end Relay
