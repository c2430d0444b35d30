import Relay.Queue.Evict
import Relay.Queue.Finish
import Relay.Queue.Submit
import Relay.Queue.Subscription

/-!
# Driving the queues in simulated time

A bench stands around the queues.  It knows how long a call of the processor
takes and what it returns, keeps a protocol of all starts, writes down the
events of the queues it follows, and evicts finished flows at regular times.

Running takes no time.  So a step of the bench is anything that can happen at
the present moment, and the clock only moves on when nothing can.
-/

namespace Relay

/-- The processor of the queues, with a memory of type `σ`. -/
structure Processor (σ : Type) where
  /-- How long a call takes. -/
  duration : σ → Call → Nat
  /-- What a call returns at its end. -/
  outcome : σ → Call → Except JobError Json × σ

/-- The start of a job, and its end if it has ended. -/
structure Run where
  call : Call
  endedAt : Option Nat
  deriving Repr

/-- Events of a queue as they were received, with the times of reception. -/
structure EventLog where
  subscription : Subscription
  received : List (Nat × Delivery)

/-- Finished flows are evicted at regular times. -/
structure Reaper where
  every : Nat
  retention : Nat
  next : Nat

/-- What stands around the queues. -/
structure Bench (σ : Type) where
  processor : Processor σ
  memory : σ
  runs : List Run
  logs : Dict EventLog
  reapers : List Reaper

namespace Bench

variable {σ : Type}

/-- A bench on which nothing has happened. -/
def start (processor : Processor σ) (memory : σ) : Bench σ :=
  { processor, memory, runs := [], logs := .empty, reapers := [] }

/-- The time at which a call returns. -/
def dueTime (bench : Bench σ) (call : Call) : Nat :=
  call.startedAt + bench.processor.duration bench.memory call

/-- Begin to write down the events of a queue, forgetting an earlier log. -/
def follow (bench : Bench σ) (queues : Queues) (queue : String) : Bench σ × Queues :=
  let log : EventLog := ⟨.after (queues.lane queue).events, []⟩
  ({ bench with logs := bench.logs.insert queue log }, queues.touch queue)

/-- Read and clear the log of a queue. -/
def readLog (bench : Bench σ) (queue : String) : Option (List (Nat × Delivery)) × Bench σ :=
  match bench.logs.get? queue with
  | some log =>
      (some log.received,
        { bench with logs := bench.logs.insert queue { log with received := [] } })
  | none => (none, bench)

/-- Evict finished flows now and at regular times. -/
def addReaper (bench : Bench σ) (now every retention : Nat) : Bench σ :=
  { bench with reapers := bench.reapers ++ [⟨every, retention, now⟩] }

/-- A log receives an event. -/
def deliver? (bench : Bench σ) (queues : Queues) : Option (Bench σ) :=
  bench.logs.entries.findSome? fun (queue, log) =>
    (log.subscription.receive? (queues.lane queue).events).map fun (delivery, subscription) =>
      { bench with
        logs := bench.logs.insert queue
          ⟨subscription, log.received ++ [(queues.now, delivery)]⟩ }

/-- A worker makes a step. -/
def work? (bench : Bench σ) (queues : Queues) : Option (Bench σ × Queues) :=
  (queues.lanes.keys.findSome? queues.advanceWorker?).map fun after =>
    let started := after.running.drop queues.running.length
    ({ bench with runs := bench.runs ++ started.map fun call => ⟨call, none⟩ }, after)

/-- Note the end of a call. -/
def noteEnd (runs : List Run) (call : Call) (now : Nat) : List Run :=
  runs.map fun run =>
    if run.call.key = call.key ∧ run.call.attempt = call.attempt then { run with endedAt := some now }
    else run

/-- A call that is due returns. -/
def return? (bench : Bench σ) (queues : Queues) : Option (Bench σ × Queues) :=
  (queues.running.find? fun call => bench.dueTime call ≤ queues.now).map fun call =>
    let (outcome, memory) := bench.processor.outcome bench.memory call
    ({ bench with memory, runs := noteEnd bench.runs call queues.now },
      queues.callReturns call outcome)

/-- A delay that is over ends. -/
def fire? (bench : Bench σ) (queues : Queues) : Option (Bench σ × Queues) :=
  (queues.timers.find? fun timer => timer.due ≤ queues.now).map fun timer =>
    (bench, queues.timerFires timer)

/-- Finished flows are evicted when it is time to. -/
def reap? (bench : Bench σ) (queues : Queues) : Option (Bench σ × Queues) :=
  (bench.reapers.findIdx? fun reaper => reaper.next ≤ queues.now).bind fun position =>
    bench.reapers[position]?.map fun reaper =>
      let reapers := bench.reapers.modify position fun reaper =>
        { reaper with next := reaper.next + max reaper.every 1 }
      ({ bench with reapers }, (queues.prune reaper.retention).2)

/-- Something that can happen now. -/
def step? (bench : Bench σ) (queues : Queues) : Option (Bench σ × Queues) :=
  ((bench.deliver? queues).map (·, queues)).or
    ((bench.work? queues).or
      ((bench.fire? queues).or ((bench.return? queues).or (bench.reap? queues))))

/-- The times at which something is going to happen. -/
def agenda (bench : Bench σ) (queues : Queues) : List Nat :=
  queues.timers.map RetryTimer.due ++ queues.running.map bench.dueTime ++
    bench.reapers.map Reaper.next ++
    queues.lanes.values.filterMap fun lane =>
      match lane.worker with
      | .awaitingToken _ askAt => some askAt
      | _ => none

end Bench

/-- A bound on the number of steps between two moments of a session. -/
def stepBound : Nat := 1000000

end Relay
