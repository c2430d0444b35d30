import Relay.Session.Bench

/-!
# Sessions with the queues alone

Jobs are processed after a script that says for every job name what its
attempts come to.
-/

namespace Relay

/-- What one attempt of a scripted job comes to. -/
inductive ScriptedResult where
  | value (value : Json)
  | retry (message : String)
  | fatal (message : String)
  /-- The job tells its name and the number of the attempt. -/
  | report
  deriving Repr

/-- One attempt of a scripted job. -/
structure ScriptedAttempt where
  duration : Nat
  result : ScriptedResult
  deriving Repr

/-- The attempts of jobs by job name. -/
abbrev JobScript := Dict (List ScriptedAttempt)

namespace JobScript

/-- The attempt of a job with a given number; the last one of a script repeats. -/
def attempt (script : JobScript) (name : String) (number : Nat) : ScriptedAttempt :=
  match script.get? name with
  | some attempts => (attempts[number - 1]?.or attempts.getLast?).getD ⟨0, .report⟩
  | none => ⟨0, .report⟩

/-- What a scripted call comes to. -/
def resultOf (call : Call) : ScriptedResult → Except JobError Json
  | .value value => .ok value
  | .retry message => .error (.retryable message)
  | .fatal message => .error (.unrecoverable message)
  | .report => .ok (.object [("attempt", .ofNat call.attempt), ("ran", .string call.name)])

/-- The attempt that a call makes, in the script of its queue. -/
def ofCall (scripts : Dict JobScript) (call : Call) : ScriptedAttempt :=
  attempt ((scripts.get? call.key.queue).getD .empty) call.name call.attempt

/-- The processor that follows the scripts of the queues. -/
def processor : Processor (Dict JobScript) where
  duration scripts call := (ofCall scripts call).duration
  outcome scripts call := (resultOf call (ofCall scripts call).result, scripts)

end JobScript

/-- A session with the queues. -/
structure QueueSession where
  bench : Bench (Dict JobScript)
  queues : Queues

namespace QueueSession

/-- A session at its beginning. -/
def start (settings : Dict QueueSettings) : QueueSession :=
  ⟨.start JobScript.processor .empty, .start settings⟩

/-- Let happen what can happen now. -/
def settleWithin : Nat → QueueSession → QueueSession
  | 0, session => session
  | steps + 1, session =>
      match session.bench.step? session.queues with
      | some (bench, queues) => settleWithin steps ⟨bench, queues⟩
      | none => session

/-- Let happen what can happen now. -/
def settle (session : QueueSession) : QueueSession := settleWithin stepBound session

/-- Move the clock forward to a time. -/
def atTime (session : QueueSession) (now : Nat) : QueueSession :=
  { session with queues := { session.queues with now := max session.queues.now now } }

/-- Move the clock to a time, stopping wherever something is going to happen. -/
def advanceWithin (target : Nat) : Nat → QueueSession → QueueSession
  | 0, session => session
  | moments + 1, session =>
      match ((session.bench.agenda session.queues).filter (· ≤ target)).min? with
      | some next => advanceWithin target moments (session.atTime next).settle
      | none => (session.atTime target).settle

/-- Let some time pass. -/
def advance (session : QueueSession) (duration : Nat) : QueueSession :=
  advanceWithin (session.queues.now + duration) stepBound session

/-- Submit a flow. -/
def add (session : QueueSession) (flow : Flow) : Except QueueError AddedFlow × QueueSession :=
  let (answer, queues) := session.queues.add flow
  (answer, { session with queues })

/-- Start the worker of a queue with a script. -/
def startWorker (session : QueueSession) (queue : String) (script : JobScript) :
    Except QueueError Unit × QueueSession :=
  match session.queues.startWorker queue with
  | (.ok (), queues) =>
      let memory := session.bench.memory.insert queue script
      (.ok (), { bench := { session.bench with memory }, queues })
  | (.error problem, queues) => (.error problem, { session with queues })

/-- The job that a name given by a user means: the stored job with that
identifier, or else a job of a given queue. -/
def keyOf (queues : Queues) (queue : Option String) (id : String) : JobKey :=
  ⟨queue.getD (((queues.jobs.get? id).map Job.queue).getD "default"), id⟩

/-- A number by which identifiers of jobs sort like their serial numbers. -/
def serialOf (id : String) : Nat := ((id.drop 1).toNat?).getD 0

/-- The order in which runs are listed. -/
def runBefore (left right : Run) : Bool :=
  let key (run : Run) : Nat × String × Nat × Nat :=
    (run.call.startedAt, run.call.key.queue, serialOf run.call.key.id, run.call.attempt)
  let (leftStart, leftQueue, leftSerial, leftAttempt) := key left
  let (rightStart, rightQueue, rightSerial, rightAttempt) := key right
  if leftStart ≠ rightStart then leftStart < rightStart
  else if leftQueue ≠ rightQueue then leftQueue < rightQueue
  else if leftSerial ≠ rightSerial then leftSerial < rightSerial
  else leftAttempt ≤ rightAttempt

/-- All starts of jobs so far. -/
def sortedRuns (session : QueueSession) : List Run := session.bench.runs.mergeSort runBefore

end QueueSession

end Relay
