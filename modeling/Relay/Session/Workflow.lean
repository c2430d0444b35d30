import Relay.Http.Service
import Relay.Session.Bench
import Relay.Session.Disturbance
import Relay.Workflow.System

/-!
# Sessions with the whole system

Jobs are processed by handlers.  Routines of several origins are under way at the
same time: the caller's, those of the listeners, and reads in the background.  A
routine acts until it has to wait, for a slow store or for the lock of a record,
and locks are given to those who wait for them in order.
-/

namespace Relay

/-- The processor that gives every job to the handler of its step. -/
def stepProcessor : Processor Registry where
  duration registry call := Propagation.duration registry call.data
  outcome registry call := Propagation.process registry call.data call.children

/-- What a routine of a session comes to. -/
inductive Conclusion where
  | handled
  | submitted (answer : Except WorkflowProblem SubmittedWorkflow)
  | read (answer : Except WorkflowProblem (Option WorkflowView))
  | responded (response : Http.Response)

/-- Whose routine it is. -/
inductive Owner where
  | caller
  | listener (queue : String)
  | background (tag : String)
  deriving DecidableEq, Repr

/-- A routine under way. -/
structure Activity where
  number : Nat
  owner : Owner
  /-- When the delayed action at the head of the routine takes place. -/
  wake : Option Nat
  routine : Routine Conclusion

/-- A read in the background that has ended. -/
structure FinishedRead where
  time : Nat
  tag : String
  conclusion : Conclusion

/-- A session with the whole system. -/
structure WorkflowSession where
  bench : Bench Registry
  system : WorkflowSystem
  standIn : Option StandIn
  disturbances : Disturbances
  activities : List Activity
  /-- Who holds the lock of a record, and then who waits for it, by record. -/
  lines : Dict (List Nat)
  nextActivity : Nat
  /-- Number of identifiers that were given to workflows. -/
  nextWorkflow : Nat
  finished : List FinishedRead
  /-- What the caller's routine has come to. -/
  answer : Option Conclusion

namespace WorkflowSession

/-- A session at its beginning. -/
def start (routing : Routing) (settings : Dict QueueSettings) (registry : Registry)
    (standIn : Option StandIn) (disturbances : Disturbances) : WorkflowSession :=
  { bench := .start stepProcessor registry, system := .start routing settings, standIn
    disturbances, activities := [], lines := .empty, nextActivity := 0, nextWorkflow := 0
    finished := [], answer := none }

/-- The present time. -/
def now (session : WorkflowSession) : Nat := session.system.queues.now

/-- The identifier of the first workflow of a session; the others follow it. -/
def firstId : Nat := 0x3c7d90f5a1e64b8296d3c05b40000000

/-- An identifier for a workflow. -/
def freshId (session : WorkflowSession) : Uuid × WorkflowSession :=
  (.ofNat (firstId + session.nextWorkflow),
    { session with nextWorkflow := session.nextWorkflow + 1 })

/-- Begin a routine. -/
def begin (session : WorkflowSession) (owner : Owner) (routine : Routine Conclusion) :
    WorkflowSession :=
  { session with
    activities := session.activities ++ [⟨session.nextActivity, owner, none, routine⟩]
    nextActivity := session.nextActivity + 1 }

/-- Let an activity go on with the rest of its routine. -/
def goOn (session : WorkflowSession) (activity : Activity) (routine : Routine Conclusion) :
    WorkflowSession :=
  { session with
    activities := session.activities.map fun other =>
      if other.number = activity.number then { activity with wake := none, routine } else other }

/-- Let an activity wait until a time. -/
def sleepUntil (session : WorkflowSession) (activity : Activity) (wake : Nat) : WorkflowSession :=
  { session with
    activities := session.activities.map fun other =>
      if other.number = activity.number then { activity with wake := some wake } else other }

/-- End an activity. -/
def conclude (session : WorkflowSession) (activity : Activity) (conclusion : Conclusion) :
    WorkflowSession :=
  let session := { session with
    activities := session.activities.filter fun other => other.number ≠ activity.number }
  match activity.owner with
  | .caller => { session with answer := some conclusion }
  | .listener _ => session
  | .background tag =>
      { session with finished := session.finished ++ [⟨session.now, tag, conclusion⟩] }

/-- Those who hold or wait for the lock of a record. -/
def lineOf (session : WorkflowSession) (id : Uuid) : List Nat :=
  (session.lines.get? id.text).getD []

/-- Replace the line for the lock of a record. -/
def setLine (session : WorkflowSession) (id : Uuid) (line : List Nat) : WorkflowSession :=
  { session with lines := session.lines.insert id.text line }

/-- An action takes place without disturbance. -/
def perform (session : WorkflowSession) (action : Action) : action.Reply × WorkflowSession :=
  match session.standIn.bind fun standIn => standIn.reply? action with
  | some reply => (reply, session)
  | none =>
      let (reply, system) := WorkflowSystem.answer action session.system
      (reply, { session with system })

/-- An activity performs an action and goes on with the reply. -/
def goOnAfter (session : WorkflowSession) (activity : Activity) (action : Action)
    (next : action.Reply → Routine Conclusion) : WorkflowSession :=
  let (reply, session) := session.perform action
  session.goOn activity (next reply)

/-- An activity meets an action that nothing has delayed so far. -/
def attempt (session : WorkflowSession) (activity : Activity) (action : Action)
    (next : action.Reply → Routine Conclusion) : WorkflowSession :=
  let (disturbance, disturbances) := session.disturbances.next action
  let session := { session with disturbances }
  match disturbance with
  | some (.delay duration) => session.sleepUntil activity (session.now + duration)
  | some disturbance =>
      match disturbance.reply? action with
      | some reply => session.goOn activity (next reply)
      | none => session.goOnAfter activity action next
  | none => session.goOnAfter activity action next

/-- The next step of an activity, if it can make one now. -/
def resume? (session : WorkflowSession) (activity : Activity) : Option WorkflowSession :=
  match activity.routine with
  | .done conclusion => some (session.conclude activity conclusion)
  | .step (.lock id) next =>
      let line := session.lineOf id
      if line.head? = some activity.number then some (session.goOn activity (next ()))
      else if line.contains activity.number then none
      else some (session.setLine id (line ++ [activity.number]))
  | .step (.unlock id) next =>
      some ((session.setLine id (session.lineOf id).tail).goOn activity (next ()))
  | .step action next =>
      match activity.wake with
      | none => some (session.attempt activity action next)
      | some wake =>
          if wake ≤ session.now then some (session.goOnAfter activity action next) else none

/-- Whether the listener of a queue is not handling an event. -/
def listenerIsIdle (session : WorkflowSession) (queue : String) : Bool :=
  !session.activities.any fun activity => activity.owner == .listener queue

/-- A listener receives an event and begins to handle it. -/
def receive? (session : WorkflowSession) : Option WorkflowSession :=
  session.system.listeners.keys.findSome? fun queue =>
    if session.listenerIsIdle queue then
      (session.system.receive? queue).map fun (delivery, system) =>
        { session with system }.begin (.listener queue) do
          WorkflowSystem.react queue delivery
          return .handled
    else none

/-- A log of events receives an event. -/
def deliver? (session : WorkflowSession) : Option WorkflowSession :=
  (session.bench.deliver? session.system.queues).map fun bench => { session with bench }

/-- Something happens on the queues. -/
def work? (session : WorkflowSession) : Option WorkflowSession :=
  (session.bench.step? session.system.queues).map fun (bench, queues) =>
    { session with bench, system := { session.system with queues } }

/-- Something that can happen now. -/
def step? (session : WorkflowSession) : Option WorkflowSession :=
  session.deliver?.or (session.receive?.or
    ((session.activities.findSome? session.resume?).or session.work?))

/-- Let happen what can happen now, in at most so many steps. -/
def settleWithin : Nat → WorkflowSession → WorkflowSession
  | 0, session => session
  | steps + 1, session =>
      match session.step? with
      | some session => settleWithin steps session
      | none => session

/-- Let happen what can happen now. -/
def settle (session : WorkflowSession) : WorkflowSession := settleWithin stepBound session

/-- The next time at which something is going to happen. -/
def nextMoment? (session : WorkflowSession) : Option Nat :=
  (session.bench.agenda session.system.queues ++ session.activities.filterMap Activity.wake).min?

/-- Move the clock forward to a time. -/
def atTime (session : WorkflowSession) (time : Nat) : WorkflowSession :=
  { session with
    system := { session.system with
      queues := { session.system.queues with now := max session.now time } } }

/-- Move the clock to a time, stopping wherever something is going to happen. -/
def advanceWithin (target : Nat) : Nat → WorkflowSession → WorkflowSession
  | 0, session => session
  | moments + 1, session =>
      match session.nextMoment?.filter (· ≤ target) with
      | some next => advanceWithin target moments (session.atTime next).settle
      | none => (session.atTime target).settle

/-- Let some time pass. -/
def advance (session : WorkflowSession) (duration : Nat) : WorkflowSession :=
  advanceWithin (session.now + duration) stepBound session

/-- Let the caller's routine act until it has to wait. -/
def runCaller : Nat → WorkflowSession → WorkflowSession
  | 0, session => session
  | steps + 1, session =>
      match (session.activities.find? fun activity => activity.owner == .caller).bind
          session.resume? with
      | some session => runCaller steps session
      | none => session

/-- Let time pass until the caller's routine has ended. -/
def awaitAnswer : Nat → WorkflowSession → WorkflowSession
  | 0, session => session
  | moments + 1, session =>
      match session.answer, session.nextMoment? with
      | none, some next => awaitAnswer moments (session.atTime next).settle
      | _, _ => session

/-- Run a routine of the caller to its end.  Nothing else happens before the
routine has to wait. -/
def call (session : WorkflowSession) (routine : Routine Conclusion) :
    Option Conclusion × WorkflowSession :=
  let session := runCaller stepBound ({ session with answer := none }.begin .caller routine)
  let session := match session.answer with
    | some _ => session
    | none => awaitAnswer stepBound session.settle
  (session.answer, session)

/-- Submit tasks. -/
def submit (session : WorkflowSession) (tasks : List Task) : Option Conclusion × WorkflowSession :=
  let (id, session) := session.freshId
  session.call (.submitted <$> Submission.submit session.system.routing id tasks)

/-- Submit the tasks of a template. -/
def submitTemplate (session : WorkflowSession) (name : String) (parameters : Json) :
    Option Conclusion × WorkflowSession :=
  let (id, session) := session.freshId
  session.call (.submitted <$>
    Submission.submitTemplate session.system.routing id name parameters)

/-- Read a workflow. -/
def read (session : WorkflowSession) (id : Uuid) : Option Conclusion × WorkflowSession :=
  session.call (.read <$> Inspection.read id)

/-- Serve a request. -/
def serve (session : WorkflowSession) (request : Http.Request) :
    Option Conclusion × WorkflowSession :=
  let (id, session) := session.freshId
  session.call (.responded <$> Http.serve session.system.routing id request)

/-- Read a workflow in the background. -/
def readInBackground (session : WorkflowSession) (id : Uuid) (tag : String) : WorkflowSession :=
  session.begin (.background tag) (.read <$> Inspection.read id)

/-- The order in which finished reads are listed. -/
def finishedBefore (left right : FinishedRead) : Bool :=
  if left.time ≠ right.time then left.time < right.time else left.tag ≤ right.tag

/-- The reads in the background that have ended since they were last asked for. -/
def takeFinished (session : WorkflowSession) : List FinishedRead × WorkflowSession :=
  (session.finished.mergeSort finishedBefore, { session with finished := [] })

/-- Start the workers of several queues; tells for each whether it was started. -/
def startWorkers (session : WorkflowSession) :
    List String → List (Except QueueError String) × WorkflowSession
  | [] => ([], session)
  | queue :: rest =>
      let (result, queues) := session.system.queues.startWorker queue
      let (results, session) :=
        startWorkers { session with system := { session.system with queues } } rest
      (result.map (fun _ => queue) :: results, session)

/-- Announce an event on a queue; tells whether somebody listens. -/
def emit (session : WorkflowSession) (queue : String) (event : QueueEvent) :
    Bool × WorkflowSession :=
  if session.system.listeners.contains queue then
    (true, { session with
      system := { session.system with queues := session.system.queues.publish queue event } })
  else (false, session)

/-- Follow the events of every queue that tasks are routed to. -/
def listen (session : WorkflowSession) : WorkflowSession :=
  { session with system := session.system.listenToRouted }

end WorkflowSession

end Relay
