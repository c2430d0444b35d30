import Relay.Proofs.Queue.Progress
import Relay.Proofs.Workflow.World

/-!
# Schedules

A schedule says what happens next, time after time, so a run can be computed.  A choice
that cannot be made is passed over, and every world that a schedule leads to can be reached.
Only the agents of a given cast take part, so it can be computed, too, whether a lock is
free and whether anything is pending.
-/

namespace Relay

/-- What happens next. -/
inductive Choice where
  | tick (time : Nat)
  | startWorker (queue : String)
  | advance (queue : String)
  /-- The running call of a given place returns. -/
  | finish (place : Nat)
  /-- The retry timer of a given place fires. -/
  | fire (place : Nat)
  | submit (id : Uuid) (tasks : List Task)
  | read (number : Nat) (id : Uuid)
  | receive (queue : String)
  | act (agent : Agent)
  | leave (agent : Agent)

namespace World

variable (script : Script) (cast : List Agent) (world : World)

/-- The queues have made a step. -/
def works (after : Queues) : World :=
  { world with
    system := { world.system with queues := after }
    started := world.started ++ Queues.startedCalls world.system.queues after }

/-- An agent of the cast that has nothing to do. -/
def free (agent : Agent) : Bool := cast.contains agent && (world.threads agent).isNone

/-- Nobody of the cast holds the lock that an action asks for. -/
def permits : Action → Bool
  | .lock id => cast.all fun agent => (world.threads agent).bind Thread.holds ≠ some id
  | _ => true

/-- An agent makes the next action of its thread. -/
def act? (agent : Agent) : Thread → Option World
  | ⟨.step action next, held⟩ =>
      if world.permits cast action then some (world.perform agent held action next) else none
  | ⟨.done _, _⟩ => none

/-- An agent whose thread is at its end leaves. -/
def leave? (agent : Agent) : Thread → Option World
  | ⟨.done _, _⟩ => some { world with threads := Function.update world.threads agent none }
  | ⟨.step _ _, _⟩ => none

/-- The listener of a queue begins to handle an event that it has received. -/
def handle? (queue : String) : Delivery × WorkflowSystem → Option World
  | (.event event, system) =>
      some ({ world with system }.begin (.listener queue)
        (WorkflowSystem.react queue (.event event)))
  | (.lagged _, _) => none

/-- The world after a choice, if it can be made. -/
def next? : Choice → Option World
  | .tick time =>
      if world.system.queues.now ≤ time then
        some (world.works { world.system.queues with now := time })
      else none
  | .startWorker queue => some (world.works (world.system.queues.startWorker queue).2)
  | .advance queue => (world.system.queues.advanceWorker? queue).map world.works
  | .finish place =>
      world.system.queues.running[place]?.map fun call =>
        world.works (world.system.queues.callReturns call (script.outcome call))
  | .fire place =>
      (world.system.queues.timers[place]?.filter fun timer =>
        timer.due ≤ world.system.queues.now).map fun timer =>
          world.works (world.system.queues.timerFires timer)
  | .submit id tasks =>
      if world.free cast (.submitter id) && (world.submitted id).isNone then
        some { world.begin (.submitter id) do
            let _ ← Submission.submit world.system.routing id tasks
            return () with
          submitted := Function.update world.submitted id (some tasks) }
      else none
  | .read number id =>
      if world.free cast (.reader number) then
        some (world.begin (.reader number) do
          let _ ← Inspection.read id
          return ())
      else none
  | .receive queue =>
      if world.free cast (.listener queue) then
        (world.system.receive? queue).bind (world.handle? queue)
      else none
  | .act agent => (world.threads agent).bind (world.act? cast agent)
  | .leave agent => (world.threads agent).bind (world.leave? agent)

/-- The world that a schedule leads to. -/
def follow : World → List Choice → World
  | world, [] => world
  | world, choice :: rest => follow ((world.next? script cast choice).getD world) rest

/-- Whether nothing is pending. -/
def resting : Bool :=
  (cast.all fun agent => (world.threads agent).isNone) &&
    world.system.queues.running.isEmpty && world.system.queues.timers.isEmpty &&
    (world.system.queues.lanes.entries.all fun (_, lane) =>
      lane.worker = .absent || lane.worker = .idle && lane.ready.isEmpty) &&
    world.system.listeners.entries.all fun (queue, _) => (world.system.receive? queue).isNone

/-- Nobody else than the cast takes part. -/
def Played : Prop := ∀ agent, agent ∉ cast → world.threads agent = none

variable {script cast world} {after : World}

theorem played_start (routing : Routing) (settings : Dict QueueSettings) (cast : List Agent) :
    (start routing settings).Played cast := fun _ _ => rfl

theorem free_iff {agent : Agent} :
    world.free cast agent = true ↔ agent ∈ cast ∧ world.threads agent = none := by
  unfold free
  rw [Bool.and_eq_true, List.contains_iff_mem, Option.isNone_iff_eq_none]

/-- An agent of the cast gets another routine, or none. -/
theorem Played.update (played : world.Played cast) {agent : Agent} (member : agent ∈ cast)
    {thread : Option Thread} (threads : after.threads = Function.update world.threads agent thread) :
    after.Played cast := by
  intro other outside
  rw [threads, Function.update_of_ne (ne_of_mem_of_not_mem member outside).symm]
  exact played other outside

theorem Played.permits (played : world.Played cast) {action : Action}
    (permitted : world.permits cast action = true) : world.Permits action := by
  intro id isLock agent thread here held
  subst isLock
  have member : agent ∈ cast := by
    by_contra outside
    cases here.symm.trans (played agent outside)
  have free := List.all_eq_true.1 permitted agent member
  rw [here, Option.bind_some, held] at free
  simp at free

theorem Played.mem (played : world.Played cast) {agent : Agent} {thread : Thread}
    (here : world.threads agent = some thread) : agent ∈ cast := by
  by_contra outside
  cases here.symm.trans (played agent outside)

/-- A choice that can be made is a step, and leaves the cast alone. -/
theorem step_of_next? (played : world.Played cast) {choice : Choice}
    (next : world.next? script cast choice = some after) :
    Step script world after ∧ after.Played cast := by
  have works : ∀ {act : Queues.Act} {queues : Queues},
      Queues.Step world.system.queues act queues → act.Regular script →
      Step script world (world.works queues) ∧ (world.works queues).Played cast :=
    fun step regular => ⟨.work step regular, played⟩
  cases choice with
  | tick time =>
      obtain ⟨later, same⟩ := Option.ite_none_right_eq_some.1 next
      cases same
      exact works (.tick later) trivial
  | startWorker queue =>
      cases next
      exact works (.startWorker queue) trivial
  | advance queue =>
      obtain ⟨queues, moved, rfl⟩ := Option.map_eq_some_iff.1 next
      exact works (.advance moved) trivial
  | finish place =>
      obtain ⟨call, found, rfl⟩ := Option.map_eq_some_iff.1 next
      exact works (.finish _ (List.mem_of_getElem? found)) rfl
  | fire place =>
      obtain ⟨timer, found, rfl⟩ := Option.map_eq_some_iff.1 next
      obtain ⟨isThere, due⟩ := Option.filter_eq_some_iff.1 found
      exact works (.fire (List.mem_of_getElem? isThere) (of_decide_eq_true due)) trivial
  | submit id tasks =>
      obtain ⟨test, same⟩ := Option.ite_none_right_eq_some.1 next
      rw [Bool.and_eq_true, free_iff, Option.isNone_iff_eq_none] at test
      obtain ⟨⟨member, idle⟩, fresh⟩ := test
      cases same
      exact ⟨.submit tasks fresh idle, played.update member rfl⟩
  | read number id =>
      obtain ⟨test, same⟩ := Option.ite_none_right_eq_some.1 next
      obtain ⟨member, idle⟩ := free_iff.1 test
      cases same
      exact ⟨.read id idle, played.update member rfl⟩
  | receive queue =>
      obtain ⟨test, same⟩ := Option.ite_none_right_eq_some.1 next
      obtain ⟨member, idle⟩ := free_iff.1 test
      obtain ⟨⟨delivery, system⟩, received, handled⟩ := Option.bind_eq_some_iff.1 same
      cases delivery with
      | event event =>
          cases handled
          exact ⟨.receive idle received, played.update member rfl⟩
      | lagged missed => cases handled
  | act agent =>
      obtain ⟨⟨routine, held⟩, here, acts⟩ := Option.bind_eq_some_iff.1 next
      cases routine with
      | done value => cases acts
      | step action rest =>
          obtain ⟨permitted, same⟩ := Option.ite_none_right_eq_some.1 acts
          cases same
          exact ⟨.perform here rfl (played.permits permitted), played.update (played.mem here) rfl⟩
  | leave agent =>
      obtain ⟨⟨routine, held⟩, here, leaves⟩ := Option.bind_eq_some_iff.1 next
      cases routine with
      | done value =>
          cases leaves
          exact ⟨.leave here rfl, played.update (played.mem here) rfl⟩
      | step action rest => cases leaves

/-- Every world that a schedule leads to can be reached. -/
theorem reachable_follow {routing : Routing} {settings : Dict QueueSettings}
    (reached : Reachable script routing settings world) (played : world.Played cast)
    (schedule : List Choice) :
    Reachable script routing settings (follow script cast world schedule) ∧
      (follow script cast world schedule).Played cast := by
  induction schedule generalizing world with
  | nil => exact ⟨reached, played⟩
  | cons choice rest ih =>
      rw [follow]
      cases next : world.next? script cast choice with
      | none => exact ih reached played
      | some after =>
          obtain ⟨step, playedAfter⟩ := step_of_next? played next
          exact ih (reached.step step) playedAfter

/-- A world is at rest if a look at its cast, its queues and its listeners says so. -/
theorem atRest_of_resting (played : world.Played cast) (resting : world.resting cast = true) :
    world.AtRest := by
  unfold World.resting at resting
  simp only [Bool.and_eq_true, List.isEmpty_iff] at resting
  obtain ⟨⟨⟨⟨threads, running⟩, timers⟩, lanes⟩, listeners⟩ := resting
  simp only [List.all_eq_true, Option.isNone_iff_eq_none] at threads listeners
  constructor
  case threads =>
    intro agent
    by_cases member : agent ∈ cast
    · exact threads agent member
    · exact played agent member
  case running => exact running
  case timers => exact timers
  case workers => exact fun queue staffed => Queues.worker_idle lanes staffed
  case events =>
    intro queue
    cases found : world.system.listeners.get? queue with
    | none =>
        unfold WorkflowSystem.receive?
        rw [found, Option.bind_none]
    | some subscription => exact listeners (queue, subscription) (Dict.mem_of_lookup found)

end World

end Relay
