import Relay.Proofs.Workflow.Links
import Relay.Proofs.Workflow.Protocol
import Relay.Proofs.Workflow.Script

/-!
# Runs of the whole system

Everything that happens in a system is one of the steps below, and they may follow
each other in any order: a step of the queues, the beginning or the end of a routine,
or a single action of a routine under way.  The store serves every action, nothing is
evicted, and no listener falls so far behind that it misses an event.

The routines are there as programs.  That each of them is at some stage of the protocol
is the first invariant; all others are about stages.
-/

namespace Relay

/-- Whose routine it is. -/
inductive Agent where
  | submitter (id : Uuid)
  | listener (queue : String)
  | reader (number : Nat)
  deriving DecidableEq

/-- A routine under way. -/
structure Thread where
  routine : Routine Unit
  /-- The record whose lock the routine holds. -/
  holds : Option Uuid

/-- An exchange and the agent that made it. -/
structure Entry where
  agent : Agent
  exchange : Exchange

/-- A system with the routines that are under way in it, and with what has happened. -/
structure World where
  system : WorkflowSystem
  threads : Agent → Option Thread
  /-- The tasks that were submitted, by the identifier of their workflow. -/
  submitted : Uuid → Option (List Task)
  /-- The calls that were started, in order. -/
  started : List Call
  /-- The exchanges of all routines, in order. -/
  journal : List Entry

/-- A step of the queues that evicts nothing and follows a script. -/
def Queues.Act.Regular (script : Script) : Queues.Act → Prop
  | .finish call outcome => outcome = script.outcome call
  | .remove _ | .prune _ _ => False
  | .tick _ | .touch _ | .add _ _ | .startWorker _ | .advance _ | .fire _ => True

namespace World

/-- A world at its beginning. -/
def start (routing : Routing) (settings : Dict QueueSettings) : World :=
  { system := .start routing settings, threads := fun _ => none, submitted := fun _ => none
    started := [], journal := [] }

/-- An agent begins a routine. -/
def begin (world : World) (agent : Agent) (routine : Routine Unit) : World :=
  { world with threads := Function.update world.threads agent (some ⟨routine, none⟩) }

/-- The record whose lock is held after an action. -/
def holdsAfter : Action → Option Uuid → Option Uuid
  | .lock id, _ => some id
  | .unlock _, _ => none
  | _, held => held

/-- A lock is given to one routine at a time. -/
def Permits (world : World) (action : Action) : Prop :=
  ∀ id, action = .lock id → ∀ agent thread, world.threads agent = some thread →
    thread.holds ≠ some id

/-- An agent performs an action and goes on with the reply. -/
def perform (world : World) (agent : Agent) (held : Option Uuid) (action : Action)
    (next : action.Reply → Routine Unit) : World :=
  let reply := (WorkflowSystem.answer action world.system).1
  { world with
    system := (WorkflowSystem.answer action world.system).2
    threads := Function.update world.threads agent (some ⟨next reply, holdsAfter action held⟩)
    journal := world.journal ++ [⟨agent, action, reply⟩] }

/-- One step of a world. -/
inductive Step (script : Script) (world : World) : World → Prop
  | work {act : Queues.Act} {after : Queues} (step : Queues.Step world.system.queues act after)
      (regular : act.Regular script) :
      Step script world { world with
        system := { world.system with queues := after }
        started := world.started ++ Queues.startedCalls world.system.queues after }
  /-- Tasks are submitted under a fresh identifier. -/
  | submit {id : Uuid} (tasks : List Task) (fresh : world.submitted id = none)
      (idle : world.threads (.submitter id) = none) :
      Step script world { world.begin (.submitter id) do
          let _ ← Submission.submit world.system.routing id tasks
          return () with
        submitted := Function.update world.submitted id (some tasks) }
  | read {number : Nat} (id : Uuid) (idle : world.threads (.reader number) = none) :
      Step script world (world.begin (.reader number) do
        let _ ← Inspection.read id
        return ())
  /-- The listener of a queue, which handles events one by one, receives the next one. -/
  | receive {queue : String} {event : QueueEvent} {system : WorkflowSystem}
      (idle : world.threads (.listener queue) = none)
      (received : world.system.receive? queue = some (.event event, system)) :
      Step script world ({ world with system }.begin (.listener queue)
        (WorkflowSystem.react queue (.event event)))
  | perform {agent : Agent} {thread : Thread} {action : Action}
      {next : action.Reply → Routine Unit} (here : world.threads agent = some thread)
      (head : thread.routine = .step action next) (permitted : world.Permits action) :
      Step script world (world.perform agent thread.holds action next)
  | leave {agent : Agent} {thread : Thread} (here : world.threads agent = some thread)
      (finished : thread.routine = .done ()) :
      Step script world { world with threads := Function.update world.threads agent none }

/-- The worlds that can be reached. -/
inductive Reachable (script : Script) (routing : Routing) (settings : Dict QueueSettings) :
    World → Prop
  | start : Reachable script routing settings (start routing settings)
  | step {world after : World} (reached : Reachable script routing settings world)
      (step : Step script world after) : Reachable script routing settings after

/-- Nothing is pending: no routine is under way, no call is running, no job waits for
another attempt, and every worker and every listener has done what there was to do. -/
structure AtRest (world : World) : Prop where
  threads : ∀ agent, world.threads agent = none
  running : world.system.queues.running = []
  timers : world.system.queues.timers = []
  workers : ∀ queue, world.system.queues.hasWorker queue = true →
    (world.system.queues.lane queue).worker = .idle ∧
      (world.system.queues.lane queue).ready = []
  events : ∀ queue, world.system.receive? queue = none

/-! ## Stages -/

/-- The routines of a world are at some stages, and no two of them hold one lock. -/
structure Tended (world : World) (stages : Agent → Stage) : Prop where
  follows : ∀ agent thread, world.threads agent = some thread →
    Follows (fun _ => .ended) (stages agent) thread.routine ∧
      thread.holds = (stages agent).lock?
  idle : ∀ agent, world.threads agent = none → stages agent = .ended
  exclusive : ∀ one other id, (stages one).lock? = some id → (stages other).lock? = some id →
    one = other

/-- Where a submission begins. -/
def opening (routing : Routing) (id : Uuid) (tasks : List Task) : Stage :=
  match Submission.chainOf routing id tasks with
  | .ok chain => .listening id tasks chain []
  | .error _ => .ended

/-- What a step does, in terms of stages. -/
inductive Turn (script : Script) (world : World) (stages : Agent → Stage) :
    World → (Agent → Stage) → Prop
  | works {act : Queues.Act} {after : Queues} (step : Queues.Step world.system.queues act after)
      (regular : act.Regular script) :
      Turn script world stages { world with
        system := { world.system with queues := after }
        started := world.started ++ Queues.startedCalls world.system.queues after } stages
  | submits {id : Uuid} (tasks : List Task) (threads : Agent → Option Thread)
      (fresh : world.submitted id = none) (idle : stages (.submitter id) = .ended) :
      Turn script world stages
        { world with threads, submitted := Function.update world.submitted id (some tasks) }
        (Function.update stages (.submitter id) (opening world.system.routing id tasks))
  | reads {number : Nat} (id : Uuid) (threads : Agent → Option Thread)
      (idle : stages (.reader number) = .ended) :
      Turn script world stages { world with threads }
        (Function.update stages (.reader number) (.asking id))
  | receives {queue : String} {event : QueueEvent} {system : WorkflowSystem}
      (threads : Agent → Option Thread) (idle : stages (.listener queue) = .ended)
      (received : world.system.receive? queue = some (.event event, system)) :
      Turn script world stages { world with system, threads }
        (Function.update stages (.listener queue) (.finding queue event))
  | moves {agent : Agent} {action : Action} {reply : action.Reply} {system : WorkflowSystem}
      {later : Stage} (threads : Agent → Option Thread)
      (moves : (stages agent).Moves ⟨action, reply⟩ later)
      (answered : WorkflowSystem.answer action world.system = (reply, system)) :
      Turn script world stages
        { world with system, threads, journal := world.journal ++ [⟨agent, action, reply⟩] }
        (Function.update stages agent later)
  | leaves (threads : Agent → Option Thread) :
      Turn script world stages { world with threads } stages

theorem follows_discard {α : Type} {stage : Stage} {routine : Routine α}
    (follows : Follows (fun _ => .ended) stage routine) :
    Follows (fun _ => .ended) stage (do
      let _ ← routine
      return ()) :=
  follows.bind fun _ => rfl

theorem follows_submit (routing : Routing) (id : Uuid) (tasks : List Task) :
    Follows (fun _ => .ended) (opening routing id tasks) (Submission.submit routing id tasks) := by
  unfold opening Submission.submit
  cases Submission.chainOf routing id tasks with
  | error problem => rfl
  | ok chain => exact follows_submitChain routing id tasks chain

/-- A step leads to a stage whose lock is the one that the action says. -/
theorem lock?_moves {stage later : Stage} {action : Action} {reply : action.Reply}
    (moves : stage.Moves ⟨action, reply⟩ later) :
    later.lock? = holdsAfter action stage.lock? := by
  cases moves <;> rfl

theorem holdsAfter_eq {action : Action} {held : Option Uuid} {id : Uuid}
    (holds : holdsAfter action held = some id) : held = some id ∨ action = .lock id := by
  cases action <;> first
    | exact .inl holds
    | exact .inr (congrArg Action.lock (Option.some.inj holds))
    | exact (Option.some_ne_none _ holds.symm).elim

namespace Tended

variable {world : World} {stages : Agent → Stage} {agent : Agent} {stage : Stage}

/-- An agent that holds nothing gets another routine, which holds nothing at first. -/
theorem update (tended : Tended world stages) {system : WorkflowSystem}
    {submitted : Uuid → Option (List Task)} {journal : List Entry} {thread : Option Thread}
    (follows : ∀ new, thread = some new →
      Follows (fun _ => .ended) stage new.routine ∧ new.holds = stage.lock?)
    (idle : thread = none → stage = .ended)
    (apart : ∀ id, stage.lock? = some id → ∀ other, other ≠ agent →
      (stages other).lock? ≠ some id) :
    Tended { world with
      system, submitted, journal, threads := Function.update world.threads agent thread }
      (Function.update stages agent stage) where
  follows := by
    intro other found isFound
    dsimp only at isFound
    rw [Function.update_apply] at isFound ⊢
    split at isFound
    · next same =>
        rw [if_pos same]
        exact follows found isFound
    · next different =>
        rw [if_neg different]
        exact tended.follows other found isFound
  idle := by
    intro other missing
    dsimp only at missing
    rw [Function.update_apply] at missing ⊢
    split at missing
    · next same =>
        rw [if_pos same]
        exact idle missing
    · next different =>
        rw [if_neg different]
        exact tended.idle other missing
  exclusive := by
    intro one other id first second
    rw [Function.update_apply] at first second
    split at first
    · next isOne =>
        split at second
        · next isOther => exact isOne.trans isOther.symm
        · next different => exact absurd second (apart id first other different)
    · next different =>
        split at second
        · next isOther => exact absurd first (apart id second one different)
        · exact tended.exclusive one other id first second

theorem start (routing : Routing) (settings : Dict QueueSettings) :
    Tended (start routing settings) fun _ => .ended where
  follows _ _ here := (Option.some_ne_none _ here.symm).elim
  idle _ _ := rfl
  exclusive _ _ _ holds := (Option.some_ne_none _ holds.symm).elim

/-- Every step keeps the routines to the protocol. -/
theorem turn {script : Script} {after : World} (tended : Tended world stages)
    (step : Step script world after) :
    ∃ later, Tended after later ∧ Turn script world stages after later := by
  cases step with
  | work step regular =>
      exact ⟨stages, ⟨tended.follows, tended.idle, tended.exclusive⟩, .works step regular⟩
  | @submit id tasks fresh idle =>
      refine ⟨_, ?_, .submits tasks _ fresh (tended.idle _ idle)⟩
      have noLock : (opening world.system.routing id tasks).lock? = none := by
        unfold opening
        cases Submission.chainOf world.system.routing id tasks <;> rfl
      apply tended.update
      · intro new same
        cases same
        exact ⟨follows_discard (follows_submit _ id tasks), noLock.symm⟩
      · exact fun none => (Option.some_ne_none _ none).elim
      · exact fun id holds => (Option.some_ne_none _ (holds.symm.trans noLock)).elim
  | @read number id idle =>
      refine ⟨_, ?_, .reads id _ (tended.idle _ idle)⟩
      apply tended.update
      · intro new same
        cases same
        exact ⟨follows_discard (follows_read id), rfl⟩
      · exact fun none => (Option.some_ne_none _ none).elim
      · exact fun id holds => (Option.some_ne_none _ holds.symm).elim
  | @receive queue event system idle received =>
      refine ⟨_, ?_, .receives _ (tended.idle _ idle) received⟩
      apply tended.update
      · intro new same
        cases same
        exact ⟨follows_handle queue event, rfl⟩
      · exact fun none => (Option.some_ne_none _ none).elim
      · exact fun id holds => (Option.some_ne_none _ holds.symm).elim
  | @perform agent thread action next here head permitted =>
      obtain ⟨follows, holds⟩ := tended.follows agent thread here
      rw [head] at follows
      obtain ⟨later, moves, rest⟩ := follows (WorkflowSystem.answer action world.system).1
      refine ⟨_, ?_, .moves _ moves rfl⟩
      apply tended.update
      · intro new same
        cases same
        exact ⟨rest, by rw [holds, lock?_moves moves]⟩
      · exact fun none => (Option.some_ne_none _ none).elim
      · intro id locked other different held
        rw [lock?_moves moves] at locked
        rcases holdsAfter_eq locked with before | isLock
        · exact different (tended.exclusive other agent id held before)
        · cases found : world.threads other with
          | none =>
              rw [tended.idle other found] at held
              cases held
          | some thread =>
              have locked := (tended.follows other thread found).2.trans held
              exact permitted id isLock other thread found locked
  | @leave agent thread here finished =>
      obtain ⟨follows, -⟩ := tended.follows agent thread here
      rw [finished] at follows
      have same : Function.update stages agent .ended = stages := by
        rw [← show stages agent = .ended from follows, Function.update_eq_self]
      refine ⟨stages, ?_, .leaves _⟩
      rw [← same]
      apply tended.update
      · exact fun new none => (Option.some_ne_none _ none.symm).elim
      · exact fun _ => rfl
      · exact fun id holds => (Option.some_ne_none _ holds.symm).elim

end Tended

end World

end Relay
