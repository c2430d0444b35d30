import Relay.Flow.Tree
import Relay.Queue.Job
import Relay.Queue.Problem
import Relay.Record.Store

/-!
# Routines

Submitting a workflow, reading it and following its events are sequences of
actions on the queues and on the store of records.  Between two actions other
routines may act.  So a routine is written down as what it is, a tree of actions
that branches on the replies, and it is left to whoever runs it in which order
the actions of several routines take place.

Routines that read and write the status of one record take turns: each holds the
lock of the record while it does so.
-/

namespace Relay

/-- What a routine does to its surroundings. -/
inductive Action where
  | insertRecord (new : NewWorkflow)
  | getRecord (id : Uuid)
  | findRecord (queueName rootJobId : String)
  | updateStatus (id : Uuid) (status : String)
  | deleteRecord (id : Uuid)
  | addFlow (flow : Flow)
  | jobState (key : JobKey)
  | getFlow (key : JobKey)
  /-- Follow the events of a queue, unless they are followed already. -/
  | listen (queue : String)
  /-- Wait for the lock of a record. -/
  | lock (id : Uuid)
  | unlock (id : Uuid)
  deriving Repr

/-- What an action gives back. -/
abbrev Action.Reply : Action → Type
  | .insertRecord _ => Except StoreError WorkflowRecord
  | .getRecord _ => Except StoreError (Option WorkflowRecord)
  | .findRecord _ _ => Except StoreError (Option WorkflowRecord)
  | .updateStatus _ _ => Except StoreError Unit
  | .deleteRecord _ => Except StoreError Unit
  | .addFlow _ => Except QueueError AddedFlow
  | .jobState _ => Except QueueError (Option JobState)
  | .getFlow _ => Except QueueError (Option JobTree)
  | .listen _ => Unit
  | .lock _ => Unit
  | .unlock _ => Unit

/-- A sequence of actions, each chosen after the replies to the ones before it. -/
inductive Routine (α : Type) where
  | done (value : α)
  | step (action : Action) (next : action.Reply → Routine α)

namespace Routine

variable {α β : Type}

/-- Continue a routine after its end. -/
def andThen : Routine α → (α → Routine β) → Routine β
  | .done value, next => next value
  | .step action rest, next => .step action fun reply => (rest reply).andThen next

instance : Monad Routine where
  pure := .done
  bind := andThen

/-- The routine of a single action. -/
@[simp] def act (action : Action) : Routine action.Reply := .step action .done

/-- Run a routine without interruption, with a function that says what every
action gives back and how it changes the surroundings. -/
def run {σ : Type} (answer : (action : Action) → σ → action.Reply × σ) : Routine α → σ → α × σ
  | .done value, surroundings => (value, surroundings)
  | .step action next, surroundings =>
      let (reply, surroundings) := answer action surroundings
      (next reply).run answer surroundings

section Laws

variable {σ : Type} (answer : (action : Action) → σ → action.Reply × σ)

@[simp] theorem run_done (value : α) (surroundings : σ) :
    (done value).run answer surroundings = (value, surroundings) := rfl

@[simp] theorem run_step (action : Action) (next : action.Reply → Routine α) (surroundings : σ) :
    (step action next).run answer surroundings =
      (next (answer action surroundings).1).run answer (answer action surroundings).2 := rfl

/-- A continued routine runs in the surroundings that its first part leaves behind. -/
@[simp] theorem run_andThen (routine : Routine α) (next : α → Routine β) (surroundings : σ) :
    (routine.andThen next).run answer surroundings =
      (next (routine.run answer surroundings).1).run answer (routine.run answer surroundings).2 := by
  induction routine generalizing surroundings with
  | done value => rfl
  | step action rest ih => simp [andThen, ih]

@[simp] theorem run_bind (routine : Routine α) (next : α → Routine β) (surroundings : σ) :
    (routine >>= next).run answer surroundings =
      (next (routine.run answer surroundings).1).run answer (routine.run answer surroundings).2 :=
  run_andThen answer routine next surroundings

@[simp] theorem run_pure (value : α) (surroundings : σ) :
    (pure value : Routine α).run answer surroundings = (value, surroundings) := rfl

end Laws

end Routine

end Relay
