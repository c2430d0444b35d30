import Relay.Handler.Basic

/-!
# Arbitrary handlers

A system runs whatever handlers it is given.  A handler is told which job it works
on and shown the results of the fathers of its step, and it may keep a state of
any kind, from which later calls can learn what happened before.
-/

namespace Relay

/-- Everything that a handler is told about its job. -/
structure ExecutionContext extends StepContext where
  workflowId : Uuid
  jobId : String
  taskType : String
  /-- Whether the identity of the step matters to the outside. -/
  track : Bool
  deriving DecidableEq, Repr

/-- One call of a handler, which changes the state of the handlers. -/
def HandlerFunction (σ : Type) :=
  ExecutionContext → Results → σ → Except HandlerError StepResult × σ

/-- Handlers by key, together with what they have in common. -/
structure Handlers (σ : Type) where
  resolve : String → Except HandlerError (HandlerFunction σ)

/-- A call of a handler: what it was told, what it was shown and what it answered. -/
structure Invocation where
  context : ExecutionContext
  visible : Results
  answer : Except HandlerError StepResult

/-- The same handler, whose calls are written down in order. -/
def HandlerFunction.recording {σ : Type} (handle : HandlerFunction σ) :
    HandlerFunction (σ × List Invocation) := fun context visible (state, calls) =>
  let (answer, after) := handle context visible state
  (answer, after, calls ++ [⟨context, visible, answer⟩])

/-- The same handlers, all of whose calls are written down in order. -/
def Handlers.recording {σ : Type} (handlers : Handlers σ) : Handlers (σ × List Invocation) where
  resolve key := (handlers.resolve key).map HandlerFunction.recording

end Relay
