import Relay.Handler.Arbitrary

/-!
# Handlers by key

Handlers are registered one after another; under one key the last one counts.
The registry also keeps the calls that its handlers were given.
-/

namespace Relay

/-- A call as a handler remembers it. -/
structure HandlerCall where
  taskName : String
  visible : Results
  deriving DecidableEq, Repr

/-- A registered handler with the calls that it was given, in order. -/
structure Registration where
  handler : Handler
  calls : List HandlerCall
  deriving DecidableEq, Repr

/-- The handlers of a system in the order of their registration. -/
structure Registry where
  registrations : List Registration
  deriving DecidableEq, Repr, Inhabited

namespace Registry

/-- The registry without handlers. -/
def empty : Registry := ⟨[]⟩

/-- Add a handler, which takes the place of an earlier one with its key. -/
def register (registry : Registry) (handler : Handler) : Registry :=
  ⟨registry.registrations ++ [⟨handler, []⟩]⟩

/-- A registry of several handlers. -/
def ofList (handlers : List Handler) : Registry := handlers.foldl register empty

/-- The keys in increasing order. -/
def keys (registry : Registry) : List String :=
  sortedSet (registry.registrations.map fun entry => entry.handler.key)

/-- The position of the handler that answers to a key. -/
def position? (registry : Registry) (key : String) : Option Nat :=
  (registry.registrations.zipIdx.reverse.find? fun entry => entry.1.handler.key == key).map Prod.snd

/-- The error of a key without handler, which no further attempt can mend. -/
def unregistered (key : String) : HandlerError :=
  .fatal ("no handler registered for task type: " ++ key)

/-- The registration that answers to a key. -/
def resolve (registry : Registry) (key : String) : Except HandlerError Registration :=
  match (registry.position? key).bind fun position => registry.registrations[position]? with
  | some registration => .ok registration
  | none => .error (unregistered key)

/-- Note a call of the handler that answers to a key. -/
def recordCall (registry : Registry) (key : String) (call : HandlerCall) : Registry :=
  match registry.position? key with
  | some position =>
      ⟨registry.registrations.modify position fun entry =>
        { entry with calls := entry.calls ++ [call] }⟩
  | none => registry

/-- Work on a step with the handler that answers to a key, and note the call. -/
def call (registry : Registry) (key : String) (context : StepContext) (visible : Results) :
    Except HandlerError StepResult × Registry :=
  match registry.resolve key with
  | .ok registration =>
      (registration.handler.handle registration.calls.length context visible,
        registry.recordCall key ⟨context.taskName, visible⟩)
  | .error problem => (.error problem, registry)

/-- The handlers of a registry, which pay no attention to the identity of a job.
Their state is the registry with the calls that it keeps. -/
def handlers (registry : Registry) : Handlers Registry where
  resolve key :=
    (registry.resolve key).map fun _ context visible registry =>
      registry.call key context.toStepContext visible

end Registry

end Relay
