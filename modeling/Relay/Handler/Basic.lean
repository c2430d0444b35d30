import Relay.Handler.Result

/-!
# Handlers

A handler does the work of the steps of one kind.  The handlers here do no work
of their own: one echoes what it was given, the others answer as they are told.
A handler that fails a number of times at first looks at how often it was
called before; apart from that the result depends only on the call.
-/

namespace Relay

/-- What a handler knows of the step that it works on. -/
structure StepContext where
  taskName : String
  payload : Json
  deriving DecidableEq, Repr

/-- Why a handler gives no result. -/
inductive HandlerError where
  /-- Another attempt may succeed. -/
  | retryable (message : String)
  /-- No attempt can succeed. -/
  | fatal (message : String)
  deriving DecidableEq, Repr

/-- The wording of a handler error. -/
def HandlerError.message : HandlerError → String
  | .retryable message => "retryable handler error: " ++ message
  | .fatal message => "fatal handler error: " ++ message

/-- How a handler answers. -/
inductive Behaviour where
  /-- Echo the payload and name the visible results. -/
  | passthrough
  /-- Return a value, together with the name of the task. -/
  | returning (value : Json)
  /-- Ask the dependents to skip. -/
  | skipping
  | retryable (message : String)
  | fatal (message : String)
  /-- Fail the first calls so that they can be tried again, then return a value. -/
  | flaky (failures : Nat) (value : Json)
  deriving DecidableEq, Repr

/-- A handler under the key by which steps find it. -/
structure Handler where
  key : String
  behaviour : Behaviour
  /-- How long a call takes, in milliseconds. -/
  duration : Nat
  deriving DecidableEq, Repr

/-- The key of the handler of a step: its type, refined by a text under `target`. -/
def handlerKey (taskType : String) (payload : Json) : String :=
  match (payload.member? "target").bind Json.asString? with
  | some target => taskType ++ ":" ++ target
  | none => taskType

namespace Handler

/-- The members of an object; no other value has any. -/
def membersOf (value : Json) : List (String × Json) := value.asObject?.getD []

/-- Return a value with the name of the task, unless a visible result asks to skip. -/
def answer (value : Json) (context : StepContext) (visible : Results) : StepResult :=
  if visible.shouldSkip then .skip .null
  else .proceed (.record (("task", .string context.taskName) :: membersOf value))

/-- Echo a call, unless a visible result asks to skip. -/
def echo (context : StepContext) (visible : Results) : StepResult :=
  if visible.shouldSkip then .skip (.object [])
  else
    .proceed (.object [("payload", context.payload), ("task", .string context.taskName),
      ("upstream", Json.ofStrings visible.keys)])

/-- Whether the handler keeps a record of its calls. -/
def keepsRecord (handler : Handler) : Bool := handler.behaviour != .passthrough

/-- Work on a step.  `earlier` is the number of calls before this one. -/
def handle (handler : Handler) (earlier : Nat) (context : StepContext) (visible : Results) :
    Except HandlerError StepResult :=
  match handler.behaviour with
  | .passthrough => .ok (echo context visible)
  | .returning value => .ok (answer value context visible)
  | .skipping => .ok (.skip .null)
  | .retryable message => .error (.retryable message)
  | .fatal message => .error (.fatal message)
  | .flaky failures value =>
      if earlier < failures then .error (.retryable (context.taskName ++ " not ready yet"))
      else .ok (answer value context visible)

end Handler

end Relay
