import Relay.Decode.Basic

/-!
# Job states and trees of jobs

What a reader sees of a submitted flow: the state of every job, as a tree of
the shape in which the flow was submitted.
-/

namespace Relay

/-- The state of a job in its queue. -/
inductive JobState where
  /-- Ready to run. -/
  | waiting
  /-- Blocked until every child has completed. -/
  | waitingChildren
  | active
  /-- Between two attempts. -/
  | delayed
  | completed
  | failed
  deriving DecidableEq, Repr

namespace JobState

/-- All states, in order. -/
def all : List JobState := [.waiting, .waitingChildren, .active, .delayed, .completed, .failed]

/-- The name under which a state is shown and stored. -/
def text : JobState → String
  | .waiting => "waiting"
  | .waitingChildren => "waiting-children"
  | .active => "active"
  | .delayed => "delayed"
  | .completed => "completed"
  | .failed => "failed"

/-- The state with a given name. -/
def ofText? (text : String) : Option JobState := all.find? fun state => state.text == text

/-- The message for a text that names no state. -/
def unknownMessage (text : String) : String := "unknown job state: " ++ text

/-- Whether a job in this state never runs again. -/
def isFinished : JobState → Bool
  | .completed | .failed => true
  | .waiting | .waitingChildren | .active | .delayed => false

/-- The name of the state as a variant. -/
def variantName : JobState → String
  | .waiting => "Waiting"
  | .waitingChildren => "WaitingChildren"
  | .active => "Active"
  | .delayed => "Delayed"
  | .completed => "Completed"
  | .failed => "Failed"

/-- The value that stands for a state. -/
def toJson (state : JobState) : Json := .string state.variantName

/-- Read a state. -/
def decoder : Decoder JobState :=
  .enumeration (all.map fun state => .bare state.variantName state)

end JobState

/-- A job as it is at the moment. -/
structure JobSnapshot where
  id : String
  name : String
  queueName : String
  state : JobState
  failedReason : Option String
  deriving DecidableEq, Repr

namespace JobSnapshot

/-- The value that stands for a snapshot. -/
def toJson (snapshot : JobSnapshot) : Json :=
  .object [("failed_reason", .ofOption (snapshot.failedReason.map .string)),
    ("id", .string snapshot.id), ("name", .string snapshot.name),
    ("queue_name", .string snapshot.queueName), ("state", snapshot.state.toJson)]

/-- Read a snapshot. -/
def decoder : Decoder JobSnapshot :=
  .record "struct JobSnapshot"
    [.of "id" .required .string fun snapshot id => { snapshot with id },
      .of "name" .required .string fun snapshot name => { snapshot with name },
      .of "queue_name" .required .string fun snapshot queueName => { snapshot with queueName },
      .of "state" .required JobState.decoder fun snapshot state => { snapshot with state },
      .of "failed_reason" .namedOnly (.optional .string) fun snapshot failedReason =>
        { snapshot with failedReason }]
    ⟨"", "", "", .waiting, none⟩

end JobSnapshot

/-- The jobs of a flow as they are at the moment. -/
structure JobTree where
  job : JobSnapshot
  children : List JobTree
  deriving Repr

namespace JobTree

mutual

/-- The jobs of a tree, every job after the jobs below it. -/
def postOrder : JobTree → List JobSnapshot
  | ⟨job, children⟩ => postOrders children ++ [job]

/-- The jobs of several trees. -/
def postOrders : List JobTree → List JobSnapshot
  | [] => []
  | tree :: rest => postOrder tree ++ postOrders rest

end

mutual

/-- The value that stands for a tree. -/
def toJson : JobTree → Json
  | ⟨job, children⟩ => .object [("children", .array (toJsons children)), ("job", job.toJson)]

/-- The values that stand for several trees. -/
def toJsons : List JobTree → List Json
  | [] => []
  | tree :: rest => toJson tree :: toJsons rest

end

/-- Read a tree whose document has at most the given height. -/
def decoderWithin : Nat → Decoder JobTree
  | 0 => fun _ document => .error (Decoder.unexpected "struct JobTree" document)
  | height + 1 =>
      .record "struct JobTree"
        [.of "job" .required JobSnapshot.decoder fun tree job => { tree with job },
          .of "children" .required (.list (decoderWithin height)) fun tree children =>
            { tree with children }]
        ⟨⟨"", "", "", .waiting, none⟩, []⟩

/-- Read a tree. -/
def decoder : Decoder JobTree := fun place document =>
  decoderWithin (document.height + 1) place document

end JobTree

end Relay
