import Relay.Decode.Basic

/-!
# Events of a queue

A queue announces every job that reaches a finished state.  As a value an event
is a table whose entry `event` tells its kind; the kind may stand anywhere among
the other entries, so these are kept until it is known.
-/

namespace Relay

/-- What a queue announces when a job finishes. -/
inductive QueueEvent where
  | completed (jobId : String)
  | failed (jobId : String) (reason : String)
  deriving DecidableEq, Repr

namespace QueueEvent

/-- The job that an event is about. -/
def jobId : QueueEvent → String
  | .completed jobId => jobId
  | .failed jobId _ => jobId

/-- The value that stands for an event. -/
def toJson : QueueEvent → Json
  | .completed jobId => .object [("event", .string "completed"), ("job_id", .string jobId)]
  | .failed jobId reason =>
      .object [("event", .string "failed"), ("job_id", .string jobId), ("reason", .string reason)]

/-- The kind of an event. -/
inductive Kind where
  | completed
  | failed
  deriving DecidableEq, Repr

namespace Kind

/-- The kinds by name. -/
def named : List (String × Kind) := [("completed", .completed), ("failed", .failed)]

/-- Read the kind of an event. -/
def decoder : Decoder Kind := fun _ document =>
  match document with
  | .string name =>
      match named.lookup name with
      | some kind => .ok kind
      | none => .error (.mismatch [] (.unknownVariant name (named.map Prod.fst)))
  | other => .error (Decoder.unexpected "variant identifier" other)

/-- What a message calls the content of a kind. -/
def describe : Kind → String
  | .completed => "struct variant QueueEvent::Completed"
  | .failed => "struct variant QueueEvent::Failed"

/-- The fields of a kind, read into a job and a reason. -/
def fields : Kind → List (Decoder.Field (String × String))
  | .completed => [job]
  | .failed => [job, .of "reason" .required .string fun content reason => (content.1, reason)]
where
  /-- The job that an event is about. -/
  job : Decoder.Field (String × String) :=
    .of "job_id" .required .string fun content jobId => (jobId, content.2)

/-- The event of a kind. -/
def event (kind : Kind) (content : String × String) : QueueEvent :=
  match kind with
  | .completed => .completed content.1
  | .failed => .failed content.1 content.2

end Kind

/-- Find the kind among the entries of a table and keep the other entries, which
have to be readable but may hold anything. -/
def gather (place : Place) : List (Option String × Document) → Option Kind →
    Except DecodeError (Option Kind × List (Option String × Document))
  | [], kind => .ok (kind, [])
  | (none, _) :: _, _ => .error (.fault .malformed)
  | (some key, document) :: rest, kind =>
      if key = "event" then
        match kind with
        | some _ => .error (.mismatch [] (.duplicateField key))
        | none => do
            let kind ← Decoder.located (.field key) (Kind.decoder place document)
            gather place rest (some kind)
      else do
        let _ ← Decoder.json place document
        let (kind, others) ← gather place rest kind
        return (kind, (some key, document) :: others)

/-- Read an event. -/
def decoder : Decoder QueueEvent := fun place document =>
  match document with
  | .table found stop => do
      let inside ← place.inside
      let (kind, others) ← gather inside found none
      Decoder.ending stop
      match kind with
      | none => .error (.mismatch [] (.missingField "event"))
      | some kind => do
          let content ← Decoder.record kind.describe kind.fields ("", "") ⟨.value, 0⟩
            (.table others none)
          return kind.event content
  | .list found stop => do
      let inside ← place.inside
      match found with
      | [] => do
          Decoder.ending stop
          .error (.mismatch [] (.missingField "event"))
      | first :: others => do
          let kind ← Kind.decoder inside first
          let _ ← Decoder.jsonItems inside others
          Decoder.ending stop
          let (content, left) ← Decoder.listFields
            (Decoder.describeStructure kind.describe kind.fields.length) ⟨.value, 0⟩ none 0
            kind.fields others ("", "")
          if left.isEmpty then return kind.event content
          else
            .error (.mismatch [] (.wrongLength others.length
              (toString kind.fields.length ++
                (if kind.fields.length = 1 then " element" else " elements") ++ " in sequence")))
  | other => .error (Decoder.unexpected "internally tagged enum QueueEvent" other)

end QueueEvent

end Relay
