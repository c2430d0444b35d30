import Relay.Decode.Basic

/-!
# Flows

A flow is a tree of jobs that is handed to the queues as one piece.  Children
run before their parent, which is told their results.
-/

namespace Relay

/-- Options of a single job. -/
structure JobOptions where
  /-- When the job fails for good, its parent fails too. -/
  failParentOnFailure : Bool
  /-- How often the job is tried, if it differs from what its queue says. -/
  attempts : Option Nat
  deriving DecidableEq, Repr

namespace JobOptions

/-- The options of a job for which none are given. -/
def standard : JobOptions := ⟨false, none⟩

/-- The value that stands for job options. -/
def toJson (options : JobOptions) : Json :=
  .object [("attempts", .ofOption (options.attempts.map .ofNat)),
    ("fail_parent_on_failure", .bool options.failParentOnFailure)]

/-- Read job options. -/
def decoder : Decoder JobOptions :=
  .record "struct JobOptions"
    [.of "fail_parent_on_failure" .defaulted .bool fun options failParentOnFailure =>
        { options with failParentOnFailure },
      .of "attempts" .defaulted (.optional .nat32) fun options attempts =>
        { options with attempts }]
    standard

end JobOptions

/-- A job to submit, with the jobs that have to complete before it. -/
structure Flow where
  name : String
  queueName : String
  data : Json
  options : JobOptions
  children : List Flow
  deriving Repr

namespace Flow

mutual

/-- Number of jobs of a flow. -/
def jobCount : Flow → Nat
  | ⟨_, _, _, _, children⟩ => 1 + jobCounts children

/-- Number of jobs of several flows. -/
def jobCounts : List Flow → Nat
  | [] => 0
  | flow :: rest => jobCount flow + jobCounts rest

end

mutual

/-- The queue of every job of a flow, parents first. -/
def queueList : Flow → List String
  | ⟨_, queueName, _, _, children⟩ => queueName :: queueLists children

/-- The queues of the jobs of several flows. -/
def queueLists : List Flow → List String
  | [] => []
  | flow :: rest => queueList flow ++ queueLists rest

end

mutual

/-- The nodes on the way from the root to the first leaf, the root first. -/
def spine : Flow → List Flow
  | flow@⟨_, _, _, _, children⟩ => flow :: spineBelow children

/-- The way down from the first of several flows. -/
def spineBelow : List Flow → List Flow
  | [] => []
  | flow :: _ => spine flow

end

/-- The names along the way to the first leaf in the order in which they run. -/
def executionOrder (flow : Flow) : List String := (flow.spine.map Flow.name).reverse

mutual

/-- The value that stands for a flow. -/
def toJson : Flow → Json
  | ⟨name, queueName, data, options, children⟩ =>
      .object [("children", .array (toJsons children)), ("data", data), ("name", .string name),
        ("opts", options.toJson), ("queue_name", .string queueName)]

/-- The values that stand for several flows. -/
def toJsons : List Flow → List Json
  | [] => []
  | flow :: rest => toJson flow :: toJsons rest

end

/-- Read a flow whose document has at most the given height. -/
def decoderWithin : Nat → Decoder Flow
  | 0 => fun _ document => .error (Decoder.unexpected "struct FlowJob" document)
  | height + 1 =>
      .record "struct FlowJob"
        [.of "name" .required .string fun flow name => { flow with name },
          .of "queue_name" .required .string fun flow queueName => { flow with queueName },
          .of "data" .required Decoder.json fun flow data => { flow with data },
          .of "opts" .defaulted JobOptions.decoder fun flow options => { flow with options },
          .of "children" .defaulted (.list (decoderWithin height)) fun flow children =>
            { flow with children }]
        ⟨"", "", .null, .standard, []⟩

/-- Read a flow. -/
def decoder : Decoder Flow := fun place document =>
  decoderWithin (document.height + 1) place document

end Flow

/-- What the submission of a flow answers: the root job and where it is. -/
structure AddedFlow where
  jobId : String
  name : String
  queueName : String
  deriving DecidableEq, Repr

namespace AddedFlow

/-- The value that stands for the answer. -/
def toJson (added : AddedFlow) : Json :=
  .object [("job_id", .string added.jobId), ("name", .string added.name),
    ("queue_name", .string added.queueName)]

/-- Read the answer. -/
def decoder : Decoder AddedFlow :=
  .record "struct AddedFlow"
    [.of "job_id" .required .string fun added jobId => { added with jobId },
      .of "name" .required .string fun added name => { added with name },
      .of "queue_name" .required .string fun added queueName => { added with queueName }]
    ⟨"", "", ""⟩

end AddedFlow

end Relay
