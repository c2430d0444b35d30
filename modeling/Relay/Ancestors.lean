import Relay.Handler.Result

/-!
# Results of earlier steps

The queue hands a step the return value of the one step before it.  So every
step returns an envelope that carries, next to its own result, the results of
all steps before it, and before a handler runs the collected results are
narrowed to the fathers of its step.
-/

namespace Relay

/-- What a step returns to the queue. -/
structure Envelope where
  /-- The step that produced the result. -/
  name : String
  result : StepResult
  /-- The results of all steps so far, including this one. -/
  ancestors : Dict StepResult
  deriving DecidableEq, Repr

namespace Envelope

/-- The value that stands for an envelope. -/
def toJson (envelope : Envelope) : Json :=
  .object [("ancestors", .ofDict (envelope.ancestors.map StepResult.toJson)),
    ("name", .string envelope.name), ("result", envelope.result.toJson)]

/-- Read an envelope. -/
def decoder : Decoder Envelope :=
  .record "struct StepEnvelope"
    [.of "name" .required .string fun envelope name => { envelope with name },
      .of "result" .required StepResult.decoder fun envelope result => { envelope with result },
      .of "ancestors" .required (.dict StepResult.decoder) fun envelope ancestors =>
        { envelope with ancestors }]
    ⟨"", ⟨false, .null⟩, .empty⟩

end Envelope

/-- The results of the steps that have already run, by name. -/
structure Ancestors where
  results : Dict StepResult
  deriving DecidableEq, Repr

namespace Ancestors

/-- No step has run. -/
def none : Ancestors := ⟨.empty⟩

/-- Add the result of an envelope and then everything that it carries. -/
def absorb (ancestors : Ancestors) (envelope : Envelope) : Ancestors :=
  ⟨(ancestors.results.insert envelope.name envelope.result).insertAll envelope.ancestors.entries⟩

/-- Collect the envelopes among the return values of the children of a job, in
the order of their keys.  Other values are ignored. -/
def ofChildren (values : Dict Json) : Ancestors :=
  (values.values.filterMap fun value => (value.decode Envelope.decoder).toOption).foldl absorb none

/-- The results together with one more. -/
def record (ancestors : Ancestors) (name : String) (result : StepResult) : Ancestors :=
  ⟨ancestors.results.insert name result⟩

/-- The results of some fathers.  A father without a result is left out. -/
def visibleTo (ancestors : Ancestors) (fathers : List String) : Results :=
  .ofList (fathers.filterMap fun father =>
    (ancestors.results.get? father).map fun result => (father, result))

end Ancestors

end Relay
