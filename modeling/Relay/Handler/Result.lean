import Relay.Decode.Basic

/-!
# Results of steps

What a handler returns, and what the handler of a later step is shown: the
results of the fathers of that step, by name.
-/

namespace Relay

/-- The result of one step. -/
structure StepResult where
  /-- When set, the steps that see this result should not do their work. -/
  skipNextStep : Bool
  data : Json
  deriving DecidableEq, Repr

namespace StepResult

/-- A result after which work goes on. -/
def proceed (data : Json) : StepResult := ⟨false, data⟩

/-- A result that asks dependents to skip. -/
def skip (data : Json) : StepResult := ⟨true, data⟩

/-- The value that stands for a result. -/
def toJson (result : StepResult) : Json :=
  .object [("data", result.data), ("skip_next_step", .bool result.skipNextStep)]

/-- Read a result. -/
def decoder : Decoder StepResult :=
  .record "struct WorkflowResult"
    [.of "skip_next_step" .defaulted .bool fun result skipNextStep => { result with skipNextStep },
      .of "data" .defaulted Decoder.json fun result data => { result with data }]
    ⟨false, .null⟩

end StepResult

/-- The results that a handler is shown, by the name of the step that gave them. -/
abbrev Results := Dict StepResult

namespace Results

/-- Whether a visible result asks to skip. -/
def shouldSkip (visible : Results) : Bool := visible.values.any StepResult.skipNextStep

/-- The data of the first visible result, in order of names, that is accepted. -/
def extract? (visible : Results) (accept : Json → Bool) : Option Json :=
  (visible.values.map StepResult.data).find? accept

/-- Read visible results. -/
def decoder : Decoder Results := .dict StepResult.decoder

/-- The value that stands for visible results. -/
def toJson (visible : Results) : Json := .ofDict (Dict.map visible StepResult.toJson)

end Results

/-- A test on the data of a result. -/
inductive Acceptance where
  | anything
  /-- An object with a given key. -/
  | hasKey (key : String)
  /-- A value of the kind with a given name. -/
  | ofKind (kind : String)
  | equalTo (value : Json)

/-- The name of the kind of a value. -/
def Json.kind : Json → String
  | .null => "null"
  | .bool _ => "bool"
  | .number _ => "number"
  | .string _ => "string"
  | .array _ => "array"
  | .object _ => "object"

/-- Whether a value passes a test. -/
def Acceptance.admits : Acceptance → Json → Bool
  | .anything, _ => true
  | .hasKey key, value => (value.member? key).isSome
  | .ofKind kind, value => value.kind == kind
  | .equalTo expected, value => value.sameValue expected

end Relay
