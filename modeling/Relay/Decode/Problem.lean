import Relay.Json.Document
import Relay.Json.Writer
import Relay.Text.Quoted
import Relay.Timestamp

/-!
# Problems met while decoding

Decoding stops at the first problem.  Either the text is not JSON, which is a
`Fault` of the reader, or a part of it does not fit what is expected there,
which is a `Mismatch` at some place in the document.
-/

namespace Relay

/-- What stands where something else is expected. -/
inductive Found where
  | null
  | boolean (value : Bool)
  | integer (value : Int)
  | double (value : Double)
  | text (value : String)
  | sequence
  | map
  /-- A variant that is only named, where one with content is expected. -/
  | bareVariant
  deriving DecidableEq, Repr

/-- How a message names what was found. -/
def Found.describe : Found → String
  | .null => "null"
  | .boolean value => "boolean `" ++ toString value ++ "`"
  | .integer value => "integer `" ++ toString value ++ "`"
  | .double value => "floating point `" ++ value.text ++ "`"
  | .text value => "string " ++ Text.quoted value
  | .sequence => "sequence"
  | .map => "map"
  | .bareVariant => "unit variant"

/-- Why a part of a document does not fit. -/
inductive Mismatch where
  | wrongType (found : Found) (expected : String)
  | outOfRange (value : Int) (expected : String)
  | notSingleKey
  | wrongLength (length : Nat) (expected : String)
  | missingField (name : String)
  | duplicateField (name : String)
  | unknownVariant (name : String) (known : List String)
  | badUuid
  | badTimestamp (problem : Timestamp.Problem)
  deriving DecidableEq, Repr

/-- A list of alternatives as it stands in a message. -/
def describeAlternatives (names : List String) : String :=
  let marked := names.map fun name => "`" ++ name ++ "`"
  match marked with
  | [only] => only
  | [first, second] => first ++ " or " ++ second
  | _ => "one of " ++ String.intercalate ", " marked

/-- The wording of a mismatch. -/
def Mismatch.message : Mismatch → String
  | .wrongType found expected => "invalid type: " ++ found.describe ++ ", expected " ++ expected
  | .outOfRange value expected =>
      "invalid value: " ++ (Found.integer value).describe ++ ", expected " ++ expected
  | .notSingleKey => "invalid value: map, expected map with a single key"
  | .wrongLength length expected =>
      "invalid length " ++ toString length ++ ", expected " ++ expected
  | .missingField name => "missing field `" ++ name ++ "`"
  | .duplicateField name => "duplicate field `" ++ name ++ "`"
  | .unknownVariant name known =>
      "unknown variant `" ++ name ++ "`, expected " ++ describeAlternatives known
  | .badUuid => "UUID parsing failed"
  | .badTimestamp problem => problem.message

/-- One step on the way from a document to one of its parts. -/
inductive PathStep where
  | index (position : Nat)
  | field (name : String)
  deriving DecidableEq, Repr

/-- The written form of a path. -/
def describePath : List PathStep → String
  | [] => ""
  | .index position :: rest => "[" ++ toString position ++ "]" ++ describeRest rest
  | .field name :: rest => name ++ describeRest rest
where
  /-- The written form of the steps after the first. -/
  describeRest : List PathStep → String
    | [] => ""
    | .index position :: rest => "[" ++ toString position ++ "]" ++ describeRest rest
    | .field name :: rest => "." ++ name ++ describeRest rest

/-- The first problem of a document. -/
inductive DecodeError where
  | fault (reason : Fault)
  | mismatch (path : List PathStep) (problem : Mismatch)
  deriving DecidableEq, Repr

/-- The same problem seen from the container of the part that has it. -/
def DecodeError.within (step : PathStep) : DecodeError → DecodeError
  | .fault reason => .fault reason
  | .mismatch path problem => .mismatch (step :: path) problem

/-- The wording of the problem, without its place. -/
def DecodeError.message : DecodeError → String
  | .fault .eof => "unexpected end of text"
  | .fault .malformed => "malformed text"
  | .mismatch _ problem => problem.message

end Relay
