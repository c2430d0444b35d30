import Relay.Decode.Problem
import Relay.Json.Reader
import Relay.Uuid

/-!
# Decoders

A decoder turns a document into a value of a type or reports the first problem
in reading order.  The same decoders serve values, texts and configuration
files; the `Origin` of a document settles the few points in which these differ.

A structure is decoded field by field (`Decoder.record`): from a table in
which the fields may stand in any order, or from a list of the fields in their
order of declaration.
-/

namespace Relay

/-- Where a document comes from. -/
inductive Origin where
  /-- A value that was read before. -/
  | value
  /-- A JSON text: containers nest at most 127 deep. -/
  | text
  /-- A configuration file. -/
  | configuration
  deriving DecidableEq, Repr

/-- The place of a document: its origin and the number of containers around it. -/
structure Place where
  origin : Origin
  depth : Nat

/-- The number of containers that may be nested in a text. -/
def Place.deepest : Nat := 127

/-- The place of the parts of a container. -/
def Place.inside (place : Place) : Except DecodeError Place :=
  if place.origin = .text ∧ place.depth ≥ Place.deepest then .error (.fault .malformed)
  else .ok { place with depth := place.depth + 1 }

/-- A function from documents to values of a type. -/
def Decoder (α : Type) := Place → Document → Except DecodeError α

namespace Decoder

/-- The problem of a document that is not of the expected kind. -/
def unexpected (expected : String) : Document → DecodeError
  | .null => .mismatch [] (.wrongType .null expected)
  | .bool value => .mismatch [] (.wrongType (.boolean value) expected)
  | .number (.integer value) => .mismatch [] (.wrongType (.integer value) expected)
  | .number (.double value) => .mismatch [] (.wrongType (.double value) expected)
  | .string value => .mismatch [] (.wrongType (.text value) expected)
  | .list _ _ => .mismatch [] (.wrongType .sequence expected)
  | .table _ _ => .mismatch [] (.wrongType .map expected)
  | .foreign => .mismatch [] (.wrongType .map expected)
  | .oversized => .fault .malformed
  | .garbled => .fault .malformed
  | .stop reason => .fault reason.onRead

/-- The end of a container. -/
def ending : Option Stop → Except DecodeError Unit
  | none => .ok ()
  | some reason => .error (.fault reason.onRead)

/-- Report problems of a part from its container. -/
def located {α : Type} (step : PathStep) (result : Except DecodeError α) : Except DecodeError α :=
  result.mapError (·.within step)

/-- A string. -/
def string : Decoder String := fun _ document =>
  match document with
  | .string value => .ok value
  | other => .error (unexpected "a string" other)

/-- A truth value. -/
def bool : Decoder Bool := fun _ document =>
  match document with
  | .bool value => .ok value
  | other => .error (unexpected "a boolean" other)

/-- Null, where nothing else is expected. -/
def unit : Decoder Unit := fun _ document =>
  match document with
  | .null => .ok ()
  | other => .error (unexpected "unit" other)

/-- A natural number below a limit. -/
def natural (limit : Nat) (expected : String) : Decoder Nat := fun _ document =>
  match document with
  | .number (.integer value) =>
      if 0 ≤ value ∧ value < limit then .ok value.toNat
      else .error (.mismatch [] (.outOfRange value expected))
  | other => .error (unexpected expected other)

/-- A count of thirty-two bits. -/
def nat32 : Decoder Nat := natural (Nat.pow 2 32) "u32"

/-- A count of sixty-four bits. -/
def nat64 : Decoder Nat := natural (Nat.pow 2 64) "u64"

/-- A size of sixty-four bits. -/
def size64 : Decoder Nat := natural (Nat.pow 2 64) "usize"

/-- Null or a value. -/
def optional {α : Type} (decode : Decoder α) : Decoder (Option α) := fun place document =>
  match document with
  | .null => .ok none
  | other => (decode place other).map some

/-- A universally unique identifier. -/
def uuid : Decoder Uuid := fun _ document =>
  match document with
  | .string value =>
      match Uuid.ofText? value with
      | some uuid => .ok uuid
      | none => .error (.mismatch [] .badUuid)
  | other => .error (unexpected "a formatted UUID string" other)

/-- A point in time. -/
def timestamp : Decoder Timestamp := fun _ document =>
  match document with
  | .string value =>
      match Timestamp.ofText value with
      | .ok time => .ok time
      | .error problem => .error (.mismatch [] (.badTimestamp problem))
  | other => .error (unexpected "an RFC 3339 formatted date and time string" other)

/-- Decode items one after another; `position` is the index of the first. -/
def items {α : Type} (decode : Decoder α) (place : Place) :
    (position : Nat) → List Document → Except DecodeError (List α)
  | _, [] => .ok []
  | position, item :: rest => do
      let value ← located (.index position) (decode place item)
      let values ← items decode place (position + 1) rest
      return value :: values

/-- A list. -/
def list {α : Type} (decode : Decoder α) : Decoder (List α) := fun place document =>
  match document with
  | .list found stop => do
      let inside ← place.inside
      let values ← items decode inside 0 found
      ending stop
      return values
  | other => .error (unexpected "a sequence" other)

/-- Decode the entries of a table one after another. -/
def entries {α : Type} (decode : Decoder α) (place : Place) :
    List (Option String × Document) → Except DecodeError (List (String × α))
  | [] => .ok []
  | (none, _) :: _ => .error (.fault .malformed)
  | (some key, document) :: rest => do
      let value ← located (.field key) (decode place document)
      let values ← entries decode place rest
      return (key, value) :: values

/-- A dictionary; of several values for one key the last wins. -/
def dict {α : Type} (decode : Decoder α) : Decoder (Dict α) := fun place document =>
  match document with
  | .table found stop => do
      let inside ← place.inside
      let values ← entries decode inside found
      ending stop
      return Dict.ofList values
  | other => .error (unexpected "a map" other)

mutual

/-- Any JSON value. -/
def json (place : Place) : Document → Except DecodeError Json
  | .null => .ok .null
  | .bool value => .ok (.bool value)
  | .number value => .ok (.number value)
  | .string value => .ok (.string value)
  | .list found stop => do
      let inside ← place.inside
      let values ← jsonItems inside found
      ending stop
      return .array values
  | .table found stop => do
      let inside ← place.inside
      let values ← jsonEntries inside found
      ending stop
      return .record values
  | .oversized => .error (.fault .malformed)
  | .garbled => .error (.fault .malformed)
  | .foreign => .error (unexpected "any value" .foreign)
  | .stop reason => .error (.fault reason.onRead)

/-- Any JSON values, one after another. -/
def jsonItems (place : Place) : List Document → Except DecodeError (List Json)
  | [] => .ok []
  | item :: rest => do
      let value ← json place item
      let values ← jsonItems place rest
      return value :: values

/-- Entries with any JSON values, one after another. -/
def jsonEntries (place : Place) :
    List (Option String × Document) → Except DecodeError (List (String × Json))
  | [] => .ok []
  | (none, _) :: _ => .error (.fault .malformed)
  | (some key, document) :: rest => do
      let value ← json place document
      let values ← jsonEntries place rest
      return (key, value) :: values

end

/-- When a field of a structure has to be present. -/
inductive Presence where
  /-- The field has a default. -/
  | defaulted
  /-- The field may be left out of a table, but not of a list. -/
  | namedOnly
  | required
  deriving DecidableEq, Repr

/-- A field of a structure: how it is read into a value of which it is a part. -/
structure Field (α : Type) where
  name : String
  presence : Presence
  read : Place → Document → α → Except DecodeError α

/-- A field that is decoded and then stored. -/
def Field.of {α β : Type} (name : String) (presence : Presence) (decode : Decoder β)
    (store : α → β → α) : Field α :=
  { name, presence, read := fun place document value => (decode place document).map (store value) }

/-- Read the fields of a structure from the entries of a table.  Entries of other
names are passed over.  Returns the value and the names that were read. -/
def tableFields {α : Type} (fields : List (Field α)) (place : Place) :
    List (Option String × Document) → (value : α) → (seen : List String) →
      Except DecodeError (α × List String)
  | [], value, seen => .ok (value, seen)
  | (none, _) :: _, _, _ => .error (.fault .malformed)
  | (some key, document) :: rest, value, seen =>
      match fields.find? fun field => field.name == key with
      | none => do
          document.skip.mapError .fault
          tableFields fields place rest value seen
      | some field =>
          if seen.contains key then .error (.mismatch [] (.duplicateField key))
          else do
            let value ← located (.field key) (field.read place document value)
            tableFields fields place rest value (key :: seen)

/-- The structure with a number of elements, as it is called in a message. -/
def describeStructure (kind : String) (count : Nat) : String :=
  kind ++ " with " ++ toString count ++ (if count = 1 then " element" else " elements")

/-- Read the fields of a structure from the items of a list, in order of declaration. -/
def listFields {α : Type} (expected : String) (place : Place) (stop : Option Stop) :
    (position : Nat) → List (Field α) → List Document → (value : α) →
      Except DecodeError (α × List Document)
  | _, [], left, value => .ok (value, left)
  | position, field :: fields, [], value => do
      ending stop
      if field.presence = .defaulted then listFields expected place stop (position + 1) fields [] value
      else .error (.mismatch [] (.wrongLength position expected))
  | position, field :: fields, item :: left, value => do
      let value ← located (.index position) (field.read place item value)
      listFields expected place stop (position + 1) fields left value

/-- What follows from items that no field has taken. -/
def leftOver (origin : Origin) (count : Nat) (left : List Document) : Except DecodeError Unit :=
  if left.isEmpty then .ok ()
  else
    match origin with
    | .value => .error (.mismatch [] (.wrongLength count "fewer elements in array"))
    | .text => .error (.fault .malformed)
    | .configuration => .ok ()

/-- A structure with named fields.  `blank` holds the defaults. -/
def record {α : Type} (kind : String) (fields : List (Field α)) (blank : α) : Decoder α :=
  fun place document =>
    match document with
    | .table found stop => do
        let inside ← place.inside
        let (value, seen) ← tableFields fields inside found blank []
        ending stop
        match fields.find? fun field => field.presence == .required && !seen.contains field.name with
        | some field => .error (.mismatch [] (.missingField field.name))
        | none => .ok value
    | .list found stop => do
        let inside ← place.inside
        let expected := describeStructure kind fields.length
        let (value, left) ← listFields expected inside stop 0 fields found blank
        leftOver place.origin found.length left
        ending stop
        return value
    | other => .error (unexpected kind other)

/-- A variant of an enumeration, with or without content. -/
inductive Variant (α : Type) where
  | bare (name : String) (value : α)
  | holding (name : String) (read : Decoder α)

/-- The name of a variant. -/
def Variant.name {α : Type} : Variant α → String
  | .bare name _ => name
  | .holding name _ => name

/-- Choose a variant by its name. -/
def chooseVariant {α : Type} (variants : List (Variant α)) (name : String) :
    Except DecodeError (Variant α) :=
  match variants.find? fun variant => variant.name == name with
  | some variant => .ok variant
  | none => .error (.mismatch [] (.unknownVariant name (variants.map Variant.name)))

/-- Read the content of a variant. -/
def variantContent {α : Type} (place : Place) (variant : Variant α) (document : Document) :
    Except DecodeError α :=
  match variant with
  | .bare _ value => do
      unit place document
      return value
  | .holding _ read => read place document

/-- An enumeration: the name of a variant, or a table from that name to its content. -/
def enumeration {α : Type} (variants : List (Variant α)) : Decoder α := fun place document =>
  match document with
  | .string name => do
      match ← chooseVariant variants name with
      | .bare _ value => .ok value
      | .holding _ _ => .error (.mismatch [] (.wrongType .bareVariant "newtype variant"))
  | .table found stop =>
      if place.origin = .text then do
        let inside ← place.inside
        match found with
        | [] => do
            ending stop
            .error (.fault .malformed)
        | (none, _) :: _ => .error (.fault .malformed)
        | (some name, content) :: rest => do
            let value ← variantContent inside (← chooseVariant variants name) content
            if rest.isEmpty then ending stop else .error (.fault .malformed)
            return value
      else
        match found with
        | [(some name, content)] => do
            variantContent place (← chooseVariant variants name) content
        | _ => .error (.mismatch [] .notSingleKey)
  | .stop reason => .error (.fault reason.onRead)
  | other =>
      if place.origin = .text then .error (.fault .malformed)
      else .error (unexpected "string or map" other)

end Decoder

/-- Decode a JSON value. -/
def Json.decode {α : Type} (decoder : Decoder α) (value : Json) : Except DecodeError α :=
  decoder ⟨.value, 0⟩ (Document.ofJson value)

/-- Decode a JSON text, after which nothing but blanks may follow. -/
def Reading.decode {α : Type} (decoder : Decoder α) (reading : Reading) : Except DecodeError α := do
  let value ← decoder ⟨.text, 0⟩ reading.document
  if reading.trailing then .error (.fault .malformed) else .ok value

end Relay
