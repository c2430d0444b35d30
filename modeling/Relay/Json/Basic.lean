import Relay.Decimal.Shortest
import Relay.Dict

/-!
# JSON values

Payloads, step results and job data are JSON values of any shape.  A number
keeps the form it was given in: `1` is an integer and `1.0` is a double, and
the two are different values.  The members of an object are listed in
increasing key order; `Json.ofDict` and `Json.record` build such objects.
-/

namespace Relay

/-- A number is an integer of at most sixty-four bits or a double. -/
inductive Number where
  | integer (value : Int)
  | double (value : Double)
  deriving DecidableEq, Repr

/-- A JSON value. -/
inductive Json where
  | null
  | bool (value : Bool)
  | number (value : Number)
  | string (value : String)
  | array (items : List Json)
  | object (members : List (String × Json))
  deriving Repr, Inhabited

namespace Json

mutual

/-- Equality of values is decided by recursion. -/
def decideEqual : (left right : Json) → Decidable (left = right)
  | .null, .null => isTrue rfl
  | .bool left, .bool right =>
      if equal : left = right then isTrue (by rw [equal]) else isFalse (by simpa using equal)
  | .number left, .number right =>
      if equal : left = right then isTrue (by rw [equal]) else isFalse (by simpa using equal)
  | .string left, .string right =>
      if equal : left = right then isTrue (by rw [equal]) else isFalse (by simpa using equal)
  | .array left, .array right =>
      match decideEqualItems left right with
      | isTrue equal => isTrue (by rw [equal])
      | isFalse different => isFalse (by simpa using different)
  | .object left, .object right =>
      match decideEqualMembers left right with
      | isTrue equal => isTrue (by rw [equal])
      | isFalse different => isFalse (by simpa using different)
  | .null, .bool _ | .null, .number _ | .null, .string _ | .null, .array _ | .null, .object _
  | .bool _, .null | .bool _, .number _ | .bool _, .string _ | .bool _, .array _
  | .bool _, .object _ | .number _, .null | .number _, .bool _ | .number _, .string _
  | .number _, .array _ | .number _, .object _ | .string _, .null | .string _, .bool _
  | .string _, .number _ | .string _, .array _ | .string _, .object _ | .array _, .null
  | .array _, .bool _ | .array _, .number _ | .array _, .string _ | .array _, .object _
  | .object _, .null | .object _, .bool _ | .object _, .number _ | .object _, .string _
  | .object _, .array _ => isFalse (by simp)

/-- Equality of item lists. -/
def decideEqualItems : (left right : List Json) → Decidable (left = right)
  | [], [] => isTrue rfl
  | [], _ :: _ => isFalse (by simp)
  | _ :: _, [] => isFalse (by simp)
  | left :: lefts, right :: rights =>
      match decideEqual left right, decideEqualItems lefts rights with
      | isTrue head, isTrue tail => isTrue (by rw [head, tail])
      | isFalse different, _ => isFalse (by simp [different])
      | _, isFalse different => isFalse (by simp [different])

/-- Equality of member lists. -/
def decideEqualMembers : (left right : List (String × Json)) → Decidable (left = right)
  | [], [] => isTrue rfl
  | [], _ :: _ => isFalse (by simp)
  | _ :: _, [] => isFalse (by simp)
  | (leftKey, left) :: lefts, (rightKey, right) :: rights =>
      if keys : leftKey = rightKey then
        match decideEqual left right, decideEqualMembers lefts rights with
        | isTrue head, isTrue tail => isTrue (by rw [keys, head, tail])
        | isFalse different, _ => isFalse (by simp [different])
        | _, isFalse different => isFalse (by simp [different])
      else isFalse (by simp [keys])

end

instance : DecidableEq Json := decideEqual

/-- The object with the entries of a dictionary. -/
def ofDict (dict : Dict Json) : Json := .object dict.entries

/-- The object with the given members, put in key order; of several members for
one key the last wins. -/
def record (members : List (String × Json)) : Json := ofDict (Dict.ofList members)

/-- A natural number as a JSON integer. -/
def ofNat (value : Nat) : Json := .number (.integer value)

/-- A list of texts. -/
def ofStrings (texts : List String) : Json := .array (texts.map .string)

/-- The value or null. -/
def ofOption (value : Option Json) : Json := value.getD .null

/-- A member of an object; nothing for any other value. -/
def member? (value : Json) (key : String) : Option Json :=
  match value with
  | .object members => members.lookup key
  | _ => none

/-- The text of a string value. -/
def asString? : Json → Option String
  | .string text => some text
  | _ => none

/-- The items of an array. -/
def asArray? : Json → Option (List Json)
  | .array items => some items
  | _ => none

/-- The members of an object. -/
def asObject? : Json → Option (List (String × Json))
  | .object members => some members
  | _ => none

/-- A non-negative integer below `2 ^ 64`. -/
def asNat? : Json → Option Nat
  | .number (.integer value) => if value ≥ 0 then some value.toNat else none
  | _ => none

mutual

/-- Equality in which the two zeros of the doubles count as one number. -/
def sameValue : Json → Json → Bool
  | .number (.double left), .number (.double right) => left.sameValue right
  | .array left, .array right => sameItems left right
  | .object left, .object right => sameMembers left right
  | .null, right => right == .null
  | .bool left, right => right == .bool left
  | .number left, right => right == .number left
  | .string left, right => right == .string left
  | .array _, _ => false
  | .object _, _ => false

/-- Item by item comparison of two lists. -/
def sameItems : List Json → List Json → Bool
  | [], [] => true
  | left :: lefts, right :: rights => sameValue left right && sameItems lefts rights
  | [], _ :: _ => false
  | _ :: _, [] => false

/-- Member by member comparison of two objects. -/
def sameMembers : List (String × Json) → List (String × Json) → Bool
  | [], [] => true
  | (leftKey, left) :: lefts, (rightKey, right) :: rights =>
      leftKey == rightKey && sameValue left right && sameMembers lefts rights
  | [], _ :: _ => false
  | _ :: _, [] => false

end

end Json

end Relay
