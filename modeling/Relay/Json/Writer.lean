import Relay.Json.Basic
import Relay.Text.Hexadecimal

/-!
# Writing JSON

The text of a value has no blanks, and the members of an object stand in the
order in which the value lists them.  Strings escape the quote, the backslash
and the control characters, and leave everything else as it is.
-/

namespace Relay

/-- The text of a number. -/
def Number.text : Number → String
  | .integer value => toString value
  | .double value => value.text

namespace Json

/-- The four hexadecimal digits of a code below `2 ^ 16`. -/
def hexCode (code : Nat) : List Char :=
  [Text.hexLetter (code / 4096 % 16), Text.hexLetter (code / 256 % 16), Text.hexLetter (code / 16 % 16),
    Text.hexLetter (code % 16)]

/-- A character as it stands inside a string. -/
def escapeChar (char : Char) : List Char :=
  match char with
  | '"' => ['\\', '"']
  | '\\' => ['\\', '\\']
  | '\n' => ['\\', 'n']
  | '\r' => ['\\', 'r']
  | '\t' => ['\\', 't']
  | '\x08' => ['\\', 'b']
  | '\x0c' => ['\\', 'f']
  | _ => if char.toNat < 0x20 then '\\' :: 'u' :: hexCode char.toNat else [char]

/-- A string with its quotes. -/
def quote (text : String) : String :=
  String.ofList ('"' :: text.toList.flatMap escapeChar ++ ['"'])

mutual

/-- The text of a value. -/
def text : Json → String
  | .null => "null"
  | .bool true => "true"
  | .bool false => "false"
  | .number value => value.text
  | .string value => quote value
  | .array items => "[" ++ String.intercalate "," (itemTexts items) ++ "]"
  | .object members => "\x7b" ++ String.intercalate "," (memberTexts members) ++ "\x7d"

/-- The texts of the items of an array. -/
def itemTexts : List Json → List String
  | [] => []
  | item :: rest => text item :: itemTexts rest

/-- The texts of the members of an object. -/
def memberTexts : List (String × Json) → List String
  | [] => []
  | (key, value) :: rest => (quote key ++ ":" ++ text value) :: memberTexts rest

end

end Json

end Relay
