import Relay.Text.Hidden

/-!
# Quoted text

Messages show a piece of text between double quotes.  The quote, the backslash
and the usual control characters are written with a backslash, every other
character that cannot be shown is written by its code in braces.
-/

namespace Relay.Text

/-- Lower-case hexadecimal digits of a code point. -/
def codeDigits (code : Nat) : List Char := Nat.toDigits 16 code

/-- A character as it stands between quotes. -/
def quotedChar (char : Char) : List Char :=
  match char with
  | '\x00' => ['\\', '0']
  | '\t' => ['\\', 't']
  | '\r' => ['\\', 'r']
  | '\n' => ['\\', 'n']
  | '\\' => ['\\', '\\']
  | '"' => ['\\', '"']
  | _ =>
      if isHidden char then '\\' :: 'u' :: '\x7b' :: codeDigits char.toNat ++ ['\x7d']
      else [char]

/-- A text between quotes. -/
def quoted (text : String) : String :=
  String.ofList ('"' :: text.toList.flatMap quotedChar ++ ['"'])

/-- Quoted texts between brackets. -/
def quotedList (texts : List String) : String :=
  "[" ++ String.intercalate ", " (texts.map quoted) ++ "]"

end Relay.Text
