import Relay.Text.Hexadecimal

/-!
# Universally unique identifiers

An identifier is a sequence of thirty-two hexadecimal digits.  It is read in
four spellings and written in one, lower case with hyphens.
-/

namespace Relay

/-- A universally unique identifier, by its hexadecimal digits. -/
structure Uuid where
  digits : List (Fin 16)
  length_digits : digits.length = 32
  deriving DecidableEq, Repr

namespace Uuid

/-- The lower-case letter of a hexadecimal digit. -/
def letter (digit : Fin 16) : Char := Text.hexLetter digit.val

/-- The digit of a letter of either case. -/
def digit? (char : Char) : Option (Fin 16) := (Text.hexValue? char).map (Fin.ofNat 16)

/-- The identifier with thirty-two given letters. -/
def ofLetters? (letters : List Char) : Option Uuid :=
  match letters.mapM digit? with
  | some digits => if size : digits.length = 32 then some ⟨digits, size⟩ else none
  | none => none

/-- Read the hyphenated spelling: groups of 8, 4, 4, 4 and 12 digits. -/
def ofHyphenated? (chars : List Char) : Option Uuid :=
  if chars.length = 36 ∧ chars[8]? = some '-' ∧ chars[13]? = some '-' ∧ chars[18]? = some '-' ∧
      chars[23]? = some '-' then
    ofLetters? (chars.take 8 ++ (chars.drop 9).take 4 ++ (chars.drop 14).take 4 ++
      (chars.drop 19).take 4 ++ chars.drop 24)
  else none

/-- What stands in front of the hyphenated spelling of a name. -/
def namePrefix : List Char := "urn:uuid:".toList

/-- Read an identifier: thirty-two digits, hyphenated, hyphenated in braces, or
hyphenated as a name. -/
def ofText? (text : String) : Option Uuid :=
  let chars := text.toList
  if chars.length = 32 then ofLetters? chars
  else if chars.length = 36 then ofHyphenated? chars
  else if chars.length = 38 ∧ chars.head? = some '\x7b' ∧ chars.getLast? = some '\x7d' then
    ofHyphenated? ((chars.drop 1).take 36)
  else if chars.length = 45 ∧ namePrefix.isPrefixOf chars then ofHyphenated? (chars.drop 9)
  else none

/-- The identifier in its written form. -/
def text (uuid : Uuid) : String :=
  let letters := uuid.digits.map letter
  String.ofList (letters.take 8 ++ '-' :: (letters.drop 8).take 4 ++ '-' :: (letters.drop 12).take 4 ++
    '-' :: (letters.drop 16).take 4 ++ '-' :: letters.drop 20)

/-- The last `count` hexadecimal digits of a number. -/
def lowDigits : Nat → Nat → List (Fin 16)
  | 0, _ => []
  | count + 1, number => lowDigits count (number / 16) ++ [Fin.ofNat 16 number]

@[simp] theorem length_lowDigits (count number : Nat) : (lowDigits count number).length = count := by
  induction count generalizing number with
  | zero => rfl
  | succ count ih => simp [lowDigits, ih]

/-- The identifier whose digits spell a number below `2 ^ 128`. -/
def ofNat (number : Nat) : Uuid := ⟨lowDigits 32 number, length_lowDigits 32 number⟩

end Uuid

end Relay
