import Relay.Decimal.Double
import Relay.Json.Document
import Relay.Timestamp
import Relay.Toml.Lexeme

/-!
# Numbers and dates of configuration files

Integers have sixty-four signed bits.  No setting is a fraction, so a number with
a fraction or an exponent is only checked.  A date stands for a table with one
entry, which holds the date in its strict form.
-/

namespace Relay

namespace Toml

/-- A run of digits in which single underscores may stand between two digits;
returns the digits. -/
def digitRun (isDigit : Char → Bool) : List Char → List Char × List Char
  | [] => ([], [])
  | [char] => if isDigit char then ([char], []) else ([], [char])
  | char :: next :: rest =>
      if isDigit char then
        let (digits, rest) := digitRun isDigit (next :: rest)
        (char :: digits, rest)
      else if char == '_' && isDigit next then digitRun isDigit (next :: rest)
      else ([], char :: next :: rest)

/-- A run of digits that begins with a digit. -/
def digits? (isDigit : Char → Bool) : Scan (List Char)
  | [] => none
  | char :: rest => if isDigit char then some (digitRun isDigit (char :: rest)) else none

/-- The number that digits spell in a base. -/
def valueOf (base : Nat) (digits : List Char) : Nat :=
  digits.foldl (fun value digit => base * value + (Text.hexValue? digit).getD 0) 0

/-- A sign, if there is one; tells whether it is a minus. -/
def sign : List Char → Bool × List Char
  | '-' :: rest => (true, rest)
  | '+' :: rest => (false, rest)
  | chars => (false, chars)

/-- The digits of a decimal number without superfluous zeros in front. -/
def decimal? : Scan (List Char)
  | '0' :: rest => some (['0'], rest)
  | chars => digits? Char.isDigit chars

/-- An integer that fits into sixty-four bits. -/
def fitting (value : Int) : Option Document :=
  if -Int.pow 2 63 ≤ value ∧ value < Int.pow 2 63 then some (.number (.integer value)) else none

/-- An integer in a base other than ten, after the letter that tells the base. -/
def based? (base : Nat) (isDigit : Char → Bool) : Scan Document := fun chars =>
  (digits? isDigit chars).bind fun (digits, rest) =>
    (fitting (valueOf base digits)).map fun value => (value, rest)

/-- An integer. -/
def integer? : Scan Document
  | '0' :: 'x' :: rest => based? 16 (fun char => (Text.hexValue? char).isSome) rest
  | '0' :: 'o' :: rest => based? 8 (fun char => '0' ≤ char && char ≤ '7') rest
  | '0' :: 'b' :: rest => based? 2 (fun char => char == '0' || char == '1') rest
  | chars =>
      let (negative, rest) := sign chars
      (decimal? rest).bind fun (digits, rest) =>
        let value : Int := valueOf 10 digits
        (fitting (if negative then -value else value)).map fun value => (value, rest)

/-- Digits after a point, if there is one. -/
def fraction? : Scan (Option (List Char))
  | '.' :: rest => (digits? Char.isDigit rest).map fun (digits, rest) => (some digits, rest)
  | chars => some (none, chars)

/-- A power of ten, if there is one. -/
def power? : Scan (Option Int)
  | char :: rest =>
      if char == 'e' || char == 'E' then
        let (negative, rest) := sign rest
        (digits? Char.isDigit rest).map fun (digits, rest) =>
          let power : Int := valueOf 10 digits
          (some (if negative then -power else power), rest)
      else some (none, char :: rest)
  | [] => some (none, [])

/-- Whether the decimal `digits * 10 ^ power` is larger than every double. -/
def isTooLarge (digits : List Char) (power : Int) : Bool :=
  let significant := digits.dropWhile (· == '0')
  let size : Int := significant.length + power
  if significant.isEmpty || size < 300 then false
  else if size > 310 then true
  else
    let value := valueOf 10 significant
    let rounded :=
      if power ≥ 0 then Double.nearest? (value * Nat.pow 10 power.toNat) 1
      else Double.nearest? value (Nat.pow 10 (-power).toNat)
    rounded.isNone

/-- A number with a fraction, an exponent or both.  Only a positive one can be too
large. -/
def float? : Scan Document := fun chars =>
  let (negative, rest) := sign chars
  match rest with
  | 'i' :: 'n' :: 'f' :: rest => some (.foreign, rest)
  | 'n' :: 'a' :: 'n' :: rest => some (.foreign, rest)
  | _ => do
      let (whole, rest) ← decimal? rest
      let (part, rest) ← fraction? rest
      let (power, rest) ← power? rest
      if part.isNone && power.isNone then none
      else
        let part := part.getD []
        if !negative && isTooLarge (whole ++ part) (power.getD 0 - part.length) then none
        else return (.foreign, rest)

/-- A number of a fixed count of digits within bounds. -/
def fixed? (count low high : Nat) : Scan Nat := fun chars =>
  let digits := chars.take count
  let value := valueOf 10 digits
  if digits.length = count ∧ digits.all Char.isDigit ∧ low ≤ value ∧ value ≤ high then
    some (value, chars.drop count)
  else none

/-- A given character. -/
def mark? (mark : Char) : Scan Unit
  | char :: rest => if char == mark then some ((), rest) else none
  | [] => none

/-- A day of the calendar, in its written form. -/
def date? : Scan (List Char) := fun chars => do
  let (year, rest) ← fixed? 4 0 9999 chars
  let (_, rest) ← mark? '-' rest
  let (month, rest) ← fixed? 2 1 12 rest
  let (_, rest) ← mark? '-' rest
  let (_, rest) ← fixed? 2 1 (Timestamp.daysInMonth year month) rest
  return (chars.take 10, rest)

/-- A fraction of a second, of which nine digits count, without zeros at its end. -/
def secondPart? : Scan (List Char)
  | '.' :: rest =>
      let digits := rest.takeWhile Char.isDigit
      let kept := ((digits.take 9).reverse.dropWhile (· == '0')).reverse
      if digits.isEmpty then none
      else some (if kept.isEmpty then [] else '.' :: kept, rest.dropWhile Char.isDigit)
  | chars => some ([], chars)

/-- A time of the day, in its written form. -/
def time? : Scan (List Char) := fun chars => do
  let (_, rest) ← fixed? 2 0 23 chars
  let (_, rest) ← mark? ':' rest
  let (_, rest) ← fixed? 2 0 59 rest
  let (_, rest) ← mark? ':' rest
  let (_, rest) ← fixed? 2 0 60 rest
  let (part, rest) ← secondPart? rest
  return (chars.take 8 ++ part, rest)

/-- The distance from universal time, in its written form; nothing if it is left out. -/
def offset? : Scan (List Char)
  | char :: rest =>
      if char == 'Z' || char == 'z' then some (['Z'], rest)
      else if char == '+' || char == '-' then do
        let (hours, after) ← fixed? 2 0 23 rest
        let (_, after) ← mark? ':' after
        let (minutes, after) ← fixed? 2 0 59 after
        let sign := if hours = 0 ∧ minutes = 0 then '+' else char
        return (sign :: rest.take 5, after)
      else some ([], char :: rest)
  | [] => some ([], [])

/-- A time of a day with its distance from universal time, after the mark between
date and time. -/
def timeOfDate? : Scan (List Char)
  | mark :: rest =>
      if mark == 'T' || mark == 't' || mark == ' ' then do
        let (time, rest) ← time? rest
        let (offset, rest) ← offset? rest
        return ('T' :: time ++ offset, rest)
      else none
  | [] => none

/-- The table that stands for a date. -/
def dateTable (written : List Char) : Document :=
  .table [(some "$__toml_private_datetime", .string (.ofList written))] none

/-- A date, a time or both. -/
def dateTime? : Scan Document := fun chars =>
  match date? chars with
  | some (date, rest) =>
      match timeOfDate? rest with
      | some (time, rest) => some (dateTable (date ++ time), rest)
      | none => some (dateTable date, rest)
  | none => (time? chars).map fun (time, rest) => (dateTable time, rest)

/-- A truth value. -/
def truth? : Scan Document
  | 't' :: 'r' :: 'u' :: 'e' :: rest => some (.bool true, rest)
  | 'f' :: 'a' :: 'l' :: 's' :: 'e' :: rest => some (.bool false, rest)
  | _ => none

/-- A value without parts. -/
def scalar? : Scan Document := fun chars =>
  ((string? chars).map fun (text, rest) => (.string text, rest)).or
    ((truth? chars).or ((dateTime? chars).or ((float? chars).or (integer? chars))))

end Toml

end Relay
