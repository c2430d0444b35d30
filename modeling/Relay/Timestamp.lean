import Relay.Text.Blank

/-!
# Points in time

A timestamp counts seconds and nanoseconds from the beginning of 1970 in
universal time.  It is read from the internet date format in a lenient form
that allows blanks between the parts, and written in the strict form with a
`Z`.  A sixtieth second is kept as a nanosecond count of a thousand million or
more within the fifty-ninth.
-/

namespace Relay

/-- A point in time. -/
structure Timestamp where
  seconds : Int
  nanoseconds : Nat
  deriving DecidableEq, Repr, Inhabited

namespace Timestamp

/-- What is wrong with the text of a timestamp. -/
inductive Problem where
  | outOfRange
  | impossible
  | invalid
  | tooShort
  | tooLong
  deriving DecidableEq, Repr

/-- The wording of a problem. -/
def Problem.message : Problem → String
  | .outOfRange => "input is out of range"
  | .impossible => "no possible date and time matching input"
  | .invalid => "input contains invalid characters"
  | .tooShort => "premature end of input"
  | .tooLong => "trailing input"

/-- Whether a year of the Gregorian calendar has a leap day. -/
def isLeapYear (year : Int) : Bool :=
  year % 4 == 0 && (year % 100 != 0 || year % 400 == 0)

/-- Number of days of a month. -/
def daysInMonth (year : Int) (month : Nat) : Nat :=
  if month = 2 then (if isLeapYear year then 29 else 28)
  else if month = 4 ∨ month = 6 ∨ month = 9 ∨ month = 11 then 30
  else 31

/-- Days from the beginning of 1970 to a date.  Years are counted from March, so
that a leap day is the last day of its year. -/
def dayNumber (year : Int) (month day : Nat) : Int :=
  let shifted := if month ≤ 2 then year - 1 else year
  let era := shifted.fdiv 400
  let yearOfEra := shifted - era * 400
  let monthFromMarch : Int := (month + 9) % 12
  let dayOfYear := (153 * monthFromMarch + 2) / 5 + day - 1
  let dayOfEra := yearOfEra * 365 + yearOfEra / 4 - yearOfEra / 100 + dayOfYear
  era * 146097 + dayOfEra - 719468

/-- The date of a day number, as year, month and day. -/
def dateOfDay (number : Int) : Int × Nat × Nat :=
  let shifted := number + 719468
  let era := shifted.fdiv 146097
  let dayOfEra := shifted - era * 146097
  let yearOfEra := (dayOfEra - dayOfEra / 1460 + dayOfEra / 36524 - dayOfEra / 146096) / 365
  let dayOfYear := dayOfEra - (365 * yearOfEra + yearOfEra / 4 - yearOfEra / 100)
  let monthFromMarch := (5 * dayOfYear + 2) / 153
  let day := dayOfYear - (153 * monthFromMarch + 2) / 5 + 1
  let month := if monthFromMarch < 10 then monthFromMarch + 3 else monthFromMarch - 9
  let year := yearOfEra + era * 400 + (if month ≤ 2 then 1 else 0)
  (year, month.toNat, day.toNat)

/-- A number padded with zeros to a width. -/
def padded (width number : Nat) : List Char :=
  let digits := Nat.toDigits 10 number
  List.replicate (width - digits.length) '0' ++ digits

/-- A year has four digits, or a sign and at least four. -/
def yearText (year : Int) : List Char :=
  if 0 ≤ year ∧ year ≤ 9999 then padded 4 year.toNat
  else (if year < 0 then '-' else '+') :: padded 4 year.natAbs

/-- A fraction of a second with as many places as it needs, in groups of three. -/
def fractionText (nanoseconds : Nat) : List Char :=
  if nanoseconds = 0 then []
  else if nanoseconds % 1000000 = 0 then '.' :: padded 3 (nanoseconds / 1000000)
  else if nanoseconds % 1000 = 0 then '.' :: padded 6 (nanoseconds / 1000)
  else '.' :: padded 9 nanoseconds

/-- The written form of a timestamp. -/
def text (time : Timestamp) : String :=
  let (year, month, day) := dateOfDay (time.seconds.fdiv 86400)
  let ofDay := (time.seconds.fmod 86400).toNat
  let isLeap := time.nanoseconds ≥ 1000000000
  let second := ofDay % 60 + (if isLeap then 1 else 0)
  let nanoseconds := if isLeap then time.nanoseconds - 1000000000 else time.nanoseconds
  String.ofList (yearText year ++ '-' :: padded 2 month ++ '-' :: padded 2 day ++ 'T' ::
    padded 2 (ofDay / 3600) ++ ':' :: padded 2 (ofDay / 60 % 60) ++ ':' :: padded 2 second ++
    fractionText nanoseconds ++ ['Z'])

namespace Scan

/-- Drop leading white space. -/
def skipSpace (chars : List Char) : List Char := chars.dropWhile Text.isWhiteSpace

/-- Read a number of at most `width` digits that fits into sixty-four signed bits. -/
def number (width : Option Nat) (chars : List Char) : Except Problem (Nat × List Char) :=
  let run := chars.takeWhile Char.isDigit
  let digits := match width with
    | some width => run.take width
    | none => run
  let value := digits.foldl (fun total digit => total * 10 + (digit.toNat - '0'.toNat)) 0
  if chars.isEmpty then .error .tooShort
  else if digits.isEmpty then .error .invalid
  else if value ≥ Nat.pow 2 63 then .error .outOfRange
  else .ok (value, chars.drop digits.length)

/-- Read a number within bounds, after white space. -/
def bounded (low high : Nat) (chars : List Char) : Except Problem (Nat × List Char) := do
  let (value, rest) ← number (some 2) (skipSpace chars)
  if low ≤ value ∧ value ≤ high then .ok (value, rest) else .error .outOfRange

/-- Read a year: four digits at most, or any number of digits after a sign. -/
def year (chars : List Char) : Except Problem (Int × List Char) := do
  let chars := skipSpace chars
  let (value, rest) ← match chars with
    | '-' :: rest => do
        let (value, rest) ← number none rest
        pure (-(value : Int), rest)
    | '+' :: rest => do
        let (value, rest) ← number none rest
        pure ((value : Int), rest)
    | _ => do
        let (value, rest) ← number (some 4) chars
        pure ((value : Int), rest)
  if -Int.pow 2 31 ≤ value ∧ value < Int.pow 2 31 then .ok (value, rest) else .error .outOfRange

/-- Pass over a separator, after white space. -/
def separator (mark : Char) (chars : List Char) : Except Problem (List Char) :=
  match skipSpace chars with
  | [] => .error .tooShort
  | char :: rest => if char = mark then .ok rest else .error .invalid

/-- Read a fraction of a second, if there is one; places beyond the ninth are dropped. -/
def fraction (chars : List Char) : Except Problem (Nat × List Char) :=
  match chars with
  | '.' :: rest => do
      let (value, after) ← number (some 9) rest
      let places := rest.length - after.length
      .ok (value * Nat.pow 10 (9 - places), after.dropWhile Char.isDigit)
  | _ => .ok (0, chars)

/-- Read two decimal digits. -/
def twoDigits (chars : List Char) : Except Problem ((Nat × Nat) × List Char) :=
  match chars with
  | first :: second :: rest =>
      if first.isDigit && second.isDigit then
        .ok ((first.toNat - '0'.toNat, second.toNat - '0'.toNat), rest)
      else .error .invalid
  | _ => .error .tooShort

/-- Read the distance from universal time in seconds. -/
def offset (chars : List Char) : Except Problem (Int × List Char) := do
  match chars with
  | [] => .error .tooShort
  | mark :: rest =>
      if mark == 'Z' || mark == 'z' then .ok (0, rest)
      else if mark == '+' || mark == '-' || mark == '\u2212' then
        let ((tens, ones), rest) ← twoDigits rest
        let rest := rest.dropWhile fun char => char == ':' || Text.isWhiteSpace char
        let ((minuteTens, minuteOnes), rest) ← twoDigits rest
        if minuteTens ≥ 6 then .error .outOfRange
        else
          let seconds : Int := (tens * 10 + ones) * 3600 + (minuteTens * 10 + minuteOnes) * 60
          .ok (if mark == '+' then seconds else -seconds, rest)
      else .error .invalid

/-- Whether a text begins with the letters of universal time, in either case. -/
def startsUniversal (chars : List Char) : Bool :=
  (chars.take 3).map Char.toUpper == ['U', 'T', 'C']

end Scan

/-- The smallest and the largest year that can be kept. -/
def firstYear : Int := -262143

/-- The largest year that can be kept. -/
def lastYear : Int := 262142

/-- The timestamp of a local date and time. -/
def ofLocal (year : Int) (month day hour minute second nanoseconds : Nat) (offset : Int) :
    Except Problem Timestamp :=
  if year < firstYear ∨ lastYear < year ∨ daysInMonth year month < day then .error .outOfRange
  else if offset ≤ -86400 ∨ 86400 ≤ offset then .error .outOfRange
  else
    let isLeap := second = 60
    let ofDay := hour * 3600 + minute * 60 + (if isLeap then 59 else second)
    let seconds := dayNumber year month day * 86400 + ofDay - offset
    let (universalYear, _, _) := dateOfDay (seconds.fdiv 86400)
    if universalYear < firstYear ∨ lastYear < universalYear then .error .impossible
    else .ok ⟨seconds, nanoseconds + (if isLeap then 1000000000 else 0)⟩

/-- Read a timestamp. -/
def ofText (text : String) : Except Problem Timestamp := do
  let (year, rest) ← Scan.year text.toList
  let rest ← Scan.separator '-' rest
  let (month, rest) ← Scan.bounded 1 12 rest
  let rest ← Scan.separator '-' rest
  let (day, rest) ← Scan.bounded 1 31 rest
  let rest ← match rest with
    | [] => .error .tooShort
    | mark :: rest => if mark == 'T' || mark == 't' || mark == ' ' then .ok rest else .error .invalid
  let (hour, rest) ← Scan.bounded 0 23 rest
  let rest ← Scan.separator ':' rest
  let (minute, rest) ← Scan.bounded 0 59 rest
  let rest ← Scan.separator ':' rest
  let (second, rest) ← Scan.bounded 0 60 rest
  let (nanoseconds, rest) ← Scan.fraction rest
  let rest := Scan.skipSpace rest
  let (offset, rest) ←
    if Scan.startsUniversal rest then .ok (0, rest.drop 3) else Scan.offset rest
  if (Scan.skipSpace rest).isEmpty then
    ofLocal year month day hour minute second nanoseconds offset
  else .error .tooLong

/-- The timestamp that lies some milliseconds after the beginning of 1970. -/
def ofMilliseconds (milliseconds : Nat) : Timestamp :=
  ⟨milliseconds / 1000, milliseconds % 1000 * 1000000⟩

end Timestamp

end Relay
