import Relay.Json.Document
import Relay.Text.Hexadecimal

/-!
# Reading JSON text

`Reading.ofText` turns any text into a document and tells whether something
follows it.  Numbers and strings are cut off by a scan from left to right; the
scan also says how the cut-off part is flawed.
-/

namespace Relay

namespace Reader

/-- The blanks that may stand between the parts of a JSON text. -/
def isBlank (char : Char) : Bool :=
  char == ' ' || char == '\n' || char == '\t' || char == '\r'

/-- Drop leading blanks. -/
def skipBlanks (chars : List Char) : List Char := chars.dropWhile isBlank

/-- The value of four hexadecimal digits. -/
def hexCode? (first second third fourth : Char) : Option Nat := do
  return (((← Text.hexValue? first) * 16 + (← Text.hexValue? second)) * 16 + (← Text.hexValue? third)) * 16 +
    (← Text.hexValue? fourth)

/-- The character that a short escape stands for. -/
def shortEscape? : Char → Option Char
  | '"' => some '"'
  | '\\' => some '\\'
  | '/' => some '/'
  | 'b' => some '\x08'
  | 'f' => some '\x0c'
  | 'n' => some '\n'
  | 'r' => some '\r'
  | 't' => some '\t'
  | _ => none

/-- Whether fewer than four bytes are left. -/
def endsWithinFourBytes (chars : List Char) : Bool :=
  (String.ofList chars).utf8ByteSize < 4

/-- How the scan of a string ends: with the rest of the text after the closing
quote, or with a stop.  The units are code points or, where escapes spell them,
surrogates. -/
inductive StringScan where
  | closed (units : List Nat) (rest : List Char)
  | stopped (units : List Nat) (reason : Stop)

/-- Scan a string after its opening quote; `units` holds what was seen, last first. -/
def scanString (units : List Nat) : List Char → StringScan
  | [] => .stopped units.reverse .eof
  | '"' :: rest => .closed units.reverse rest
  | '\\' :: 'u' :: first :: second :: third :: fourth :: rest =>
      match hexCode? first second third fourth with
      | some code => scanString (code :: units) rest
      | none => .stopped units.reverse .malformed
  | '\\' :: 'u' :: rest =>
      .stopped units.reverse (if endsWithinFourBytes rest then .eof else .malformed)
  | '\\' :: escape :: rest =>
      match shortEscape? escape with
      | some char => scanString (char.toNat :: units) rest
      | none => .stopped units.reverse .malformed
  | ['\\'] => .stopped units.reverse .eof
  | char :: rest =>
      if char.toNat < 0x20 then .stopped units.reverse .malformed
      else scanString (char.toNat :: units) rest

/-- Whether a unit is the first half of a surrogate pair. -/
def isLead (unit : Nat) : Bool := 0xD800 ≤ unit && unit ≤ 0xDBFF

/-- Whether a unit is the second half of a surrogate pair. -/
def isTrail (unit : Nat) : Bool := 0xDC00 ≤ unit && unit ≤ 0xDFFF

/-- Join surrogate pairs; nothing if a half stands alone. -/
def joinUnits : List Nat → Option (List Char)
  | [] => some []
  | [unit] => if isLead unit || isTrail unit then none else some [Char.ofNat unit]
  | unit :: next :: rest =>
      if isLead unit then
        if isTrail next then
          (joinUnits rest).map fun chars =>
            Char.ofNat (0x10000 + (unit - 0xD800) * 0x400 + (next - 0xDC00)) :: chars
        else none
      else if isTrail unit then none
      else (joinUnits (next :: rest)).map (Char.ofNat unit :: ·)

/-- A stop in a string: a reader has stumbled before over a half pair that is
complete, but waits for the rest of a pair when the text just ends. -/
def stringStop (units : List Nat) (reason : Stop) : Stop :=
  let complete :=
    match reason.onRead, units.getLast? with
    | .eof, some last => if isLead last then units.dropLast else units
    | _, _ => units
  if (joinUnits complete).isSome then reason else { reason with onRead := .malformed }

/-- The parts of a number literal. -/
structure NumberLiteral where
  negative : Bool
  whole : List Char
  part : Option (List Char)
  power : Option Int

/-- The value of a digit. -/
def digitValue (char : Char) : Nat := char.toNat - '0'.toNat

/-- The number that a list of digits spells. -/
def digitsValue (digits : List Char) : Nat :=
  digits.foldl (fun value digit => value * 10 + digitValue digit) 0

/-- Take up digits while the value stays below `2 ^ 64`.  Returns the value, the
number of digits taken and the number of digits left. -/
def absorb (value : Nat) : List Char → Nat × Nat × Nat
  | [] => (value, 0, 0)
  | digit :: rest =>
      let next := value * 10 + digitValue digit
      if next < Nat.pow 2 64 then
        let (total, taken, left) := absorb next rest
        (total, taken + 1, left)
      else (value, 0, rest.length + 1)

/-- The double of a literal: at most the digits that fit into sixty-four bits count. -/
def NumberLiteral.double? (literal : NumberLiteral) : Option Double :=
  let (value, _, beyond) := absorb 0 literal.whole
  let (value, places, _) := absorb value (literal.part.getD [])
  Double.ofDecimal? literal.negative value ((beyond : Int) - places + literal.power.getD 0)

/-- The number of a literal.  A literal without fraction and exponent is an
integer if it fits into sixty-four bits, signed or not, and is not minus zero. -/
def NumberLiteral.number? (literal : NumberLiteral) : Option Number :=
  let value := digitsValue literal.whole
  let isInteger :=
    literal.part.isNone && literal.power.isNone &&
      (if literal.negative then 0 < value && value ≤ Nat.pow 2 63 else value < Nat.pow 2 64)
  if isInteger then
    some (.integer (if literal.negative then -(value : Int) else value))
  else literal.double?.map .double

/-- How the scan of a number ends. -/
inductive NumberScan where
  | literal (literal : NumberLiteral) (rest : List Char)
  | stopped (reason : Stop)

/-- The stop where a digit is missing. -/
def missingDigit (rest : List Char) : NumberScan :=
  .stopped (if rest.isEmpty then .eofInNumber else .malformed)

/-- Scan the exponent of a number, if there is one. -/
def scanPower (literal : NumberLiteral) (chars : List Char) : NumberScan :=
  match chars with
  | mark :: rest =>
      if mark == 'e' || mark == 'E' then
        let negative := rest.head? == some '-'
        let rest := if negative || rest.head? == some '+' then rest.drop 1 else rest
        let digits := rest.takeWhile Char.isDigit
        if digits.isEmpty then missingDigit rest
        else
          let power : Int := digitsValue digits
          .literal { literal with power := some (if negative then -power else power) }
            (rest.dropWhile Char.isDigit)
      else .literal literal chars
  | [] => .literal literal []

/-- Scan the fraction of a number, if there is one, and what follows. -/
def scanPart (literal : NumberLiteral) (chars : List Char) : NumberScan :=
  match chars with
  | '.' :: rest =>
      let digits := rest.takeWhile Char.isDigit
      if digits.isEmpty then missingDigit rest
      else scanPower { literal with part := some digits } (rest.dropWhile Char.isDigit)
  | _ => scanPower literal chars

/-- Scan a number.  Its whole part has no superfluous zero in front. -/
def scanNumber (chars : List Char) : NumberScan :=
  let negative := chars.head? == some '-'
  let chars := if negative then chars.drop 1 else chars
  let whole := chars.takeWhile Char.isDigit
  let rest := chars.dropWhile Char.isDigit
  if whole.isEmpty then missingDigit chars
  else if whole.head? == some '0' && whole.length > 1 then .stopped .malformed
  else scanPart ⟨negative, whole, none, none⟩ rest

/-- Read the remaining letters of a word. -/
def readWord (document : Document) : (letters chars : List Char) → Document × Option (List Char)
  | [], rest => (document, some rest)
  | _ :: _, [] => (.stop .eof, none)
  | letter :: letters, char :: rest =>
      if letter = char then readWord document letters rest else (.stop .malformed, none)

/-- Read a number. -/
def readNumber (chars : List Char) : Document × Option (List Char) :=
  match scanNumber chars with
  | .literal literal rest =>
      match literal.number? with
      | some number => (.number number, some rest)
      | none => (.oversized, some rest)
  | .stopped reason => (.stop reason, none)

/-- Read a string after its opening quote. -/
def readString (chars : List Char) : Document × Option (List Char) :=
  match scanString [] chars with
  | .closed units rest =>
      match joinUnits units with
      | some text => (.string (String.ofList text), some rest)
      | none => (.garbled, some rest)
  | .stopped units reason => (.stop (stringStop units reason), none)

/-- The entries found in a table and how it ends. -/
structure Listing (α : Type) where
  found : List α
  ending : Option Stop
  /-- The text after the container, unless reading has stopped inside it. -/
  rest : Option (List Char)

mutual

/-- Read one value.  The rest of the text is missing when reading has stopped.
The first argument bounds the number of nested calls. -/
def readValue : Nat → List Char → Document × Option (List Char)
  | 0, _ => (.stop .malformed, none)
  | bound + 1, chars =>
      match skipBlanks chars with
      | [] => (.stop .eof, none)
      | 'n' :: rest => readWord .null "ull".toList rest
      | 't' :: rest => readWord (.bool true) "rue".toList rest
      | 'f' :: rest => readWord (.bool false) "alse".toList rest
      | '"' :: rest => readString rest
      | '[' :: rest =>
          let listing := readItems bound true rest
          (.list listing.found listing.ending, listing.rest)
      | '\x7b' :: rest =>
          let listing := readEntries bound true rest
          (.table listing.found listing.ending, listing.rest)
      | char :: rest =>
          if char == '-' || char.isDigit then readNumber (char :: rest)
          else (.stop .malformed, none)

/-- Read the items of a list, from the opening bracket or from the end of an item. -/
def readItems : Nat → Bool → List Char → Listing Document
  | 0, _, _ => ⟨[], some .malformed, none⟩
  | bound + 1, first, chars =>
      match skipBlanks chars with
      | [] => ⟨[], some .eof, none⟩
      | ']' :: rest => ⟨[], none, some rest⟩
      | char :: rest =>
          if !first && char != ',' then ⟨[], some .malformed, none⟩
          else
            match readValue bound (if first then char :: rest else rest) with
            | (item, none) => ⟨[item], none, none⟩
            | (item, some rest) =>
                let others := readItems bound false rest
                { others with found := item :: others.found }

/-- Read the entries of a table, from the opening bracket or from the end of an entry. -/
def readEntries : Nat → Bool → List Char → Listing (Option String × Document)
  | 0, _, _ => ⟨[], some .malformed, none⟩
  | bound + 1, first, chars =>
      match skipBlanks chars with
      | [] => ⟨[], some .eof, none⟩
      | '\x7d' :: rest => ⟨[], none, some rest⟩
      | char :: rest =>
          if !first && char != ',' then ⟨[], some .malformed, none⟩
          else
            match (if first then char :: rest else skipBlanks rest) with
            | [] => ⟨[], some .eof, none⟩
            | '"' :: rest =>
                match scanString [] rest with
                | .stopped units reason => ⟨[], some (stringStop units reason), none⟩
                | .closed units rest =>
                    let key := (joinUnits units).map String.ofList
                    match skipBlanks rest with
                    | [] => ⟨[(key, .stop .eof)], none, none⟩
                    | ':' :: rest =>
                        match readValue bound rest with
                        | (value, none) => ⟨[(key, value)], none, none⟩
                        | (value, some rest) =>
                            let others := readEntries bound false rest
                            { others with found := (key, value) :: others.found }
                    | _ :: _ => ⟨[(key, .stop .malformed)], none, none⟩
            | _ :: _ => ⟨[], some .malformed, none⟩

end

end Reader

/-- A text as it was read: its document, and whether anything but blanks follows. -/
structure Reading where
  document : Document
  trailing : Bool
  deriving Repr

/-- Read a text. -/
def Reading.ofText (text : String) : Reading :=
  let chars := text.toList
  match Reader.readValue (2 * chars.length + 2) chars with
  | (document, some rest) => ⟨document, !(Reader.skipBlanks rest).isEmpty⟩
  | (document, none) => ⟨document, false⟩

end Relay
