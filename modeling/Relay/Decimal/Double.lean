/-!
# Binary fractions of sixty-four bits

A `Double` is a finite binary64 number given by its bit pattern.  This module
says which rational number a pattern stands for, finds the pattern nearest to a
rational number, and reads a decimal literal.  Everything is exact arithmetic
on natural numbers.
-/

namespace Relay

/-- A binary64 number, by its bit pattern. -/
structure Double where
  bits : UInt64
  deriving DecidableEq, Repr

namespace Double

/-- Whether the sign bit is set; minus zero is negative. -/
def isNegative (number : Double) : Bool := number.bits.toNat / Nat.pow 2 63 == 1

/-- The eleven exponent bits. -/
def exponentField (number : Double) : Nat := number.bits.toNat / Nat.pow 2 52 % Nat.pow 2 11

/-- The fifty-two bits below the exponent. -/
def fraction (number : Double) : Nat := number.bits.toNat % Nat.pow 2 52

/-- The integer `m` for which the magnitude is `m * 2 ^ number.exponent`. -/
def significand (number : Double) : Nat :=
  if number.exponentField = 0 then number.fraction else number.fraction + Nat.pow 2 52

/-- The power of two that scales the significand. -/
def exponent (number : Double) : Int :=
  if number.exponentField = 0 then -1074 else (number.exponentField : Int) - 1075

/-- Whether the number is zero, of either sign. -/
def isZero (number : Double) : Bool := number.significand == 0

/-- Whether the number is neither infinite nor the absence of a number. -/
def isFinite (number : Double) : Bool := number.exponentField < Nat.pow 2 11 - 1

/-- The number with its sign bit set as told. -/
def withSign (negative : Bool) (number : Double) : Double :=
  let magnitude := number.bits.toNat % Nat.pow 2 63
  ⟨UInt64.ofNat (if negative then magnitude + Nat.pow 2 63 else magnitude)⟩

/-- Equality as numbers: the two zeros are equal. -/
def sameValue (left right : Double) : Bool :=
  left == right || (left.isZero && right.isZero)

/-- The magnitude as a fraction of two natural numbers. -/
def magnitudeRatio (number : Double) : Nat × Nat :=
  if number.exponent ≥ 0 then (number.significand * Nat.pow 2 number.exponent.toNat, 1)
  else (number.significand, Nat.pow 2 (-number.exponent).toNat)

/-- The quotient of two natural numbers, rounded to the nearest integer; a half
goes to the even neighbour. -/
def roundQuotient (numerator denominator : Nat) : Nat :=
  let quotient := numerator / denominator
  let remainder := numerator % denominator
  if 2 * remainder > denominator ∨ (2 * remainder = denominator ∧ quotient % 2 = 1) then
    quotient + 1
  else quotient

/-- The double nearest to a non-negative fraction, a tie going to the even
significand, or nothing when that lies beyond the largest finite one. -/
def nearest? (numerator denominator : Nat) : Option Double :=
  if numerator = 0 then some ⟨0⟩
  else
    let scaled (power : Int) : Nat × Nat :=
      if power ≥ 0 then (numerator, denominator * Nat.pow 2 power.toNat)
      else (numerator * Nat.pow 2 (-power).toNat, denominator)
    let low : Int := (numerator.log2 : Int) - denominator.log2 - 53
    let power :=
      let (top, bottom) := scaled low
      if top / bottom ≥ Nat.pow 2 53 then low + 1 else low
    let power := max power (-1074)
    let (top, bottom) := scaled power
    let pattern := (power + 1074).toNat * Nat.pow 2 52 + roundQuotient top bottom
    if pattern < (Nat.pow 2 11 - 1) * Nat.pow 2 52 then some ⟨UInt64.ofNat pattern⟩ else none

/-- The double nearest to a power of ten. -/
def powerOfTen? (power : Nat) : Option Double := nearest? (Nat.pow 10 power) 1

/-- The rounded product of two non-negative doubles. -/
def times? (left right : Double) : Option Double :=
  let (leftTop, leftBottom) := left.magnitudeRatio
  let (rightTop, rightBottom) := right.magnitudeRatio
  nearest? (leftTop * rightTop) (leftBottom * rightBottom)

/-- The rounded quotient of two non-negative doubles. -/
def over? (left right : Double) : Option Double :=
  let (leftTop, leftBottom) := left.magnitudeRatio
  let (rightTop, rightBottom) := right.magnitudeRatio
  nearest? (leftTop * rightBottom) (leftBottom * rightTop)

/-- Scale a double by a power of ten.  Powers that no double holds are taken in
portions of 308, so a small number may be rounded several times. -/
def scale? : Nat → Double → Int → Option Double
  | 0, number, _ => some number
  | portions + 1, number, power =>
      if power.natAbs ≤ 308 then
        match powerOfTen? power.natAbs with
        | some factor => if power ≥ 0 then number.times? factor else number.over? factor
        | none => none
      else if number.isZero then some number
      else if power ≥ 0 then none
      else do
        let factor ← powerOfTen? 308
        scale? portions (← number.over? factor) (power + 308)

/-- Read the decimal `digits * 10 ^ power`: the digits are rounded first and the
result is scaled.  Nothing is read when the number is too large. -/
def ofDecimal? (negative : Bool) (digits : Nat) (power : Int) : Option Double := do
  let rounded ← nearest? digits 1
  return (← scale? 4 rounded power).withSign negative

end Double

end Relay
