import Relay.Decimal.Double

/-!
# The shortest decimal that reads back

Every double is the nearest one to each number of an interval around it.
`Double.shortest` picks, among the decimals of that interval, one with the
fewest digits, and among those the nearest.  `Double.text` writes it in the
form used throughout this project: positional while the leading digit stands
between the fifth place after the point and the fifteenth before it.
-/

namespace Relay

/-- The natural number `coefficient` scaled by a power of ten. -/
structure Decimal where
  coefficient : Nat
  power : Int
  deriving DecidableEq, Repr

namespace Double

/-- The interval of numbers that round to a double, on a common scale with the
grid of the multiples of a power of ten.  `step` is one step of the grid. -/
structure Window where
  step : Nat
  low : Nat
  centre : Nat
  high : Nat
  closed : Bool

/-- The window of a positive double on the grid of `10 ^ power`. -/
def window (number : Double) (power : Int) : Window :=
  let significand := number.significand
  let quarter := number.exponent - 2
  let binaryTop := if quarter ≥ 0 then Nat.pow 2 quarter.toNat else 1
  let binaryBottom := if quarter ≥ 0 then 1 else Nat.pow 2 (-quarter).toNat
  let decimalTop := if power ≥ 0 then Nat.pow 10 power.toNat else 1
  let decimalBottom := if power ≥ 0 then 1 else Nat.pow 10 (-power).toNat
  let unit := binaryTop * decimalBottom
  let below := if number.fraction = 0 ∧ number.exponentField > 1 then 1 else 2
  { step := decimalTop * binaryBottom
    low := (4 * significand - below) * unit
    centre := 4 * significand * unit
    high := (4 * significand + 2) * unit
    closed := significand % 2 == 0 }

namespace Window

/-- Whether a multiple of the grid step lies in the window. -/
def holds (window : Window) (coefficient : Nat) : Bool :=
  let place := coefficient * window.step
  if window.closed then window.low ≤ place && place ≤ window.high
  else window.low < place && place < window.high

/-- Distance of a multiple of the grid step from the centre. -/
def distance (window : Window) (coefficient : Nat) : Nat :=
  let place := coefficient * window.step
  (place - window.centre) + (window.centre - place)

/-- The multiple of the grid step that lies in the window and is nearest to its
centre.  Only the two neighbours of the centre can be; a tie goes to the even one. -/
def best? (window : Window) : Option Nat :=
  let lower := window.centre / window.step
  let upper := lower + 1
  match window.holds lower, window.holds upper with
  | false, false => none
  | true, false => some lower
  | false, true => some upper
  | true, true =>
      if window.distance lower < window.distance upper then some lower
      else if window.distance upper < window.distance lower then some upper
      else if lower % 2 = 0 then some lower else some upper

end Window

/-- Try ever finer grids until one has a point in the window. -/
def search (number : Double) : Nat → Int → Decimal
  | 0, power => ⟨0, power⟩
  | finer + 1, power =>
      match (number.window power).best? with
      | some coefficient => ⟨coefficient, power⟩
      | none => search number finer (power - 1)

/-- The decimal with the fewest digits that reads back as a positive double.
Twenty-five grids are enough: the first is coarser than the number, and
seventeen digits always suffice. -/
def shortest (number : Double) : Decimal :=
  let binaryDigits : Int := number.exponent + number.significand.log2 + 1
  number.search 25 (binaryDigits * 30103 / 100000 + 2)

/-- Decimal digits of a number, positional or with an exponent. -/
def layout (digits : List Char) (leading : Int) : List Char :=
  if 0 ≤ leading ∧ leading ≤ 15 then
    let places := leading.toNat + 1
    let whole := digits.take places
    let part := digits.drop places
    whole ++ List.replicate (places - whole.length) '0' ++ '.' :: (if part.isEmpty then ['0'] else part)
  else if -5 ≤ leading ∧ leading < 0 then
    '0' :: '.' :: (List.replicate (-leading - 1).toNat '0' ++ digits)
  else
    let part := digits.drop 1
    let sign := if leading < 0 then '-' else '+'
    digits.take 1 ++ (if part.isEmpty then [] else '.' :: part) ++
      'e' :: sign :: Nat.toDigits 10 leading.natAbs

/-- The text of a double: its shortest decimal, always with a point or an exponent. -/
def text (number : Double) : String :=
  let magnitude :=
    if number.isZero then ['0', '.', '0']
    else
      let decimal := number.shortest
      let digits := Nat.toDigits 10 decimal.coefficient
      layout digits (decimal.power + digits.length - 1)
  String.ofList (if number.isNegative then '-' :: magnitude else magnitude)

end Double

end Relay
