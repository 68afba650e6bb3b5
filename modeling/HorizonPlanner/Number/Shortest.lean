/-
This file writes a double-precision number with the fewest decimal digits that
read back to it, and of the decimals with that many digits the nearest one.  The
digits are chosen in exact arithmetic: a decimal reads back when it lies in the
interval of reals that round to the number.
-/

import HorizonPlanner.Number.Binary64

namespace HorizonPlanner.Binary64

/-! ### The interval of reals that round to a number -/

/-- A positive finite number on a common scale: all four magnitudes are to be divided by
`divisor`.  `low` and `high` are the ends of the interval of reals that round to the number, and
belong to it when `closed`. -/
structure RoundingInterval where
  low : Nat
  middle : Nat
  high : Nat
  divisor : Nat
  closed : Bool

/-- The rounding interval of `significand * 2 ^ exponent`.  Below a power of two the neighbour is
only half as far away. -/
def roundingInterval (significand : Nat) (exponent : Int) : RoundingInterval :=
  let isLeast := significand == powerOfTwo (precision - 1)
  let gapBelow := if isLeast && leastExponent < exponent then 1 else 2
  let (unit, divisor) : Nat × Nat := match exponent - 2 with
    | .ofNat power => (powerOfTwo power, 1)
    | .negSucc power => (1, powerOfTwo (power + 1))
  { low := (4 * significand - gapBelow) * unit
    middle := 4 * significand * unit
    high := (4 * significand + 2) * unit
    divisor := divisor
    closed := significand % 2 == 0 }

/-- Whether `digits * grid` lies in the interval, `grid` being on the interval's scale. -/
def RoundingInterval.contains (interval : RoundingInterval) (point : Nat) : Bool :=
  if interval.closed then interval.low ≤ point && point ≤ interval.high
  else interval.low < point && point < interval.high

/-! ### Choosing the digits -/

/-- The place of the leading digit of a positive quotient: `p` when it lies from `10 ^ (p - 1)` up
to and without `10 ^ p`. -/
def leadingPlace (numerator denominator : Nat) : Int :=
  if denominator ≤ numerator then digitCount (numerator / denominator)
  else
    let ceiling := (denominator + numerator - 1) / numerator
    1 - (digitCount (ceiling - 1) : Int)

/-- The interval and the step of the decimal grid whose unit is `10 ^ power`, on one scale. -/
def onGrid (interval : RoundingInterval) : Int → RoundingInterval × Nat
  | .ofNat power => (interval, interval.divisor * powerOfTen power)
  | .negSucc power =>
    let factor := powerOfTen (power + 1)
    ({ interval with
        low := interval.low * factor
        middle := interval.middle * factor
        high := interval.high * factor }, interval.divisor)

/-- The multiple of `10 ^ power` that reads back, the nearer of the number's two neighbours on that
grid if both do. -/
def neighbourOnGrid? (interval : RoundingInterval) (power : Int) : Option Nat :=
  let (interval, step) := onGrid interval power
  let below := interval.middle / step
  let above := below + 1
  let distanceBelow := interval.middle - below * step
  let distanceAbove := above * step - interval.middle
  match interval.contains (below * step), interval.contains (above * step) with
  | true, true =>
    if distanceBelow < distanceAbove || (distanceBelow == distanceAbove && below % 2 == 0) then
      some below
    else some above
  | true, false => some below
  | false, true => some above
  | false, false => none

/-- The digits and the power of ten of the shortest decimal that reads back.  Seventeen digits are
always enough. -/
def shortestDecimal (significand : Nat) (exponent : Int) : Nat × Int :=
  let interval := roundingInterval significand exponent
  let place := leadingPlace interval.middle interval.divisor
  ((List.range 17).findSome? fun (count : Nat) =>
      let power := place - (count + 1 : Nat)
      (neighbourOnGrid? interval power).map (·, power)).getD (0, 0)

/-! ### Laying the digits out -/

/-- How a decimal is laid out: the exponents of the leading digit that are written positionally,
and the least number of digits of a written exponent. -/
structure DecimalLayout where
  leastPositional : Int
  greatestPositional : Int
  exponentWidth : Nat

/-- Numbers from `0.0001` up to and without `10 ^ 16` are written positionally, and an exponent has
at least two digits. -/
def layout : DecimalLayout := ⟨-4, 15, 2⟩

/-- Zeros in a row. -/
def zeros (count : Int) : List Char := List.replicate count.toNat '0'

/-- The written exponent, with a sign in every case. -/
def exponentText (exponent : Int) : List Char :=
  let digits := Nat.toDigits 10 exponent.natAbs
  ['e', if exponent < 0 then '-' else '+'] ++
    List.replicate (layout.exponentWidth - digits.length) '0' ++ digits

/-- Digits without trailing zeros, with the point after the first `place` of them. -/
def laidOut (digits : List Char) (place : Int) : List Char :=
  let exponent := place - 1
  if layout.leastPositional ≤ exponent && exponent ≤ layout.greatestPositional then
    if place ≤ 0 then ['0', '.'] ++ zeros (-place) ++ digits
    else if digits.length ≤ place then digits ++ zeros (place - digits.length) ++ ['.', '0']
    else digits.take place.toNat ++ ['.'] ++ digits.drop place.toNat
  else match digits with
    | [digit] => digit :: exponentText exponent
    | digits => digits.take 1 ++ ['.'] ++ digits.drop 1 ++ exponentText exponent

/-- The digits of a number with its trailing zeros dropped. -/
def significantDigits (digits : Nat) : List Char :=
  ((Nat.toDigits 10 digits).reverse.dropWhile (· == '0')).reverse

/-- The text of a number. -/
def render : Binary64 → String
  | .finite negative significand exponent =>
    let sign := if negative then ['-'] else []
    if significand == 0 then String.ofList (sign ++ ['0', '.', '0'])
    else
      let (digits, power) := shortestDecimal significand exponent
      let place := (digitCount digits : Int) + power
      String.ofList (sign ++ laidOut (significantDigits digits) place)
  | .infinite negative => if negative then "-inf" else "inf"
  | .undefined _ => "nan"

end HorizonPlanner.Binary64
