/-
This file models the numbers of the double-precision binary format exactly: a
sign, a significand below `2 ^ 53` and a power of two, besides the infinities
and the undefined numbers.  Rounding a quotient, comparing with a whole number
and cutting off the fraction are done on natural numbers, so nothing here
depends on machine arithmetic.
-/

namespace HorizonPlanner

/-- A double-precision number.  The magnitude of a finite one is
`significand * 2 ^ exponent`; the two zeros are told apart by their sign.  Undefined numbers are
equal to nothing, and as objects they are told apart by an identity.  It only matters where one is
looked up as it is, so those that a text or a sum yields all have the same. -/
inductive Binary64 where
  | finite (negative : Bool) (significand : Nat) (exponent : Int)
  | infinite (negative : Bool)
  | undefined (identity : Nat)
  deriving DecidableEq, Repr, Inhabited

namespace Binary64

/-! ### Powers -/

/-- A power of two. -/
def powerOfTwo (power : Nat) : Nat := Nat.pow 2 power

/-- A power of ten. -/
def powerOfTen (power : Nat) : Nat := Nat.pow 10 power

/-! ### The limits of the format -/

/-- The number of binary digits of a significand. -/
def precision : Nat := 53

/-- The exponent of the smallest positive number. -/
def leastExponent : Int := -1074

/-- The largest exponent of a finite number with a full significand. -/
def greatestExponent : Int := 971

/-- The zero of a sign. -/
def zero (negative : Bool) : Binary64 := .finite negative 0 leastExponent

/-- The undefined number that texts and sums yield. -/
def undefinedResult : Binary64 := .undefined 0

/-- The largest finite number, as a whole number. -/
def largestFinite : Nat := (powerOfTwo 53 - 1) * powerOfTwo 971

/-! ### Rounding -/

/-- A quotient to the nearest whole number, a half to the even neighbour. -/
def roundHalfEven (numerator denominator : Nat) : Nat :=
  let quotient := numerator / denominator
  let twice := 2 * (numerator % denominator)
  if denominator < twice || (twice == denominator && quotient % 2 == 1) then quotient + 1
  else quotient

/-- The quotient `numerator / (denominator * 2 ^ exponent)` as numerator and denominator. -/
def scaled (numerator denominator : Nat) : Int → Nat × Nat
  | .ofNat power => (numerator, denominator <<< power)
  | .negSucc power => (numerator <<< (power + 1), denominator)

/-- The exponent at which a positive quotient has a significand of full precision, unless it is so
small that the format has no such exponent. -/
def exponentFor (numerator denominator : Nat) : Int :=
  let estimate := (numerator.log2 : Int) - (denominator.log2 : Int) - precision
  let (above, below) := scaled numerator denominator estimate
  max (if above / below < powerOfTwo precision then estimate else estimate + 1) leastExponent

/-- The number nearest to a quotient.  A magnitude that rounds past the largest finite number is
infinite. -/
def ofRatio (negative : Bool) (numerator denominator : Nat) : Binary64 :=
  if numerator == 0 then zero negative
  else
    let exponent := exponentFor numerator denominator
    let (above, below) := scaled numerator denominator exponent
    let rounded := roundHalfEven above below
    let (significand, exponent) :=
      if rounded == powerOfTwo precision then (powerOfTwo (precision - 1), exponent + 1)
      else (rounded, exponent)
    if greatestExponent < exponent then .infinite negative
    else .finite negative significand exponent

/-- The number of decimal digits, none for zero. -/
def digitCount (number : Nat) : Nat :=
  if number == 0 then 0 else (Nat.toDigits 10 number).length

/-- The number nearest to `digits * 10 ^ power`.  Magnitudes far outside the format are settled by
counting digits, so a huge power costs nothing. -/
def ofDecimal (negative : Bool) (digits : Nat) (power : Int) : Binary64 :=
  let position := (digitCount digits : Int) + power
  if digits == 0 || position < -400 then zero negative
  else if 400 < position then .infinite negative
  else match power with
    | .ofNat power => ofRatio negative (digits * powerOfTen power) 1
    | .negSucc power => ofRatio negative digits (powerOfTen (power + 1))

/-! ### Looking at a number -/

/-- A magnitude with a sign. -/
def signed (negative : Bool) (magnitude : Nat) : Int :=
  if negative then -(magnitude : Int) else magnitude

/-- The whole number a finite number is equal to, if there is one. -/
def wholeNumber? : Binary64 → Option Int
  | .finite negative significand (.ofNat power) => some (signed negative (significand <<< power))
  | .finite negative significand (.negSucc power) =>
    if significand % powerOfTwo (power + 1) == 0 then
      some (signed negative (significand >>> (power + 1)))
    else none
  | _ => none

/-- A finite number with its fraction cut off. -/
def truncated? : Binary64 → Option Int
  | .finite negative significand (.ofNat power) => some (signed negative (significand <<< power))
  | .finite negative significand (.negSucc power) =>
    some (signed negative (significand >>> (power + 1)))
  | _ => none

/-- The value of a sign, a significand and an exponent. -/
def exactValue (negative : Bool) (significand : Nat) : Int → Rat
  | .ofNat power => (signed negative (significand <<< power) : Int)
  | .negSucc power => mkRat (signed negative significand) (powerOfTwo (power + 1))

/-- The value of a finite number. -/
def exactValue? : Binary64 → Option Rat
  | .finite negative significand exponent => some (exactValue negative significand exponent)
  | _ => none

/-- Whether a number is one of the two zeros. -/
def isZero : Binary64 → Bool
  | .finite _ significand _ => significand == 0
  | _ => false

end Binary64

end HorizonPlanner
