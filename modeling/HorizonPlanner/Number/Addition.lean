/-
This file adds numbers of the double-precision binary format.  The exact sum is
rounded once, to the nearest number of the format and a half to the even
neighbour, so a sum is right to the last bit.
-/

import HorizonPlanner.Number.Binary64

namespace HorizonPlanner.Binary64

/-! ### Rounding exact values -/

/-- The number nearest to an exact value.  Zero has no sign of its own, so it is given one. -/
def nearest (negativeZero : Bool) (exact : Rat) : Binary64 :=
  if exact.num == 0 then zero negativeZero
  else ofRatio (exact.num < 0) exact.num.natAbs exact.den

/-- The number nearest to a whole number, unless that is past the largest finite one. -/
def ofWhole? (whole : Int) : Option Binary64 :=
  match nearest false whole with
  | .infinite _ => none
  | number => some number

/-! ### Sums -/

/-- The sum of two numbers.  Infinities of opposite signs have none, and a sum that is zero is
negative only if both numbers are. -/
def add : Binary64 → Binary64 → Binary64
  | .undefined _, _ => undefinedResult
  | _, .undefined _ => undefinedResult
  | .infinite negative, .infinite negative' =>
    if negative == negative' then .infinite negative else undefinedResult
  | .infinite negative, .finite .. => .infinite negative
  | .finite .., .infinite negative => .infinite negative
  | .finite negative significand exponent, .finite negative' significand' exponent' =>
    nearest (negative && negative')
      (exactValue negative significand exponent + exactValue negative' significand' exponent')

end HorizonPlanner.Binary64
