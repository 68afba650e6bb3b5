/-
This file writes values as rows of numbers.  Every part of a value is marked with
its kind and, if it is a row itself, with its length, so different values have
different codes and the lexicographic order of codes puts any values in order.
-/

import HorizonPlanner.Value

namespace HorizonPlanner.Value

/-! ### Codes -/

/-- The code of a sign. -/
def signCode (negative : Bool) : Nat := if negative then 1 else 0

/-- The code of a whole number. -/
def wholeCode (number : Int) : List Nat := [signCode (number < 0), number.natAbs]

/-- The code of a number of double precision. -/
def binaryCode : Binary64 → List Nat
  | .finite negative significand exponent =>
    0 :: signCode negative :: significand :: wholeCode exponent
  | .infinite negative => [1, signCode negative]
  | .undefined identity => [2, identity]

/-- The code of a text. -/
def textCode (content : Text.Passage) : List Nat :=
  content.points.length :: content.points.map Text.CodePoint.number

/-- The code of an obstacle, or of there being none. -/
def obstacleCode : Option Obstacle → List Nat
  | Option.none => [0]
  | some (.unhashable kind) => 1 :: textCode kind
  | some (.notCallable kind) => 2 :: textCode kind
  | some (.noWriter kind) => 3 :: textCode kind
  | some .tooManyDigits => [4]

/-- The code of what members have in common. -/
def traitsCode (traits : Traits) : List Nat :=
  signCode traits.integral :: (obstacleCode traits.unwritable ++ obstacleCode traits.unhashable)

mutual

/-- The code of a value. -/
def code : Value → List Nat
  | .none => [0]
  | .boolean truth => [1, signCode truth]
  | .integer number => 2 :: wholeCode number
  | .binary number => 3 :: binaryCode number
  | .text content => 4 :: textCode content
  | .sequence items => 5 :: items.length :: itemCodes items
  | .tuple items => 6 :: items.length :: itemCodes items
  | .mapping entries => 7 :: entries.length :: entryCodes entries
  | .member owner ownerName label traits content =>
    8 :: owner ::
      (traitsCode traits ++ textCode ownerName ++ textCode label ++ code content)

/-- The codes of the items of a list in a row. -/
def itemCodes : List Value → List Nat
  | [] => []
  | item :: rest => code item ++ itemCodes rest

/-- The codes of the entries of a mapping in a row. -/
def entryCodes : List (Value × Value) → List Nat
  | [] => []
  | (key, value) :: rest => code key ++ code value ++ entryCodes rest

end

end HorizonPlanner.Value
