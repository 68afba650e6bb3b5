/-
This file writes numbers for a reader, with a comma before every three digits
that follow.
-/

import HorizonPlanner.Fault

namespace HorizonPlanner

/-! ### Digits -/

/-- Digits with a comma before every three that follow, given the digits back to front. -/
def groupedFromEnd : List Char → List Char
  | first :: second :: third :: next :: rest =>
    first :: second :: third :: ',' :: groupedFromEnd (next :: rest)
  | digits => digits

/-- Digits with a comma before every three that follow. -/
def groupedDigits (digits : List Char) : List Char := (groupedFromEnd digits.reverse).reverse

/-- A whole number with its digits grouped. -/
def groupedNumber (number : Int) : String :=
  (if number < 0 then "-" else "")
    ++ String.ofList (groupedDigits (Nat.toDigits 10 number.natAbs))

/-- A number of double precision with the digits of its whole part grouped. -/
def Binary64.grouped (number : Binary64) : String :=
  let (front, unsigned) := number.render.toList.span (· == '-')
  let (whole, rest) := unsigned.span Char.isDigit
  String.ofList (front ++ groupedDigits whole ++ rest)

/-! ### Values -/

/-- A whole number with its digits grouped, unless it has too many. -/
def groupedWhole (number : Int) : Except Fault String :=
  match Value.tooLong? number with
  | some obstacle => .error (.obstructed obstacle)
  | none => .ok (groupedNumber number)

/-- A value with its digits grouped, which only numbers have.  A member of an enumeration is taken
for the text of its label, unless it counts as a whole number. -/
def Value.grouped : Value → Except Fault String
  | .boolean truth => groupedWhole (if truth then 1 else 0)
  | .integer number => groupedWhole number
  | .binary number => .ok number.grouped
  | .text _ => .error .textNotGrouped
  | .member _ _ _ ⟨true, _, _⟩ (.integer number) => groupedWhole number
  | .member .. => .error .textNotGrouped
  | value => .error (.notGrouped value.kind)

end HorizonPlanner
