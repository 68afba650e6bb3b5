/-
This file reads numbers from text: whole numbers, and decimals with a point and
an exponent.  Blanks around the number are ignored, a single underscore may
stand between two digits, and digits of every script count.
-/

import HorizonPlanner.Number.Binary64
import HorizonPlanner.Text.Character

namespace HorizonPlanner.Number

open Text

/-! ### Digits -/

/-- A text of digits, and whether one digit has been read and may be followed by an underscore.
Gives the values of the leading digits and the rest of the text; an underscore is passed over only
between two digits. -/
def digitsFrom (afterDigit : Bool) : List Char → List Nat × List Char
  | [] => ([], [])
  | '_' :: character :: rest =>
    match afterDigit, digitValue? character with
    | true, some value =>
      let (values, remaining) := digitsFrom true rest
      (value :: values, remaining)
    | _, _ => ([], '_' :: character :: rest)
  | character :: rest =>
    match digitValue? character with
    | some value =>
      let (values, remaining) := digitsFrom true rest
      (value :: values, remaining)
    | none => ([], character :: rest)

/-- The number that decimal digits stand for. -/
def ofDigits (digits : List Nat) : Nat := digits.foldl (fun number digit => 10 * number + digit) 0

/-- A leading sign, and whether it is a minus. -/
def signFrom : List Char → Bool × List Char
  | '-' :: rest => (true, rest)
  | '+' :: rest => (false, rest)
  | characters => (false, characters)

/-- A text without the blanks around it. -/
def withoutMargins (content : String) : List Char :=
  let inner := content.toList.dropWhile isNumberMargin
  (inner.reverse.dropWhile isNumberMargin).reverse

/-! ### Whole numbers -/

/-- Why a text is not read as a whole number. -/
inductive WholeFault where
  | malformed
  | tooLong (digits : Nat)
  deriving DecidableEq, Repr

/-- A whole number with more digits than this is neither read nor written. -/
def digitLimit : Nat := 4300

/-- The whole number of a sign and digits. -/
def wholeOfDigits (negative : Bool) (digits : List Nat) : Except WholeFault Int :=
  if digitLimit < digits.length then .error (.tooLong digits.length)
  else .ok (Binary64.signed negative (ofDigits digits))

/-- The whole number a text spells.  The digits at its front are counted before what follows them is
looked at, unless an underscore follows that has no place there. -/
def readWhole (content : String) : Except WholeFault Int :=
  let (negative, characters) := signFrom (withoutMargins content)
  match digitsFrom false characters with
  | ([], _) => .error .malformed
  | (_, '_' :: _) => .error .malformed
  | (digits, []) => wholeOfDigits negative digits
  | (digits, _ :: _) => match wholeOfDigits negative digits with
    | .error fault => .error fault
    | .ok _ => .error .malformed

/-! ### Decimals -/

/-- The exponent part of a decimal, zero when the text has ended. -/
def exponentFrom : List Char → Option Int
  | [] => some 0
  | mark :: rest =>
    if mark == 'e' || mark == 'E' then
      let (negative, characters) := signFrom rest
      match digitsFrom false characters with
      | ([], _) => none
      | (digits, []) => some (Binary64.signed negative (ofDigits digits))
      | (_, _ :: _) => none
    else none

/-- A decimal without its sign: digits with a point somewhere, and an exponent. -/
def decimalFrom (negative : Bool) (characters : List Char) : Option Binary64 :=
  let (whole, afterWhole) := digitsFrom false characters
  let (fraction, afterFraction) := match afterWhole with
    | '.' :: rest => digitsFrom false rest
    | _ => ([], afterWhole)
  if whole.isEmpty && fraction.isEmpty then none
  else (exponentFrom afterFraction).map fun exponent =>
    Binary64.ofDecimal negative (ofDigits (whole ++ fraction)) (exponent - fraction.length)

/-- The decimal a text spells, the names of the infinities and of the undefined number included, in
capital or small letters. -/
def readDecimal (content : String) : Option Binary64 :=
  let (negative, characters) := signFrom (withoutMargins content)
  let name := String.ofList (characters.map Char.toLower)
  if name == "inf" || name == "infinity" then some (.infinite negative)
  else if name == "nan" then some Binary64.undefinedResult
  else decimalFrom negative characters

end HorizonPlanner.Number
