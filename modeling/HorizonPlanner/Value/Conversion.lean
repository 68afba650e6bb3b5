/-
This file turns values into whole numbers: the fraction of a number is cut off
and a text is read.
-/

import HorizonPlanner.Fault
import HorizonPlanner.Number.Reading

namespace HorizonPlanner.Value

/-- The whole number that a text spells, or why it spells none. -/
def wholeOfText (content : Text.Passage) : Except Fault Int :=
  match Number.readWhole content.shown with
  | .ok number => .ok number
  | .error .malformed => .error (.malformedNumber content)
  | .error (.tooLong digits) => .error (.numberTooLong digits)

/-- The whole number that a value turns into. -/
def toWhole : Value → Except Fault Int
  | .boolean truth => .ok (if truth then 1 else 0)
  | .integer number => .ok number
  | .binary number => match number.truncated?, number with
    | some whole, _ => .ok whole
    | Option.none, .infinite _ => .error .infiniteNumber
    | Option.none, _ => .error .undefinedNumber
  | .text content => wholeOfText content
  | .member _ _ _ ⟨true, _, _⟩ (.integer number) => .ok number
  | value => .error (.notNumber value.kind)

end HorizonPlanner.Value
