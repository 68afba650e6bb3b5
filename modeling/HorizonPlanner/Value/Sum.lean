/-
This file adds values.  Numbers of every kind are added as numbers, and texts,
lists and tuples are joined to others of their kind; nothing else can be added.
-/

import HorizonPlanner.Fault
import HorizonPlanner.Number.Addition

namespace HorizonPlanner.Value

/-! ### Numbers -/

/-- A number to be added. -/
inductive Addend where
  | whole (number : Int)
  | binary (number : Binary64)

/-- The number that a value is, a truth value counting as zero or one. -/
def addend? : Value → Option Addend
  | .binary number => some (.binary number)
  | value => value.position?.map .whole

/-- The number of double precision nearest to a whole number, which must not be too large for the
format. -/
def binaryOfWhole (number : Int) : Except Fault Binary64 :=
  match Binary64.ofWhole? number with
  | some number => .ok number
  | Option.none => .error .numberTooLarge

/-- The sum of two numbers.  It has double precision if one of them has. -/
def Addend.add : Addend → Addend → Except Fault Value
  | .whole first, .whole second => .ok (.integer (first + second))
  | .whole first, .binary second => do .ok (.binary ((← binaryOfWhole first).add second))
  | .binary first, .whole second => do .ok (.binary (first.add (← binaryOfWhole second)))
  | .binary first, .binary second => .ok (.binary (first.add second))

/-! ### All values -/

/-- The fault of adding two values of which not both are numbers.  What can be joined asks for more
of its kind. -/
def addFault (first second : Value) : Fault :=
  match first with
  | .text _ | .sequence _ | .tuple _ => .notJoined first.kind second.kind
  | _ => .notAdded first.kind second.kind

/-- The sum of two values. -/
def add (first second : Value) : Except Fault Value :=
  match first.addend?, second.addend? with
  | some number, some number' => number.add number'
  | _, _ => match first, second with
    | .text content, .text content' => .ok (.text (content ++ content'))
    | .sequence items, .sequence items' => .ok (.sequence (items ++ items'))
    | .tuple items, .tuple items' => .ok (.tuple (items ++ items'))
    | _, _ => .error (addFault first second)

end HorizonPlanner.Value
