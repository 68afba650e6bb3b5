/-
This file evaluates constraints.  Against a partial assignment the verdict is
three-valued: it may be open as long as some variable has no value.  Against a
total assignment every constraint is true or false.
-/

import HorizonPlanner.Constraint

namespace HorizonPlanner

/-! ### Partial assignments -/

/-- The values given to variables so far, slot by slot. -/
abbrev PartialAssignment (α : Type) := Array (Option α)

/-- The value given to a slot, which must be one of the assignment's. -/
def PartialAssignment.valueAt {α : Type} (assignment : PartialAssignment α) (slot : Nat) :
    Except Fault (Option α) :=
  if bounded : slot < assignment.size then .ok assignment[slot] else .error .listPosition

namespace Constraint

variable {α : Type} [Symbol α]

/-! ### Three-valued evaluation -/

/-- The verdict on an implication whose condition is not known to be false. -/
def implicationVerdict (condition consequence : Option Bool) : Option Bool :=
  if condition == some true || consequence == some true then consequence else none

mutual

/-- The verdict on a constraint: true, false, or not yet decided.  A conjunction is left at its
first false part and an implication at its false condition; what comes after is not looked at. -/
def evaluate (assignment : PartialAssignment α) : Constraint α → Except Fault (Option Bool)
  | always => .ok (some true)
  | equals slot constant => do
    let value ← assignment.valueAt slot
    .ok (value.map (Symbol.equal · constant))
  | agree left right => do
    let first ← assignment.valueAt left
    let second ← assignment.valueAt right
    match first, second with
    | some first, some second => .ok (some (Symbol.equal first second))
    | _, _ => .ok none
  | all parts => evaluateParts assignment parts
  | implies condition consequence => do
    let premise ← evaluate assignment condition
    if premise == some false then .ok (some true)
    else
      let conclusion ← evaluate assignment consequence
      .ok (implicationVerdict premise conclusion)
  | unsupported content => .error (.unsupportedConstraint content)

/-- The verdict on a conjunction. -/
def evaluateParts (assignment : PartialAssignment α) :
    List (Constraint α) → Except Fault (Option Bool)
  | [] => .ok (some true)
  | part :: rest => do
    let verdict ← evaluate assignment part
    if verdict == some false then .ok (some false)
    else
      let others ← evaluateParts assignment rest
      if others == some false then .ok (some false)
      else .ok (if verdict == some true then others else none)

end

/-! ### Truth -/

mutual

/-- The truth of a constraint when every slot has a value.  What no engine can make sense of counts
as false. -/
def holds (assignment : Nat → α) : Constraint α → Bool
  | always => true
  | equals slot constant => Symbol.equal (assignment slot) constant
  | agree left right => Symbol.equal (assignment left) (assignment right)
  | all parts => holdsAll assignment parts
  | implies condition consequence => !holds assignment condition || holds assignment consequence
  | unsupported _ => false

/-- The truth of a conjunction. -/
def holdsAll (assignment : Nat → α) : List (Constraint α) → Bool
  | [] => true
  | part :: rest => holds assignment part && holdsAll assignment rest

end

end Constraint

end HorizonPlanner
