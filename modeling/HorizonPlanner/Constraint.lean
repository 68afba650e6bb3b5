/-
This file states constraints over variables with finite domains: equalities
with a constant, equalities between two variables, conjunctions and
implications.  A variable is known by its slot, the position at which it was
declared.

What the variables range over is left open.  The compiled planning problems use
whole numbers; a model that is put together by hand may use any values.
-/

import HorizonPlanner.Fault
import HorizonPlanner.Value.Sameness

namespace HorizonPlanner

/-! ### What variables range over -/

/-- The values of constraint variables.  `same` tells the keys of a table apart and `equal` is the
comparison that constraints speak of; they differ on the undefined number only.  `binding` is what a
variable is bound to when it is given a value: the value, unless it is `blank`, which stands for
having none. -/
class Symbol (α : Type) where
  zero : α
  blank : α
  binding : α → Option α
  same : α → α → Bool
  equal : α → α → Bool
  unhashable? : α → Option Obstacle
  value : α → Value

instance : Symbol Int where
  zero := 0
  blank := 0
  binding := some
  same := (· == ·)
  equal := (· == ·)
  unhashable? _ := none
  value := .integer

instance : Symbol Value where
  zero := .integer 0
  blank := .none
  binding value := if value == .none then none else some value
  same := Value.same
  equal := Value.equal
  unhashable? := Value.unhashable?
  value := id

/-! ### Variables and constraints -/

/-- A variable with the list of its admissible values. -/
structure Variable (α : Type) where
  name : String
  values : List α
  deriving Inhabited

/-- A constraint.  The last form is anything else that was put in the place of a constraint; no
engine can make sense of it. -/
inductive Constraint (α : Type) where
  | always
  | equals (slot : Nat) (constant : α)
  | agree (left right : Nat)
  | all (parts : List (Constraint α))
  | implies (condition consequence : Constraint α)
  | unsupported (content : Value)
  deriving Inhabited

namespace Constraint

variable {α : Type}

/-- Whether a constraint is the one that always holds. -/
def isAlways : Constraint α → Bool
  | always => true
  | _ => false

/-- The conjunction of constraints.  Parts that always hold are left out, and a single part stands
for itself. -/
def conjunction (parts : List (Constraint α)) : Constraint α :=
  match parts.filter fun part => !part.isAlways with
  | [] => always
  | [part] => part
  | parts => all parts

mutual

/-- The slots a constraint mentions, in reading order and with repetitions. -/
def slots : Constraint α → List Nat
  | equals slot _ => [slot]
  | agree left right => [left, right]
  | all parts => slotsOfParts parts
  | implies condition consequence => condition.slots ++ consequence.slots
  | always => []
  | unsupported _ => []

/-- The slots that the parts of a conjunction mention. -/
def slotsOfParts : List (Constraint α) → List Nat
  | [] => []
  | part :: rest => part.slots ++ slotsOfParts rest

end

end Constraint

/-! ### Text -/

/-- The rendered form of the variable in a slot; one without a name is shown by its slot. -/
def Variable.render {α : Type} [Symbol α] (entry : Variable α) (slot : Nat) : String :=
  let name := if entry.name == "" then toString slot else entry.name
  s!"IntVar({name}, {Value.renderList (entry.values.map Symbol.value)})"

/-- The rendered form of the variable in a slot of a table of variables. -/
def renderSlot {α : Type} [Symbol α] (declared : Array (Variable α)) (slot : Nat) : String :=
  (declared.getD slot default).render slot

namespace Constraint

variable {α : Type} [Symbol α]

mutual

/-- The rendered form of a constraint over a table of variables. -/
def render (declared : Array (Variable α)) : Constraint α → String
  | always => "TrueConstraint()"
  | equals slot constant =>
    s!"EqConst(var={renderSlot declared slot}, value={(Symbol.value constant).render})"
  | agree left right =>
    s!"EqVars(left={renderSlot declared left}, right={renderSlot declared right})"
  | all parts => match renderParts declared parts with
    | [part] => s!"And(parts=({part},))"
    | parts => "And(parts=(" ++ ", ".intercalate parts ++ "))"
  | implies condition consequence =>
    s!"IfThen(cond={render declared condition}, then={render declared consequence})"
  | unsupported content => content.render

/-- The rendered forms of the parts of a conjunction. -/
def renderParts (declared : Array (Variable α)) : List (Constraint α) → List String
  | [] => []
  | part :: rest => render declared part :: renderParts declared rest

end

end Constraint

end HorizonPlanner
