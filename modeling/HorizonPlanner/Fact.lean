/-
This file binds values to state variables.  A fact carries the position of its
value in the variable's domain, and its type says that the position is right.
Sets of facts keep the order in which the facts were entered.
-/

import HorizonPlanner.StateVariable

namespace HorizonPlanner

/-! ### Facts -/

/-- A state variable bound to a value of its domain.  The value is spelled as it was stated and may
differ from the domain's spelling of the same value. -/
structure Fact where
  subject : StateVariable
  value : Value
  index : Nat
  located : subject.find? value = some index

namespace Fact

/-- The fact that a variable has a value, which must be in its domain. -/
def locate (subject : StateVariable) (value : Value) : Except Fault Fact :=
  match located : subject.find? value with
  | some index => .ok ⟨subject, value, index, located⟩
  | none => match value.unhashable? with
    | some obstacle => .error (.obstructed obstacle)
    | none => .error (.missingKey value)

/-- The fact that a variable has a value the variable admits. -/
def assign (subject : StateVariable) (value : Value) : Except Fault Fact :=
  if subject.admits value then locate subject value
  else .error (.outsideDomain value subject.name)

/-- Whether two facts bind the same variable to the same value. -/
def same (first second : Fact) : Bool :=
  first.subject == second.subject && first.value.same second.value

/-- The text of a fact; a variable without a name is shown as a question mark. -/
def display (fact : Fact) : String :=
  let name := if fact.subject.name.isTruthy then fact.subject.name.display else "?"
  s!"{name}={fact.value.factLabel}"

/-- The values that the rendered form of a fact shows. -/
def shown (fact : Fact) : List Value := fact.subject.shown ++ [fact.value]

/-- The rendered form of a fact whose values can be written. -/
def render (fact : Fact) : String :=
  s!"ValueAssignment(variable={fact.subject.render}, value={fact.value.render})"

end Fact

/-! ### Sets of facts -/

/-- A set of facts, in the order in which they were entered. -/
structure FactSet where
  facts : List Fact
  distinct : facts.Pairwise fun first second => first.same second = false

namespace FactSet

/-- The set without facts. -/
def empty : FactSet := ⟨[], .nil⟩

instance : Inhabited FactSet := ⟨empty⟩

/-- A set with one more fact.  A fact that is already there keeps its earlier spelling. -/
def insert (set : FactSet) (fact : Fact) : FactSet :=
  if fresh : ∀ known ∈ set.facts, known.same fact = false then
    { facts := set.facts ++ [fact]
      distinct := by
        rw [List.pairwise_append]
        exact ⟨set.distinct, List.pairwise_singleton _ _, fun known member other single => by
          rw [List.mem_singleton.mp single]
          exact fresh known member⟩ }
  else set

/-- The set of the facts of a list. -/
def ofList (facts : List Fact) : FactSet := facts.foldl insert empty

/-- The variables that the facts of a set are about, each once. -/
def subjects (set : FactSet) : List StateVariable := (set.facts.map Fact.subject).eraseDups

/-- The variables that a set binds more than once, each with the values it is bound to, in the
order in which they are first bound. -/
def conflicts (set : FactSet) : List (StateVariable × List Value) :=
  (set.subjects.map fun subject =>
    (subject, (set.facts.filter (·.subject == subject)).map Fact.value)).filter
      fun (_, values) => 1 < values.length

end FactSet

end HorizonPlanner
