/-
This file states planning problems.  A problem lists its state variables and its
actions, the facts that hold at the start and the facts to reach, and bounds the
length of the plans that are searched for.

The type admits only problems that can be searched: the variables are different
from each other, every fact is about one of them, every action has a title, and
the bound is positive.  `Problem.create` checks these in that order and reports
the first that fails.
-/

import HorizonPlanner.Action

namespace HorizonPlanner

/-! ### The bound on the length of plans -/

/-- The number of horizons that are searched, as it was stated and as a natural number. -/
structure HorizonBound where
  stated : Value
  steps : Nat
  positive : 0 < steps
  agrees : stated.wholeNumber? = some (steps : Int)

/-- The bound that a value states, if it is a positive whole number. -/
def HorizonBound.ofValue (stated : Value) : Except Fault HorizonBound :=
  match agrees : stated.wholeNumber? with
  | none => .error (.bound stated)
  | some number =>
    if positive : 0 < number then
      .ok ⟨stated, number.toNat, by omega, by rw [agrees, Int.toNat_of_nonneg (by omega)]⟩
    else .error (.bound stated)

/-! ### Facts about known variables -/

/-- Every fact of the set is about one of the variables. -/
def FactSet.Over (set : FactSet) (subjects : List StateVariable) : Prop :=
  ∀ fact ∈ set.facts, fact.subject ∈ subjects

/-- Every fact of the action is about one of the variables. -/
structure Action.Over (action : Action) (subjects : List StateVariable) : Prop where
  preconditions : action.preconditions.Over subjects
  effects : action.effects.Over subjects
  titled : ∃ title, action.title = .ok title

/-- Checks that the facts of a set are about the variables; the role of the set is named in the
report of the first that is not. -/
def FactSet.check (set : FactSet) (subjects : List StateVariable) (role : String) :
    Except Fault (PLift (set.Over subjects)) :=
  match found : set.facts.find? fun fact => fact.subject ∉ subjects with
  | some fact => .error (.foreignFact role fact.display)
  | none => .ok ⟨fun fact member => by
      have known := List.find?_eq_none.mp found fact member
      simpa using known⟩

/-- Checks one action: its title, then its preconditions, then its effects. -/
def Action.check (action : Action) (subjects : List StateVariable) :
    Except Fault (PLift (action.Over subjects)) :=
  match titled : action.title with
  | .error fault => .error fault
  | .ok title => do
    let preconditions ← action.preconditions.check subjects s!"precondition of {title}"
    let effects ← action.effects.check subjects s!"effect of {title}"
    .ok ⟨⟨preconditions.down, effects.down, title, titled⟩⟩

/-- Checks actions one after another. -/
def checkActions (subjects : List StateVariable) :
    (actions : List Action) → Except Fault (PLift (∀ action ∈ actions, action.Over subjects))
  | [] => .ok ⟨fun _ member => absurd member List.not_mem_nil⟩
  | action :: rest => do
    let first ← action.check subjects
    let others ← checkActions subjects rest
    .ok ⟨fun other member => by
      rcases List.mem_cons.mp member with rfl | member
      · exact first.down
      · exact others.down other member⟩

/-! ### Problems -/

/-- A planning problem.  The order of the actions is the order in which plans refer to them, and a
variable without an initial fact may start with any value. -/
structure Problem where
  subjects : List StateVariable
  actions : List Action
  initial : FactSet
  goals : FactSet
  bound : HorizonBound
  distinct : subjects.Nodup
  initialKnown : initial.Over subjects
  goalsKnown : goals.Over subjects
  actionsKnown : ∀ action ∈ actions, action.Over subjects

namespace Problem

/-- The problem with given parts, or the first thing that is wrong with them. -/
def create (subjects : List StateVariable) (actions : List Action) (initial goals : FactSet)
    (bound : Value) : Except Fault Problem := do
  let bound ← HorizonBound.ofValue bound
  if distinct : subjects.Nodup then
    let initialKnown ← initial.check subjects "initial fact"
    let goalsKnown ← goals.check subjects "goal"
    let actionsKnown ← checkActions subjects actions
    .ok
      { subjects, actions, initial, goals, bound, distinct
        initialKnown := initialKnown.down
        goalsKnown := goalsKnown.down
        actionsKnown := actionsKnown.down }
  else .error .repeatedVariable

/-- The same problem with another bound. -/
def withBound (problem : Problem) (bound : Value) : Except Fault Problem :=
  create problem.subjects problem.actions problem.initial problem.goals bound

end Problem

end HorizonPlanner
