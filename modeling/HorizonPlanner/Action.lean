/-
This file describes actions: what must hold before one is taken and what holds
after it.
-/

import HorizonPlanner.Fact

namespace HorizonPlanner

/-- An action.  Preconditions and effects may contradict themselves; such an action can never be
taken, but it can be stated. -/
structure Action where
  name : Value
  preconditions : FactSet
  effects : FactSet

namespace Action

/-- The state variables that an action may change. -/
def affected (action : Action) : List StateVariable := action.effects.subjects

/-- The text of an action, for which the name must be a text or count as nothing. -/
def title (action : Action) : Except Fault String :=
  if action.name.isTruthy then
    match action.name with
    | .text content => .ok content.shown
    | name => .error (.nameNotText name.kind)
  else .ok "<unnamed action>"

end Action

end HorizonPlanner
