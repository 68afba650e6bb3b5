/-
This file points out contradictions in a problem.  None of them makes the
problem ill-formed: contradictory initial facts or goals leave it without a
plan, and a contradictory action is never taken.
-/

import HorizonPlanner.Problem

namespace HorizonPlanner

/-! ### Diagnostics -/

/-- Which facts contradict each other. -/
inductive DiagnosedRole where
  | initial
  | goals
  | effects (action : Action)
  | preconditions (action : Action)

/-- A variable that one role binds to several values. -/
structure Diagnostic where
  role : DiagnosedRole
  subject : StateVariable
  values : List Value

/-- The values that the wording of a diagnostic shows. -/
def Diagnostic.shown (diagnostic : Diagnostic) : List Value :=
  let shown := diagnostic.subject.name :: diagnostic.values
  match diagnostic.role with
  | .initial | .goals => shown
  | .effects action | .preconditions action => action.name :: shown

/-- The wording of a diagnostic whose values can be written. -/
def Diagnostic.message (diagnostic : Diagnostic) : String :=
  let name := diagnostic.subject.name.render
  let values := Value.renderList diagnostic.values
  match diagnostic.role with
  | .initial => s!"conflicting initial facts for {name}: {values}"
  | .goals => s!"conflicting goals for {name}: {values}"
  | .effects action =>
    s!"action {action.name.render} has contradictory effects on {name}: {values}"
  | .preconditions action =>
    s!"action {action.name.render} has contradictory preconditions on {name}: {values}"

/-- The diagnostics of one role. -/
def FactSet.diagnostics (set : FactSet) (role : DiagnosedRole) : List Diagnostic :=
  set.conflicts.map fun (subject, values) => ⟨role, subject, values⟩

/-- The diagnostics of one action, effects before preconditions. -/
def Action.diagnostics (action : Action) : List Diagnostic :=
  action.effects.diagnostics (.effects action) ++
    action.preconditions.diagnostics (.preconditions action)

/-- The diagnostics of a problem. -/
def Problem.diagnostics (problem : Problem) : List Diagnostic :=
  problem.initial.diagnostics .initial ++ problem.goals.diagnostics .goals ++
    problem.actions.flatMap Action.diagnostics

end HorizonPlanner
