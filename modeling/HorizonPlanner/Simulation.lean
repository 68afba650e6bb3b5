/-
This file takes a plan step by step from the initial facts and says whether it
reaches the goals.  A variable without an initial fact has an unknown value that
stays what it is until an effect changes it, so the first test of the variable
decides the value; what was decided that way is reported as an assumption.
-/

import HorizonPlanner.Problem

namespace HorizonPlanner.Simulation

/-! ### Bindings -/

/-- Values bound to state variables, in the order in which the variables were first bound. -/
abbrev Bindings := List (StateVariable × Value)

/-- The value bound to a variable. -/
def Bindings.value? (bindings : Bindings) (subject : StateVariable) : Option Value :=
  (bindings.find? fun entry => entry.1 == subject).map Prod.snd

/-- Bindings with a variable bound anew; one that was bound keeps its place. -/
def Bindings.bind (bindings : Bindings) (subject : StateVariable) (value : Value) : Bindings :=
  if (bindings.value? subject).isSome then
    bindings.map fun entry => if entry.1 == subject then (subject, value) else entry
  else bindings ++ [(subject, value)]

/-! ### States -/

/-- What is known of the current values, and the assumptions made so far about initial ones. -/
structure State where
  current : Bindings
  assumed : Bindings

/-- Tests a fact.  If the value of its variable is unknown, the fact is assumed. -/
def State.test (state : State) (fact : Fact) : Bool × State :=
  match state.current.value? fact.subject with
  | some value => (value.equal fact.value, state)
  | none =>
    (fact.value.equal fact.value,
      { current := state.current.bind fact.subject fact.value
        assumed := state.assumed.bind fact.subject fact.value })

/-- Tests facts one after another and collects those that fail. -/
def State.testAll (state : State) : List Fact → List Fact × State
  | [] => ([], state)
  | fact :: rest =>
    let (holds, state) := state.test fact
    let (failed, state) := state.testAll rest
    (if holds then failed else fact :: failed, state)

/-- The bindings that facts make, none if two of them contradict each other. -/
def bindAll (bindings : Bindings) : List Fact → Except Fact Bindings
  | [] => .ok bindings
  | fact :: rest =>
    match bindings.value? fact.subject with
    | some value =>
      if value.equal fact.value then bindAll (bindings.bind fact.subject fact.value) rest
      else .error fact
    | none => bindAll (bindings.bind fact.subject fact.value) rest

/-! ### Runs -/

/-- How a run ends. -/
inductive Outcome where
  | conflictingInitial (subject : StateVariable)
  | unsatisfied (step : Nat) (action : Action) (missing : List Fact)
  | contradictory (step : Nat) (action : Action)
  | goalsUnmet (unmet : List Fact)
  | reached (steps : Nat) (assumed : Bindings)

/-- Takes the actions of a plan one after another; the steps are numbered from one. -/
def follow (goals : FactSet) (state : State) (step : Nat) : List Action → Outcome
  | [] =>
    let (unmet, state) := state.testAll goals.facts
    if unmet.isEmpty then .reached (step - 1) state.assumed else .goalsUnmet unmet
  | action :: rest =>
    let (missing, state) := state.testAll action.preconditions.facts
    if !missing.isEmpty then .unsatisfied step action missing
    else match bindAll [] action.effects.facts with
      | .error _ => .contradictory step action
      | .ok changes =>
        let current := changes.foldl (fun current (subject, value) => current.bind subject value)
          state.current
        follow goals { state with current } (step + 1) rest

/-- Runs a plan from the initial facts of a problem. -/
def run (problem : Problem) (plan : List Action) : Outcome :=
  match bindAll [] problem.initial.facts with
  | .error fact => .conflictingInitial fact.subject
  | .ok current => follow problem.goals ⟨current, []⟩ 1 plan

/-! ### Reports -/

/-- Whether a run reached the goals. -/
def Outcome.succeeded : Outcome → Bool
  | .reached .. => true
  | _ => false

/-- The texts of facts in a row. -/
def factTexts (facts : List Fact) : String := "; ".intercalate (facts.map Fact.display)

/-- The text of a binding. -/
def bindingText (binding : StateVariable × Value) : Except Fault String :=
  (Fact.locate binding.1 binding.2).map Fact.display

/-- The report of a run: the reason of the first failure, or what was reached. -/
def Outcome.report : Outcome → Except Fault String
  | .conflictingInitial subject => .ok s!"conflicting initial facts for {subject.name.render}"
  | .unsatisfied step action missing => do
    let title ← action.title
    .ok (s!"step {step}: preconditions not satisfied for '{title}': " ++ factTexts missing)
  | .contradictory step action => do
    let title ← action.title
    .ok s!"step {step}: contradictory effects of '{title}'"
  | .goalsUnmet unmet => .ok ("plan finished but goal not satisfied: " ++ factTexts unmet)
  | .reached steps assumed => do
    let report :=
      if steps == 0 then "goal already holds in initial state"
      else s!"goal satisfied after executing {steps} actions"
    if assumed.isEmpty then .ok report
    else
      let texts ← assumed.mapM bindingText
      .ok (report ++ " (assuming " ++ ", ".intercalate texts ++ ")")

end HorizonPlanner.Simulation
