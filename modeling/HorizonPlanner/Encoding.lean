/-
This file encodes a problem over a fixed number of steps, its horizon.  Each
step has a variable for the action taken in it, and each state variable has one
variable for each layer: its value before the first step, between two steps, and
after the last.  Whole numbers stand for the positions of actions and of domain
values.

The first layer satisfies the initial facts and the last one the goals.  The
action of a step implies its preconditions on the layer before the step, its
effects on the layer after it, and that every state variable it does not affect
keeps its value.
-/

import HorizonPlanner.Constraint
import HorizonPlanner.Problem

namespace HorizonPlanner

/-! ### Encodings -/

/-- What a constraint of an encoding is for. -/
inductive AxiomRole where
  | initial
  | goal
  | precondition
  | effect
  | frame
  deriving DecidableEq, Repr

/-- A constraint of an encoding and what it is for. -/
structure Posting where
  role : AxiomRole
  constraint : Constraint Int

/-- An encoding: its horizon as it was stated, its variables in the order of their slots, and its
constraints in the order in which they are posted. -/
structure Encoding where
  horizon : Value
  declared : List (Variable Int)
  postings : List Posting

namespace Problem

variable (problem : Problem) (horizon : Nat)

/-! ### Variables -/

/-- The whole numbers from zero up to and without a bound. -/
def positions (count : Nat) : List Int := (List.range count).map Int.ofNat

/-- The variable for the action of a step. -/
def actionVariable (step : Nat) : Variable Int :=
  ⟨s!"action@{step}", positions problem.actions.length⟩

/-- The variable for a state variable on a layer. -/
def layerVariable (subject : StateVariable) (layer : Nat) : Variable Int :=
  ⟨s!"{subject.name.display}@{layer}", positions subject.size⟩

/-- The variables of an encoding: the actions of all steps, then the state variables one after
another, each with all its layers. -/
def encodedVariables : List (Variable Int) :=
  (List.range horizon).map problem.actionVariable ++
    problem.subjects.flatMap fun subject =>
      (List.range (horizon + 1)).map (layerVariable subject)

/-- The slot of the action of a step. -/
def actionSlot (step : Nat) : Nat := step

/-- The slot of a state variable on a layer. -/
def layerSlot (subject : StateVariable) (layer : Nat) : Nat :=
  horizon + problem.subjects.idxOf subject * (horizon + 1) + layer

/-! ### Constraints -/

/-- That a fact holds on a layer. -/
def factOnLayer (layer : Nat) (fact : Fact) : Constraint Int :=
  .equals (problem.layerSlot horizon fact.subject layer) fact.index

/-- That an action is the one taken in a step. -/
def chosen (step index : Nat) : Constraint Int := .equals (actionSlot step) index

/-- That a state variable has the same value before and after a step. -/
def kept (step : Nat) (subject : StateVariable) : Constraint Int :=
  .agree (problem.layerSlot horizon subject step) (problem.layerSlot horizon subject (step + 1))

/-- What follows from taking an action in a step: its preconditions, its effects, and that what it
does not affect is kept. -/
def stepPostings (step index : Nat) (action : Action) : List Posting :=
  let implied (role : AxiomRole) (consequence : Constraint Int) : Posting :=
    ⟨role, .implies (chosen step index) consequence⟩
  let facts (layer : Nat) (set : FactSet) : Constraint Int :=
    .conjunction (set.facts.map (problem.factOnLayer horizon layer))
  [implied .precondition (facts step action.preconditions),
    implied .effect (facts (step + 1) action.effects)] ++
  (problem.subjects.filter fun subject => !action.affected.contains subject).map fun subject =>
    implied .frame (problem.kept horizon step subject)

/-- The constraints of an encoding: initial facts, goals, and step by step what follows from taking
each action. -/
def encodedPostings : List Posting :=
  problem.initial.facts.map (fun fact => ⟨.initial, problem.factOnLayer horizon 0 fact⟩) ++
  problem.goals.facts.map (fun fact => ⟨.goal, problem.factOnLayer horizon horizon fact⟩) ++
  (List.range horizon).flatMap fun step =>
    problem.actions.zipIdx.flatMap fun (action, index) =>
      problem.stepPostings horizon step index action

/-- The encoding of a problem over a number of steps. -/
def encode : Encoding :=
  ⟨.integer horizon, problem.encodedVariables horizon, problem.encodedPostings horizon⟩

/-- The encoding of a problem over the number of steps that a value states.  A negative number
leaves no layer, so there is nothing that initial facts or goals could be about. -/
def encodeStated (stated : Value) : Except Fault Encoding :=
  match stated.position? with
  | none => .error (.notCount stated.kind)
  | some (.ofNat horizon) => .ok { problem.encode horizon with horizon := stated }
  | some (.negSucc _) =>
    if problem.initial.facts.isEmpty && problem.goals.facts.isEmpty then .ok ⟨stated, [], []⟩
    else .error .listPosition

/-! ### Reading solutions -/

/-- The value of a slot in a solution, as a position. -/
def positionIn (solution : List Int) (slot : Nat) : Nat := (solution.getD slot 0).toNat

/-- The actions that a solution takes, step by step, as positions among the problem's actions. -/
def decodePlan (solution : List Int) : Except Fault (List Nat) :=
  (List.range horizon).mapM fun step =>
    let index := positionIn solution (actionSlot step)
    if index < problem.actions.length then .ok index else .error .tuplePosition

/-- A value for each state variable of a problem. -/
abbrev LayerState := List (StateVariable × Value)

/-- The states that a solution goes through, layer by layer. -/
def decodeStates (solution : List Int) : Except Fault (List LayerState) :=
  (List.range (horizon + 1)).mapM fun layer =>
    problem.subjects.mapM fun subject =>
      match subject.values[positionIn solution (problem.layerSlot horizon subject layer)]? with
      | some value => .ok (subject, value)
      | none => .error .tuplePosition

end Problem

end HorizonPlanner
