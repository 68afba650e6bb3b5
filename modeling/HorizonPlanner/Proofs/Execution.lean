/-
This file says what it means to carry out a plan, apart from any encoding.  A
state gives each state variable of a problem a value, and an action can be taken
in a state if its preconditions hold there and its effects do not contradict
each other; the effects are then written over the state.

A trajectory describes the same thing from outside, by what must hold of the
states before and after each step.  The two descriptions agree: a sequence of
states is a trajectory exactly if it is what an execution goes through.
-/

import Mathlib.Data.List.Forall2
import Mathlib.Data.List.GetD
import Mathlib.Data.List.Nodup
import Mathlib.Data.Set.Function
import HorizonPlanner.Encoding

namespace HorizonPlanner

theorem StateVariable.values_nodup (subject : StateVariable) : subject.values.Nodup := by
  refine subject.distinct.imp fun different same => ?_
  rw [same, Value.same_self] at different
  cases different

theorem Fact.index_lt (fact : Fact) : fact.index < fact.subject.size := by
  have located := fact.located
  rw [StateVariable.find?] at located
  split at located
  · cases located
  · exact (List.findIdx?_eq_some_iff_getElem.mp located).choose

/-- The values of the state variables of a problem, as positions in their domains and in the order
of the variables. -/
abbrev PlanState := List Nat

namespace Problem

variable (problem : Problem)

/-! ### States -/

/-- The position of the value that a state variable has in a state. -/
def valueOf (state : PlanState) (subject : StateVariable) : Nat :=
  state.getD (problem.subjects.idxOf subject) 0

/-- A state gives each state variable a value from its domain. -/
def Total (state : PlanState) : Prop :=
  List.Forall₂ (fun subject position => position < subject.size) problem.subjects state

/-- The state in which each state variable has a given value. -/
def stateOf (assignment : StateVariable → Nat) : PlanState := problem.subjects.map assignment

/-- Every fact of a set holds in a state. -/
def Satisfies (state : PlanState) (set : FactSet) : Prop :=
  ∀ fact ∈ set.facts, problem.valueOf state fact.subject = fact.index

instance (state : PlanState) (set : FactSet) : Decidable (problem.Satisfies state set) :=
  inferInstanceAs (Decidable (∀ fact ∈ set.facts, problem.valueOf state fact.subject = fact.index))

/-- The values of a state, as they are shown. -/
def display (state : PlanState) : LayerState :=
  problem.subjects.map fun subject =>
    (subject, subject.values.getD (problem.valueOf state subject) .none)

variable {problem}

theorem valueOf_stateOf (assignment : StateVariable → Nat) {subject : StateVariable}
    (known : subject ∈ problem.subjects) :
    problem.valueOf (problem.stateOf assignment) subject = assignment subject := by
  have inside := List.idxOf_lt_length_of_mem known
  rw [valueOf, stateOf, List.getD_eq_getElem _ _ (by simpa using inside), List.getElem_map,
    List.getElem_idxOf inside]

theorem stateOf_valueOf {state : PlanState} (total : problem.Total state) :
    problem.stateOf (problem.valueOf state) = state := by
  have length : (problem.stateOf (problem.valueOf state)).length = state.length := by
    rw [stateOf, List.length_map, total.length_eq]
  refine List.ext_getElem length fun place here there => ?_
  rw [stateOf, List.length_map] at here
  simp only [stateOf, List.getElem_map]
  rw [valueOf, problem.distinct.idxOf_getElem, List.getD_eq_getElem _ _ there]

theorem stateOf_congr {first second : StateVariable → Nat}
    (same : ∀ subject ∈ problem.subjects, first subject = second subject) :
    problem.stateOf first = problem.stateOf second :=
  List.map_congr_left same

theorem total_stateOf {assignment : StateVariable → Nat}
    (inside : ∀ subject ∈ problem.subjects, assignment subject < subject.size) :
    problem.Total (problem.stateOf assignment) := by
  rw [Total, stateOf, List.forall₂_map_right_iff, List.forall₂_same]
  exact inside

theorem Total.valueOf_lt {state : PlanState} (total : problem.Total state) {subject : StateVariable}
    (known : subject ∈ problem.subjects) : problem.valueOf state subject < subject.size := by
  have inside := List.idxOf_lt_length_of_mem known
  have within := total.get inside (total.length_eq ▸ inside)
  rw [List.get_eq_getElem, List.get_eq_getElem, List.getElem_idxOf inside] at within
  rwa [valueOf, List.getD_eq_getElem _ _ (total.length_eq ▸ inside)]

/-- Total states in which all variables have the same values are the same. -/
theorem Total.ext {first second : PlanState} (total : problem.Total first)
    (total' : problem.Total second) (same : ∀ subject ∈ problem.subjects,
      problem.valueOf first subject = problem.valueOf second subject) : first = second := by
  rw [← stateOf_valueOf total, ← stateOf_valueOf total', stateOf_congr same]

/-- Different total states are shown differently. -/
theorem display_injOn : Set.InjOn problem.display {state | problem.Total state} := by
  intro first total second total' same
  refine total.ext total' fun subject known => ?_
  have here := List.map_inj_left.mp same subject known
  rw [Prod.mk.injEq] at here
  have inside := total.valueOf_lt known
  have inside' := total'.valueOf_lt known
  rw [List.getD_eq_getElem _ _ inside, List.getD_eq_getElem _ _ inside'] at here
  exact (List.Nodup.getElem_inj_iff subject.values_nodup).mp here.2

/-! ### Trajectories -/

/-- What must hold before and after an action is taken. -/
structure Steps (problem : Problem) (action : Action) (before after : PlanState) : Prop where
  preconditions : problem.Satisfies before action.preconditions
  effects : problem.Satisfies after action.effects
  kept : ∀ subject ∈ problem.subjects, subject ∉ action.affected →
    problem.valueOf before subject = problem.valueOf after subject

/-- A choice of actions, given by their positions among the problem's, and states before, between
and after them that start with the initial facts, end with the goals, and step as the actions
say. -/
structure Trajectory (problem : Problem) (horizon : Nat) (choices : List Nat)
    (states : List PlanState) : Prop where
  choices_length : choices.length = horizon
  states_length : states.length = horizon + 1
  total : ∀ state ∈ states, problem.Total state
  initial : ∀ state, states[0]? = some state → problem.Satisfies state problem.initial
  goals : ∀ state, states[horizon]? = some state → problem.Satisfies state problem.goals
  steps : ∀ (step index : Nat) (before after : PlanState), choices[step]? = some index →
    states[step]? = some before → states[step + 1]? = some after →
      ∃ action, problem.actions[index]? = some action ∧ problem.Steps action before after

/-! ### Executions -/

end Problem

namespace Action

/-- The position of the value that an action gives to a state variable, if it affects it. -/
def effectOn? (action : Action) (subject : StateVariable) : Option Nat :=
  (action.effects.facts.find? fun fact => fact.subject == subject).map Fact.index

/-- The effects of an action do not give two values to one state variable. -/
def Consistent (action : Action) : Prop :=
  ∀ first ∈ action.effects.facts, ∀ second ∈ action.effects.facts,
    first.subject = second.subject → first.index = second.index

instance (action : Action) : Decidable action.Consistent :=
  inferInstanceAs (Decidable (∀ first ∈ action.effects.facts, ∀ second ∈ action.effects.facts,
    first.subject = second.subject → first.index = second.index))

theorem mem_affected_iff {action : Action} {subject : StateVariable} :
    subject ∈ action.affected ↔ ∃ fact ∈ action.effects.facts, fact.subject = subject := by
  rw [affected, FactSet.subjects, List.mem_eraseDups, List.mem_map]

theorem effectOn?_eq_none {action : Action} {subject : StateVariable}
    (unaffected : subject ∉ action.affected) : action.effectOn? subject = none := by
  rw [effectOn?, Option.map_eq_none_iff, List.find?_eq_none]
  intro fact member same
  exact unaffected (mem_affected_iff.mpr ⟨fact, member, eq_of_beq same⟩)

theorem exists_effect {action : Action} {subject : StateVariable}
    (affected : subject ∈ action.affected) :
    ∃ fact ∈ action.effects.facts, fact.subject = subject ∧
      action.effectOn? subject = some fact.index := by
  obtain ⟨other, member, same⟩ := mem_affected_iff.mp affected
  cases found : action.effects.facts.find? fun fact => fact.subject == subject with
  | none => exact absurd (beq_iff_eq.mpr same) (List.find?_eq_none.mp found other member)
  | some fact =>
    refine ⟨fact, List.mem_of_find?_eq_some found, ?_, ?_⟩
    · have here := List.find?_some found
      exact eq_of_beq here
    · rw [effectOn?, found, Option.map_some]

end Action

namespace Problem

/-- The state after an action: its effects written over the state before. -/
def successor (problem : Problem) (action : Action) (state : PlanState) : PlanState :=
  problem.stateOf fun subject => (action.effectOn? subject).getD (problem.valueOf state subject)

/-- Taking actions one after another from a state, as long as the preconditions of each hold and its
effects can be written, goes through some states. -/
inductive Execution (problem : Problem) : PlanState → List Nat → List PlanState → Prop where
  | finished (state : PlanState) : Execution problem state [] [state]
  | taken {state : PlanState} {index : Nat} {action : Action} {rest : List Nat}
      {states : List PlanState} (chosen : problem.actions[index]? = some action)
      (applicable : problem.Satisfies state action.preconditions) (consistent : action.Consistent)
      (later : Execution problem (problem.successor action state) rest states) :
      Execution problem state (index :: rest) (state :: states)

variable {problem : Problem}

theorem valueOf_successor (action : Action) (state : PlanState) {subject : StateVariable}
    (known : subject ∈ problem.subjects) :
    problem.valueOf (problem.successor action state) subject =
      (action.effectOn? subject).getD (problem.valueOf state subject) :=
  valueOf_stateOf _ known

theorem total_successor {action : Action} {state : PlanState} (total : problem.Total state) :
    problem.Total (problem.successor action state) := by
  refine total_stateOf fun subject known => ?_
  by_cases affected : subject ∈ action.affected
  · obtain ⟨fact, _, rfl, found⟩ := Action.exists_effect affected
    rw [found, Option.getD_some]
    exact fact.index_lt
  · rw [Action.effectOn?_eq_none affected, Option.getD_none]
    exact total.valueOf_lt known

theorem satisfies_successor {action : Action} (covered : action.Over problem.subjects)
    (consistent : action.Consistent) (state : PlanState) :
    problem.Satisfies (problem.successor action state) action.effects := by
  intro fact member
  obtain ⟨other, member', same, found⟩ :=
    Action.exists_effect (Action.mem_affected_iff.mpr ⟨fact, member, rfl⟩)
  rw [valueOf_successor action state (covered.effects fact member), found, Option.getD_some]
  exact consistent other member' fact member same

theorem valueOf_successor_of_not_affected {action : Action} {subject : StateVariable}
    (known : subject ∈ problem.subjects) (unaffected : subject ∉ action.affected)
    (state : PlanState) :
    problem.valueOf (problem.successor action state) subject = problem.valueOf state subject := by
  rw [valueOf_successor action state known, Action.effectOn?_eq_none unaffected, Option.getD_none]

/-- Between total states, an action steps exactly as it is carried out. -/
theorem steps_iff {action : Action} (covered : action.Over problem.subjects)
    {before after : PlanState} (total : problem.Total before) (total' : problem.Total after) :
    problem.Steps action before after ↔ problem.Satisfies before action.preconditions ∧
      action.Consistent ∧ after = problem.successor action before := by
  constructor
  · rintro ⟨preconditions, effects, kept⟩
    refine ⟨preconditions, fun first member second member' same => ?_, ?_⟩
    · rw [← effects first member, ← effects second member', same]
    · refine total'.ext (total_successor total) fun subject known => ?_
      rw [valueOf_successor action before known]
      by_cases affected : subject ∈ action.affected
      · obtain ⟨fact, member, rfl, found⟩ := Action.exists_effect affected
        rw [found, Option.getD_some, effects fact member]
      · rw [Action.effectOn?_eq_none affected, Option.getD_none, kept subject known affected]
  · rintro ⟨preconditions, consistent, rfl⟩
    exact ⟨preconditions, satisfies_successor covered consistent before,
      fun _ known unaffected => (valueOf_successor_of_not_affected known unaffected before).symm⟩

theorem actionKnown {index : Nat} {action : Action}
    (chosen : problem.actions[index]? = some action) : action.Over problem.subjects :=
  problem.actionsKnown action (List.mem_of_getElem? chosen)

/-! ### Executions are trajectories -/

theorem Execution.states_length {start : PlanState} {choices : List Nat} {states : List PlanState}
    (execution : problem.Execution start choices states) : states.length = choices.length + 1 := by
  induction execution with
  | finished state => rfl
  | taken _ _ _ _ inductionHypothesis =>
    rw [List.length_cons, List.length_cons, inductionHypothesis]

theorem Execution.states_head {start : PlanState} {choices : List Nat} {states : List PlanState}
    (execution : problem.Execution start choices states) : states[0]? = some start := by
  cases execution <;> rfl

theorem Execution.total {start : PlanState} {choices : List Nat} {states : List PlanState}
    (execution : problem.Execution start choices states) (total : problem.Total start) :
    ∀ state ∈ states, problem.Total state := by
  induction execution with
  | finished state => exact List.forall_mem_singleton.mpr total
  | taken _ _ _ _ inductionHypothesis =>
    exact List.forall_mem_cons.mpr ⟨total, inductionHypothesis (total_successor total)⟩

/-- Each choice of an execution steps from one of its states to the next. -/
theorem Execution.steps {start : PlanState} {choices : List Nat} {states : List PlanState}
    (execution : problem.Execution start choices states) (total : problem.Total start)
    {step index : Nat} {before after : PlanState} (choice : choices[step]? = some index)
    (here : states[step]? = some before) (next : states[step + 1]? = some after) :
    ∃ action, problem.actions[index]? = some action ∧ problem.Steps action before after := by
  induction execution generalizing step with
  | finished state => cases choice
  | @taken state first action rest states chosen applicable consistent later inductionHypothesis =>
    cases step with
    | zero =>
      cases choice
      cases here
      rw [List.getElem?_cons_succ, later.states_head] at next
      cases next
      exact ⟨action, chosen, (steps_iff (actionKnown chosen) total (total_successor total)).mpr
        ⟨applicable, consistent, rfl⟩⟩
    | succ step => exact inductionHypothesis (total_successor total) choice here next

/-- States that step one to the next as the choices say are what an execution goes through. -/
theorem execution_of_steps {choices : List Nat} {states : List PlanState}
    (length : states.length = choices.length + 1) (total : ∀ state ∈ states, problem.Total state)
    (steps : ∀ (step index : Nat) (before after : PlanState), choices[step]? = some index →
      states[step]? = some before → states[step + 1]? = some after →
        ∃ action, problem.actions[index]? = some action ∧ problem.Steps action before after) :
    ∃ start, problem.Execution start choices states := by
  induction choices generalizing states with
  | nil =>
    obtain ⟨start, rfl⟩ := List.length_eq_one_iff.mp length
    exact ⟨start, .finished start⟩
  | cons index rest inductionHypothesis =>
    match states, length with
    | before :: later, length =>
      obtain ⟨here, there⟩ := List.forall_mem_cons.mp total
      obtain ⟨next, execution⟩ := inductionHypothesis (Nat.succ.inj length) there
        fun step other first second => steps (step + 1) other first second
      have head := execution.states_head
      obtain ⟨action, chosen, taken⟩ := steps 0 index before next rfl rfl head
      have total' := there next (List.mem_of_getElem? head)
      obtain ⟨applicable, consistent, rfl⟩ := (steps_iff (actionKnown chosen) here total').mp taken
      exact ⟨before, .taken chosen applicable consistent execution⟩

/-- A plan: choices that can be carried out from a state with the initial facts and end with the
goals, and the states that they go through. -/
structure Achieves (problem : Problem) (choices : List Nat) (start : PlanState)
    (states : List PlanState) : Prop where
  total : problem.Total start
  initial : problem.Satisfies start problem.initial
  execution : problem.Execution start choices states
  goals : ∀ last, states.getLast? = some last → problem.Satisfies last problem.goals

/-- Trajectories are exactly the plans that are carried out. -/
theorem trajectory_iff {horizon : Nat} {choices : List Nat} {states : List PlanState} :
    problem.Trajectory horizon choices states ↔
      choices.length = horizon ∧ ∃ start, problem.Achieves choices start states := by
  constructor
  · intro trajectory
    have length : states.length = choices.length + 1 := by
      rw [trajectory.states_length, trajectory.choices_length]
    obtain ⟨start, execution⟩ := execution_of_steps length trajectory.total trajectory.steps
    have head := execution.states_head
    refine ⟨trajectory.choices_length, start, trajectory.total start (List.mem_of_getElem? head),
      trajectory.initial start head, execution, fun last found => trajectory.goals last ?_⟩
    rw [List.getLast?_eq_getElem?, trajectory.states_length] at found
    exact found
  · rintro ⟨rfl, start, total, initial, execution, goals⟩
    refine ⟨rfl, execution.states_length, execution.total total, fun state found => ?_,
      fun state found => goals state ?_, fun step index before after => execution.steps total⟩
    · rw [execution.states_head] at found
      cases found
      exact initial
    · rw [List.getLast?_eq_getElem?, execution.states_length]
      exact found

end Problem

end HorizonPlanner
