/-
This file proves that a simulation and the encoding judge a plan alike.  The
encoding of a length quantifies over the values of all variables on all layers;
a simulation takes one way forward and leaves open what it has not tested.  A
plan is a solution of the encoding exactly if its simulation succeeds.
-/

import HorizonPlanner.Proofs.LimitedSearch
import HorizonPlanner.Proofs.SimulatedPlan

namespace HorizonPlanner

open Simulation

namespace Problem

variable {problem : Problem}

/-! ### Plans by the positions of their actions -/

theorem actionsAt_cons {index : Nat} {action : Action} {rest : List Nat}
    (chosen : problem.actions[index]? = some action) :
    problem.actionsAt (index :: rest) = action :: problem.actionsAt rest := by
  rw [actionsAt, List.filterMap_cons_some chosen]
  rfl

theorem over_actionsAt (choices : List Nat) :
    ∀ action ∈ problem.actionsAt choices, action.Over problem.subjects := by
  intro action member
  obtain ⟨index, _, chosen⟩ := List.mem_filterMap.mp member
  exact actionKnown chosen

theorem Execution.states_ne_nil {start : PlanState} {choices : List Nat} {states : List PlanState}
    (execution : problem.Execution start choices states) : states ≠ [] := by
  rintro rfl
  cases execution.states_head

/-- Choices lead from a state to the goals exactly if their actions do. -/
theorem succeeds_iff_execution {choices : List Nat}
    (inside : ∀ index ∈ choices, index < problem.actions.length) {start : PlanState} :
    problem.Succeeds (problem.actionsAt choices) start ↔ ∃ states,
      problem.Execution start choices states ∧
        ∀ last, states.getLast? = some last → problem.Satisfies last problem.goals := by
  induction choices generalizing start with
  | nil =>
    constructor
    · intro satisfied
      refine ⟨[start], .finished start, ?_⟩
      rintro last ⟨⟩
      exact satisfied
    · rintro ⟨states, execution, goals⟩
      cases execution
      exact goals start rfl
  | cons index rest inductionHypothesis =>
    obtain ⟨here, there⟩ := List.forall_mem_cons.mp inside
    have chosen := List.getElem?_eq_getElem here
    rw [actionsAt_cons chosen, Succeeds, inductionHypothesis there]
    constructor
    · rintro ⟨applicable, consistent, states, execution, goals⟩
      refine ⟨start :: states, .taken chosen applicable consistent execution, fun last found => ?_⟩
      rw [List.getLast?_cons_of_ne_nil execution.states_ne_nil] at found
      exact goals last found
    · rintro ⟨_, execution, goals⟩
      obtain _ | ⟨chosen', applicable, consistent, execution⟩ := execution
      obtain rfl := Option.some.inj (chosen.symm.trans chosen')
      refine ⟨applicable, consistent, _, execution, fun last found => goals last ?_⟩
      rw [List.getLast?_cons_of_ne_nil execution.states_ne_nil]
      exact found

theorem isPlan_iff_succeeds {choices : List Nat}
    (inside : ∀ index ∈ choices, index < problem.actions.length) :
    problem.IsPlan choices ↔ ∃ start, problem.Total start ∧
      problem.Satisfies start problem.initial ∧
        problem.Succeeds (problem.actionsAt choices) start := by
  simp only [succeeds_iff_execution inside]
  constructor
  · rintro ⟨start, states, total, initial, execution, goals⟩
    exact ⟨start, total, initial, states, execution, goals⟩
  · rintro ⟨start, total, initial, states, execution, goals⟩
    exact ⟨start, states, total, initial, execution, goals⟩

/-- A run of chosen actions succeeds exactly if they are a plan. -/
theorem run_succeeded_iff_isPlan (selfEqual : problem.SelfEqual) {choices : List Nat}
    (inside : ∀ index ∈ choices, index < problem.actions.length) :
    (run problem (problem.actionsAt choices)).succeeded = true ↔ problem.IsPlan choices := by
  rw [(judges_run problem selfEqual (over_actionsAt choices)).succeeded_iff,
    isPlan_iff_succeeds inside]

/-- Values for the slots of the encoding choose some actions. -/
def Chooses (values : List Int) (choices : List Nat) : Prop :=
  ∀ (step index : Nat), choices[step]? = some index → values[actionSlot step]? = some (index : Int)

theorem choicesOf_eq_of_chooses {values : List Int} {choices : List Nat}
    (chooses : Chooses values choices) : choicesOf choices.length values = choices := by
  refine List.ext_getElem (by simp [choicesOf]) fun step here there => ?_
  have found := chooses step _ (List.getElem?_eq_getElem there)
  exact Option.some.inj ((List.getElem?_eq_getElem here).symm.trans
    (getElem?_choicesOf.mpr ⟨there, positionIn_of_getElem? found⟩))

theorem isPlan_iff_exists_solution {choices : List Nat} :
    problem.IsPlan choices ↔ ∃ values,
      (problem.encode choices.length).network.Solution values ∧ Chooses values choices := by
  constructor
  · rintro ⟨start, states, achieves⟩
    have trajectory := trajectory_iff.mpr ⟨rfl, start, achieves⟩
    refine ⟨_, solution_of_trajectory trajectory, fun step index chosen => ?_⟩
    have inside := (List.getElem?_eq_some_iff.mp chosen).choose
    rw [valuesOf, tabulate_action inside, List.getD_eq_getElem?_getD, chosen, Option.getD_some]
  · rintro ⟨values, solution, chooses⟩
    have trajectory := trajectory_of_solution solution
    rw [choicesOf_eq_of_chooses chooses] at trajectory
    obtain ⟨_, start, achieves⟩ := trajectory_iff.mp trajectory
    exact ⟨start, _, achieves⟩

/-- Running a plan succeeds exactly if the encoding of its length has a solution that chooses its
actions. -/
theorem run_succeeded_iff_exists_solution (problem : Problem) (selfEqual : problem.SelfEqual)
    (horizon : Nat) (choices : List Nat) (length : choices.length = horizon)
    (inside : ∀ index ∈ choices, index < problem.actions.length) :
    (∃ text, (run problem (problem.actionsAt choices)).report = .ok text) ∧
      ((run problem (problem.actionsAt choices)).succeeded = true ↔
        ∃ values, (problem.encode horizon).network.Solution values ∧ Chooses values choices) := by
  subst length
  refine ⟨(judges_run problem selfEqual (over_actionsAt choices)).reported, ?_⟩
  rw [run_succeeded_iff_isPlan selfEqual inside]
  exact isPlan_iff_exists_solution

/-- The lamp that is to be lit, of which nobody knows whether it is dark at the start. -/
def unseenLamp : Problem :=
  { lightingLamp with
    initial := .empty
    initialKnown := fun _ member => absurd member List.not_mem_nil }

theorem run_succeeded_iff_exists_solution_unseenLamp :
    (run unseenLamp (unseenLamp.actionsAt [0])).succeeded = true ∧
      ∃ values, (unseenLamp.encode 1).network.Solution values ∧ Chooses values [0] := by
  have agree := (run_succeeded_iff_exists_solution unseenLamp (by decide) 1 [0] rfl (by decide)).2
  have succeeded : (run unseenLamp (unseenLamp.actionsAt [0])).succeeded = true := by decide
  exact ⟨succeeded, agree.mp succeeded⟩

/-! ### Plans that are found -/

theorem IsPlan.choices_lt {choices : List Nat} (plan : problem.IsPlan choices) :
    ∀ index ∈ choices, index < problem.actions.length := by
  intro index member
  obtain ⟨start, states, achieves⟩ := plan
  obtain ⟨step, chosen⟩ := List.mem_iff_getElem?.mp member
  exact choice_lt (trajectory_iff.mpr ⟨rfl, start, achieves⟩) chosen

theorem Settles.shows {bound : Nat} {report : SearchReport} (settles : problem.Settles bound report)
    {plan : FoundPlan} (found : report.found = some plan) : problem.Shows plan := by
  obtain (⟨_, other, found', _, shows, _⟩ | ⟨_, nothing, _⟩) | ⟨_, nothing, _⟩ := settles.outcome
  · cases found'.symm.trans found
    exact shows
  · cases nothing.symm.trans found
  · cases nothing.symm.trans found

/-- A plan that is found under any time limit runs, if the values of the domains compare equal to
themselves. -/
theorem run_succeeded_of_found {choice : EngineChoice} {backend : Cnf.Backend} {clock : Clock}
    {engine : Engine} {limit : TimeLimit} (selfEqual : problem.SelfEqual)
    (named : Engine.ofValue choice.name = .ok engine)
    (stated : TimeLimit.ofValue choice.limit = .ok limit)
    (sound : engine = .backtracking ∨ backend.Sound) {report : SearchReport}
    (searched : problem.search choice.limit (problem.solveHorizon choice backend clock) =
      .ok report) {plan : FoundPlan} (found : report.found = some plan) :
    (run problem (problem.actionsAt plan.choices)).succeeded = true := by
  have reliable := solveHorizon_reliable problem clock named stated sound
  have plan := ((reliable.settles_search searched).shows found).isPlan
  exact (run_succeeded_iff_isPlan selfEqual plan.choices_lt).mpr plan

/-- A gauge that shows an undefined number or one. -/
def gauge : StateVariable where
  key := 0
  name := .integer 0
  values := [.binary (.undefined 0), .integer 1]
  owner := none
  nonempty := by decide
  distinct := by decide
  hashable := by decide

/-- A gauge that shows an undefined number, as it should. -/
def restingGauge : Problem where
  subjects := [gauge]
  actions := []
  initial := ⟨[⟨gauge, .binary (.undefined 0), 0, rfl⟩], List.pairwise_singleton _ _⟩
  goals := ⟨[⟨gauge, .binary (.undefined 0), 0, rfl⟩], List.pairwise_singleton _ _⟩
  bound := ⟨.integer 1, 1, by decide, rfl⟩
  distinct := List.nodup_singleton _
  initialKnown := by simp [FactSet.Over]
  goalsKnown := by simp [FactSet.Over]
  actionsKnown := fun _ member => absurd member List.not_mem_nil

/-- An undefined number is at the position where it is sought but does not compare equal to itself,
so a plan that is found need not run. -/
theorem found_run_fails_restingGauge :
    ∃ report plan, restingGauge.search (.integer 0) (restingGauge.solveHorizon
        ⟨.none, .integer 0⟩ Cnf.exhaustive .counting) = .ok report ∧
      report.found = some plan ∧
      (run restingGauge (restingGauge.actionsAt plan.choices)).succeeded = false := by
  have idle : restingGauge.IsPlan [] :=
    ⟨[0], [[0]], .cons (by decide) .nil, by decide, .finished [0], by rintro last ⟨⟩; decide⟩
  obtain ⟨report, searched, decides⟩ := search_decides restingGauge ⟨.none, .integer 0⟩
    Cnf.exhaustive .counting rfl rfl TimeLimit.unlimited_absent (Or.inr Cnf.exhaustive_exact)
  obtain ⟨_, plan, found, below, shows, _⟩ | ⟨_, _, long⟩ := decides
  · refine ⟨report, plan, searched, found, ?_⟩
    have length : plan.choices.length = 0 := shows.choices_length.trans (Nat.lt_one_iff.mp below)
    rw [List.eq_nil_of_length_eq_zero length]
    decide
  · exact absurd (long [] idle) (by decide)

end Problem

end HorizonPlanner
