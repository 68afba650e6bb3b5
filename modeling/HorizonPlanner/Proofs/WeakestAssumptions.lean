/-
This file proves that a simulation assumes no more than it has to.  It succeeds
exactly if the plan does from some state with the initial facts, and then the
assumptions that its report lists tell these states apart: from those that agree
with them the plan succeeds, and from no others.

The actions of the plan need not be those of the problem, as long as they are
about its variables.  Their names are shown in reports of failure only, so the
names are taken away first and what is known of runs with reports is used.
-/

import HorizonPlanner.Proofs.Contradiction

namespace HorizonPlanner

open Simulation

/-! ### Actions without names -/

/-- The same action under no name. -/
def Action.unnamed (action : Action) : Action := { action with name := .none }

/-- An action is about some variables, whatever its name. -/
def Action.About (action : Action) (subjects : List StateVariable) : Prop :=
  action.preconditions.Over subjects ∧ action.effects.Over subjects

theorem Action.About.over_unnamed {action : Action} {subjects : List StateVariable}
    (about : action.About subjects) : action.unnamed.Over subjects :=
  ⟨about.1, about.2, _, rfl⟩

namespace Simulation

/-- The same ending, without the name of the action it is about. -/
def Outcome.unnamed : Outcome → Outcome
  | .unsatisfied step action missing => .unsatisfied step action.unnamed missing
  | .contradictory step action => .contradictory step action.unnamed
  | outcome => outcome

theorem Outcome.succeeded_unnamed (outcome : Outcome) :
    outcome.unnamed.succeeded = outcome.succeeded := by
  cases outcome <;> rfl

theorem Outcome.unnamed_eq_reached_iff {outcome : Outcome} {steps : Nat} {assumed : Bindings} :
    outcome.unnamed = .reached steps assumed ↔ outcome = .reached steps assumed := by
  cases outcome <;> simp [unnamed]

end Simulation

namespace Problem

variable {problem : Problem}

/-- Following a plan, the name of an action shows only in what is said of it. -/
theorem follow_unnamed (goals : FactSet) (state : Simulation.State) (step : Nat)
    (plan : List Action) :
    follow goals state step (plan.map Action.unnamed) =
      (follow goals state step plan).unnamed := by
  induction plan generalizing state step with
  | nil =>
    rw [List.map_nil, follow_nil]
    split <;> rfl
  | cons action rest inductionHypothesis =>
    have same : action.unnamed.preconditions = action.preconditions := rfl
    have same' : action.unnamed.effects = action.effects := rfl
    rw [List.map_cons, follow_cons, follow_cons, same, same']
    split
    next => rfl
    next =>
      cases bindAll [] action.effects.facts with
      | error refused => rfl
      | ok changes => exact inductionHypothesis _ _

theorem run_unnamed (problem : Problem) (plan : List Action) :
    run problem (plan.map Action.unnamed) = (run problem plan).unnamed := by
  rw [run, run]
  cases bindAll [] problem.initial.facts with
  | error fact => rfl
  | ok current => exact follow_unnamed problem.goals _ _ plan

theorem succeeds_unnamed_iff {plan : List Action} {start : PlanState} :
    problem.Succeeds (plan.map Action.unnamed) start ↔ problem.Succeeds plan start := by
  induction plan generalizing start with
  | nil => exact Iff.rfl
  | cons action rest inductionHypothesis =>
    exact and_congr_right fun _ => and_congr_right fun _ => inductionHypothesis

end Problem

/-! ### What is reported of a success -/

namespace Simulation

/-- What a report says of the goals after some steps. -/
def attainment (steps : Nat) : String :=
  if steps == 0 then "goal already holds in initial state"
  else s!"goal satisfied after executing {steps} actions"

/-- What a report says of the assumptions, given the text of each. -/
def listing (texts : List String) : String :=
  if texts.isEmpty then "" else " (assuming " ++ ", ".intercalate texts ++ ")"

theorem report_reached_eq {steps : Nat} {assumed : Bindings} {texts : List String}
    (written : assumed.mapM bindingText = .ok texts) :
    (Outcome.reached steps assumed).report = .ok (attainment steps ++ listing texts) := by
  cases assumed with
  | nil =>
    rw [List.mapM_nil] at written
    cases written
    have nothing : listing [] = "" := rfl
    rw [nothing, String.append_empty]
    rfl
  | cons entry rest =>
    have opened : (Outcome.reached steps (entry :: rest)).report =
        (do .ok (attainment steps ++ " (assuming " ++
          ", ".intercalate (← (entry :: rest).mapM bindingText) ++ ")")) := rfl
    rw [opened, written, ok_bind]
    rw [List.mapM_cons, bind_eq_ok_iff] at written
    obtain ⟨text, _, written⟩ := written
    obtain ⟨others, _, listed⟩ := bind_eq_ok_iff.mp written
    cases listed
    rw [listing, List.isEmpty_cons, if_neg Bool.false_ne_true, String.append_assoc,
      String.append_assoc, String.append_assoc]

/-- A plan that reaches the goals was followed to its end. -/
theorem steps_of_follow_eq_reached {goals : FactSet} {state : State} {step : Nat}
    {plan : List Action} {steps : Nat} {assumed : Bindings}
    (reached : follow goals state (step + 1) plan = .reached steps assumed) :
    steps = step + plan.length := by
  induction plan generalizing state step with
  | nil =>
    rw [Problem.follow_nil] at reached
    split at reached
    · cases reached
      rfl
    · cases reached
  | cons action rest inductionHypothesis =>
    rw [Problem.follow_cons] at reached
    split at reached
    · cases reached
    · split at reached
      · cases reached
      · rw [inductionHypothesis reached, List.length_cons]
        omega

theorem steps_of_run_eq_reached {problem : Problem} {plan : List Action} {steps : Nat}
    {assumed : Bindings} (reached : run problem plan = .reached steps assumed) :
    steps = plan.length := by
  rw [run] at reached
  split at reached
  · cases reached
  · rw [steps_of_follow_eq_reached reached, Nat.zero_add]

end Simulation

namespace Problem

variable {problem : Problem}

/-! ### Agreement by values -/

/-- The value that a state variable has in a state. -/
def valueIn (problem : Problem) (state : PlanState) (subject : StateVariable) : Value :=
  subject.values.getD (problem.valueOf state subject) .none

theorem Total.valueOf_lt_size {state : PlanState} (total : problem.Total state)
    (subject : StateVariable) : problem.valueOf state subject < subject.size := by
  by_cases known : subject ∈ problem.subjects
  · exact total.valueOf_lt known
  · rw [valueOf, List.idxOf_eq_length known, total.length_eq, List.getD_eq_default _ _ le_rfl]
    exact List.length_pos_of_ne_nil subject.nonempty

/-- The value of a variable in a state compares equal to one that the domain has exactly if the one
is where the variable is. -/
theorem Total.valueIn_equal_iff {state : PlanState} (total : problem.Total state)
    {subject : StateVariable} (selfEqual : subject.SelfEqual) {value : Value} {position : Nat}
    (found : subject.find? value = some position) :
    (problem.valueIn state subject).equal value = true ↔
      subject.find? value = some (problem.valueOf state subject) := by
  have inside := total.valueOf_lt_size subject
  rw [valueIn, List.getD_eq_getElem _ _ inside,
    selfEqual.equal_iff_position_eq (StateVariable.find?_getElem inside) found, found,
    Option.some.injEq, eq_comm]

/-! ### Weakest assumptions -/

/-- Bindings after others are proper if all are. -/
theorem Proper.of_append_right {first second : Bindings}
    (proper : problem.Proper (first ++ second)) : problem.Proper second where
  known entry member := proper.known entry (List.mem_append_right _ member)
  located entry member := proper.located entry (List.mem_append_right _ member)
  distinct := by
    have distinct := proper.distinct
    rw [Bindings.subjects_append, List.nodup_append] at distinct
    exact distinct.2.1

/-- The assumptions of a run are about variables of the problem, each once, and name values of their
domains. -/
theorem proper_assumed (selfEqual : problem.SelfEqual) {plan : List Action}
    (covered : ∀ action ∈ plan, action.Over problem.subjects) {steps : Nat} {assumed : Bindings}
    (reached : run problem plan = .reached steps assumed) : problem.Proper assumed := by
  rw [run] at reached
  split at reached
  next => cases reached
  next current bound =>
    have ends := (gathers_initial selfEqual bound).sound.ends_follow selfEqual covered 1
    rw [reached] at ends
    cases ends with
    | reached proper => exact proper.of_append_right
    | failed failed => cases failed

/-- A run reaches the goals exactly if the initial facts do not clash and the plan succeeds from
some state in which they hold.  What it then assumed is listed in its report, and of the states in
which the initial facts hold, the plan succeeds from those that agree with every assumption and from
no others. -/
theorem run_weakest (problem : Problem) (selfEqual : problem.SelfEqual) (plan : List Action)
    (covered : ∀ action ∈ plan, action.About problem.subjects) :
    ((run problem plan).succeeded = true ↔
      (∀ subject, ¬ problem.initial.ClashesOn subject) ∧ ∃ start, problem.Total start ∧
        problem.Satisfies start problem.initial ∧ problem.Succeeds plan start) ∧
    ((run problem plan).succeeded = true → ∃ assumed texts,
      run problem plan = .reached plan.length assumed ∧ problem.Proper assumed ∧
      assumed.mapM bindingText = .ok texts ∧
      (run problem plan).report = .ok (attainment plan.length ++ listing texts) ∧
      ∀ start, problem.Total start → problem.Satisfies start problem.initial →
        (problem.Succeeds plan start ↔
          ∀ entry ∈ assumed, (problem.valueIn start entry.1).equal entry.2 = true)) := by
  have known : ∀ action ∈ plan.map Action.unnamed, action.Over problem.subjects :=
    List.forall_mem_map.mpr fun action member => (covered action member).over_unnamed
  have judges := judges_run problem selfEqual known
  have succeeded := judges.succeeded_iff
  rw [run_unnamed, Outcome.succeeded_unnamed] at succeeded
  simp only [succeeds_unnamed_iff] at succeeded
  refine ⟨?_, fun reached => ?_⟩
  · rw [succeeded]
    constructor
    · rintro ⟨start, total, initial, succeeds⟩
      exact ⟨initial.not_clashesOn, start, total, initial, succeeds⟩
    · rintro ⟨_, found⟩
      exact found
  · generalize ended : run problem (plan.map Action.unnamed) = outcome at judges
    have unnamed := ended
    rw [run_unnamed] at unnamed
    cases judges with
    | failed failed =>
      rw [← unnamed, Outcome.succeeded_unnamed, reached] at failed
      cases failed
    | @reached steps assumed _ _ weakest =>
      have proper := proper_assumed selfEqual known ended
      have ran := Outcome.unnamed_eq_reached_iff.mp unnamed
      obtain rfl := steps_of_run_eq_reached ran
      obtain ⟨texts, written⟩ := exists_bindingTexts proper.located
      refine ⟨assumed, texts, ran, proper, written, ?_, fun start total initial => ?_⟩
      · rw [ran, report_reached_eq written]
      · rw [← succeeds_unnamed_iff, weakest start initial]
        refine forall₂_congr fun entry member => ?_
        obtain ⟨position, found⟩ := proper.located entry member
        exact (total.valueIn_equal_iff (selfEqual _ (proper.known entry member)) found).symm

/-- Lights a dark lamp, under a name that is no text. -/
def lighting : Action where
  name := .integer 5
  preconditions := lightingLamp.initial
  effects := lightingLamp.goals

theorem run_weakest_unseenLamp :
    (run unseenLamp [lighting]).succeeded = true ∧
      (run unseenLamp [lighting]).report =
        .ok "goal satisfied after executing 1 actions (assuming ?=False)" ∧
      ∀ start, unseenLamp.Total start → (unseenLamp.Succeeds [lighting] start ↔
        (unseenLamp.valueIn start lamp).equal (.boolean false) = true) := by
  have covered : ∀ action ∈ [lighting], action.About unseenLamp.subjects :=
    List.forall_mem_singleton.mpr (by simp [Action.About, FactSet.Over, lighting, unseenLamp,
      lightingLamp])
  obtain ⟨_, listed⟩ := run_weakest unseenLamp (by decide) [lighting] covered
  obtain ⟨assumed, texts, ran, _, written, reported, weakest⟩ := listed (by decide)
  have ended : run unseenLamp [lighting] = .reached 1 [(lamp, .boolean false)] := rfl
  rw [ended] at ran
  cases ran
  cases written
  refine ⟨by decide, reported, fun start total => ?_⟩
  rw [weakest start total fun _ member => absurd member List.not_mem_nil,
    List.forall_mem_singleton]

end Problem

end HorizonPlanner
