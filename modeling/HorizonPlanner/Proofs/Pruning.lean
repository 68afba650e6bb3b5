/-
This file proves that the actions which diagnostics point out can be left out.
Leaving them out numbers the others anew, so the solutions of an encoding
change.  What stays is which actions can be carried out one after another; as
none of the reported ones is among them, plans have the same lengths before and
after, and a search depends on the lengths of plans only.
-/

import HorizonPlanner.Proofs.Contradiction
import HorizonPlanner.Proofs.Creation

namespace HorizonPlanner

namespace Problem

variable {problem : Problem}

/-! ### Plans by their actions -/

/-- A problem has a plan of some length. -/
def HasPlan (problem : Problem) (length : Nat) : Prop :=
  ∃ choices, choices.length = length ∧ problem.IsPlan choices

theorem length_actionsAt {choices : List Nat}
    (inside : ∀ index ∈ choices, index < problem.actions.length) :
    (problem.actionsAt choices).length = choices.length := by
  induction choices with
  | nil => rfl
  | cons index rest inductionHypothesis =>
    obtain ⟨here, there⟩ := List.forall_mem_cons.mp inside
    rw [actionsAt_cons (List.getElem?_eq_getElem here), List.length_cons, List.length_cons,
      inductionHypothesis there]

theorem mem_actions_of_mem_actionsAt {choices : List Nat} {action : Action}
    (member : action ∈ problem.actionsAt choices) : action ∈ problem.actions := by
  obtain ⟨index, _, chosen⟩ := List.mem_filterMap.mp member
  exact List.mem_of_getElem? chosen

/-- Actions of a problem are at some positions. -/
theorem exists_actionsAt_eq {plan : List Action}
    (known : ∀ action ∈ plan, action ∈ problem.actions) :
    ∃ choices, (∀ index ∈ choices, index < problem.actions.length) ∧
      problem.actionsAt choices = plan := by
  induction plan with
  | nil => exact ⟨[], fun _ member => absurd member List.not_mem_nil, rfl⟩
  | cons action rest inductionHypothesis =>
    obtain ⟨here, there⟩ := List.forall_mem_cons.mp known
    obtain ⟨index, chosen⟩ := List.mem_iff_getElem?.mp here
    obtain ⟨choices, inside, rfl⟩ := inductionHypothesis there
    exact ⟨index :: choices,
      List.forall_mem_cons.mpr ⟨(List.getElem?_eq_some_iff.mp chosen).choose, inside⟩,
      actionsAt_cons chosen⟩

/-- There is a plan of some length exactly if so many actions of the problem succeed from a state
with the initial facts. -/
theorem hasPlan_iff {length : Nat} :
    problem.HasPlan length ↔ ∃ plan : List Action, plan.length = length ∧
      (∀ action ∈ plan, action ∈ problem.actions) ∧ ∃ start, problem.Total start ∧
        problem.Satisfies start problem.initial ∧ problem.Succeeds plan start := by
  constructor
  · rintro ⟨choices, rfl, plan⟩
    have inside := plan.choices_lt
    exact ⟨problem.actionsAt choices, length_actionsAt inside,
      fun _ => mem_actions_of_mem_actionsAt, (isPlan_iff_succeeds inside).mp plan⟩
  · rintro ⟨plan, rfl, known, succeeds⟩
    obtain ⟨choices, inside, rfl⟩ := exists_actionsAt_eq known
    exact ⟨choices, (length_actionsAt inside).symm, (isPlan_iff_succeeds inside).mpr succeeds⟩

/-! ### Leaving out what is reported -/

/-- A problem without the actions that are reported; the others keep their order. -/
def withoutReported (problem : Problem) : Problem :=
  { problem with
    actions := problem.actions.filter fun action => action.diagnostics.isEmpty
    actionsKnown := fun action member =>
      problem.actionsKnown action (List.mem_filter.mp member).1 }

theorem mem_withoutReported_iff {action : Action} :
    action ∈ problem.withoutReported.actions ↔
      action ∈ problem.actions ∧ ¬ problem.ReportsAction action := by
  rw [withoutReported, List.mem_filter, List.isEmpty_iff, Action.diagnostics_eq_nil_iff,
    reportsAction_iff]
  exact and_congr_right fun known => not_congr (and_iff_right known).symm

/-- What actions do does not depend on which others there are. -/
theorem succeeds_withoutReported_iff {plan : List Action} {start : PlanState} :
    problem.withoutReported.Succeeds plan start ↔ problem.Succeeds plan start := by
  induction plan generalizing start with
  | nil => exact Iff.rfl
  | cons action rest inductionHypothesis =>
    exact and_congr_right fun _ => and_congr_right fun _ => inductionHypothesis

/-- Reported actions are in no plan, so leaving them out keeps the lengths of plans. -/
theorem hasPlan_withoutReported_iff {length : Nat} :
    problem.withoutReported.HasPlan length ↔ problem.HasPlan length := by
  rw [hasPlan_iff, hasPlan_iff]
  simp only [mem_withoutReported_iff, succeeds_withoutReported_iff]
  refine exists_congr fun plan => and_congr_right fun _ => ?_
  constructor
  · rintro ⟨known, start⟩
    exact ⟨fun action member => (known action member).1, start⟩
  · rintro ⟨known, start, total, initial, succeeds⟩
    refine ⟨fun action member => ⟨known action member, fun reported => ?_⟩,
      start, total, initial, succeeds⟩
    exact succeeds.not_contradictory action member (reportsAction_iff.mp reported).2

/-! ### Searching -/

/-- Searches that decide two problems with plans of the same lengths report alike. -/
theorem Decides.alike {other : Problem} {bound : Nat} {report report' : SearchReport}
    (decides : problem.Decides bound report) (decides' : other.Decides bound report')
    (same : ∀ length, problem.HasPlan length ↔ other.HasPlan length) :
    report.status = report'.status ∧ report.horizon? = report'.horizon? := by
  -- A plan of one problem refutes neither a shorter bound nor a shorter plan of the other.
  have bounded {first second : Problem} {least : Nat}
      (among : ∀ length, first.HasPlan length → second.HasPlan length)
      (long : ∀ choices, second.IsPlan choices → least ≤ choices.length) {plan : FoundPlan}
      (shows : first.Shows plan) : least ≤ plan.horizon := by
    obtain ⟨choices, length, isPlan⟩ := among _ ⟨plan.choices, shows.choices_length, shows.isPlan⟩
    exact length ▸ long choices isPlan
  have there (length : Nat) := (same length).mp
  have back (length : Nat) := (same length).mpr
  rcases decides with ⟨status, plan, found, below, shows, shortest⟩ | ⟨status, none, long⟩
  · rcases decides' with ⟨status', plan', found', _, shows', shortest'⟩ | ⟨_, _, long'⟩
    · rw [status, status', SearchReport.horizon?, SearchReport.horizon?, found, found',
        Option.map_some, Option.map_some, Nat.le_antisymm (bounded back shortest shows')
          (bounded there shortest' shows)]
      exact ⟨rfl, rfl⟩
    · exact absurd (bounded there long' shows) (Nat.not_le.mpr below)
  · rcases decides' with ⟨_, plan', _, below', shows', _⟩ | ⟨status', none', _⟩
    · exact absurd (bounded back long shows') (Nat.not_le.mpr below')
    · rw [status, status', SearchReport.horizon?, SearchReport.horizon?, none, none']
      exact ⟨rfl, rfl⟩

/-- A role is reported for a variable exactly if it is played and binds the variable to two
positions, which is when no state satisfies its facts there.  Reported initial facts or goals leave
every horizon without a solution and a search without a plan; a reported action is taken in no
solution; and the problem that is put together without the reported actions has a search of the
same status and the same horizon. -/
theorem diagnostics_exact (problem : Problem) (choice : EngineChoice) (backend : Cnf.Backend)
    (clock : Clock) {engine : Engine} {limit : TimeLimit}
    (named : Engine.ofValue choice.name = .ok engine)
    (stated : TimeLimit.ofValue choice.limit = .ok limit) (unlimited : limit.Absent)
    (exact' : engine = .backtracking ∨ backend.Exact) :
    (∀ role subject, (problem.Reports role subject ↔
        problem.Plays role ∧ (problem.factsIn role).ClashesOn subject) ∧
      (problem.Reports role subject ↔ problem.Plays role ∧ ¬ ∃ state, problem.Total state ∧
        ∀ fact ∈ (problem.factsIn role).facts, fact.subject = subject →
          problem.valueOf state subject = fact.index)) ∧
    (∀ subject, problem.Reports .initial subject ∨ problem.Reports .goals subject →
      (∀ horizon, ¬ ∃ values, (problem.encode horizon).network.Solution values) ∧
      ∃ report, problem.search choice.limit (problem.solveHorizon choice backend clock) =
        .ok report ∧ report.status = .unsatisfiable ∧ report.found = none) ∧
    (∀ action, problem.ReportsAction action → ∀ horizon values,
      (problem.encode horizon).network.Solution values → ∀ (step index : Nat), step < horizon →
        problem.actions[index]? = some action → values[actionSlot step]? ≠ some (index : Int)) ∧
    (∀ action, action ∈ problem.withoutReported.actions ↔
      action ∈ problem.actions ∧ ¬ problem.ReportsAction action) ∧
    create problem.subjects problem.withoutReported.actions problem.initial problem.goals
      problem.bound.stated = .ok problem.withoutReported ∧
    ∃ report report',
      problem.search choice.limit (problem.solveHorizon choice backend clock) = .ok report ∧
      problem.withoutReported.search choice.limit
        (problem.withoutReported.solveHorizon choice backend clock) = .ok report' ∧
      report.status = report'.status ∧ report.horizon? = report'.horizon? := by
  obtain ⟨report, searched, decides⟩ :=
    search_decides problem choice backend clock named stated unlimited exact'
  obtain ⟨report', searched', decides'⟩ :=
    search_decides problem.withoutReported choice backend clock named stated unlimited exact'
  refine ⟨fun role subject => ⟨reports_iff, ?_⟩, fun subject reported => ⟨?_, ?_⟩, ?_,
    fun action => mem_withoutReported_iff, problem.withoutReported.create_parts, ?_⟩
  · rw [reports_iff]
    refine and_congr_right fun played => clashesOn_iff_no_state ?_
    cases role with
    | initial => exact problem.initialKnown
    | goals => exact problem.goalsKnown
    | effects action => exact (problem.actionsKnown action played).effects
    | preconditions action => exact (problem.actionsKnown action played).preconditions
  · rintro horizon ⟨values, solution⟩
    obtain ⟨_, plan⟩ := trajectory_iff.mp (trajectory_of_solution solution)
    obtain ⟨start, achieves⟩ := plan
    exact IsPlan.not_reports ⟨start, _, achieves⟩ subject reported
  · refine ⟨report, searched, ?_⟩
    rcases decides with ⟨_, plan, _, _, shows, _⟩ | ⟨unsatisfiable, none, _⟩
    · exact absurd reported (shows.isPlan.not_reports subject)
    · exact ⟨unsatisfiable, none⟩
  · intro action reported horizon values solution step index inside found chosen
    exact not_reportsAction_of_solution solution inside chosen found reported
  · exact ⟨report, report', searched, searched',
      decides.alike decides' fun length => hasPlan_withoutReported_iff.symm⟩

/-- Turns a lamp on and off at once. -/
def sparking : Action where
  name := .none
  preconditions := .empty
  effects := .ofList (lightingLamp.initial.facts ++ lightingLamp.goals.facts)

/-- The lamp that is to be lit, with an action before the useful one that contradicts itself. -/
def sparkingLamp : Problem :=
  { lightingLamp with
    actions := sparking :: lightingLamp.actions
    actionsKnown := List.forall_mem_cons.mpr
      ⟨⟨by simp [FactSet.Over, sparking, FactSet.empty],
        FactSet.ofList_over (by simp [lightingLamp]), _, rfl⟩, lightingLamp.actionsKnown⟩ }

theorem diagnostics_exact_sparkingLamp :
    sparkingLamp.ReportsAction sparking ∧
      (∀ values, (sparkingLamp.encode 1).network.Solution values →
        values[actionSlot 0]? ≠ some 0) ∧
      sparkingLamp.withoutReported.actions.length = 1 ∧
      ∃ report report',
        sparkingLamp.search (.integer 0) (sparkingLamp.solveHorizon
          ⟨.none, .integer 0⟩ Cnf.exhaustive .counting) = .ok report ∧
        sparkingLamp.withoutReported.search (.integer 0) (sparkingLamp.withoutReported.solveHorizon
          ⟨.none, .integer 0⟩ Cnf.exhaustive .counting) = .ok report' ∧
        report.status = report'.status ∧ report.horizon? = report'.horizon? := by
  obtain ⟨exact', _, untaken, _, _, alike⟩ := diagnostics_exact sparkingLamp ⟨.none, .integer 0⟩
    Cnf.exhaustive .counting rfl rfl TimeLimit.unlimited_absent (Or.inr Cnf.exhaustive_exact)
  have clashes : sparking.effects.ClashesOn lamp :=
    ⟨_, List.mem_cons_self, _, List.mem_cons_of_mem _ List.mem_cons_self, rfl, rfl, by decide⟩
  have reported : sparkingLamp.ReportsAction sparking :=
    ⟨lamp, Or.inl ((exact' (.effects sparking) lamp).1.mpr ⟨List.mem_cons_self, clashes⟩)⟩
  exact ⟨reported,
    fun values solution => untaken sparking reported 1 values solution 0 0 Nat.one_pos rfl,
    by decide, alike⟩

end Problem

end HorizonPlanner
