/-
This file proves that a time limit never makes a search wrong.  The limit holds
for each horizon by itself, and a horizon that is given up ends the search.  So
every horizon before the last one was refuted whatever the limit was, and what
the search says of plans is true: the plan that it found is a shortest one, there
is none below the bound, or there is none below the horizon that it gave up.
-/

import HorizonPlanner.Proofs.ShortestPlan
import HorizonPlanner.Proofs.TimeLimit

namespace HorizonPlanner

/-- Sizes are those of the horizons from zero on, each of them once and in order. -/
def EncodingSizes.Numbered (sizes : List (EncodingSizes Nat)) : Prop :=
  sizes.map EncodingSizes.horizon = (List.range sizes.length).map fun horizon => .integer horizon

theorem EncodingSizes.Numbered.append {sizes : List (EncodingSizes Nat)}
    (numbered : EncodingSizes.Numbered sizes) {next : EncodingSizes Nat}
    (stated : next.horizon = .integer sizes.length) :
    EncodingSizes.Numbered (sizes ++ [next]) := by
  rw [EncodingSizes.Numbered, List.map_append, numbered, List.length_append, List.length_singleton,
    List.range_succ, List.map_append, List.map_singleton, List.map_singleton, stated]

theorem Encoding.horizon_sizesIn (encoding : Encoding) (model : EngineModel Int) :
    (encoding.sizesIn model).horizon = encoding.horizon := by
  cases model <;> rfl

namespace Problem

/-- A solver gives no wrong answer on a horizon and reports the sizes of that horizon. -/
structure Reliable (problem : Problem) (solve : HorizonSolver) : Prop where
  tolerates : ∀ {horizon readings solved}, solve horizon readings = .ok solved →
    (problem.encode horizon).network.Tolerates solved.answer
  stated : ∀ {horizon readings solved}, solve horizon readings = .ok solved →
    solved.sizes.horizon = .integer horizon

/-- A search was given up at some horizon, and no plan is shorter than that. -/
structure GivesUp (problem : Problem) (report : SearchReport) : Prop where
  status : report.status = .timeout
  nothing : report.found = none
  long : ∀ choices, problem.IsPlan choices → report.sizes.length ≤ choices.length + 1

/-- What a search settles under a time limit: it decided the horizons below a bound or was given up,
and it tried one horizon after another. -/
structure Settles (problem : Problem) (bound : Nat) (report : SearchReport) : Prop where
  outcome : problem.Decides bound report ∨ problem.GivesUp report
  numbered : EncodingSizes.Numbered report.sizes

variable {problem : Problem} {solve : HorizonSolver}

/-- Trying the horizons from one on, after all smaller ones were refuted, settles them all. -/
theorem Reliable.settles_searchFrom (reliable : problem.Reliable solve) (limit : Value)
    {remaining readings : Nat} {sizes : List (EncodingSizes Nat)}
    (numbered : EncodingSizes.Numbered sizes)
    (refuted : ∀ choices, problem.IsPlan choices → sizes.length ≤ choices.length)
    {report : SearchReport}
    (searched : problem.searchFrom limit solve sizes.length readings .unsatisfiable sizes
      remaining = .ok report) :
    problem.Settles (sizes.length + remaining) report := by
  -- A horizon joins the numbered ones, and only one that was refuted is gone beyond.
  induction remaining generalizing readings sizes with
  | zero =>
    cases searched
    exact ⟨Or.inl (Or.inr ⟨rfl, rfl, refuted⟩), numbered⟩
  | succ remaining inductionHypothesis =>
    rw [searchFrom] at searched
    obtain ⟨solved, ran, continued⟩ := bind_eq_ok_iff.mp searched
    have numbered' := numbered.append (reliable.stated ran)
    have length : (sizes ++ [solved.sizes]).length = sizes.length + 1 := List.length_append
    rcases reliable.tolerates ran with (⟨satisfiable, solution⟩ | ⟨unsatisfiable, none⟩) | timeout
    · obtain ⟨choices, states, decoded, decoded', shows⟩ := shows_of_solution solution
      rw [satisfiable] at continued
      simp only [decoded, decoded', ok_bind] at continued
      cases continued
      exact ⟨Or.inl (Or.inl ⟨rfl, _, rfl, Nat.lt_add_of_pos_right (Nat.succ_pos _), shows,
        refuted⟩), numbered'⟩
    · have longer := succ_le_of_no_solution none refuted
      rw [unsatisfiable] at continued
      rw [← length] at continued longer
      have settles := inductionHypothesis numbered' longer continued
      rwa [length, Nat.add_right_comm, Nat.add_assoc] at settles
    · rw [timeout] at continued
      cases continued
      refine ⟨Or.inr ⟨rfl, rfl, fun choices plan => ?_⟩, numbered'⟩
      rw [length]
      exact Nat.succ_le_succ (refuted choices plan)

theorem Reliable.settles_search (reliable : problem.Reliable solve) {limit : Value}
    {report : SearchReport} (searched : problem.search limit solve = .ok report) :
    problem.Settles problem.bound.steps report := by
  have nothing : EncodingSizes.Numbered [] := rfl
  obtain ⟨tried, ended, rfl⟩ := map_eq_ok_iff.mp searched
  have settles := reliable.settles_searchFrom limit nothing
    (fun choices _ => Nat.zero_le choices.length) ended
  rw [List.length_nil, Nat.zero_add] at settles
  exact ⟨settles.outcome.imp_right fun givesUp => ⟨givesUp.status, givesUp.nothing, givesUp.long⟩,
    settles.numbered⟩

theorem warnings_searchFrom {limit : Value} {remaining horizon readings : Nat} {status : Status}
    {sizes : List (EncodingSizes Nat)} {report : SearchReport}
    (searched : problem.searchFrom limit solve horizon readings status sizes remaining =
      .ok report) :
    report.status = .timeout ∧ (∃ horizon, report.warnings = [.undecided horizon limit]) ∨
      report.warnings = [] := by
  induction remaining generalizing horizon readings status sizes with
  | zero =>
    cases searched
    exact Or.inr rfl
  | succ remaining inductionHypothesis =>
    rw [searchFrom] at searched
    obtain ⟨solved, _, continued⟩ := bind_eq_ok_iff.mp searched
    split at continued
    next =>
      obtain ⟨choices, _, continued⟩ := bind_eq_ok_iff.mp continued
      obtain ⟨states, _, continued⟩ := bind_eq_ok_iff.mp continued
      cases continued
      exact Or.inr rfl
    next =>
      cases continued
      exact Or.inl ⟨rfl, horizon, rfl⟩
    next => exact inductionHypothesis continued

/-- A search ends if each horizon is answered. -/
theorem Reliable.exists_searchFrom_eq_ok (reliable : problem.Reliable solve)
    (responds : ∀ horizon readings, ∃ solved, solve horizon readings = .ok solved) (limit : Value)
    (remaining horizon readings : Nat) (status : Status) (sizes : List (EncodingSizes Nat)) :
    ∃ report, problem.searchFrom limit solve horizon readings status sizes remaining =
      .ok report := by
  induction remaining generalizing horizon readings status sizes with
  | zero => exact ⟨_, rfl⟩
  | succ remaining inductionHypothesis =>
    obtain ⟨solved, ran⟩ := responds horizon readings
    rw [searchFrom, ran, ok_bind]
    rcases reliable.tolerates ran with (⟨satisfiable, solution⟩ | ⟨unsatisfiable, _⟩) | timeout
    · obtain ⟨choices, states, decoded, decoded', _⟩ := shows_of_solution solution
      simp only [satisfiable, decoded, decoded', ok_bind]
      exact ⟨_, rfl⟩
    · rw [unsatisfiable]
      exact inductionHypothesis (horizon + 1) solved.readings .unsatisfiable _
    · rw [timeout]
      exact ⟨_, rfl⟩

theorem Reliable.exists_search_eq_ok (reliable : problem.Reliable solve)
    (responds : ∀ horizon readings, ∃ solved, solve horizon readings = .ok solved)
    (limit : Value) : ∃ report, problem.search limit solve = .ok report := by
  obtain ⟨report, searched⟩ :=
    reliable.exists_searchFrom_eq_ok responds limit problem.bound.steps 0 1 .unsatisfiable []
  exact ⟨_, map_eq_ok_iff.mpr ⟨report, searched, rfl⟩⟩

/-- A search warns of the diagnostics of its problem first, and then of a horizon that it gave up,
if it did. -/
theorem search_warnings {limit : Value} {report : SearchReport}
    (searched : problem.search limit solve = .ok report) :
    report.status = .timeout ∧ (∃ horizon, report.warnings =
        problem.diagnostics.map .diagnostic ++ [.undecided horizon limit]) ∨
      report.warnings = problem.diagnostics.map .diagnostic := by
  obtain ⟨tried, ended, rfl⟩ := map_eq_ok_iff.mp searched
  rcases warnings_searchFrom ended with ⟨timeout, horizon, warned⟩ | warned
  · exact Or.inl ⟨timeout, horizon, congrArg (problem.warnings ++ ·) warned⟩
  · refine Or.inr ?_
    rw [SearchReport.warnedBefore, warned, List.append_nil, warnings]

/-! ### The search with an engine -/

section

variable {choice : EngineChoice} {backend : Cnf.Backend} {engine : Engine} {limit : TimeLimit}

theorem solveHorizon_reliable (problem : Problem) (clock : Clock)
    (named : Engine.ofValue choice.name = .ok engine)
    (stated : TimeLimit.ofValue choice.limit = .ok limit)
    (sound : engine = .backtracking ∨ backend.Sound) :
    problem.Reliable (problem.solveHorizon choice backend clock) := by
  have opened {horizon readings : Nat} {solved : HorizonReport}
      (ran : problem.solveHorizon choice backend clock horizon readings = .ok solved) :
      (problem.encode horizon).network.Tolerates solved.answer ∧
        solved.sizes.horizon = .integer horizon := by
    have wellFormed := wellFormed_encode problem horizon
    obtain ⟨model, loaded, holds⟩ := (problem.encode horizon).load_holds engine wellFormed
    rw [solveHorizon, named, ok_bind] at ran
    obtain ⟨answer, answered, rfl⟩ := (Encoding.solve_eq_ok_iff loaded).mp ran
    exact ⟨holds.solve_tolerates wellFormed sound stated answered,
      (problem.encode horizon).horizon_sizesIn model⟩
  exact ⟨fun ran => (opened ran).1, fun ran => (opened ran).2⟩

theorem solveHorizon_responds (problem : Problem) (clock : Clock)
    (named : Engine.ofValue choice.name = .ok engine)
    (stated : TimeLimit.ofValue choice.limit = .ok limit) (feasible : ¬ limit.Excessive)
    (responds : engine = .backtracking ∨ backend.Responds) (horizon readings : Nat) :
    ∃ solved, problem.solveHorizon choice backend clock horizon readings = .ok solved := by
  have wellFormed := wellFormed_encode problem horizon
  obtain ⟨model, loaded, holds⟩ := (problem.encode horizon).load_holds engine wellFormed
  obtain ⟨answer, answered⟩ :=
    holds.exists_solve_eq_ok wellFormed responds clock stated feasible readings
  rw [solveHorizon, named, ok_bind]
  exact ⟨_, (Encoding.solve_eq_ok_iff loaded).mpr ⟨answer, answered, rfl⟩⟩

/-- Under any time limit and with any clock, what a search says of plans is true.  A plan that it
finds is a shortest one; if it finds that there is none, none is shorter than the bound; and if it
gives up, none is shorter than the last horizon it tried.  It tries the horizons one after another
from zero on.  It ends if its backend never fails and the limit is not so many whole seconds that
there can be no deadline.

Clocks reach every bound in the end.  A search that ends has taken finitely many readings, and by
`Clock.exists_beginning` any that never go back are those of such a clock. -/
theorem search_sound_under_limit (problem : Problem) (choice : EngineChoice)
    (backend : Cnf.Backend) (clock : Clock) (named : Engine.ofValue choice.name = .ok engine)
    (stated : TimeLimit.ofValue choice.limit = .ok limit)
    (sound : engine = .backtracking ∨ backend.Sound) :
    ((engine = .backtracking ∨ backend.Responds) → ¬ limit.Excessive → ∃ report,
      problem.search choice.limit (problem.solveHorizon choice backend clock) = .ok report) ∧
    ∀ report, problem.search choice.limit (problem.solveHorizon choice backend clock) =
        .ok report →
      (report.status = .satisfiable → ∃ plan, report.found = some plan ∧ problem.Shows plan ∧
        ∀ choices, problem.IsPlan choices → plan.horizon ≤ choices.length) ∧
      (report.status = .unsatisfiable → report.found = none ∧
        ∀ choices, problem.IsPlan choices → problem.bound.steps ≤ choices.length) ∧
      (report.status = .timeout → report.found = none ∧
        ∀ choices, problem.IsPlan choices → report.sizes.length ≤ choices.length + 1) ∧
      report.status ∈ [.satisfiable, .unsatisfiable, .timeout] ∧
      report.sizes.map EncodingSizes.horizon =
        (List.range report.sizes.length).map fun horizon => .integer horizon := by
  have reliable := solveHorizon_reliable problem clock named stated sound
  constructor
  · intro responds feasible
    exact reliable.exists_search_eq_ok
      (solveHorizon_responds problem clock named stated feasible responds) choice.limit
  · intro report searched
    obtain ⟨(⟨status, plan, found, _, shows, shortest⟩ | ⟨status, nothing, long⟩) |
      ⟨status, nothing, long⟩, numbered⟩ := reliable.settles_search searched
    · rw [status]
      exact ⟨fun _ => ⟨plan, found, shows, shortest⟩, nofun, nofun, by simp, numbered⟩
    · rw [status]
      exact ⟨nofun, fun _ => ⟨nothing, long⟩, nofun, by simp, numbered⟩
    · rw [status]
      exact ⟨nofun, nofun, fun _ => ⟨nothing, long⟩, by simp, numbered⟩

theorem search_sound_under_limit_lightingLamp :
    ∃ report, lightingLamp.search (.integer 5) (lightingLamp.solveHorizon
        ⟨.none, .integer 5⟩ Cnf.exhaustive .counting) = .ok report ∧
      (report.status = .timeout ∨
        ∃ plan, report.found = some plan ∧ plan.horizon ≤ 1 ∧ lightingLamp.Shows plan) := by
  obtain ⟨ends, right⟩ := search_sound_under_limit lightingLamp ⟨.none, .integer 5⟩ Cnf.exhaustive
    .counting rfl rfl (Or.inr Cnf.exhaustive_sound)
  obtain ⟨report, searched⟩ := ends (Or.inr Cnf.exhaustive_responds)
    (TimeLimit.not_excessive_whole (by decide +kernel))
  obtain ⟨shortest, bounded, _, statuses, _⟩ := right report searched
  refine ⟨report, searched, ?_⟩
  simp only [List.mem_cons, List.not_mem_nil, or_false] at statuses
  rcases statuses with satisfiable | unsatisfiable | timeout
  · obtain ⟨plan, found, shows, least⟩ := shortest satisfiable
    exact Or.inr ⟨plan, found, least [0] isPlan_lightingLamp, shows⟩
  · have long := (bounded unsatisfiable).2 [0] isPlan_lightingLamp
    exact absurd long (by decide)
  · exact Or.inl timeout

end

end Problem

end HorizonPlanner
