/-
This file proves that a search without a time limit finds a shortest plan, or
that there is none below the bound.  Horizons are tried in increasing order, and
an engine answers each of them rightly.  So when one is satisfied, all smaller
ones were refuted, and by the exactness of the encoding no shorter plan exists.

That a horizon has no plan says nothing about larger ones, or the other way
round: no action may be idle.  The search relies on neither.
-/

import HorizonPlanner.Proofs.Engines
import HorizonPlanner.Search

namespace HorizonPlanner

/-- Once an encoding is loaded, the report on it is made from the answer of its model. -/
theorem Encoding.solve_eq_ok_iff {encoding : Encoding} {engine : Engine} {model : EngineModel Int}
    (loaded : encoding.load engine = .ok model) {backend : Cnf.Backend} {clock : Clock}
    {limit : Value} {readings : Nat} {report : HorizonReport} :
    encoding.solve engine backend clock limit readings = .ok report ↔
      ∃ answer, (model.solve backend clock limit readings).outcome = .ok answer ∧
        report = ⟨answer, encoding.sizesIn model,
          (model.solve backend clock limit readings).nodes,
          (model.solve backend clock limit readings).readings⟩ := by
  rw [solve, loaded, ok_bind, bind_eq_ok_iff]
  simp only [Except.ok.injEq, eq_comm]

namespace Problem

/-! ### Plans of one length -/

/-- Choices that can be carried out from the initial facts to the goals. -/
def IsPlan (problem : Problem) (choices : List Nat) : Prop :=
  ∃ start states, problem.Achieves choices start states

/-- What is shown of a plan is how it is carried out. -/
structure Shows (problem : Problem) (plan : FoundPlan) : Prop where
  choices_length : plan.choices.length = plan.horizon
  states_length : plan.states.length = plan.horizon + 1
  carried : ∃ start states, problem.Achieves plan.choices start states ∧
    plan.states = states.map problem.display

theorem Shows.isPlan {problem : Problem} {plan : FoundPlan} (shows : problem.Shows plan) :
    problem.IsPlan plan.choices := by
  obtain ⟨start, states, achieves, _⟩ := shows.carried
  exact ⟨start, states, achieves⟩

variable {problem : Problem} {horizon : Nat}

/-- A plan is a solution of the encoding of its length. -/
theorem IsPlan.exists_solution {choices : List Nat} (plan : problem.IsPlan choices) :
    ∃ values, (problem.encode choices.length).network.Solution values := by
  obtain ⟨start, states, achieves⟩ := plan
  exact ⟨_, solution_of_trajectory (trajectory_iff.mpr ⟨rfl, start, achieves⟩)⟩

/-- A plan of exactly some length would be a solution, so without one all plans are longer. -/
theorem succ_le_of_no_solution
    (none : ¬ ∃ values, (problem.encode horizon).network.Solution values)
    (refuted : ∀ choices, problem.IsPlan choices → horizon ≤ choices.length) :
    ∀ choices, problem.IsPlan choices → horizon + 1 ≤ choices.length := by
  intro choices plan
  refine Nat.lt_of_le_of_ne (refuted choices plan) ?_
  rintro rfl
  exact none plan.exists_solution

/-- What is decoded from a solution shows a plan. -/
theorem shows_of_solution {values : List Int}
    (solution : (problem.encode horizon).network.Solution values) :
    ∃ choices states, problem.decodePlan horizon values = .ok choices ∧
      problem.decodeStates horizon values = .ok states ∧
      problem.Shows ⟨horizon, choices, states⟩ := by
  have trajectory := trajectory_of_solution solution
  refine ⟨_, _, decodePlan_eq solution.within, decodeStates_eq solution.within,
    trajectory.choices_length, ?_, ?_⟩
  · rw [List.length_map, trajectory.states_length]
  · obtain ⟨_, start, achieves⟩ := trajectory_iff.mp trajectory
    exact ⟨start, _, achieves, rfl⟩

/-! ### Trying horizons one after another -/

/-- A search decided the horizons below a bound: it found a shortest plan, or every plan is as long
as the bound at least. -/
def Decides (problem : Problem) (bound : Nat) (report : SearchReport) : Prop :=
  (report.status = .satisfiable ∧ ∃ plan, report.found = some plan ∧ plan.horizon < bound ∧
    problem.Shows plan ∧ ∀ choices, problem.IsPlan choices → plan.horizon ≤ choices.length) ∨
  (report.status = .unsatisfiable ∧ report.found = none ∧
    ∀ choices, problem.IsPlan choices → bound ≤ choices.length)

/-- Trying the horizons from one on, after all smaller ones were refuted, decides them all. -/
theorem searchFrom_decides {solve : HorizonSolver} (limit : Value)
    (answers : ∀ horizon readings, ∃ report, solve horizon readings = .ok report ∧
      (problem.encode horizon).network.Answers report.answer)
    (remaining horizon readings : Nat) (sizes : List (EncodingSizes Nat))
    (refuted : ∀ choices, problem.IsPlan choices → horizon ≤ choices.length) :
    ∃ report, problem.searchFrom limit solve horizon readings .unsatisfiable sizes remaining =
      .ok report ∧ problem.Decides (horizon + remaining) report := by
  induction remaining generalizing horizon readings sizes with
  | zero => exact ⟨_, rfl, Or.inr ⟨rfl, rfl, refuted⟩⟩
  | succ remaining inductionHypothesis =>
    obtain ⟨solved, ran, ⟨satisfiable, solution⟩ | ⟨unsatisfiable, none⟩⟩ :=
      answers horizon readings
    · obtain ⟨choices, states, decoded, decoded', shows⟩ := shows_of_solution solution
      refine ⟨⟨some ⟨horizon, choices, states⟩, .satisfiable, sizes ++ [solved.sizes], []⟩, ?_,
        Or.inl ⟨rfl, _, rfl, Nat.lt_add_of_pos_right (Nat.succ_pos _), shows, refuted⟩⟩
      rw [searchFrom, ran, ok_bind, satisfiable]
      simp only [decoded, decoded', ok_bind]
    · obtain ⟨report, searched, decides⟩ := inductionHypothesis (horizon + 1) solved.readings
        (sizes ++ [solved.sizes]) (succ_le_of_no_solution none refuted)
      refine ⟨report, ?_, ?_⟩
      · rw [searchFrom, ran, ok_bind, unsatisfiable]
        exact searched
      · rwa [Nat.add_right_comm, Nat.add_assoc] at decides

/-! ### The search -/

theorem solveHorizon_answers (problem : Problem) (choice : EngineChoice) (backend : Cnf.Backend)
    (clock : Clock) {engine : Engine} {limit : TimeLimit}
    (named : Engine.ofValue choice.name = .ok engine)
    (stated : TimeLimit.ofValue choice.limit = .ok limit) (unlimited : limit.Absent)
    (exact' : engine = .backtracking ∨ backend.Exact) (horizon readings : Nat) :
    ∃ report, problem.solveHorizon choice backend clock horizon readings = .ok report ∧
      (problem.encode horizon).network.Answers report.answer := by
  have wellFormed := wellFormed_encode problem horizon
  obtain ⟨model, loaded, holds⟩ := (problem.encode horizon).load_holds engine wellFormed
  obtain ⟨answer, solved, right⟩ :=
    holds.solve_answers wellFormed exact' clock stated unlimited readings
  rw [solveHorizon, named, ok_bind]
  exact ⟨_, (Encoding.solve_eq_ok_iff loaded).mpr ⟨answer, solved, rfl⟩, right⟩

/-- Without a time limit, a search decides all horizons below the bound. -/
theorem search_decides (problem : Problem) (choice : EngineChoice) (backend : Cnf.Backend)
    (clock : Clock) {engine : Engine} {limit : TimeLimit}
    (named : Engine.ofValue choice.name = .ok engine)
    (stated : TimeLimit.ofValue choice.limit = .ok limit) (unlimited : limit.Absent)
    (exact' : engine = .backtracking ∨ backend.Exact) :
    ∃ report, problem.search choice.limit (problem.solveHorizon choice backend clock) =
      .ok report ∧ problem.Decides problem.bound.steps report := by
  obtain ⟨report, searched, decides⟩ := searchFrom_decides choice.limit
    (solveHorizon_answers problem choice backend clock named stated unlimited exact')
    problem.bound.steps 0 1 [] fun choices _ => Nat.zero_le choices.length
  rw [Nat.zero_add] at decides
  exact ⟨_, map_eq_ok_iff.mpr ⟨report, searched, rfl⟩, decides⟩

/-- Without a time limit, a search finds a plan exactly if there is one shorter than the bound, and
then a shortest one, with the states that it goes through. -/
theorem search_shortest (problem : Problem) (choice : EngineChoice) (backend : Cnf.Backend)
    (clock : Clock) {engine : Engine} {limit : TimeLimit}
    (named : Engine.ofValue choice.name = .ok engine)
    (stated : TimeLimit.ofValue choice.limit = .ok limit) (unlimited : limit.Absent)
    (exact' : engine = .backtracking ∨ backend.Exact) :
    ∃ report, problem.search choice.limit (problem.solveHorizon choice backend clock) =
        .ok report ∧
      (report.status = .satisfiable ↔
        ∃ choices, choices.length < problem.bound.steps ∧ problem.IsPlan choices) ∧
      (report.status ≠ .satisfiable → report.status = .unsatisfiable ∧ report.found = none) ∧
      (report.status = .satisfiable → ∃ plan, report.found = some plan ∧ problem.Shows plan ∧
        ∀ choices, problem.IsPlan choices → plan.horizon ≤ choices.length) := by
  obtain ⟨report, searched, decides⟩ :=
    search_decides problem choice backend clock named stated unlimited exact'
  refine ⟨report, searched, ?_⟩
  rcases decides with
    ⟨satisfiable, plan, found, below, shows, shortest⟩ | ⟨unsatisfiable, none, long⟩
  · refine ⟨⟨fun _ => ⟨plan.choices, ?_, shows.isPlan⟩, fun _ => satisfiable⟩,
      fun other => absurd satisfiable other, fun _ => ⟨plan, found, shows, shortest⟩⟩
    rw [shows.choices_length]
    exact below
  · have other : report.status ≠ .satisfiable := by
      rw [unsatisfiable]
      exact fun impossible => nomatch impossible
    refine ⟨⟨fun same => absurd same other, ?_⟩, fun _ => ⟨unsatisfiable, none⟩,
      fun same => absurd same other⟩
    rintro ⟨choices, below, plan⟩
    exact absurd (long choices plan) (Nat.not_le.mpr below)

/-- A lamp that is dark or lit. -/
def lamp : StateVariable where
  key := 0
  name := .integer 0
  values := [.boolean false, .boolean true]
  owner := none
  nonempty := by decide
  distinct := by decide
  hashable := by decide

/-- A lamp that starts dark, is to be lit, and can be lit while it is dark. -/
def lightingLamp : Problem where
  subjects := [lamp]
  actions := [⟨.none, ⟨[⟨lamp, .boolean false, 0, rfl⟩], List.pairwise_singleton _ _⟩,
    ⟨[⟨lamp, .boolean true, 1, rfl⟩], List.pairwise_singleton _ _⟩⟩]
  initial := ⟨[⟨lamp, .boolean false, 0, rfl⟩], List.pairwise_singleton _ _⟩
  goals := ⟨[⟨lamp, .boolean true, 1, rfl⟩], List.pairwise_singleton _ _⟩
  bound := ⟨.integer 3, 3, by decide, rfl⟩
  distinct := List.nodup_singleton _
  initialKnown := by simp [FactSet.Over]
  goalsKnown := by simp [FactSet.Over]
  actionsKnown := by
    refine List.forall_mem_singleton.mpr ⟨?_, ?_, _, rfl⟩ <;> simp [FactSet.Over]

theorem isPlan_lightingLamp : lightingLamp.IsPlan [0] :=
  ⟨[0], [[0], [1]], .cons (by decide) .nil, by decide,
    .taken rfl (by decide) (by decide) (.finished [1]), by rintro last ⟨⟩; decide⟩

theorem not_isPlan_nil_lightingLamp : ¬ lightingLamp.IsPlan [] := by
  rintro ⟨start, states, _, initial, execution, goals⟩
  cases execution
  have dark := List.forall_mem_singleton.mp initial
  have lit := List.forall_mem_singleton.mp (goals start rfl)
  rw [dark] at lit
  cases lit

theorem search_shortest_lightingLamp :
    ∃ report plan, lightingLamp.search (.integer 0) (lightingLamp.solveHorizon
        ⟨.none, .integer 0⟩ Cnf.exhaustive .counting) = .ok report ∧
      report.status = .satisfiable ∧ report.found = some plan ∧ plan.horizon = 1 := by
  obtain ⟨report, searched, decided, _, shortest⟩ := search_shortest lightingLamp
    ⟨.none, .integer 0⟩ Cnf.exhaustive .counting rfl rfl
    TimeLimit.unlimited_absent (Or.inr Cnf.exhaustive_exact)
  have satisfiable := decided.mpr ⟨[0], by decide, isPlan_lightingLamp⟩
  obtain ⟨plan, found, shows, least⟩ := shortest satisfiable
  refine ⟨report, plan, searched, satisfiable, found, ?_⟩
  have short : plan.horizon ≤ 1 := least [0] isPlan_lightingLamp
  have shown := shows.choices_length
  have long : plan.choices ≠ [] := by
    intro empty
    exact not_isPlan_nil_lightingLamp (empty ▸ shows.isPlan)
  have positive := List.length_pos_of_ne_nil long
  omega

end Problem

end HorizonPlanner
