/-
This file gives the sizes of encodings in closed form.  They depend on the number
of actions, the sizes of the domains and the numbers of facts only: a variable
takes propositional variables and clauses by the size of its domain, a constraint
takes clauses and no propositional variable at all, and each step takes the same
again.  What a search and a listing of the horizons report are these sizes, one
horizon after another from zero on.
-/

import HorizonPlanner.Proofs.EncodingSize
import HorizonPlanner.Proofs.LimitedSearch
import HorizonPlanner.Proofs.RejectedPost

namespace HorizonPlanner

/-! ### The cost of one variable -/

namespace Cnf

/-- The number of propositional variables of a variable, by the size of its domain: one for each
value and, from four values on, a rung for each but the last. -/
def domainAtoms (values : Nat) : Nat := if values ≤ 3 then values else 2 * values - 1

/-- The number of clauses of a variable, by the size of its domain. -/
def domainClauses : Nat → Nat
  | 0 => 0
  | 1 => 1
  | 2 => 2
  | 3 => 4
  | values => 3 * values - 3

theorem choiceAtoms_eq (values : Nat) : choiceAtoms values = domainAtoms values := by
  rw [choiceAtoms, rungCount, pairwiseLimit, domainAtoms]
  split <;> omega

theorem choiceClauses_eq (values : Nat) : choiceClauses values = domainClauses values := by
  match values with
  | 0 | 1 | 2 | 3 => rfl
  | further + 4 =>
    have several : ¬ further + 4 ≤ pairwiseLimit := by rw [pairwiseLimit]; omega
    rw [choiceClauses, exclusionCount, if_neg several, if_neg (Nat.succ_ne_zero _), domainClauses]
    · omega
    all_goals omega

end Cnf

/-- The total of the counts of constraints is the number of constraints. -/
theorem EncodingSizes.total_asValues (sizes : EncodingSizes Nat) :
    sizes.asValues.total = .ok (.integer sizes.constraints) := rfl

namespace Encoding

/-- Every constraint is for one purpose. -/
theorem constraints_sizes (encoding : Encoding) :
    encoding.sizes.constraints = encoding.postings.length := by
  show encoding.count .initial + encoding.count .goal + encoding.count .precondition +
    encoding.count .effect + encoding.count .frame = _
  simp only [count]
  induction encoding.postings with
  | nil => rfl
  | cons posting rest inductionHypothesis =>
    obtain ⟨role, constraint⟩ := posting
    cases role <;> simp <;> omega

variable (encoding : Encoding) (model : EngineModel Int)

theorem constraints_sizesIn :
    (encoding.sizesIn model).constraints = encoding.postings.length := by
  rw [← encoding.constraints_sizes]
  cases model <;> rfl

theorem declared_sizesIn : (encoding.sizesIn model).declared = encoding.declared.length := by
  cases model <;> rfl

theorem atoms_sizesIn : (encoding.sizesIn model).atoms = model.atoms? := by
  cases model <;> rfl

end Encoding

namespace Problem

/-! ### The sizes of a horizon -/

/-- The sizes of a horizon, in closed form. -/
def closedSizes (problem : Problem) (horizon : Nat) (engine : Engine) : EncodingSizes Nat where
  horizon := .integer horizon
  declared := horizon + problem.subjects.length * (horizon + 1)
  initial := problem.initial.facts.length
  goal := problem.goals.facts.length
  precondition := horizon * problem.actions.length
  effect := horizon * problem.actions.length
  frame := horizon * (problem.actions.map fun action =>
    problem.subjects.length - action.affected.length).sum
  atoms := match engine with
    | .backtracking => none
    | .clausal _ _ => some (horizon * Cnf.domainAtoms problem.actions.length +
        (horizon + 1) * (problem.subjects.map fun subject => Cnf.domainAtoms subject.size).sum)
  clauses := match engine with
    | .backtracking => none
    | .clausal _ _ => some (horizon * Cnf.domainClauses problem.actions.length +
        (horizon + 1) * (problem.subjects.map fun subject => Cnf.domainClauses subject.size).sum +
        (problem.initial.facts.length + problem.goals.facts.length +
          horizon * (problem.actions.map fun action =>
            action.preconditions.facts.length + action.effects.facts.length +
              ((problem.unaffected action).map StateVariable.size).sum).sum))

variable {problem : Problem} {engine : Engine}

/-- The variables that an action affects are among those of the problem, each counted once. -/
theorem length_unaffected {action : Action} (covered : action.Over problem.subjects) :
    (problem.unaffected action).length = problem.subjects.length - action.affected.length := by
  have distinct : action.affected.Nodup := nodup_eraseDups _
  have affected : (problem.subjects.filter action.affected.contains).Perm action.affected := by
    refine (List.perm_ext_iff_of_nodup (problem.distinct.filter _) distinct).mpr fun subject => ?_
    rw [List.mem_filter, List.contains_iff_mem, and_iff_right_of_imp]
    intro member
    obtain ⟨fact, among, rfl⟩ := Action.mem_affected_iff.mp member
    exact covered.effects fact among
  have split := List.length_eq_length_filter_add (l := problem.subjects) action.affected.contains
  rw [affected.length_eq] at split
  rw [unaffected]
  omega

theorem tally_eq_closedSizes (problem : Problem) (horizon : Nat) (engine : Engine) :
    problem.tally horizon engine = problem.closedSizes horizon engine := by
  have frame : problem.actions.map (fun action => (problem.unaffected action).length) =
      problem.actions.map fun action => problem.subjects.length - action.affected.length :=
    List.map_congr_left fun action member => length_unaffected (problem.actionsKnown action member)
  have atoms : Cnf.choiceAtoms = Cnf.domainAtoms := funext Cnf.choiceAtoms_eq
  have clauses : Cnf.choiceClauses = Cnf.domainClauses := funext Cnf.choiceClauses_eq
  unfold tally
  rw [frame, atoms, clauses]
  rfl

/-! ### The horizons one after another -/

/-- A solver reports given sizes, whatever it answers. -/
def Measures (solve : HorizonSolver) (measure : Nat → EncodingSizes Nat) : Prop :=
  ∀ horizon readings report, solve horizon readings = .ok report →
    report.sizes = measure horizon

/-- A search reports sizes of the horizons that it tried: all below a bound, unless it found a plan
or was given up. -/
structure Lists (report : SearchReport) (measure : Nat → EncodingSizes Nat) (bound tried : Nat) :
    Prop where
  sizes : report.sizes = (List.range tried).map measure
  within : tried ≤ bound
  found : ∀ plan, report.found = some plan → tried = plan.horizon + 1
  exhausted : report.found = none → report.status ≠ .timeout → tried = bound

variable {solve : HorizonSolver} {measure : Nat → EncodingSizes Nat}

theorem Measures.searchFrom_lists (measures : Measures solve measure) {limit : Value}
    (horizon : Nat) {readings remaining : Nat} {status : Status} {report : SearchReport}
    (searched : problem.searchFrom limit solve horizon readings status
      ((List.range horizon).map measure) remaining = .ok report) :
    ∃ tried, horizon + min 1 remaining ≤ tried ∧
      Lists report measure (horizon + remaining) tried := by
  -- What is reported so far are the sizes of the horizons below the next one.
  induction remaining generalizing horizon readings status with
  | zero =>
    cases searched
    refine ⟨horizon, Nat.le_refl _, rfl, Nat.le_refl _, ?_, fun _ _ => rfl⟩
    rintro plan ⟨⟩
  | succ remaining inductionHypothesis =>
    rw [searchFrom] at searched
    obtain ⟨solved, ran, continued⟩ := bind_eq_ok_iff.mp searched
    have grown : (List.range horizon).map measure ++ [solved.sizes] =
        (List.range (horizon + 1)).map measure := by
      rw [measures _ _ _ ran, List.range_succ, List.map_append, List.map_singleton]
    rw [grown] at continued
    have first : horizon + min 1 (remaining + 1) ≤ horizon + 1 := by omega
    split at continued
    next =>
      obtain ⟨choices, _, continued⟩ := bind_eq_ok_iff.mp continued
      obtain ⟨states, _, continued⟩ := bind_eq_ok_iff.mp continued
      cases continued
      refine ⟨horizon + 1, first, rfl, by omega, ?_, ?_⟩
      · rintro plan ⟨⟩
        rfl
      · rintro ⟨⟩
    next =>
      cases continued
      refine ⟨horizon + 1, first, rfl, by omega, ?_, fun _ decided => absurd rfl decided⟩
      rintro plan ⟨⟩
    next =>
      obtain ⟨tried, later, lists⟩ := inductionHypothesis (horizon + 1) continued
      rw [Nat.add_assoc, Nat.add_comm 1] at lists
      exact ⟨tried, by omega, lists⟩

section

variable {choice : EngineChoice}

theorem sizesAt_eq (named : Engine.ofValue choice.name = .ok engine) (horizon : Nat) :
    problem.sizesAt choice horizon = .ok (problem.closedSizes horizon engine) := by
  obtain ⟨_, model, loads⟩ := problem.exists_loads horizon engine
  rw [sizesAt, named, ok_bind, ← tally_eq_closedSizes, ← loads.sizes_eq]
  exact bind_eq_ok_iff.mpr ⟨model, loads.loads, rfl⟩

theorem sizesFrom_eq (named : Engine.ofValue choice.name = .ok engine) (horizon remaining : Nat) :
    problem.sizesFrom choice horizon remaining =
      .ok ((List.range' horizon remaining).map fun horizon =>
        problem.closedSizes horizon engine) := by
  induction remaining generalizing horizon with
  | zero => rfl
  | succ remaining inductionHypothesis =>
    rw [sizesFrom, sizesAt_eq named, ok_bind, inductionHypothesis, ok_bind, List.range'_succ,
      List.map_cons]

theorem solveHorizon_measures {backend : Cnf.Backend} {clock : Clock}
    (named : Engine.ofValue choice.name = .ok engine) :
    Measures (problem.solveHorizon choice backend clock) fun horizon =>
      problem.closedSizes horizon engine := by
  intro horizon readings report ran
  obtain ⟨_, model, loads⟩ := problem.exists_loads horizon engine
  rw [solveHorizon, named, ok_bind] at ran
  obtain ⟨answer, _, rfl⟩ := (Encoding.solve_eq_ok_iff loads.loads).mp ran
  exact loads.sizes_eq.trans (problem.tally_eq_closedSizes horizon engine)

end

/-- The sizes of every horizon are those of the closed form, whatever engine the encoding is loaded
into.  The counts of constraints add up to the number of constraints that the model was given, and
posting them took no propositional variable that declaring the variables did not take.  A listing of
the horizons and a search give these sizes in order from horizon zero on. -/
theorem sizes_closed (problem : Problem) :
    (∀ horizon engine, ∃ declared model,
      (EngineModel.empty engine).sequence EngineModel.declare
          (problem.encode horizon).declared = .ok declared ∧
        (problem.encode horizon).load engine = .ok model ∧
        (problem.encode horizon).sizesIn model = problem.closedSizes horizon engine ∧
        model.declared.size = (problem.closedSizes horizon engine).declared ∧
        (problem.closedSizes horizon engine).asValues.total = .ok (.integer model.posted) ∧
        model.atoms? = (problem.closedSizes horizon engine).atoms ∧
        declared.atoms? = (problem.closedSizes horizon engine).atoms) ∧
    ∀ choice engine, Engine.ofValue choice.name = .ok engine →
      problem.horizonSizes choice = .ok ((List.range problem.bound.steps).map fun horizon =>
        problem.closedSizes horizon engine) ∧
      ∀ (backend : Cnf.Backend) clock,
        (∀ limit, TimeLimit.ofValue choice.limit = .ok limit → ¬ limit.Excessive →
          (engine = .backtracking ∨ backend.Sound ∧ backend.Responds) → ∃ report,
            problem.search choice.limit (problem.solveHorizon choice backend clock) =
              .ok report) ∧
        ∀ report, problem.search choice.limit (problem.solveHorizon choice backend clock) =
            .ok report →
          ∃ tried, 0 < tried ∧ tried ≤ problem.bound.steps ∧
            report.sizes = ((List.range tried).map fun horizon =>
              problem.closedSizes horizon engine) ∧
            (∀ plan, report.found = some plan → tried = plan.horizon + 1) ∧
            (report.found = none → report.status ≠ .timeout → tried = problem.bound.steps) := by
  refine ⟨fun horizon engine => ?_, fun choice engine named => ⟨?_, fun backend clock => ⟨?_, ?_⟩⟩⟩
  · obtain ⟨declared, model, loads⟩ := problem.exists_loads horizon engine
    have sizes := loads.sizes_eq.trans (problem.tally_eq_closedSizes horizon engine)
    have atoms : model.atoms? = (problem.closedSizes horizon engine).atoms := by
      rw [← sizes, Encoding.atoms_sizesIn]
    refine ⟨declared, model, loads.declares, loads.loads, sizes, ?_, ?_, atoms,
      loads.atoms_eq.symm.trans atoms⟩
    · rw [← sizes, Encoding.declared_sizesIn, loads.size_eq]
    · rw [← sizes, EncodingSizes.total_asValues, Encoding.constraints_sizesIn, loads.posted_eq]
  · rw [horizonSizes, sizesFrom_eq named, List.range_eq_range']
  · intro limit stated feasible trusted
    have reliable : problem.Reliable (problem.solveHorizon choice backend clock) :=
      solveHorizon_reliable problem clock named stated (trusted.imp_right And.left)
    exact reliable.exists_search_eq_ok (solveHorizon_responds problem clock named stated
      feasible (trusted.imp_right And.right)) choice.limit
  · intro report searched
    obtain ⟨_, ended, rfl⟩ := map_eq_ok_iff.mp searched
    obtain ⟨tried, least, lists⟩ := (solveHorizon_measures named).searchFrom_lists 0 ended
    have positive := problem.bound.positive
    rw [Nat.zero_add] at lists
    exact ⟨tried, by omega, lists.within, lists.sizes, lists.found, lists.exhausted⟩

/-- A wheel with five marks. -/
def wheel : StateVariable where
  key := 2
  name := .text "wheel"
  values := [.none, .integer 1, .integer 2, .integer 3, .integer 4]
  owner := none
  nonempty := by decide
  distinct := by decide
  hashable := by decide

/-- The lamp to be lit, and beside it a wheel that can be turned to its last mark at any time. -/
def wheeledLamp : Problem where
  subjects := [lamp, wheel]
  actions := ⟨.none, .empty, ⟨[⟨wheel, .integer 4, 4, rfl⟩], List.pairwise_singleton _ _⟩⟩ ::
    lightingLamp.actions
  initial := lightingLamp.initial
  goals := lightingLamp.goals
  bound := lightingLamp.bound
  distinct := by decide
  initialKnown := by simp [FactSet.Over, lightingLamp]
  goalsKnown := by simp [FactSet.Over, lightingLamp]
  actionsKnown := by
    refine List.forall_mem_cons.mpr ⟨⟨?_, ?_, _, rfl⟩, List.forall_mem_singleton.mpr
      ⟨?_, ?_, _, rfl⟩⟩ <;> simp [FactSet.Over, FactSet.empty]

theorem sizes_closed_wheeledLamp :
    wheeledLamp.horizonSizes ⟨.none, .integer 0⟩ = .ok
        [⟨.integer 0, 2, 1, 1, 0, 0, 0, some 11, some 16⟩,
          ⟨.integer 1, 5, 1, 1, 2, 2, 2, some 24, some 42⟩,
          ⟨.integer 2, 8, 1, 1, 4, 4, 4, some 37, some 68⟩] ∧
      ∃ report tried, wheeledLamp.search (.integer 0) (wheeledLamp.solveHorizon
          ⟨.none, .integer 0⟩ Cnf.exhaustive .counting) = .ok report ∧
        0 < tried ∧ tried ≤ 3 ∧ report.sizes = ((List.range tried).map fun horizon =>
          wheeledLamp.closedSizes horizon (.clausal "cadical" false)) := by
  obtain ⟨_, named⟩ := sizes_closed wheeledLamp
  obtain ⟨listed, searching⟩ := named ⟨.none, .integer 0⟩ (.clausal "cadical" false) rfl
  obtain ⟨ends, right⟩ := searching Cnf.exhaustive .counting
  obtain ⟨report, searched⟩ := ends (.whole 0) rfl
    (TimeLimit.not_excessive_whole (by decide +kernel))
    (Or.inr ⟨Cnf.exhaustive_sound, Cnf.exhaustive_responds⟩)
  obtain ⟨tried, positive, within, sizes, _⟩ := right report searched
  exact ⟨listed, report, tried, searched, positive, within, sizes⟩

end Problem

end HorizonPlanner
