/-
This file counts how large encodings are.  The numbers of variables, constraints
and clauses of a horizon are computed from the problem alone: from how many
actions, state variables and facts there are, how large the domains are, and how
many state variables each action leaves as they are.  No encoding takes any
propositional variable beyond those of its variables.
-/

import Mathlib.Algebra.BigOperators.Ring.List
import Mathlib.Algebra.Ring.Nat
import HorizonPlanner.Proofs.ClauseCount
import HorizonPlanner.Proofs.DomainPosition

namespace HorizonPlanner

/-- The number of propositional variables of a model, if it has such variables. -/
def EngineModel.atoms? : EngineModel Int → Option Nat
  | .backtracking _ => none
  | .clausal _ _ model => some model.atoms

namespace Problem

/-! ### The tally of a horizon -/

/-- The state variables that an action leaves as they are. -/
def unaffected (problem : Problem) (action : Action) : List StateVariable :=
  problem.subjects.filter fun subject => !action.affected.contains subject

/-- The number of clauses that an action takes in one step: one for each of its facts, and one for
each value of a state variable that it leaves as it is. -/
def actionClauses (problem : Problem) (action : Action) : Nat :=
  action.preconditions.facts.length + action.effects.facts.length +
    ((problem.unaffected action).map StateVariable.size).sum

/-- The number of clauses that the constraints of a horizon take. -/
def postedClauses (problem : Problem) (horizon : Nat) : Nat :=
  problem.initial.facts.length + problem.goals.facts.length +
    horizon * (problem.actions.map problem.actionClauses).sum

/-- What the variables of a horizon cost, given the cost of a variable by the size of its domain. -/
def variableCost (problem : Problem) (horizon : Nat) (cost : Nat → Nat) : Nat :=
  horizon * cost problem.actions.length +
    (horizon + 1) * (problem.subjects.map fun subject => cost subject.size).sum

/-- The sizes of a horizon, computed from the problem. -/
def tally (problem : Problem) (horizon : Nat) (engine : Engine) : EncodingSizes Nat where
  horizon := .integer horizon
  declared := horizon + problem.subjects.length * (horizon + 1)
  initial := problem.initial.facts.length
  goal := problem.goals.facts.length
  precondition := horizon * problem.actions.length
  effect := horizon * problem.actions.length
  frame := horizon * (problem.actions.map fun action => (problem.unaffected action).length).sum
  atoms := match engine with
    | .backtracking => none
    | .clausal _ _ => some (problem.variableCost horizon Cnf.choiceAtoms)
  clauses := match engine with
    | .backtracking => none
    | .clausal _ _ =>
      some (problem.variableCost horizon Cnf.choiceClauses + problem.postedClauses horizon)

variable {problem : Problem} {horizon : Nat}

/-! ### Constraints by what they are for -/

theorem sum_range_const (count value : Nat) :
    ((List.range count).map fun _ => value).sum = count * value := by
  rw [List.map_const', List.sum_replicate_nat, List.length_range]

/-- What each action costs in one step is counted once for every step. -/
theorem sum_steps (cost : Action → Nat) :
    ((List.range horizon).map fun _ =>
        (problem.actions.zipIdx.map fun entry => cost entry.1).sum).sum =
      horizon * (problem.actions.map cost).sum := by
  have unnumbered : problem.actions.zipIdx.map (fun entry => cost entry.1) =
      problem.actions.map cost := by
    rw [← List.zipIdx_map_fst 0 problem.actions, List.map_map, List.zipIdx_map_fst]
    rfl
  rw [unnumbered, sum_range_const]

/-- The number of constraints for one purpose that an action takes in one step. -/
def actionCount (problem : Problem) (role : AxiomRole) (action : Action) : Nat :=
  match role with
  | .initial | .goal => 0
  | .precondition | .effect => 1
  | .frame => (problem.unaffected action).length

theorem length_filter_role_map {β : Type} (items : List β) (role role' : AxiomRole)
    (constraint : β → Constraint Int) :
    ((items.map fun item => (⟨role', constraint item⟩ : Posting)).filter (·.role == role)).length =
      if role' = role then items.length else 0 := by
  rw [List.filter_map, List.length_map]
  by_cases same : role' = role <;> simp [same, Function.comp_def]

theorem length_filter_role_stepPostings (step index : Nat) (action : Action) (role : AxiomRole) :
    ((problem.stepPostings horizon step index action).filter (·.role == role)).length =
      problem.actionCount role action := by
  rw [stepPostings, List.filter_append, List.length_append, length_filter_role_map]
  cases role with
  | frame => exact Nat.zero_add _
  | _ => rfl

theorem count_encode (role : AxiomRole) :
    (problem.encode horizon).count role =
      (if .initial = role then problem.initial.facts.length else 0) +
        (if .goal = role then problem.goals.facts.length else 0) +
      horizon * (problem.actions.map (problem.actionCount role)).sum := by
  rw [Encoding.count, encode, encodedPostings, List.filter_append, List.filter_append,
    List.length_append, List.length_append, length_filter_role_map, length_filter_role_map,
    List.filter_flatMap, List.length_flatMap, ← sum_steps]
  simp only [List.filter_flatMap, List.length_flatMap, length_filter_role_stepPostings]

/-! ### Clauses -/

theorem takes_factOnLayer {fact : Fact} (known : fact.subject ∈ problem.subjects) {layer : Nat}
    (inside : layer ≤ horizon) :
    Constraint.Takes (problem.encodedVariables horizon) (problem.factOnLayer horizon layer fact)
      1 := by
  obtain ⟨bound, _⟩ := StateVariable.same_of_find? fact.located
  exact .equals (tabulate_layer known inside) (mem_positions_iff.mpr ⟨fact.index, bound, rfl⟩)

theorem takes_facts {set : FactSet} (covered : set.Over problem.subjects) {layer : Nat}
    (inside : layer ≤ horizon) :
    Constraint.Takes (problem.encodedVariables horizon)
      (.all (set.facts.map (problem.factOnLayer horizon layer))) set.facts.length := by
  have takes := Constraint.takes_map fun fact (member : fact ∈ set.facts) =>
    takes_factOnLayer (covered fact member) inside
  rwa [List.map_const', List.sum_replicate_nat, Nat.mul_one] at takes

theorem nodup_positions (count : Nat) : (positions count).Nodup :=
  List.nodup_range.map fun _ _ same => Int.ofNat_inj.mp same

theorem takes_kept {subject : StateVariable} (known : subject ∈ problem.subjects) {step : Nat}
    (inside : step < horizon) :
    Constraint.Takes (problem.encodedVariables horizon) (problem.kept horizon step subject)
      subject.size := by
  have here : (problem.encodedVariables horizon)[problem.layerSlot horizon subject step]? =
      some (layerVariable subject step) := tabulate_layer known (Nat.le_of_lt inside)
  have there : (problem.encodedVariables horizon)[problem.layerSlot horizon subject (step + 1)]? =
      some (layerVariable subject (step + 1)) := tabulate_layer known inside
  rw [← length_positions subject.size]
  exact .agree here there rfl (nodup_positions subject.size)

theorem takes_stepPostings {step index : Nat} {action : Action} (inside : step < horizon)
    (covered : action.Over problem.subjects) (bound : index < problem.actions.length) :
    Constraint.Takes (problem.encodedVariables horizon)
      (.all ((problem.stepPostings horizon step index action).map Posting.constraint))
      (problem.actionClauses action) := by
  have found : (problem.encodedVariables horizon)[actionSlot step]? =
      some (problem.actionVariable step) := tabulate_action inside
  have member : (index : Int) ∈ (problem.actionVariable step).values :=
    mem_positions_iff.mpr ⟨index, bound, rfl⟩
  have preconditions := (takes_facts covered.preconditions (Nat.le_of_lt inside)).conjunction
  have effects := (takes_facts covered.effects inside).conjunction
  have frame := Constraint.takes_map fun subject (known : subject ∈ problem.unaffected action) =>
    Constraint.Takes.implies found member (takes_kept (List.mem_filter.mp known).1 inside)
  rw [stepPostings, List.map_append, List.map_map, actionClauses]
  refine Constraint.Takes.append ?_ frame
  exact .more (.implies found member preconditions)
    (.more (.implies found member effects) .none)

/-- The constraints of an encoding take as many clauses as its problem says, and no propositional
variables. -/
theorem takes_encode (problem : Problem) (horizon : Nat) :
    Constraint.Takes (problem.encode horizon).declared
      (.all (problem.encode horizon).network.constraints) (problem.postedClauses horizon) := by
  show Constraint.Takes (problem.encodedVariables horizon)
    (.all ((problem.encodedPostings horizon).map Posting.constraint)) _
  rw [encodedPostings, List.map_append, List.map_append, List.map_map, List.map_map,
    List.map_flatMap, postedClauses, ← sum_steps]
  refine ((takes_facts problem.initialKnown (Nat.zero_le horizon)).append
    (takes_facts problem.goalsKnown (Nat.le_refl horizon))).append ?_
  refine Constraint.takes_flatMap fun step inside => ?_
  rw [List.map_flatMap]
  refine Constraint.takes_flatMap ?_
  rintro ⟨action, index⟩ member
  have chosen := List.mk_mem_zipIdx_iff_getElem?.mp member
  exact takes_stepPostings (List.mem_range.mp inside) (actionKnown chosen)
    (List.getElem?_eq_some_iff.mp chosen).choose

/-! ### Variables -/

theorem sum_encodedVariables (cost : Nat → Nat) :
    ((problem.encodedVariables horizon).map fun entry => cost entry.values.length).sum =
      problem.variableCost horizon cost := by
  have steps : (((List.range horizon).map problem.actionVariable).map fun entry =>
      cost entry.values.length).sum = horizon * cost problem.actions.length := by
    rw [List.map_map]
    show ((List.range horizon).map fun _ => cost (positions problem.actions.length).length).sum = _
    rw [length_positions, sum_range_const]
  have layers (subject : StateVariable) :
      (((List.range (horizon + 1)).map (layerVariable subject)).map fun entry =>
        cost entry.values.length).sum = (horizon + 1) * cost subject.size := by
    rw [List.map_map]
    show ((List.range (horizon + 1)).map fun _ => cost (positions subject.size).length).sum = _
    rw [length_positions, sum_range_const]
  rw [encodedVariables, List.map_append, List.sum_append, steps, List.map_flatMap,
    List.flatMap_def, List.sum_flatten, List.map_map, variableCost,
    ← List.sum_map_mul_left problem.subjects (fun subject => cost subject.size) (horizon + 1)]
  exact congrArg _ (congrArg List.sum (List.map_congr_left fun subject _ => layers subject))

theorem nodup_encodedVariables :
    ∀ entry ∈ problem.encodedVariables horizon, entry.values.Nodup := by
  rw [encodedVariables, List.forall_mem_append, List.forall_mem_map, List.forall_mem_flatMap]
  refine ⟨fun _ _ => nodup_positions _, fun subject _ => ?_⟩
  rw [List.forall_mem_map]
  exact fun _ _ => nodup_positions _

/-! ### The sizes of an encoding -/

theorem sum_actionCount {role : AxiomRole} {count : Nat}
    (each : ∀ action, problem.actionCount role action = count) :
    (problem.actions.map (problem.actionCount role)).sum = problem.actions.length * count := by
  rw [List.map_congr_left fun action _ => each action, List.map_const', List.sum_replicate_nat]

theorem sizes_encode (problem : Problem) (horizon : Nat) :
    (problem.encode horizon).sizes = problem.tally horizon .backtracking := by
  have declared : (problem.encode horizon).declared.length =
      horizon + problem.subjects.length * (horizon + 1) := length_tabulate
  have initial := @sum_actionCount problem .initial 0 fun _ => rfl
  have goal := @sum_actionCount problem .goal 0 fun _ => rfl
  have precondition := @sum_actionCount problem .precondition 1 fun _ => rfl
  have effect := @sum_actionCount problem .effect 1 fun _ => rfl
  have frame : problem.actions.map (problem.actionCount .frame) =
      problem.actions.map fun action => (problem.unaffected action).length := rfl
  have stated : (problem.encode horizon).horizon = .integer horizon := rfl
  rw [Encoding.sizes, declared, stated]
  simp [count_encode, initial, goal, precondition, effect, frame, tally]

/-- A model holds an encoding, and before the constraints were posted it was another one that had
as many propositional variables. -/
structure Loads (problem : Problem) (horizon : Nat) (engine : Engine)
    (declared model : EngineModel Int) : Prop where
  declares : (EngineModel.empty engine).sequence EngineModel.declare
    (problem.encode horizon).declared = .ok declared
  loads : (problem.encode horizon).load engine = .ok model
  size_eq : model.declared.size = (problem.encode horizon).declared.length
  posted_eq : model.posted = (problem.encode horizon).postings.length
  atoms_eq : model.atoms? = declared.atoms?
  sizes_eq : (problem.encode horizon).sizesIn model = problem.tally horizon engine

/-- Whatever engine an encoding is loaded into, its sizes are those of the tally. -/
theorem exists_loads (problem : Problem) (horizon : Nat) (engine : Engine) :
    ∃ declared model, problem.Loads horizon engine declared model := by
  have wellFormed := wellFormed_encode problem horizon
  have constraints : (problem.encode horizon).network.constraints.length =
      (problem.encode horizon).postings.length := List.length_map _
  cases engine with
  | backtracking =>
    obtain ⟨declared, declares, holds⟩ := EngineModel.sequence_holds BuildStep.declare
      (problem.encode horizon).declared (EngineModel.holds_empty .backtracking)
      Network.wellFormed_empty (Network.admitsAll_declare _ _)
    obtain ⟨model, loaded, holds'⟩ := (problem.encode horizon).load_holds .backtracking wellFormed
    cases holds with
    | backtracking =>
      cases holds' with
      | @backtracking model network holds' =>
        have declared_eq := congrArg List.length holds'.declared
        have constraints_eq := congrArg List.length holds'.constraints
        rw [Array.length_toList] at declared_eq constraints_eq
        exact ⟨_, _, declares, loaded, declared_eq, constraints_eq.trans constraints, rfl,
          sizes_encode problem horizon⟩
  | clausal name interruptible =>
    obtain ⟨declared, model, declares, loaded, kept, weighs⟩ :=
      (problem.encode horizon).load_weighs name interruptible wellFormed nodup_encodedVariables
        (takes_encode problem horizon)
    have atoms := weighs.atoms_eq
    have clauses := weighs.size_eq
    have encoded : (problem.encode horizon).declared = problem.encodedVariables horizon := rfl
    rw [encoded, sum_encodedVariables] at atoms clauses
    refine ⟨_, _, declares, loaded, weighs.represents.size_eq, weighs.posted_eq.trans constraints,
      congrArg some kept.symm, ?_⟩
    rw [Encoding.sizesIn, sizes_encode, atoms, clauses]
    rfl

theorem sizesIn_eq_tally {engine : Engine} {model : EngineModel Int}
    (loaded : (problem.encode horizon).load engine = .ok model) :
    (problem.encode horizon).sizesIn model = problem.tally horizon engine := by
  obtain ⟨_, model', loads⟩ := problem.exists_loads horizon engine
  obtain rfl := Except.ok.inj (loads.loads.symm.trans loaded)
  exact loads.sizes_eq

end Problem

end HorizonPlanner
