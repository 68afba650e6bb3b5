/-
This file proves that results do not depend on the order of facts.  Reordering
the facts of a problem reorders the constraints of an encoding and the parts of
its conjunctions, and nothing else: the two encodings mirror each other and have
the same sizes.  So every horizon is answered with the same status, and with the
same solution after as many tried values by backtracking.  From there it is the
same search, horizon after horizon.
-/

import HorizonPlanner.Proofs.EncodingSize
import HorizonPlanner.Proofs.FirstPlan
import HorizonPlanner.Proofs.Interchange
import HorizonPlanner.Proofs.Mirrors
import HorizonPlanner.Proofs.Reordering

namespace HorizonPlanner

/-! ### Facts in another order -/

theorem FactSet.Reordered.symm {first second : FactSet} (reordered : first.Reordered second) :
    second.Reordered first :=
  List.Perm.symm reordered

namespace Action

variable {first second : Action}

theorem Reordered.symm (reordered : first.Reordered second) : second.Reordered first :=
  ⟨reordered.name.symm, reordered.preconditions.symm, reordered.effects.symm⟩

theorem Reordered.affected_contains (reordered : first.Reordered second)
    (subject : StateVariable) :
    first.affected.contains subject = second.affected.contains subject := by
  rw [Bool.eq_iff_iff, List.contains_iff_mem, List.contains_iff_mem, mem_affected_iff,
    mem_affected_iff]
  simp only [reordered.effects.mem_iff]

end Action

namespace Problem

section

variable {first second : Problem} {horizon : Nat}

theorem Reordered.symm (reordered : first.Reordered second) : second.Reordered first where
  subjects := reordered.subjects.symm
  actions := (List.Forall₂.imp (fun _ _ => Action.Reordered.symm) reordered.actions).flip
  initial := reordered.initial.symm
  goals := reordered.goals.symm
  bound := reordered.bound.symm

theorem Reordered.exists_action (reordered : first.Reordered second) {index : Nat}
    {action : Action} (found : first.actions[index]? = some action) :
    ∃ action', second.actions[index]? = some action' ∧ action.Reordered action' := by
  obtain ⟨inside, rfl⟩ := List.getElem?_eq_some_iff.mp found
  have inside' : index < second.actions.length := reordered.actions.length_eq ▸ inside
  exact ⟨_, List.getElem?_eq_getElem inside', reordered.actions.get inside inside'⟩

/-! ### Encodings -/

theorem Reordered.encodedVariables_eq (reordered : first.Reordered second) :
    first.encodedVariables horizon = second.encodedVariables horizon := by
  have choices : first.actionVariable = second.actionVariable := by
    funext step
    rw [actionVariable, actionVariable, reordered.actions.length_eq]
  rw [encodedVariables, encodedVariables, choices, reordered.subjects]

theorem Reordered.layerSlot_eq (reordered : first.Reordered second) :
    first.layerSlot horizon = second.layerSlot horizon := by
  funext subject layer
  rw [layerSlot, layerSlot, reordered.subjects]

theorem Reordered.factOnLayer_eq (reordered : first.Reordered second) :
    first.factOnLayer horizon = second.factOnLayer horizon := by
  funext layer fact
  rw [factOnLayer, factOnLayer, reordered.layerSlot_eq]

theorem Reordered.unaffected_eq (reordered : first.Reordered second) {action action' : Action}
    (same : action.Reordered action') : first.unaffected action = second.unaffected action' := by
  rw [unaffected, unaffected, reordered.subjects]
  simp only [same.affected_contains]

/-- Every constraint of one encoding is mirrored in another. -/
def Mirrored (count : Nat) (first second : List Posting) : Prop :=
  ∀ posting ∈ first, ∃ image ∈ second,
    Constraint.Mirrors count posting.constraint image.constraint

theorem Reordered.mirrored_facts (reordered : first.Reordered second) {set set' : FactSet}
    (same : set.Reordered set') (count layer : Nat) (role : AxiomRole) :
    Mirrored count
      (set.facts.map fun fact => ⟨role, first.factOnLayer horizon layer fact⟩)
      (set'.facts.map fun fact => ⟨role, second.factOnLayer horizon layer fact⟩) := by
  rw [Mirrored, List.forall_mem_map, reordered.factOnLayer_eq]
  intro fact member
  exact ⟨_, List.mem_map_of_mem (same.mem_iff.mp member), .refl _⟩

theorem Reordered.mirrored_stepPostings (reordered : first.Reordered second) {step index : Nat}
    (inside : step < horizon) {action action' : Action} (same : action.Reordered action')
    (covered : action.Over first.subjects) :
    Mirrored (first.encode horizon).network.declared.length
      (first.stepPostings horizon step index action)
      (second.stepPostings horizon step index action') := by
  have preconditions := (Constraint.mirrors_conjunction (same.preconditions.map _)
    (fits_facts covered.preconditions (Nat.le_of_lt inside))).implies (chosen step index)
  have effects := (Constraint.mirrors_conjunction (same.effects.map _)
    (fits_facts covered.effects inside)).implies (chosen step index)
  rw [Mirrored, stepPostings, stepPostings, List.forall_mem_append, List.forall_mem_cons,
    List.forall_mem_singleton, List.forall_mem_map, ← reordered.factOnLayer_eq]
  refine ⟨⟨⟨_, List.mem_append_left _ List.mem_cons_self, preconditions⟩,
    ⟨_, List.mem_append_left _ (List.mem_cons_of_mem _ (List.mem_singleton_self _)), effects⟩⟩, ?_⟩
  intro subject member
  have unaffected : subject ∈ second.unaffected action' := reordered.unaffected_eq same ▸ member
  refine ⟨_, List.mem_append_right _ (List.mem_map_of_mem unaffected), ?_⟩
  rw [kept, kept, reordered.layerSlot_eq]
  exact .refl _

theorem Reordered.mirrored_encodedPostings (reordered : first.Reordered second) :
    Mirrored (first.encode horizon).network.declared.length (first.encodedPostings horizon)
      (second.encodedPostings horizon) := by
  intro posting member
  rw [encodedPostings, List.mem_append, List.mem_append] at member
  simp only [encodedPostings, List.mem_append]
  rcases member with (member | member) | member
  · obtain ⟨image, member, mirrors⟩ :=
      reordered.mirrored_facts reordered.initial _ 0 .initial posting member
    exact ⟨image, Or.inl (Or.inl member), mirrors⟩
  · obtain ⟨image, member, mirrors⟩ :=
      reordered.mirrored_facts reordered.goals _ horizon .goal posting member
    exact ⟨image, Or.inl (Or.inr member), mirrors⟩
  · obtain ⟨step, inside, member⟩ := List.mem_flatMap.mp member
    obtain ⟨⟨action, index⟩, numbered, member⟩ := List.mem_flatMap.mp member
    have found := List.mk_mem_zipIdx_iff_getElem?.mp numbered
    obtain ⟨action', found', same⟩ := reordered.exists_action found
    obtain ⟨image, member, mirrors⟩ := reordered.mirrored_stepPostings
      (List.mem_range.mp inside) same (actionKnown found) posting member
    exact ⟨image, Or.inr (List.mem_flatMap.mpr ⟨step, inside, List.mem_flatMap.mpr
      ⟨(action', index), List.mk_mem_zipIdx_iff_getElem?.mpr found', member⟩⟩), mirrors⟩

/-- The encodings of problems that differ in the order of facts mirror each other. -/
theorem Reordered.mirrors_encode (reordered : first.Reordered second) (horizon : Nat) :
    (first.encode horizon).network.Mirrors (second.encode horizon).network := by
  have declared : (first.encode horizon).network.declared =
      (second.encode horizon).network.declared := reordered.encodedVariables_eq
  have images {count : Nat} {first second : Problem}
      (mirrored : Mirrored count (first.encodedPostings horizon)
        (second.encodedPostings horizon)) :
      ∀ constraint ∈ (first.encode horizon).network.constraints,
        ∃ image ∈ (second.encode horizon).network.constraints,
          Constraint.Mirrors count constraint image := by
    intro constraint stated
    obtain ⟨posting, member, rfl⟩ := List.mem_map.mp stated
    obtain ⟨image, member', mirrors⟩ := mirrored posting member
    exact ⟨_, List.mem_map_of_mem member', mirrors⟩
  refine ⟨declared, images reordered.mirrored_encodedPostings, ?_⟩
  rw [declared]
  exact images reordered.symm.mirrored_encodedPostings

/-! ### Sizes -/

theorem Reordered.map_actions (reordered : first.Reordered second) {cost cost' : Action → Nat}
    (same : ∀ action action', action.Reordered action' → cost action = cost' action') :
    first.actions.map cost = second.actions.map cost' := by
  rw [← List.forall₂_eq_eq_eq, List.forall₂_map_left_iff, List.forall₂_map_right_iff]
  exact reordered.actions.imp same

theorem Reordered.tally_eq (reordered : first.Reordered second) (horizon : Nat)
    (engine : Engine) : first.tally horizon engine = second.tally horizon engine := by
  have initial := reordered.initial.length_eq
  have goals := reordered.goals.length_eq
  have choices := reordered.actions.length_eq
  have frame : (first.actions.map fun action => (first.unaffected action).length) =
      second.actions.map fun action => (second.unaffected action).length :=
    reordered.map_actions fun action action' same => by rw [reordered.unaffected_eq same]
  have clauses : first.actions.map first.actionClauses =
      second.actions.map second.actionClauses := by
    refine reordered.map_actions fun action action' same => ?_
    rw [actionClauses, actionClauses, reordered.unaffected_eq same, same.preconditions.length_eq,
      same.effects.length_eq]
  have costs : first.variableCost horizon = second.variableCost horizon := by
    funext cost
    rw [variableCost, variableCost, choices, reordered.subjects]
  have posted : first.postedClauses horizon = second.postedClauses horizon := by
    rw [postedClauses, postedClauses, initial, goals, clauses]
  unfold tally
  rw [reordered.subjects, initial, goals, choices, frame, costs, posted]

end

end Problem

/-! ### Reports -/

/-- Two reports on a horizon agree in the status and the sizes, and those of the backtracking engine
also in the values and in how many were tried. -/
structure HorizonReport.Alike (engine : Engine) (first second : HorizonReport) : Prop where
  status : first.answer.status = second.answer.status
  sizes : first.sizes = second.sizes
  answer : engine = .backtracking → first.answer = second.answer
  nodes : engine = .backtracking → first.nodes = second.nodes

/-- Two reports on a search agree in the status, the horizon, the sizes and the warnings that follow
some earlier ones, and those of the backtracking engine also in the plan and the states that it goes
through. -/
structure SearchReport.Alike (engine : Engine) (before before' : List SearchWarning)
    (first second : SearchReport) : Prop where
  status : first.status = second.status
  horizon : first.horizon? = second.horizon?
  sizes : first.sizes = second.sizes
  warnings : ∃ own, first.warnings = before ++ own ∧ second.warnings = before' ++ own
  found : engine = .backtracking → first.found = second.found

/-! ### Encodings that are alike -/

/-- Engines that hold networks which mirror each other answer alike. -/
theorem EngineModel.Holds.solve_alike {first second : Network Int}
    (mirrors : first.Mirrors second) (wellFormed : first.WellFormed)
    (wellFormed' : second.WellFormed) {engine : Engine} {model model' : EngineModel Int}
    (holds : model.Holds engine first) (holds' : model'.Holds engine second)
    {backend backend' : Cnf.Backend}
    (exact' : engine = .backtracking ∨ backend.Exact ∧ backend'.Exact) (clock clock' : Clock)
    {stated : Value} {limit : TimeLimit} (read : TimeLimit.ofValue stated = .ok limit)
    (unlimited : limit.Absent) (readings readings' : Nat) :
    ∃ answer answer', (model.solve backend clock stated readings).outcome = .ok answer ∧
      (model'.solve backend' clock' stated readings').outcome = .ok answer' ∧
      first.Answers answer ∧ second.Answers answer' ∧ answer.status = answer'.status ∧
      (engine = .backtracking → answer = answer' ∧
        (model.solve backend clock stated readings).nodes =
          (model'.solve backend' clock' stated readings').nodes) := by
  obtain ⟨answer, solved, right⟩ :=
    holds.solve_answers wellFormed (exact'.imp_right And.left) clock read unlimited readings
  obtain ⟨answer', solved', right'⟩ :=
    holds'.solve_answers wellFormed' (exact'.imp_right And.right) clock' read unlimited readings'
  have status : first.status = second.status :=
    Network.status_congr fun _ => mirrors.solution_iff wellFormed wellFormed'
  refine ⟨answer, answer', solved, solved', right, right',
    by rw [right.status_eq, right'.status_eq, status], ?_⟩
  rintro rfl
  cases holds with
  | backtracking holds =>
    cases holds' with
    | backtracking holds' =>
      obtain ⟨outcome, nodes⟩ := Backtracking.solve_alike mirrors wellFormed wellFormed' holds
        holds' clock clock' unlimited readings readings'
      simp only [solve, read] at solved solved' ⊢
      rw [outcome, solved'] at solved
      rw [unlimited (clock.reading readings), unlimited (clock'.reading readings')]
      exact ⟨(Except.ok.inj solved).symm, congrArg some nodes⟩

/-- Two encodings mirror each other and are of the same sizes in the models of an engine. -/
structure Encoding.Alike (engine : Engine) (first second : Encoding) : Prop where
  mirrors : first.network.Mirrors second.network
  wellFormed : first.network.WellFormed
  wellFormed' : second.network.WellFormed
  sized : ∀ model model', first.load engine = .ok model → second.load engine = .ok model' →
    first.sizesIn model = second.sizesIn model'

namespace Encoding

section

variable {first second : Encoding} {engine : Engine} {limit : TimeLimit}
  {backend backend' : Cnf.Backend}

theorem Alike.refl {encoding : Encoding} (wellFormed : encoding.network.WellFormed) :
    Alike engine encoding encoding where
  mirrors := .refl _
  wellFormed := wellFormed
  wellFormed' := wellFormed
  sized model model' loaded loaded' := by rw [Except.ok.inj (loaded.symm.trans loaded')]

/-- How the horizon was stated is noted among the sizes, and nowhere else. -/
theorem sizesIn_stated (encoding : Encoding) (stated : Value) (model : EngineModel Int) :
    { encoding with horizon := stated }.sizesIn model =
      { encoding.sizesIn model with horizon := stated } := by
  cases model <;> rfl

theorem Alike.stated (alike : Alike engine first second) (stated : Value) :
    Alike engine { first with horizon := stated } { second with horizon := stated } where
  mirrors := alike.mirrors
  wellFormed := alike.wellFormed
  wellFormed' := alike.wellFormed'
  sized model model' loaded loaded' := by
    rw [sizesIn_stated first, sizesIn_stated second, alike.sized model model' loaded loaded']

/-- Without a time limit, encodings that are alike are solved alike, and rightly. -/
theorem Alike.solve (alike : Alike engine first second)
    (exact' : engine = .backtracking ∨ backend.Exact ∧ backend'.Exact) (clock clock' : Clock)
    {stated : Value} (read : TimeLimit.ofValue stated = .ok limit) (unlimited : limit.Absent)
    (readings readings' : Nat) :
    ∃ report report', first.solve engine backend clock stated readings = .ok report ∧
      second.solve engine backend' clock' stated readings' = .ok report' ∧
      report.Alike engine report' ∧ first.network.Answers report.answer ∧
      second.network.Answers report'.answer := by
  obtain ⟨model, loaded, holds⟩ := first.load_holds engine alike.wellFormed
  obtain ⟨model', loaded', holds'⟩ := second.load_holds engine alike.wellFormed'
  obtain ⟨answer, answer', solved, solved', right, right', status, same⟩ :=
    holds.solve_alike alike.mirrors alike.wellFormed alike.wellFormed' holds' exact' clock clock'
      read unlimited readings readings'
  exact ⟨_, _, (solve_eq_ok_iff loaded).mpr ⟨answer, solved, rfl⟩,
    (solve_eq_ok_iff loaded').mpr ⟨answer', solved', rfl⟩, ⟨status,
    alike.sized model model' loaded loaded', fun backtracking => (same backtracking).1,
    fun backtracking => (same backtracking).2⟩, right, right'⟩

end

end Encoding

namespace Problem

section

variable {first second : Problem} {choice : EngineChoice} {engine : Engine} {limit : TimeLimit}
  {backend backend' : Cnf.Backend}

/-- The encodings of problems that differ in the order of facts are alike. -/
theorem Reordered.encode_alike (reordered : first.Reordered second) (horizon : Nat)
    (engine : Engine) : Encoding.Alike engine (first.encode horizon) (second.encode horizon) where
  mirrors := reordered.mirrors_encode horizon
  wellFormed := wellFormed_encode first horizon
  wellFormed' := wellFormed_encode second horizon
  sized model model' loaded loaded' := by
    rw [sizesIn_eq_tally loaded, sizesIn_eq_tally loaded', reordered.tally_eq]

theorem Reordered.solveHorizon_alike (reordered : first.Reordered second)
    (named : Engine.ofValue choice.name = .ok engine)
    (stated : TimeLimit.ofValue choice.limit = .ok limit) (unlimited : limit.Absent)
    (exact' : engine = .backtracking ∨ backend.Exact ∧ backend'.Exact) (clock clock' : Clock)
    (horizon readings readings' : Nat) :
    ∃ report report', first.solveHorizon choice backend clock horizon readings = .ok report ∧
      second.solveHorizon choice backend' clock' horizon readings' = .ok report' ∧
      report.Alike engine report' ∧ (first.encode horizon).network.Answers report.answer ∧
      (second.encode horizon).network.Answers report'.answer := by
  rw [solveHorizon, solveHorizon, named, ok_bind, ok_bind]
  exact (reordered.encode_alike horizon engine).solve exact' clock clock' stated unlimited readings
    readings'

/-- The horizon may be stated as any value; problems that differ in the order of facts refuse it for
the same reason, or have encodings that are alike. -/
theorem Reordered.encodeStated_alike (reordered : first.Reordered second) (stated : Value)
    (engine : Engine) :
    (∃ fault, first.encodeStated stated = .error fault ∧
      second.encodeStated stated = .error fault) ∨
    ∃ encoding encoding', first.encodeStated stated = .ok encoding ∧
      second.encodeStated stated = .ok encoding' ∧ encoding.Alike engine encoding' := by
  unfold encodeStated
  rw [reordered.initial.isEmpty_eq, reordered.goals.isEmpty_eq]
  cases stated.position? with
  | none => exact Or.inl ⟨_, rfl, rfl⟩
  | some position =>
    cases position with
    | ofNat horizon =>
      exact Or.inr ⟨_, _, rfl, rfl, (reordered.encode_alike horizon engine).stated stated⟩
    | negSucc below =>
      cases second.initial.facts.isEmpty && second.goals.facts.isEmpty with
      | false => exact Or.inl ⟨_, rfl, rfl⟩
      | true => exact Or.inr ⟨_, _, rfl, rfl, .refl Network.wellFormed_empty⟩

theorem Reordered.solveStated_alike (reordered : first.Reordered second)
    (named : Engine.ofValue choice.name = .ok engine)
    (stated : TimeLimit.ofValue choice.limit = .ok limit) (unlimited : limit.Absent)
    (exact' : engine = .backtracking ∨ backend.Exact ∧ backend'.Exact) (clock clock' : Clock)
    (horizon : Value) :
    (∃ fault, first.solveStated choice backend clock horizon = .error fault ∧
      second.solveStated choice backend' clock' horizon = .error fault) ∨
    ∃ report report', first.solveStated choice backend clock horizon = .ok report ∧
      second.solveStated choice backend' clock' horizon = .ok report' ∧
      report.Alike engine report' := by
  rw [solveStated, solveStated, named, ok_bind, ok_bind]
  rcases reordered.encodeStated_alike horizon engine with
    ⟨fault, refused, refused'⟩ | ⟨encoding, encoding', encoded, encoded', alike⟩
  · rw [refused, refused']
    exact Or.inl ⟨fault, rfl, rfl⟩
  · rw [encoded, encoded', ok_bind, ok_bind]
    obtain ⟨report, report', solved, solved', alike, _⟩ :=
      alike.solve exact' clock clock' stated unlimited 0 0
    exact Or.inr ⟨report, report', solved, solved', alike⟩

/-! ### The search -/

theorem Reordered.decodePlan_eq (reordered : first.Reordered second) (horizon : Nat) :
    first.decodePlan horizon = second.decodePlan horizon := by
  unfold decodePlan
  rw [reordered.actions.length_eq]

theorem Reordered.decodeStates_eq (reordered : first.Reordered second) (horizon : Nat) :
    first.decodeStates horizon = second.decodeStates horizon := by
  unfold decodeStates
  rw [reordered.subjects, reordered.layerSlot_eq]

/-- Horizons that are answered alike, and rightly, are searched alike. -/
theorem Reordered.searchFrom_alike (reordered : first.Reordered second)
    {solve solve' : HorizonSolver} (limit : Value)
    (answers : ∀ horizon readings readings', ∃ report report',
      solve horizon readings = .ok report ∧ solve' horizon readings' = .ok report' ∧
      report.Alike engine report' ∧ (first.encode horizon).network.Answers report.answer ∧
      (second.encode horizon).network.Answers report'.answer)
    (remaining horizon readings readings' : Nat) (status : Status)
    (sizes : List (EncodingSizes Nat)) :
    ∃ report report',
      first.searchFrom limit solve horizon readings status sizes remaining = .ok report ∧
      second.searchFrom limit solve' horizon readings' status sizes remaining = .ok report' ∧
      report.Alike engine [] [] report' := by
  induction remaining generalizing horizon readings readings' status sizes with
  | zero => exact ⟨_, _, rfl, rfl, rfl, rfl, rfl, ⟨[], rfl, rfl⟩, fun _ => rfl⟩
  | succ remaining inductionHypothesis =>
    obtain ⟨solved, solved', ran, ran', alike, right, right'⟩ := answers horizon readings readings'
    rw [searchFrom, searchFrom, ran, ran', ok_bind, ok_bind, ← alike.status, ← alike.sizes]
    rcases right with ⟨satisfiable, solution⟩ | ⟨unsatisfiable, none⟩
    · have solution' : (second.encode horizon).network.Solution solved'.answer.values := by
        rcases right' with ⟨_, solution'⟩ | ⟨unsatisfiable', _⟩
        · exact solution'
        · rw [← alike.status, satisfiable] at unsatisfiable'
          cases unsatisfiable'
      obtain ⟨choices, states, decoded, decodedStates, _⟩ := shows_of_solution solution
      obtain ⟨choices', states', decoded', decodedStates', _⟩ := shows_of_solution solution'
      refine ⟨⟨some ⟨horizon, choices, states⟩, .satisfiable, sizes ++ [solved.sizes], []⟩,
        ⟨some ⟨horizon, choices', states'⟩, .satisfiable, sizes ++ [solved.sizes], []⟩, ?_, ?_,
        rfl, rfl, rfl, ⟨[], rfl, rfl⟩, fun backtracking => ?_⟩
      · simp only [satisfiable, decoded, decodedStates, ok_bind]
      · simp only [satisfiable, decoded', decodedStates', ok_bind]
      · rw [alike.answer backtracking, reordered.decodePlan_eq, decoded'] at decoded
        rw [alike.answer backtracking, reordered.decodeStates_eq, decodedStates'] at decodedStates
        cases decoded
        cases decodedStates
        rfl
    · rw [unsatisfiable]
      exact inductionHypothesis (horizon + 1) solved.readings solved'.readings .unsatisfiable
        (sizes ++ [solved.sizes])

/-- Results do not depend on the order of facts.  Without a time limit every horizon is reported on
alike, also if it is stated as a value, and so is the search, which warns of the diagnostics of its
problem first.  Running a plan ends with the same verdict, whichever order the facts of its actions
are in. -/
theorem results_reordered {first second : Problem} (reordered : first.Reordered second)
    (choice : EngineChoice) {engine : Engine} {limit : TimeLimit}
    (named : Engine.ofValue choice.name = .ok engine)
    (stated : TimeLimit.ofValue choice.limit = .ok limit) (unlimited : limit.Absent)
    {backend backend' : Cnf.Backend}
    (exact' : engine = .backtracking ∨ backend.Exact ∧ backend'.Exact) (clock clock' : Clock) :
    (∀ horizon readings readings', ∃ report report',
      first.solveHorizon choice backend clock horizon readings = .ok report ∧
      second.solveHorizon choice backend' clock' horizon readings' = .ok report' ∧
      report.Alike engine report' ∧
      (engine = .backtracking →
        first.decodePlan horizon report.answer.values =
            second.decodePlan horizon report'.answer.values ∧
          first.decodeStates horizon report.answer.values =
            second.decodeStates horizon report'.answer.values)) ∧
    (∀ horizon, (∃ fault, first.solveStated choice backend clock horizon = .error fault ∧
        second.solveStated choice backend' clock' horizon = .error fault) ∨
      ∃ report report', first.solveStated choice backend clock horizon = .ok report ∧
        second.solveStated choice backend' clock' horizon = .ok report' ∧
        report.Alike engine report') ∧
    (∃ report report',
      first.search choice.limit (first.solveHorizon choice backend clock) = .ok report ∧
      second.search choice.limit (second.solveHorizon choice backend' clock') = .ok report' ∧
      report.Alike engine first.warnings second.warnings report') ∧
    ∀ plan plan', List.Forall₂ Action.Reordered plan plan' →
      (Simulation.run first plan).verdict = (Simulation.run second plan').verdict := by
  have answers := reordered.solveHorizon_alike named stated unlimited exact' clock clock'
  refine ⟨fun horizon readings readings' => ?_,
    reordered.solveStated_alike named stated unlimited exact' clock clock', ?_,
    fun plan plan' reordered' => (Simulation.run_alike reordered reordered').verdict_eq⟩
  · obtain ⟨report, report', solved, solved', alike, _⟩ := answers horizon readings readings'
    refine ⟨report, report', solved, solved', alike, fun backtracking => ?_⟩
    rw [alike.answer backtracking, reordered.decodePlan_eq, reordered.decodeStates_eq]
    exact ⟨rfl, rfl⟩
  · obtain ⟨report, report', searched, searched', alike⟩ := reordered.searchFrom_alike choice.limit
      answers second.bound.steps 0 1 1 .unsatisfiable []
    rw [search, search, reordered.bound, searched, searched']
    obtain ⟨own, warned, warned'⟩ := alike.warnings
    exact ⟨_, _, rfl, rfl, alike.status, alike.horizon, alike.sizes,
      ⟨own, congrArg _ warned, congrArg _ warned'⟩, alike.found⟩

end

end Problem

/-! ### Facts in reverse order -/

/-- The same facts, the last one first. -/
def FactSet.reversed (set : FactSet) : FactSet where
  facts := set.facts.reverse
  distinct := List.pairwise_reverse.mpr (set.distinct.imp fun apart => symm apart)

theorem FactSet.reordered_reversed (set : FactSet) : set.Reordered set.reversed :=
  (List.reverse_perm set.facts).symm

theorem FactSet.Over.reversed {set : FactSet} {subjects : List StateVariable}
    (known : set.Over subjects) : set.reversed.Over subjects :=
  fun fact member => known fact (List.mem_reverse.mp member)

/-- The same action, with its facts in reverse order. -/
def Action.reversed (action : Action) : Action :=
  ⟨action.name, action.preconditions.reversed, action.effects.reversed⟩

theorem Action.reordered_reversed (action : Action) : action.Reordered action.reversed :=
  ⟨rfl, action.preconditions.reordered_reversed, action.effects.reordered_reversed⟩

theorem Action.Over.reversed {action : Action} {subjects : List StateVariable}
    (known : action.Over subjects) : action.reversed.Over subjects :=
  ⟨known.preconditions.reversed, known.effects.reversed, known.titled⟩

namespace Problem

/-- The same problem, with all its facts in reverse order. -/
def reversed (problem : Problem) : Problem where
  subjects := problem.subjects
  actions := problem.actions.map Action.reversed
  initial := problem.initial.reversed
  goals := problem.goals.reversed
  bound := problem.bound
  distinct := problem.distinct
  initialKnown := problem.initialKnown.reversed
  goalsKnown := problem.goalsKnown.reversed
  actionsKnown := List.forall_mem_map.mpr fun action member =>
    (problem.actionsKnown action member).reversed

theorem reordered_reversed (problem : Problem) : problem.Reordered problem.reversed where
  subjects := rfl
  actions := List.forall₂_map_right_iff.mpr
    (List.forall₂_same.mpr fun action _ => action.reordered_reversed)
  initial := problem.initial.reordered_reversed
  goals := problem.goals.reordered_reversed
  bound := rfl

/-- A fact about the lamp and one about the dial. -/
def lampAndDial (lit turned : Bool) : FactSet where
  facts := [⟨lamp, .boolean lit, lit.toNat, by cases lit <;> rfl⟩,
    ⟨dial, .integer (if turned then 6 else 5), turned.toNat, by cases turned <;> rfl⟩]
  distinct := List.pairwise_pair.mpr rfl

theorem over_lampAndDial (lit turned : Bool) : (lampAndDial lit turned).Over [lamp, dial] := by
  simp [FactSet.Over, lampAndDial]

/-- A lamp that can be lit once the dial beside it is turned. -/
def dialledLamp : Problem where
  subjects := [lamp, dial]
  actions := [⟨.none, lampAndDial false false, lampAndDial false true⟩,
    ⟨.none, lampAndDial false true, lampAndDial true true⟩]
  initial := lampAndDial false false
  goals := lampAndDial true true
  bound := lightingLamp.bound
  distinct := twoSwitches.distinct
  initialKnown := over_lampAndDial _ _
  goalsKnown := over_lampAndDial _ _
  actionsKnown := by
    rw [List.forall_mem_cons, List.forall_mem_singleton]
    exact ⟨⟨over_lampAndDial _ _, over_lampAndDial _ _, _, rfl⟩,
      ⟨over_lampAndDial _ _, over_lampAndDial _ _, _, rfl⟩⟩

theorem results_reordered_dialledLamp :
    dialledLamp.goals.facts.map Fact.subject = [lamp, dial] ∧
      dialledLamp.reversed.goals.facts.map Fact.subject = [dial, lamp] ∧
      ∃ report report' plan,
        dialledLamp.search byBacktracking.limit (dialledLamp.solveHorizon byBacktracking
          Cnf.exhaustive .counting) = .ok report ∧
        dialledLamp.reversed.search byBacktracking.limit (dialledLamp.reversed.solveHorizon
          byBacktracking Cnf.exhaustive .counting) = .ok report' ∧
        report.Alike .backtracking dialledLamp.warnings dialledLamp.reversed.warnings report' ∧
        report'.found = some plan ∧ plan.choices = [0, 1] := by
  obtain ⟨_, _, ⟨report, report', searched, searched', alike⟩, _⟩ :=
    results_reordered dialledLamp.reordered_reversed byBacktracking engine_byBacktracking rfl
      TimeLimit.unlimited_absent (Or.inl rfl) .counting .counting
  have shown : (dialledLamp.search byBacktracking.limit
      (dialledLamp.solveHorizon byBacktracking Cnf.exhaustive .counting)).toOption.bind
        (fun report => report.found.map fun plan => plan.choices) = some [0, 1] := by
    decide +kernel
  rw [searched] at shown
  obtain ⟨plan, found, choices⟩ := Option.map_eq_some_iff.mp shown
  exact ⟨rfl, rfl, report, report', plan, searched, searched', alike,
    (alike.found rfl).symm.trans found, choices⟩

end Problem

end HorizonPlanner
