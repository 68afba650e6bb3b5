/-
This file proves that the encoding of a horizon is exact.  The solutions of an
encoded problem correspond one to one to its trajectories of that length: what
is decoded from a solution is a trajectory, each trajectory is decoded from a
solution, and from only one.

Both directions rest on where the variables of an encoding are.  The slots are a
table of one row for the actions and one row for each state variable, and every
slot is in exactly one place of the table.
-/

import HorizonPlanner.Proofs.Execution
import HorizonPlanner.Proofs.Network

namespace HorizonPlanner

/-- The network that an encoding states. -/
def Encoding.network (encoding : Encoding) : Network Int :=
  ⟨encoding.declared, encoding.postings.map Posting.constraint⟩

namespace Problem

/-! ### The table of slots -/

/-- A row of equally long blocks is found again block by block. -/
theorem getElem?_flatMap_even {β γ : Type} {block : β → List γ} {width : Nat} {items : List β}
    (even : ∀ item ∈ items, (block item).length = width) {index place : Nat}
    (inside : place < width) :
    (items.flatMap block)[index * width + place]? =
      items[index]?.bind fun item => (block item)[place]? := by
  induction items generalizing index with
  | nil => rfl
  | cons item rest inductionHypothesis =>
    obtain ⟨here, there⟩ := List.forall_mem_cons.mp even
    rw [List.flatMap_cons]
    cases index with
    | zero =>
      rw [Nat.zero_mul, Nat.zero_add, List.getElem?_append_left (here ▸ inside)]
      rfl
    | succ index =>
      have past : (index + 1) * width + place = (block item).length + (index * width + place) := by
        rw [here, Nat.succ_mul]
        omega
      rw [past, List.getElem?_append_right (Nat.le_add_right _ _), Nat.add_sub_cancel_left,
        inductionHypothesis there, List.getElem?_cons_succ]

section

variable {γ : Type} (problem : Problem) (horizon : Nat)

/-- A value for each slot of an encoding, given one for the action of each step and one for each
state variable on each layer. -/
def tabulate (onAction : Nat → γ) (onLayer : StateVariable → Nat → γ) : List γ :=
  (List.range horizon).map onAction ++
    problem.subjects.flatMap fun subject => (List.range (horizon + 1)).map (onLayer subject)

variable {problem horizon} {onAction : Nat → γ} {onLayer : StateVariable → Nat → γ}

theorem encodedVariables_eq :
    problem.encodedVariables horizon =
      problem.tabulate horizon problem.actionVariable layerVariable := rfl

theorem length_tabulate :
    (problem.tabulate horizon onAction onLayer).length =
      horizon + problem.subjects.length * (horizon + 1) := by
  rw [tabulate, List.length_append, List.length_map, List.length_range, List.length_flatMap]
  simp

theorem tabulate_action {step : Nat} (inside : step < horizon) :
    (problem.tabulate horizon onAction onLayer)[actionSlot step]? = some (onAction step) := by
  rw [tabulate, actionSlot, List.getElem?_append_left (by simpa using inside), List.getElem?_map,
    List.getElem?_range inside, Option.map_some]

theorem tabulate_layer {subject : StateVariable} (known : subject ∈ problem.subjects) {layer : Nat}
    (inside : layer ≤ horizon) :
    (problem.tabulate horizon onAction onLayer)[problem.layerSlot horizon subject layer]? =
      some (onLayer subject layer) := by
  have place := Nat.lt_succ_of_le inside
  have row : problem.subjects[problem.subjects.idxOf subject]? = some subject := by
    rw [List.getElem?_eq_getElem (List.idxOf_lt_length_of_mem known),
      List.getElem_idxOf]
  rw [tabulate, layerSlot, Nat.add_assoc, List.getElem?_append_right (by simp), List.length_map,
    List.length_range, Nat.add_sub_cancel_left,
    getElem?_flatMap_even (fun _ _ => by rw [List.length_map, List.length_range]) place, row,
    Option.bind_some, List.getElem?_map, List.getElem?_range place, Option.map_some]

/-- Every slot is that of an action or of a state variable on a layer. -/
theorem slot_cases {slot : Nat}
    (inside : slot < horizon + problem.subjects.length * (horizon + 1)) :
    slot < horizon ∨ ∃ subject ∈ problem.subjects, ∃ layer ≤ horizon,
      slot = problem.layerSlot horizon subject layer := by
  by_cases action : slot < horizon
  · exact Or.inl action
  · obtain ⟨offset, rfl⟩ := Nat.exists_eq_add_of_le (Nat.le_of_not_lt action)
    have bound : offset / (horizon + 1) < problem.subjects.length :=
      Nat.div_lt_of_lt_mul (by rw [Nat.mul_comm]; omega)
    refine Or.inr ⟨problem.subjects[offset / (horizon + 1)], List.getElem_mem bound,
      offset % (horizon + 1), Nat.le_of_lt_succ (Nat.mod_lt _ (Nat.succ_pos _)), ?_⟩
    rw [layerSlot, problem.distinct.idxOf_getElem, Nat.add_assoc, Nat.mul_comm, Nat.div_add_mod]

end

/-! ### Encodings are well formed -/

section

variable {problem : Problem} {horizon : Nat}

theorem actionSlot_lt {step : Nat} (inside : step < horizon) :
    actionSlot step < (problem.encode horizon).network.declared.length :=
  (List.getElem?_eq_some_iff.mp (tabulate_action inside)).choose

theorem layerSlot_lt {subject : StateVariable} (known : subject ∈ problem.subjects) {layer : Nat}
    (inside : layer ≤ horizon) :
    problem.layerSlot horizon subject layer <
      (problem.encode horizon).network.declared.length :=
  (List.getElem?_eq_some_iff.mp (tabulate_layer known inside)).choose

theorem fits_facts {set : FactSet} (covered : set.Over problem.subjects) {layer : Nat}
    (inside : layer ≤ horizon) :
    ∀ part ∈ set.facts.map (problem.factOnLayer horizon layer),
      part.Fits (problem.encode horizon).network.declared.length := by
  rw [List.forall_mem_map]
  exact fun fact member => Constraint.fits_equals (layerSlot_lt (covered fact member) inside)

theorem fits_stepPostings {step index : Nat} {action : Action} (inside : step < horizon)
    (covered : action.Over problem.subjects) :
    ∀ posting ∈ problem.stepPostings horizon step index action,
      posting.constraint.Fits (problem.encode horizon).network.declared.length := by
  have premise : (chosen step index).Fits (problem.encode horizon).network.declared.length :=
    Constraint.fits_equals (actionSlot_lt inside)
  rw [stepPostings, List.forall_mem_append, List.forall_mem_cons, List.forall_mem_singleton,
    List.forall_mem_map]
  refine ⟨⟨?_, ?_⟩, fun subject member => premise.implies ?_⟩
  · exact premise.implies (Constraint.fits_conjunction
      (fits_facts covered.preconditions (Nat.le_of_lt inside)))
  · exact premise.implies (Constraint.fits_conjunction (fits_facts covered.effects inside))
  · have known := (List.mem_filter.mp member).1
    exact Constraint.fits_agree (layerSlot_lt known (Nat.le_of_lt inside))
      (layerSlot_lt known inside)

/-- Every constraint of an encoding is supported and over its variables. -/
theorem wellFormed_encode (problem : Problem) (horizon : Nat) :
    (problem.encode horizon).network.WellFormed := by
  have initial := fits_facts problem.initialKnown (Nat.zero_le horizon)
  have goals := fits_facts problem.goalsKnown (Nat.le_refl horizon)
  rw [List.forall_mem_map] at initial goals
  show ∀ constraint ∈ (problem.encodedPostings horizon).map Posting.constraint, _
  rw [List.forall_mem_map, encodedPostings, List.forall_mem_append, List.forall_mem_append,
    List.forall_mem_map, List.forall_mem_map, List.forall_mem_flatMap]
  refine ⟨⟨initial, goals⟩, fun step inside => ?_⟩
  rw [List.forall_mem_flatMap]
  rintro ⟨action, index⟩ member
  exact fits_stepPostings (List.mem_range.mp inside)
    (problem.actionsKnown action (List.fst_mem_of_mem_zipIdx member))

end

/-! ### What the constraints say -/

section

variable {problem : Problem} {horizon : Nat}

theorem holds_implied {values : List Int} {step index : Nat} {consequence : Constraint Int} :
    (Constraint.implies (chosen step index) consequence).holds (Network.slotValue values) = true ↔
      (Network.slotValue values (actionSlot step) = index →
        consequence.holds (Network.slotValue values) = true) := by
  have premise : (chosen step index).holds (Network.slotValue values) = true ↔
      Network.slotValue values (actionSlot step) = index := beq_iff_eq
  rw [Constraint.holds, Bool.or_eq_true, Bool.not_eq_true', ← premise]
  cases (chosen step index).holds (Network.slotValue values) <;> simp

theorem holds_factOnLayer {values : List Int} {layer : Nat} {fact : Fact} :
    (problem.factOnLayer horizon layer fact).holds (Network.slotValue values) = true ↔
      Network.slotValue values (problem.layerSlot horizon fact.subject layer) = fact.index :=
  beq_iff_eq

theorem holds_kept {values : List Int} {step : Nat} {subject : StateVariable} :
    (problem.kept horizon step subject).holds (Network.slotValue values) = true ↔
      Network.slotValue values (problem.layerSlot horizon subject step) =
        Network.slotValue values (problem.layerSlot horizon subject (step + 1)) :=
  beq_iff_eq

/-- The facts of a set hold on a layer. -/
def FactsOnLayer (problem : Problem) (horizon : Nat) (values : List Int) (layer : Nat)
    (set : FactSet) : Prop :=
  ∀ fact ∈ set.facts,
    Network.slotValue values (problem.layerSlot horizon fact.subject layer) = fact.index

theorem holds_facts {values : List Int} {layer : Nat} {set : FactSet} :
    (Constraint.conjunction (set.facts.map (problem.factOnLayer horizon layer))).holds
        (Network.slotValue values) = true ↔ problem.FactsOnLayer horizon values layer set := by
  rw [Constraint.holds_conjunction, List.forall_mem_map]
  exact forall₂_congr fun fact _ => holds_factOnLayer

/-- What the slots of two layers must hold if an action is taken between them. -/
structure StepsOnLayer (problem : Problem) (horizon : Nat) (values : List Int) (step : Nat)
    (action : Action) : Prop where
  preconditions : problem.FactsOnLayer horizon values step action.preconditions
  effects : problem.FactsOnLayer horizon values (step + 1) action.effects
  kept : ∀ subject ∈ problem.subjects, subject ∉ action.affected →
    Network.slotValue values (problem.layerSlot horizon subject step) =
      Network.slotValue values (problem.layerSlot horizon subject (step + 1))

theorem satisfied_stepPostings_iff {values : List Int} {step index : Nat} {action : Action} :
    (∀ posting ∈ problem.stepPostings horizon step index action,
        posting.constraint.holds (Network.slotValue values) = true) ↔
      (Network.slotValue values (actionSlot step) = index →
        problem.StepsOnLayer horizon values step action) := by
  rw [stepPostings, List.forall_mem_append, List.forall_mem_cons, List.forall_mem_singleton,
    List.forall_mem_map]
  simp only [holds_implied, holds_facts, holds_kept, List.mem_filter, Bool.not_eq_true',
    List.contains_eq_mem, decide_eq_false_iff_not, and_imp]
  constructor
  · rintro ⟨⟨preconditions, effects⟩, frame⟩ taken
    exact ⟨preconditions taken, effects taken,
      fun subject known unaffected => frame subject known unaffected taken⟩
  · intro implied
    exact ⟨⟨fun taken => (implied taken).preconditions, fun taken => (implied taken).effects⟩,
      fun subject known unaffected taken => (implied taken).kept subject known unaffected⟩

/-- The constraints of an encoding, read as conditions on the values of its slots. -/
structure Obeys (problem : Problem) (horizon : Nat) (values : List Int) : Prop where
  initial : problem.FactsOnLayer horizon values 0 problem.initial
  goals : problem.FactsOnLayer horizon values horizon problem.goals
  steps : ∀ step < horizon, ∀ (index : Nat) action, problem.actions[index]? = some action →
    Network.slotValue values (actionSlot step) = index →
      problem.StepsOnLayer horizon values step action

theorem satisfied_iff_obeys {values : List Int} :
    (problem.encode horizon).network.Satisfied values ↔ problem.Obeys horizon values := by
  have facts : ∀ role layer (set : FactSet), (∀ posting ∈ set.facts.map fun fact =>
        (⟨role, problem.factOnLayer horizon layer fact⟩ : Posting),
          posting.constraint.holds (Network.slotValue values) = true) ↔
      problem.FactsOnLayer horizon values layer set := by
    intro role layer set
    rw [List.forall_mem_map]
    exact forall₂_congr fun fact _ => holds_factOnLayer
  rw [Network.Satisfied, Encoding.network, encode, encodedPostings, List.forall_mem_map,
    List.forall_mem_append, List.forall_mem_append, facts, facts, List.forall_mem_flatMap]
  simp only [List.mem_range, List.forall_mem_flatMap, satisfied_stepPostings_iff, Prod.forall,
    List.mk_mem_zipIdx_iff_getElem?]
  constructor
  · rintro ⟨⟨initial, goals⟩, steps⟩
    exact ⟨initial, goals, fun step inside index action => steps step inside action index⟩
  · rintro ⟨initial, goals, steps⟩
    exact ⟨⟨initial, goals⟩, fun step inside action index => steps step inside index action⟩

end

/-! ### Values from the domains -/

section

variable {problem : Problem} {horizon : Nat} {values : List Int}

theorem mem_positions_iff {count : Nat} {value : Int} :
    value ∈ positions count ↔ ∃ place < count, value = (place : Int) := by
  rw [positions, List.mem_map]
  simp only [List.mem_range, Int.ofNat_eq_natCast, eq_comm]

theorem length_positions (count : Nat) : (positions count).length = count := by
  rw [positions, List.length_map, List.length_range]

theorem positionIn_eq (values : List Int) (slot : Nat) :
    positionIn values slot = (Network.slotValue values slot).toNat := rfl

theorem length_of_within (within : Network.Within (problem.encodedVariables horizon) values) :
    values.length = horizon + problem.subjects.length * (horizon + 1) := by
  rw [← within.length_eq, encodedVariables_eq, length_tabulate]

/-- What stands in a slot is a position below the size of its domain. -/
theorem exists_place_of_within (within : Network.Within (problem.encodedVariables horizon) values)
    {slot count : Nat} {name : String}
    (declared : (problem.encodedVariables horizon)[slot]? = some ⟨name, positions count⟩) :
    ∃ place < count, values[slot]? = some (place : Int) := by
  have inside : slot < values.length :=
    within.length_eq ▸ (List.getElem?_eq_some_iff.mp declared).choose
  have found := List.getElem?_eq_getElem inside
  obtain ⟨place, bound, same⟩ := mem_positions_iff.mp
    ((Network.within_iff_getElem?.mp within).2 slot _ _ declared found)
  exact ⟨place, bound, found.trans (congrArg some same)⟩

theorem slotValue_of_within (within : Network.Within (problem.encodedVariables horizon) values)
    {slot count : Nat} {name : String}
    (declared : (problem.encodedVariables horizon)[slot]? = some ⟨name, positions count⟩) :
    Network.slotValue values slot = positionIn values slot ∧ positionIn values slot < count := by
  obtain ⟨place, bound, found⟩ := exists_place_of_within within declared
  have value : Network.slotValue values slot = place := by
    rw [Network.slotValue, List.getD_eq_getElem?_getD, found, Option.getD_some]
  rw [positionIn_eq, value, Int.toNat_natCast]
  exact ⟨rfl, bound⟩

theorem action_of_within (within : Network.Within (problem.encodedVariables horizon) values)
    {step : Nat} (inside : step < horizon) :
    Network.slotValue values (actionSlot step) = positionIn values (actionSlot step) ∧
      positionIn values (actionSlot step) < problem.actions.length :=
  slotValue_of_within within (tabulate_action inside)

theorem layer_of_within (within : Network.Within (problem.encodedVariables horizon) values)
    {subject : StateVariable} (known : subject ∈ problem.subjects) {layer : Nat}
    (inside : layer ≤ horizon) :
    Network.slotValue values (problem.layerSlot horizon subject layer) =
        positionIn values (problem.layerSlot horizon subject layer) ∧
      positionIn values (problem.layerSlot horizon subject layer) < subject.size :=
  slotValue_of_within within (tabulate_layer known inside)

end

/-! ### Runs -/

section

variable (problem : Problem) (horizon : Nat)

/-- The choices that values for the slots make. -/
def choicesOf (values : List Int) : List Nat :=
  (List.range horizon).map fun step => positionIn values (actionSlot step)

/-- The state that values for the slots give to a layer. -/
def layerState (values : List Int) (layer : Nat) : PlanState :=
  problem.stateOf fun subject => positionIn values (problem.layerSlot horizon subject layer)

/-- The states that values for the slots go through. -/
def statesOf (values : List Int) : List PlanState :=
  (List.range (horizon + 1)).map (problem.layerState horizon values)

/-- The values for the slots that make some choices and go through some states. -/
def valuesOf (choices : List Nat) (states : List PlanState) : List Int :=
  problem.tabulate horizon (fun step => choices.getD step 0)
    fun subject layer => problem.valueOf (states.getD layer []) subject

end

section

variable {problem : Problem} {horizon : Nat} {values : List Int}

theorem getElem?_map_range {γ : Type} {item : Nat → γ} {count place : Nat} {found : γ} :
    ((List.range count).map item)[place]? = some found ↔ place < count ∧ item place = found := by
  by_cases inside : place < count
  · rw [List.getElem?_map, List.getElem?_range inside, Option.map_some, Option.some.injEq,
      and_iff_right inside]
  · rw [List.getElem?_eq_none (by simpa using inside)]
    exact ⟨fun impossible => (nomatch impossible), fun outside => absurd outside.1 inside⟩

theorem getElem?_choicesOf {step index : Nat} :
    (choicesOf horizon values)[step]? = some index ↔
      step < horizon ∧ positionIn values (actionSlot step) = index :=
  getElem?_map_range

theorem getElem?_statesOf {layer : Nat} {state : PlanState} :
    (problem.statesOf horizon values)[layer]? = some state ↔
      layer ≤ horizon ∧ problem.layerState horizon values layer = state :=
  getElem?_map_range.trans (and_congr_left' Nat.lt_succ_iff)

/-- Facts hold in the state of a layer exactly if the slots of the layer have their values. -/
theorem satisfies_layerState_iff
    (within : Network.Within (problem.encodedVariables horizon) values) {layer : Nat}
    (inside : layer ≤ horizon) {set : FactSet} (covered : set.Over problem.subjects) :
    problem.Satisfies (problem.layerState horizon values layer) set ↔
      problem.FactsOnLayer horizon values layer set := by
  refine forall₂_congr fun fact member => ?_
  rw [layerState, valueOf_stateOf _ (covered fact member),
    (layer_of_within within (covered fact member) inside).1, Int.natCast_inj]

theorem kept_layerState_iff
    (within : Network.Within (problem.encodedVariables horizon) values) {step : Nat}
    (inside : step < horizon) {subject : StateVariable} (known : subject ∈ problem.subjects) :
    problem.valueOf (problem.layerState horizon values step) subject =
        problem.valueOf (problem.layerState horizon values (step + 1)) subject ↔
      Network.slotValue values (problem.layerSlot horizon subject step) =
        Network.slotValue values (problem.layerSlot horizon subject (step + 1)) := by
  rw [layerState, layerState, valueOf_stateOf _ known, valueOf_stateOf _ known,
    (layer_of_within within known (Nat.le_of_lt inside)).1, (layer_of_within within known inside).1,
    Int.natCast_inj]

theorem total_layerState
    (within : Network.Within (problem.encodedVariables horizon) values) {layer : Nat}
    (inside : layer ≤ horizon) : problem.Total (problem.layerState horizon values layer) :=
  total_stateOf fun _ known => (layer_of_within within known inside).2

/-- An action steps from the state of a layer to that of the next one exactly if the slots of the
two layers say so. -/
theorem steps_layerState_iff
    (within : Network.Within (problem.encodedVariables horizon) values) {step : Nat}
    (inside : step < horizon) {action : Action} (covered : action.Over problem.subjects) :
    problem.Steps action (problem.layerState horizon values step)
        (problem.layerState horizon values (step + 1)) ↔
      problem.StepsOnLayer horizon values step action := by
  have before := satisfies_layerState_iff within (Nat.le_of_lt inside) covered.preconditions
  have after := satisfies_layerState_iff within inside covered.effects
  constructor
  · rintro ⟨preconditions, effects, kept⟩
    exact ⟨before.mp preconditions, after.mp effects, fun subject known unaffected =>
      (kept_layerState_iff within inside known).mp (kept subject known unaffected)⟩
  · rintro ⟨preconditions, effects, kept⟩
    exact ⟨before.mpr preconditions, after.mpr effects, fun subject known unaffected =>
      (kept_layerState_iff within inside known).mpr (kept subject known unaffected)⟩

/-- Values from the domains satisfy the constraints exactly if they make a trajectory. -/
theorem obeys_iff_trajectory
    (within : Network.Within (problem.encodedVariables horizon) values) :
    problem.Obeys horizon values ↔
      problem.Trajectory horizon (choicesOf horizon values) (problem.statesOf horizon values) := by
  constructor
  · intro obeys
    refine ⟨by simp [choicesOf], by simp [statesOf], fun state member => ?_, fun state found => ?_,
      fun state found => ?_, fun step index before after chosen here next => ?_⟩
    · obtain ⟨layer, inside, rfl⟩ := List.mem_map.mp member
      exact total_layerState within (Nat.le_of_lt_succ (List.mem_range.mp inside))
    · obtain ⟨inside, rfl⟩ := getElem?_statesOf.mp found
      exact (satisfies_layerState_iff within inside problem.initialKnown).mpr obeys.initial
    · obtain ⟨inside, rfl⟩ := getElem?_statesOf.mp found
      exact (satisfies_layerState_iff within inside problem.goalsKnown).mpr obeys.goals
    · obtain ⟨inside, rfl⟩ := getElem?_choicesOf.mp chosen
      obtain ⟨_, rfl⟩ := getElem?_statesOf.mp here
      obtain ⟨_, rfl⟩ := getElem?_statesOf.mp next
      obtain ⟨taken, bound⟩ := action_of_within within inside
      have found := List.getElem?_eq_getElem bound
      exact ⟨_, found, (steps_layerState_iff within inside (actionKnown found)).mpr
        (obeys.steps step inside _ _ found taken)⟩
  · intro trajectory
    have layers : ∀ layer ≤ horizon, (problem.statesOf horizon values)[layer]? =
        some (problem.layerState horizon values layer) :=
      fun layer inside => getElem?_statesOf.mpr ⟨inside, rfl⟩
    refine ⟨?_, ?_, fun step inside index action found taken => ?_⟩
    · exact (satisfies_layerState_iff within (Nat.zero_le _) problem.initialKnown).mp
        (trajectory.initial _ (layers 0 (Nat.zero_le _)))
    · exact (satisfies_layerState_iff within (Nat.le_refl _) problem.goalsKnown).mp
        (trajectory.goals _ (layers horizon (Nat.le_refl _)))
    · rw [(action_of_within within inside).1, Int.natCast_inj] at taken
      obtain ⟨other, found', steps⟩ := trajectory.steps step index _ _
        (getElem?_choicesOf.mpr ⟨inside, taken⟩) (layers step (Nat.le_of_lt inside))
        (layers (step + 1) inside)
      obtain rfl : action = other := Option.some.inj (found.symm.trans found')
      exact (steps_layerState_iff within inside (actionKnown found)).mp steps

/-! ### From a run to the slots and back -/

theorem positionIn_of_getElem? {slot place : Nat} (found : values[slot]? = some (place : Int)) :
    positionIn values slot = place := by
  rw [positionIn, List.getD_eq_getElem?_getD, found, Option.getD_some, Int.toNat_natCast]

theorem slotValue_eq_positionIn
    (within : Network.Within (problem.encodedVariables horizon) values) {slot : Nat}
    (inside : slot < values.length) : values[slot] = positionIn values slot := by
  have value : Network.slotValue values slot = values[slot] := List.getD_eq_getElem _ _ inside
  rw [length_of_within within] at inside
  rw [← value]
  rcases slot_cases inside with action | ⟨subject, known, layer, placed, rfl⟩
  · exact (action_of_within within action).1
  · exact (layer_of_within within known placed).1

/-- A run determines the values of all slots. -/
theorem eq_of_same_run {values' : List Int}
    (within : Network.Within (problem.encodedVariables horizon) values)
    (within' : Network.Within (problem.encodedVariables horizon) values')
    (choices : choicesOf horizon values = choicesOf horizon values')
    (states : problem.statesOf horizon values = problem.statesOf horizon values') :
    values = values' := by
  refine List.ext_getElem ?_ fun slot here there => ?_
  · rw [length_of_within within, length_of_within within']
  · rw [slotValue_eq_positionIn within here, slotValue_eq_positionIn within' there]
    rw [length_of_within within] at here
    refine congrArg Nat.cast ?_
    rcases slot_cases here with action | ⟨subject, known, layer, inside, rfl⟩
    · have taken : (choicesOf horizon values)[slot]? = some (positionIn values slot) :=
        getElem?_choicesOf.mpr ⟨action, rfl⟩
      rw [choices] at taken
      exact (getElem?_choicesOf.mp taken).2.symm
    · have state : (problem.statesOf horizon values)[layer]? =
          some (problem.layerState horizon values layer) := getElem?_statesOf.mpr ⟨inside, rfl⟩
      rw [states] at state
      have same := congrArg (problem.valueOf · subject) (getElem?_statesOf.mp state).2
      simp only [layerState, valueOf_stateOf _ known] at same
      exact same.symm

theorem positionIn_valuesOf_action {choices : List Nat} {states : List PlanState} {step : Nat}
    (inside : step < horizon) :
    positionIn (problem.valuesOf horizon choices states) (actionSlot step) = choices.getD step 0 :=
  positionIn_of_getElem? (tabulate_action inside)

theorem positionIn_valuesOf_layer {choices : List Nat} {states : List PlanState}
    {subject : StateVariable} (known : subject ∈ problem.subjects) {layer : Nat}
    (inside : layer ≤ horizon) :
    positionIn (problem.valuesOf horizon choices states)
        (problem.layerSlot horizon subject layer) =
      problem.valueOf (states.getD layer []) subject :=
  positionIn_of_getElem? (tabulate_layer known inside)

section

variable {choices : List Nat} {states : List PlanState}

theorem choicesOf_valuesOf (trajectory : problem.Trajectory horizon choices states) :
    choicesOf horizon (problem.valuesOf horizon choices states) = choices := by
  refine List.ext_getElem (by simp [choicesOf, trajectory.choices_length]) fun step here there => ?_
  have inside := trajectory.choices_length ▸ there
  simp only [choicesOf, List.getElem_map, List.getElem_range, positionIn_valuesOf_action inside]
  exact List.getD_eq_getElem _ _ there

theorem statesOf_valuesOf (trajectory : problem.Trajectory horizon choices states) :
    problem.statesOf horizon (problem.valuesOf horizon choices states) = states := by
  refine List.ext_getElem (by simp [statesOf, trajectory.states_length]) fun layer here there => ?_
  have inside : layer ≤ horizon := by
    rw [trajectory.states_length] at there
    exact Nat.le_of_lt_succ there
  have found : states.getD layer [] = states[layer] := List.getD_eq_getElem _ _ there
  have same : problem.layerState horizon (problem.valuesOf horizon choices states) layer =
      problem.stateOf (problem.valueOf states[layer]) :=
    stateOf_congr fun subject known => by rw [positionIn_valuesOf_layer known inside, found]
  simp only [statesOf, List.getElem_map, List.getElem_range, same]
  exact stateOf_valueOf (trajectory.total _ (List.getElem_mem there))

theorem choice_lt (trajectory : problem.Trajectory horizon choices states) {step index : Nat}
    (chosen : choices[step]? = some index) : index < problem.actions.length := by
  have inside := (List.getElem?_eq_some_iff.mp chosen).choose
  rw [trajectory.choices_length] at inside
  have here : step < states.length := by
    rw [trajectory.states_length]
    omega
  have next : step + 1 < states.length := by
    rw [trajectory.states_length]
    omega
  obtain ⟨action, found, _⟩ := trajectory.steps step index _ _ chosen
    (List.getElem?_eq_getElem here) (List.getElem?_eq_getElem next)
  exact (List.getElem?_eq_some_iff.mp found).choose

theorem within_valuesOf (trajectory : problem.Trajectory horizon choices states) :
    Network.Within (problem.encodedVariables horizon)
      (problem.valuesOf horizon choices states) := by
  rw [Network.within_iff_getElem?, encodedVariables_eq, valuesOf, length_tabulate, length_tabulate]
  refine ⟨rfl, fun slot entry value declared found => ?_⟩
  have bound := (List.getElem?_eq_some_iff.mp declared).choose
  rw [length_tabulate] at bound
  rcases slot_cases bound with action | ⟨subject, known, layer, inside, rfl⟩
  · have taken : choices[slot]? = some (choices.getD slot 0) := by
      have there : slot < choices.length := by rwa [trajectory.choices_length]
      rw [List.getD_eq_getElem _ _ there, List.getElem?_eq_getElem there]
    cases Option.some.inj ((tabulate_action action).symm.trans declared)
    cases Option.some.inj ((tabulate_action action).symm.trans found)
    exact mem_positions_iff.mpr ⟨_, choice_lt trajectory taken, rfl⟩
  · have there : layer < states.length := by
      rw [trajectory.states_length]
      omega
    have total := trajectory.total _ (List.getElem_mem there)
    rw [← List.getD_eq_getElem _ [] there] at total
    cases Option.some.inj ((tabulate_layer known inside).symm.trans declared)
    cases Option.some.inj ((tabulate_layer known inside).symm.trans found)
    exact mem_positions_iff.mpr ⟨_, total.valueOf_lt known, rfl⟩

end

/-! ### Reading a solution -/

theorem mapM_eq_ok {ε β γ : Type} {items : List β} {step : β → Except ε γ} {result : β → γ}
    (each : ∀ item ∈ items, step item = .ok (result item)) :
    items.mapM step = .ok (items.map result) := by
  induction items with
  | nil => rfl
  | cons item rest inductionHypothesis =>
    obtain ⟨here, there⟩ := List.forall_mem_cons.mp each
    rw [List.mapM_cons, here, inductionHypothesis there]
    rfl

theorem decodePlan_eq (within : Network.Within (problem.encodedVariables horizon) values) :
    problem.decodePlan horizon values = .ok (choicesOf horizon values) :=
  mapM_eq_ok fun _ member => if_pos (action_of_within within (List.mem_range.mp member)).2

theorem decodeStates_eq (within : Network.Within (problem.encodedVariables horizon) values) :
    problem.decodeStates horizon values =
      .ok ((problem.statesOf horizon values).map problem.display) := by
  rw [statesOf, List.map_map]
  refine mapM_eq_ok fun layer member => ?_
  have inside := Nat.le_of_lt_succ (List.mem_range.mp member)
  refine mapM_eq_ok fun subject known => ?_
  have bound := (layer_of_within within known inside).2
  rw [layerState, valueOf_stateOf _ known, List.getD_eq_getElem _ _ bound,
    List.getElem?_eq_getElem bound]

theorem trajectory_of_solution (solution : (problem.encode horizon).network.Solution values) :
    problem.Trajectory horizon (choicesOf horizon values) (problem.statesOf horizon values) :=
  (obeys_iff_trajectory solution.within).mp (satisfied_iff_obeys.mp solution.satisfied)

theorem solution_of_trajectory {choices : List Nat} {states : List PlanState}
    (trajectory : problem.Trajectory horizon choices states) :
    (problem.encode horizon).network.Solution (problem.valuesOf horizon choices states) := by
  have within := within_valuesOf trajectory
  refine ⟨within, satisfied_iff_obeys.mpr ?_⟩
  rw [obeys_iff_trajectory within, choicesOf_valuesOf trajectory, statesOf_valuesOf trajectory]
  exact trajectory

/-- The solutions of an encoded horizon correspond one to one to the trajectories of that length.
What is decoded from a solution is its trajectory, and different states are shown differently. -/
theorem solutions_bijOn_trajectories (problem : Problem) (horizon : Nat) :
    Set.BijOn (fun values => (choicesOf horizon values, problem.statesOf horizon values))
      {values | (problem.encode horizon).network.Solution values}
      {run | problem.Trajectory horizon run.1 run.2} ∧
    (∀ values, (problem.encode horizon).network.Solution values →
      problem.decodePlan horizon values = .ok (choicesOf horizon values) ∧
        problem.decodeStates horizon values =
          .ok ((problem.statesOf horizon values).map problem.display)) ∧
    Set.InjOn problem.display {state | problem.Total state} := by
  refine ⟨⟨fun values => trajectory_of_solution, fun first solution second solution' same => ?_,
    fun run trajectory => ?_⟩, fun values solution => ?_, display_injOn⟩
  · obtain ⟨choices, states⟩ := Prod.mk.inj same
    exact eq_of_same_run solution.within solution'.within choices states
  · exact ⟨problem.valuesOf horizon run.1 run.2, solution_of_trajectory trajectory,
      Prod.ext (choicesOf_valuesOf trajectory) (statesOf_valuesOf trajectory)⟩
  · exact ⟨decodePlan_eq solution.within, decodeStates_eq solution.within⟩

end

end Problem

end HorizonPlanner
