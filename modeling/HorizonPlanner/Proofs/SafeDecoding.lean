/-
This file proves that a problem that was accepted never stops the planner.  Its
encoding is about variables that were declared before and about values that
their domains have, so every engine takes it.  What an engine finds in the end
are positions of actions and of domain values, so a plan and its states can be
read off.

Nothing checks these positions on the way.  They are right because the problem
was checked when it was created, because all variables are declared before the
first constraint is posted, and because a solution gives each variable one value
of its domain.  A step without an action to take has no value to give, so the
list of actions is never read in vain.
-/

import HorizonPlanner.Proofs.EmptyClause
import HorizonPlanner.Proofs.ShortestPlan
import HorizonPlanner.Proofs.TimeLimit

namespace HorizonPlanner

/-! ### What a constraint looks up -/

namespace Constraint

variable {α : Type}

mutual

/-- The constants that a constraint looks up, each with the slot of its variable. -/
def lookups : Constraint α → List (Nat × α)
  | equals slot constant => [(slot, constant)]
  | all parts => lookupsOfParts parts
  | implies condition consequence => condition.lookups ++ consequence.lookups
  | always | agree _ _ | unsupported _ => []

/-- The constants that the parts of a conjunction look up. -/
def lookupsOfParts : List (Constraint α) → List (Nat × α)
  | [] => []
  | part :: rest => part.lookups ++ lookupsOfParts rest

end

theorem forall_lookupsOfParts {property : Nat × α → Prop} {parts : List (Constraint α)}
    (each : ∀ part ∈ parts, ∀ lookup ∈ part.lookups, property lookup) :
    ∀ lookup ∈ lookupsOfParts parts, property lookup := by
  induction parts with
  | nil => exact fun _ member => absurd member List.not_mem_nil
  | cons part rest inductionHypothesis =>
    obtain ⟨here, there⟩ := List.forall_mem_cons.mp each
    exact List.forall_mem_append.mpr ⟨here, inductionHypothesis there⟩

theorem forall_lookups_conjunction {property : Nat × α → Prop} {parts : List (Constraint α)}
    (each : ∀ part ∈ parts, ∀ lookup ∈ part.lookups, property lookup) :
    ∀ lookup ∈ (conjunction parts).lookups, property lookup := by
  have kept : ∀ part ∈ parts.filter (fun part => !part.isAlways),
      ∀ lookup ∈ part.lookups, property lookup :=
    fun part member => each part (List.mem_filter.mp member).1
  rw [conjunction]
  split
  next => exact fun _ member => absurd member List.not_mem_nil
  next part single => exact kept part (single ▸ List.mem_singleton_self part)
  next => exact forall_lookupsOfParts kept

end Constraint

/-- A constant that is looked up is in the domain of a variable that was declared. -/
def Offers (declared : List (Variable Int)) (lookup : Nat × Int) : Prop :=
  ∃ entry, declared[lookup.1]? = some entry ∧ lookup.2 ∈ entry.values

/-! ### The variables of an encoding -/

namespace Problem

section

variable (problem : Problem) (horizon : Nat)

/-- The facts of a set have their variables on a layer, each with a value for the fact. -/
def Located (layer : Nat) (set : FactSet) : Prop :=
  ∀ fact ∈ set.facts,
    (problem.encode horizon).declared[problem.layerSlot horizon fact.subject layer]? =
        some (layerVariable fact.subject layer) ∧
      (fact.index : Int) ∈ (layerVariable fact.subject layer).values

/-- Whatever an encoding is about is there: the variables of all facts on their layers, those of
what is kept, and those of the steps with a value for each action. -/
structure Resolves : Prop where
  initial : problem.Located horizon 0 problem.initial
  goals : problem.Located horizon horizon problem.goals
  preconditions : ∀ step < horizon, ∀ action ∈ problem.actions,
    problem.Located horizon step action.preconditions
  effects : ∀ step < horizon, ∀ action ∈ problem.actions,
    problem.Located horizon (step + 1) action.effects
  kept : ∀ subject ∈ problem.subjects, ∀ layer ≤ horizon,
    (problem.encode horizon).declared[problem.layerSlot horizon subject layer]? =
      some (layerVariable subject layer)
  chosen : ∀ step < horizon,
    (problem.encode horizon).declared[actionSlot step]? = some (problem.actionVariable step) ∧
      ∀ index < problem.actions.length, (index : Int) ∈ (problem.actionVariable step).values

end

section

variable {problem : Problem} {horizon layer : Nat} {set : FactSet}

theorem located (covered : set.Over problem.subjects) (inside : layer ≤ horizon) :
    problem.Located horizon layer set :=
  fun fact member => ⟨tabulate_layer (covered fact member) inside,
    mem_positions_iff.mpr ⟨fact.index, fact.index_lt, rfl⟩⟩

theorem resolves (problem : Problem) (horizon : Nat) : problem.Resolves horizon where
  initial := located problem.initialKnown (Nat.zero_le horizon)
  goals := located problem.goalsKnown (Nat.le_refl horizon)
  preconditions _ inside action member :=
    located (problem.actionsKnown action member).preconditions (Nat.le_of_lt inside)
  effects _ inside action member := located (problem.actionsKnown action member).effects inside
  kept _ known _ inside := tabulate_layer known inside
  chosen _ inside :=
    ⟨tabulate_action inside, fun index bound => mem_positions_iff.mpr ⟨index, bound, rfl⟩⟩

theorem Located.offers (located : problem.Located horizon layer set) :
    ∀ part ∈ set.facts.map (problem.factOnLayer horizon layer), ∀ lookup ∈ part.lookups,
      Offers (problem.encode horizon).declared lookup := by
  rw [List.forall_mem_map]
  intro fact member
  have found := located fact member
  exact List.forall_mem_singleton.mpr ⟨_, found.1, found.2⟩

theorem Resolves.offers_stepPostings (resolves : problem.Resolves horizon) {step index : Nat}
    (inside : step < horizon) {action : Action} (found : problem.actions[index]? = some action) :
    ∀ posting ∈ problem.stepPostings horizon step index action,
      ∀ lookup ∈ posting.constraint.lookups, Offers (problem.encode horizon).declared lookup := by
  have member : action ∈ problem.actions := List.mem_of_getElem? found
  have bound : index < problem.actions.length := (List.getElem?_eq_some_iff.mp found).choose
  have step' := resolves.chosen step inside
  have implied {consequence : Constraint Int}
      (offered : ∀ lookup ∈ consequence.lookups, Offers (problem.encode horizon).declared lookup) :
      ∀ lookup ∈ (Constraint.implies (Problem.chosen step index) consequence).lookups,
        Offers (problem.encode horizon).declared lookup :=
    List.forall_mem_cons.mpr ⟨⟨_, step'.1, step'.2 index bound⟩, offered⟩
  rw [stepPostings, List.forall_mem_append, List.forall_mem_cons, List.forall_mem_singleton,
    List.forall_mem_map]
  refine ⟨⟨?_, ?_⟩, fun subject _ => implied fun _ member => absurd member List.not_mem_nil⟩
  · exact implied (Constraint.forall_lookups_conjunction
      (resolves.preconditions step inside action member).offers)
  · exact implied (Constraint.forall_lookups_conjunction
      (resolves.effects step inside action member).offers)

/-- Every constant of an encoding is in the domain of its variable. -/
theorem Resolves.offers (resolves : problem.Resolves horizon) :
    ∀ posting ∈ (problem.encode horizon).postings,
      ∀ lookup ∈ posting.constraint.lookups, Offers (problem.encode horizon).declared lookup := by
  have initial := resolves.initial.offers
  have goals := resolves.goals.offers
  rw [List.forall_mem_map] at initial goals
  show ∀ posting ∈ problem.encodedPostings horizon, _
  rw [encodedPostings, List.forall_mem_append, List.forall_mem_append, List.forall_mem_map,
    List.forall_mem_map, List.forall_mem_flatMap]
  refine ⟨⟨initial, goals⟩, fun step inside => ?_⟩
  rw [List.forall_mem_flatMap]
  rintro ⟨action, index⟩ member
  exact resolves.offers_stepPostings (List.mem_range.mp inside)
    (List.mk_mem_zipIdx_iff_getElem?.mp member)

end

end Problem

/-! ### Loading an encoding -/

namespace EngineModel

/-- A model has what a constraint is about: its variables and, unless the model is searched as it
is, a propositional variable for each constant that is looked up. -/
structure Serves (model : EngineModel Int) (engine : Engine) (constraint : Constraint Int) :
    Prop where
  slots : ∀ slot ∈ constraint.slots, slot < model.declared.size
  literals : engine ≠ .backtracking → ∀ lookup ∈ constraint.lookups,
    ∃ atom, model.literal lookup.1 lookup.2 = .ok atom

theorem Holds.serves {model : EngineModel Int} {engine : Engine} {network : Network Int}
    (holds : model.Holds engine network) {constraint : Constraint Int}
    (fits : constraint.Fits network.declared.length)
    (offered : ∀ lookup ∈ constraint.lookups, Offers network.declared lookup) :
    model.Serves engine constraint := by
  cases holds with
  | @backtracking model network holds =>
    refine ⟨fun slot mentioned => ?_, fun impossible => absurd rfl impossible⟩
    show slot < model.declared.size
    rw [holds.size_eq]
    exact fits.bounded slot mentioned
  | @clausal name interruptible model network represents =>
    refine ⟨fun slot mentioned => ?_, fun _ lookup member => ?_⟩
    · show slot < model.declared.size
      rw [represents.size_eq]
      exact fits.bounded slot mentioned
    · obtain ⟨entry, declared, among⟩ := offered lookup member
      obtain ⟨atom, found, _⟩ := represents.exists_literal declared among
      exact ⟨atom, found⟩

end EngineModel

namespace Problem

variable {problem : Problem} {horizon : Nat}

/-- Whatever was posted so far, the next constraint of an encoding finds what it is about, and is
posted. -/
theorem exists_post (problem : Problem) (horizon : Nat) (engine : Engine)
    {earlier later : List Posting} {posting : Posting}
    (split : (problem.encode horizon).postings = earlier ++ posting :: later) :
    ∃ model next, { problem.encode horizon with postings := earlier }.load engine = .ok model ∧
      model.Serves engine posting.constraint ∧
      EngineModel.post posting.constraint model = (none, next) := by
  let begun : Encoding := { problem.encode horizon with postings := earlier }
  have wellFormed := wellFormed_encode problem horizon
  have begun_wellFormed : begun.network.WellFormed := by
    show ∀ constraint ∈ earlier.map Posting.constraint, _
    rw [List.forall_mem_map]
    intro other among
    refine wellFormed other.constraint (List.mem_map_of_mem ?_)
    rw [split]
    exact List.mem_append_left _ among
  have member : posting ∈ (problem.encode horizon).postings := by
    rw [split]
    exact List.mem_append_right _ List.mem_cons_self
  have fits := wellFormed posting.constraint (List.mem_map_of_mem member)
  have admitted : begun.network.Admits (.post posting.constraint) := fits
  obtain ⟨model, loaded, holds⟩ := begun.load_holds engine begun_wellFormed
  obtain ⟨next, posted, -⟩ := EngineModel.holds_perform holds begun_wellFormed admitted
  have offered := (resolves problem horizon).offers posting member
  exact ⟨model, next, loaded, holds.serves fits offered, posted⟩

/-! ### Reading a solution -/

section

variable {values : List Int}

/-- Values for the slots of an encoding can be read as a plan and its states. -/
structure Readable (problem : Problem) (horizon : Nat) (values : List Int) : Prop where
  actions : ∀ step < horizon, ∃ index < problem.actions.length,
    values[actionSlot step]? = some (index : Int)
  layers : ∀ subject ∈ problem.subjects, ∀ layer ≤ horizon, ∃ position < subject.size,
    values[problem.layerSlot horizon subject layer]? = some (position : Int)
  plan : ∃ choices, problem.decodePlan horizon values = .ok choices ∧ choices.length = horizon ∧
    ∀ index ∈ choices, index < problem.actions.length
  states : ∃ states, problem.decodeStates horizon values = .ok states ∧
    states.length = horizon + 1 ∧ ∀ state ∈ states, state.map Prod.fst = problem.subjects ∧
      ∀ binding ∈ state, binding.2 ∈ binding.1.values

theorem mem_of_mem_display {state : PlanState} (total : problem.Total state)
    {binding : StateVariable × Value} (member : binding ∈ problem.display state) :
    binding.2 ∈ binding.1.values := by
  obtain ⟨subject, known, rfl⟩ := List.mem_map.mp member
  have inside := total.valueOf_lt known
  show subject.values.getD _ _ ∈ subject.values
  rw [List.getD_eq_getElem _ _ inside]
  exact List.getElem_mem inside

theorem map_fst_display (state : PlanState) :
    (problem.display state).map Prod.fst = problem.subjects := by
  rw [display, List.map_map]
  exact List.map_id problem.subjects

/-- Values from the domains are positions of actions and of domain values. -/
theorem readable_of_within (within : Network.Within (problem.encodedVariables horizon) values) :
    problem.Readable horizon values where
  actions _ inside := exists_place_of_within within (tabulate_action inside)
  layers _ known _ inside := exists_place_of_within within (tabulate_layer known inside)
  plan := by
    refine ⟨choicesOf horizon values, decodePlan_eq within, by simp [choicesOf], ?_⟩
    refine List.forall_mem_map.mpr fun step member => ?_
    exact (action_of_within within (List.mem_range.mp member)).2
  states := by
    refine ⟨_, decodeStates_eq within, by simp [statesOf], ?_⟩
    rw [statesOf, List.map_map]
    refine List.forall_mem_map.mpr fun layer member => ⟨map_fst_display _, fun binding => ?_⟩
    exact mem_of_mem_display
      (total_layerState within (Nat.le_of_lt_succ (List.mem_range.mp member)))

end

end Problem

/-! ### A variable without values -/

namespace EngineModel

/-- A compiled model that records an empty clause. -/
def Refuted : EngineModel Int → Prop
  | .backtracking _ => False
  | .clausal _ _ model => model.contradiction = true

variable {engine : Engine} {model after : EngineModel Int}

theorem perform_clausal (step : BuildStep Int) (name : String) (interruptible : Bool)
    (model : Cnf.Model Int) :
    perform step (.clausal name interruptible model) =
      build name interruptible (Cnf.perform step) model := by
  cases step <;> rfl

theorem oblivious_perform (step : BuildStep Int) : Cnf.Oblivious (Cnf.perform step) := by
  cases step with
  | declare entry => exact Cnf.oblivious_declare entry
  | post constraint => exact Cnf.oblivious_post constraint

/-- A call that succeeds leaves the record. -/
theorem Refuted.perform (refuted : model.Refuted) {step : BuildStep Int}
    (called : perform step model = (none, after)) : after.Refuted := by
  cases model with
  | backtracking model => exact refuted.elim
  | clausal name interruptible model =>
    rw [perform_clausal, build] at called
    cases ran : (Cnf.perform step).run model with
    | error fault final =>
      rw [ran] at called
      cases called
    | ok value final =>
      rw [ran] at called
      cases called
      exact Cnf.Model.contradiction_of_ok (oblivious_perform step) refuted ran

/-- So do any number of them. -/
theorem Refuted.sequence {β : Type} (call : β → BuildStep Int) {items : List β}
    (refuted : model.Refuted)
    (called : model.sequence (fun item => EngineModel.perform (call item)) items = .ok after) :
    after.Refuted := by
  induction items generalizing model with
  | nil =>
    cases called
    exact refuted
  | cons item rest inductionHypothesis =>
    rw [EngineModel.sequence] at called
    split at called
    next middle first => exact inductionHypothesis (refuted.perform first) called
    next => cases called

/-- A variable without values is an empty clause. -/
theorem declare_nil (name' name : String) (interruptible : Bool) (model : Cnf.Model Int) :
    ∃ final, declare ⟨name', []⟩ (.clausal name interruptible model) = (none, final) ∧
      final.Refuted :=
  ⟨_, rfl, rfl⟩

/-- No backend is asked about a model that records an empty clause. -/
theorem Refuted.solve (refuted : model.Refuted) (backend : Cnf.Backend) (clock : Clock)
    (stated : Value) (readings : Nat) :
    ∃ answer, (model.solve backend clock stated readings).outcome = .ok answer ∧
      answer.status = .unsatisfiable ∧ (model.solve backend clock stated readings).calls = [] := by
  cases model with
  | backtracking model => exact refuted.elim
  | clausal name interruptible model =>
    have recorded : model.contradiction = true := refuted
    refine ⟨model.zeros .unsatisfiable, ?_, rfl, ?_⟩
    · simp only [EngineModel.solve, Cnf.Model.solve, recorded, if_true]
    · simp only [EngineModel.solve, Cnf.Model.solve, recorded, if_true]

end EngineModel

/-- An encoding whose first variable has no values is refuted when it is loaded. -/
theorem Encoding.refuted_of_load {encoding : Encoding} {name : String}
    {others : List (Variable Int)} (declared : encoding.declared = ⟨name, []⟩ :: others)
    {engine : Engine} (compiles : engine ≠ .backtracking) {model : EngineModel Int}
    (loaded : encoding.load engine = .ok model) : model.Refuted := by
  rw [load, bind_eq_ok_iff, declared] at loaded
  obtain ⟨middle, declares, posts⟩ := loaded
  cases engine with
  | backtracking => exact absurd rfl compiles
  | clausal own interruptible =>
    obtain ⟨first, begun, refuted⟩ := EngineModel.declare_nil name own interruptible .empty
    have begun' : EngineModel.declare ⟨name, []⟩ (.empty (.clausal own interruptible)) =
      (none, first) := begun
    rw [EngineModel.sequence, begun'] at declares
    exact (refuted.sequence BuildStep.declare declares).sequence
      (fun posting : Posting => BuildStep.post posting.constraint) posts

namespace Problem

variable {problem : Problem} {horizon : Nat}

/-- A step without an action to take has no value to give. -/
theorem not_solution_of_idle (idle : problem.actions = []) (positive : 0 < horizon) :
    ¬ ∃ values, (problem.encode horizon).network.Solution values := by
  rintro ⟨values, solution⟩
  have bound := (action_of_within solution.within positive).2
  rw [idle] at bound
  exact absurd bound (Nat.not_lt_zero _)

theorem declared_of_idle (idle : problem.actions = []) (positive : 0 < horizon) :
    ∃ others, (problem.encode horizon).declared = ⟨"action@0", []⟩ :: others := by
  obtain ⟨later, rfl⟩ := Nat.exists_eq_succ_of_ne_zero (Nat.ne_of_gt positive)
  have first : problem.actionVariable 0 = ⟨"action@0", []⟩ := by
    rw [actionVariable, idle]
    rfl
  rw [encode, encodedVariables, List.range_succ_eq_map, List.map_cons, first, List.cons_append]
  exact ⟨_, rfl⟩

/-- A search without values to try finds nothing, unless it is limited and gives up, or can have no
deadline. -/
theorem search_of_idle (idle : problem.actions = []) (positive : 0 < horizon)
    {model : Backtracking.Model Int} (holds : model.Holds (problem.encode horizon).network)
    (clock : Clock) (limit : TimeLimit) (readings : Nat) :
    limit.Excessive ∧ (model.solve clock limit readings).1 = .error .numberTooLarge ∨
      ∃ answer, (model.solve clock limit readings).1 = .ok answer ∧
        (answer.status = .unsatisfiable ∨ answer.status = .timeout ∧
          limit.deadline? (clock.reading readings) ≠ .ok none) := by
  have unsolvable : ∀ {answer : Answer Int},
      Backtracking.AnswersFirst (problem.encode horizon).network answer →
        answer.status = .unsatisfiable := by
    intro answer first
    rcases first.answers with ⟨-, solution⟩ | ⟨unsatisfiable, -⟩
    · exact absurd ⟨_, solution⟩ (not_solution_of_idle idle positive)
    · exact unsatisfiable
  have wellFormed := wellFormed_encode problem horizon
  by_cases free : limit.deadline? (clock.reading readings) = .ok none
  · obtain ⟨answer, solved, first⟩ := Backtracking.solve_answersFirst holds wellFormed clock free
    exact Or.inr ⟨answer, solved, Or.inl (unsolvable first)⟩
  · rcases Backtracking.solve_truncated model clock limit readings with
      ⟨fault, refused, failed⟩ | gaveUp | same
    · obtain ⟨rfl, excessive⟩ := TimeLimit.deadline?_eq_error_iff.mp refused
      exact Or.inl ⟨excessive, failed⟩
    · exact Or.inr ⟨_, gaveUp, Or.inr ⟨rfl, free⟩⟩
    · obtain ⟨answer, solved, first⟩ := Backtracking.solve_answersFirst holds wellFormed clock
        (TimeLimit.unlimited_absent (clock.reading readings))
      exact Or.inr ⟨answer, same.trans solved, Or.inl (unsolvable first)⟩

/-- Where there are steps but no actions, every engine answers that there is no solution, and no
backend is asked.  Only a search that is limited may give up before it finds out, and one that can
have no deadline fails. -/
theorem solve_of_idle (idle : problem.actions = []) (positive : 0 < horizon) {engine : Engine}
    {model : EngineModel Int} (loaded : (problem.encode horizon).load engine = .ok model)
    (holds : model.Holds engine (problem.encode horizon).network) (backend : Cnf.Backend)
    (clock : Clock) {stated : Value} {limit : TimeLimit}
    (read : TimeLimit.ofValue stated = .ok limit) (readings : Nat) :
    (model.solve backend clock stated readings).calls = [] ∧
      (engine = .backtracking ∧ limit.Excessive ∧
          (model.solve backend clock stated readings).outcome = .error .numberTooLarge ∨
        ∃ answer, (model.solve backend clock stated readings).outcome = .ok answer ∧
          (answer.status = .unsatisfiable ∨ engine = .backtracking ∧ answer.status = .timeout ∧
            limit.deadline? (clock.reading readings) ≠ .ok none)) := by
  by_cases searched : engine = .backtracking
  · subst searched
    cases holds with
    | @backtracking model network holds =>
      simp only [EngineModel.solve, read, true_and]
      exact search_of_idle idle positive holds clock limit readings
  · obtain ⟨others, declared⟩ := declared_of_idle idle positive
    obtain ⟨answer, solved, unsatisfiable, unasked⟩ :=
      (Encoding.refuted_of_load declared searched loaded).solve backend clock stated readings
    exact ⟨unasked, Or.inr ⟨answer, solved, Or.inl unsatisfiable⟩⟩

/-! ### Accepted problems -/

/-- For every problem, horizon and engine: what the encoding is about was declared, the engine takes
the encoding, and whatever was posted so far, each constraint finds its variables and the
propositional variables of its constants.  If no backend fails, solving gives an answer, unless the
time limit is more whole seconds than there can be a deadline for.  When it finds a solution, with a
sound backend, each step has a position of an action and each state variable on each layer one of a
domain value, so a plan of as many actions as there are steps and its states can be read off.  Where
there are steps but no actions, it never finds one, and without a time limit says so. -/
theorem accepted_safe (problem : Problem) (horizon : Nat) (engine : Engine) :
    problem.Resolves horizon ∧
    (∀ earlier posting later, (problem.encode horizon).postings = earlier ++ posting :: later →
      ∃ model next, { problem.encode horizon with postings := earlier }.load engine = .ok model ∧
        model.Serves engine posting.constraint ∧
        EngineModel.post posting.constraint model = (none, next)) ∧
    ∃ model, (problem.encode horizon).load engine = .ok model ∧
      ∀ (backend : Cnf.Backend) (clock : Clock) (stated : Value) (limit : TimeLimit)
        (readings : Nat), TimeLimit.ofValue stated = .ok limit →
        ((engine = .backtracking ∨ backend.Responds) → ¬ limit.Excessive →
          ∃ answer, (model.solve backend clock stated readings).outcome = .ok answer) ∧
        ((engine = .backtracking ∨ backend.Sound) → ∀ answer,
          (model.solve backend clock stated readings).outcome = .ok answer →
            answer.status = .satisfiable → problem.Readable horizon answer.values) ∧
        (problem.actions = [] → 0 < horizon →
          (model.solve backend clock stated readings).calls = [] ∧
            (engine = .backtracking ∧ limit.Excessive ∧
                (model.solve backend clock stated readings).outcome = .error .numberTooLarge ∨
              ∃ answer, (model.solve backend clock stated readings).outcome = .ok answer ∧
                (answer.status = .unsatisfiable ∨ engine = .backtracking ∧
                  answer.status = .timeout ∧
                  limit.deadline? (clock.reading readings) ≠ .ok none))) := by
  have wellFormed := wellFormed_encode problem horizon
  obtain ⟨model, loaded, holds⟩ := (problem.encode horizon).load_holds engine wellFormed
  refine ⟨resolves problem horizon, fun earlier posting later => exists_post problem horizon engine,
    model, loaded, fun backend clock stated limit readings read =>
      ⟨fun responds feasible =>
          holds.exists_solve_eq_ok wellFormed responds clock read feasible readings,
        fun sound answer solved satisfiable => ?_,
        fun idle positive => solve_of_idle idle positive loaded holds backend clock read readings⟩⟩
  rcases holds.solve_tolerates wellFormed sound read solved with answers | gaveUp
  · rcases answers with ⟨-, solution⟩ | ⟨unsatisfiable, -⟩
    · exact readable_of_within solution.within
    · exact nomatch satisfiable.symm.trans unsatisfiable
  · exact nomatch satisfiable.symm.trans gaveUp

/-- The lamp is to be lit, but there is no action that lights it. -/
def stuckLamp : Problem :=
  { lightingLamp with
    actions := []
    actionsKnown := fun _ member => absurd member List.not_mem_nil }

/-- One step lights the lamp, and none does where there is no action; the failing backend is not
asked then. -/
theorem accepted_safe_lightingLamp :
    (∃ model answer, (lightingLamp.encode 1).load .backtracking = .ok model ∧
      (model.solve Cnf.exhaustive .counting (.integer 0) 0).outcome = .ok answer ∧
      answer.values = [0, 0, 1] ∧ lightingLamp.Readable 1 answer.values) ∧
    ∃ model answer, (stuckLamp.encode 2).load (.clausal "cadical" false) = .ok model ∧
      (model.solve (fun _ => .error "gone") .counting (.integer 5) 0).outcome = .ok answer ∧
      answer.status = .unsatisfiable := by
  constructor
  · obtain ⟨-, -, model, loaded, meaning⟩ := accepted_safe lightingLamp 1 .backtracking
    obtain ⟨-, readable, -⟩ := meaning Cnf.exhaustive .counting (.integer 0) _ 0 rfl
    obtain rfl := Except.ok.inj (loaded.symm.trans rfl)
    exact ⟨_, _, loaded, rfl, rfl, readable (Or.inl rfl) _ rfl rfl⟩
  · obtain ⟨-, -, model, loaded, meaning⟩ := accepted_safe stuckLamp 2 (.clausal "cadical" false)
    obtain ⟨-, -, idle⟩ := meaning (fun _ => .error "gone") .counting (.integer 5) _ 0 rfl
    obtain ⟨-, answer, solved, status⟩ :=
      (idle rfl (by decide)).imp_right fun ended => ended.resolve_left fun searched =>
        nomatch searched.1
    exact ⟨model, answer, loaded, solved, status.resolve_right fun searched => nomatch searched.1⟩

end Problem

end HorizonPlanner
