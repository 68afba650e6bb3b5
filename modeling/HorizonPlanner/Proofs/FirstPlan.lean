/-
This file proves which of several plans the backtracking engine finds.  It finds
the first solution in the order in which the variables of the encoding are
declared: the actions come before the states, so the plan is the first one in
lexicographic order; and since the state variables of a plan that is fixed do not
restrict each other, every one of them goes through the first positions it could
go through.

That the state variables can be taken one by one is shown by splicing: a run of
the plan stays one if it takes the course of one variable from another run.
-/

import Mathlib.Data.List.Lex
import HorizonPlanner.Proofs.Verification

namespace HorizonPlanner

namespace Problem

variable {problem : Problem}

/-! ### The course of a state variable -/

/-- The positions that a state variable goes through. -/
def course (problem : Problem) (states : List PlanState) (subject : StateVariable) : List Nat :=
  states.map (problem.valueOf · subject)

/-- What a state variable goes through depends on where it starts and on the actions only. -/
theorem course_eq_of_start {subject : StateVariable} (known : subject ∈ problem.subjects)
    {choices : List Nat} {start start' : PlanState} {states states' : List PlanState}
    (execution : problem.Execution start choices states)
    (execution' : problem.Execution start' choices states')
    (same : problem.valueOf start subject = problem.valueOf start' subject) :
    problem.course states subject = problem.course states' subject := by
  induction execution generalizing start' states' with
  | finished state =>
    cases execution'
    exact congrArg (fun value => [value]) same
  | @taken state index action rest states chosen _ _ _ inductionHypothesis =>
    obtain _ | @⟨_, _, action', _, states', chosen', _, _, execution'⟩ := execution'
    obtain rfl : action = action' := Option.some.inj (chosen.symm.trans chosen')
    have later : problem.course states subject = problem.course states' subject := by
      refine inductionHypothesis execution' ?_
      rw [valueOf_successor action _ known, valueOf_successor action _ known, same]
    show problem.valueOf state subject :: problem.course states subject =
      problem.valueOf start' subject :: problem.course states' subject
    rw [same, later]

/-- Total states are the same if all state variables go through the same positions. -/
theorem eq_of_courses {states states' : List PlanState}
    (total : ∀ state ∈ states, problem.Total state)
    (total' : ∀ state ∈ states', problem.Total state) (length : states.length = states'.length)
    (same : ∀ subject ∈ problem.subjects,
      problem.course states subject = problem.course states' subject) : states = states' := by
  refine List.ext_getElem length fun layer here there => ?_
  refine (total _ (List.getElem_mem here)).ext (total' _ (List.getElem_mem there)) ?_
  intro subject known
  have both := congrArg (·[layer]?) (same subject known)
  simpa [course, List.getElem?_eq_getElem here, List.getElem?_eq_getElem there] using both

/-! ### Splicing two states -/

/-- A state with the value of one state variable taken from another state. -/
def splice (problem : Problem) (subject : StateVariable) (state other : PlanState) : PlanState :=
  problem.stateOf fun known => problem.valueOf (if known = subject then other else state) known

theorem valueOf_splice {subject known : StateVariable} (member : known ∈ problem.subjects)
    (state other : PlanState) : problem.valueOf (problem.splice subject state other) known =
      problem.valueOf (if known = subject then other else state) known :=
  valueOf_stateOf _ member

theorem total_splice {subject : StateVariable} {state other : PlanState}
    (total : problem.Total state) (total' : problem.Total other) :
    problem.Total (problem.splice subject state other) := by
  refine total_stateOf fun known member => ?_
  split
  · exact total'.valueOf_lt member
  · exact total.valueOf_lt member

theorem satisfies_splice {subject : StateVariable} {state other : PlanState} {set : FactSet}
    (covered : set.Over problem.subjects) (satisfied : problem.Satisfies state set)
    (satisfied' : problem.Satisfies other set) :
    problem.Satisfies (problem.splice subject state other) set := by
  intro fact member
  rw [valueOf_splice (covered fact member)]
  split
  · exact satisfied' fact member
  · exact satisfied fact member

theorem successor_splice (action : Action) (subject : StateVariable) (state other : PlanState) :
    problem.successor action (problem.splice subject state other) =
      problem.splice subject (problem.successor action state)
        (problem.successor action other) := by
  refine stateOf_congr fun known member => ?_
  rw [valueOf_splice member]
  by_cases same : known = subject
  · rw [if_pos same, if_pos same, valueOf_successor action other member]
  · rw [if_neg same, if_neg same, valueOf_successor action state member]

/-- Actions that lead from two states to the goals lead there from the two spliced. -/
theorem Succeeds.splice {actions : List Action} {state other : PlanState}
    (covered : ∀ action ∈ actions, action.Over problem.subjects)
    (succeeds : problem.Succeeds actions state) (succeeds' : problem.Succeeds actions other)
    (subject : StateVariable) :
    problem.Succeeds actions (problem.splice subject state other) := by
  induction actions generalizing state other with
  | nil => exact satisfies_splice problem.goalsKnown succeeds succeeds'
  | cons action rest inductionHypothesis =>
    obtain ⟨here, there⟩ := List.forall_mem_cons.mp covered
    obtain ⟨applicable, consistent, later⟩ := succeeds
    obtain ⟨applicable', _, later'⟩ := succeeds'
    refine ⟨satisfies_splice here.preconditions applicable applicable', consistent, ?_⟩
    rw [successor_splice]
    exact inductionHypothesis there later later'

/-! ### Values that are never read -/

/-- Actions read the value that a state variable starts with: a precondition tests it before an
action overwrites it, or a goal does after the last action. -/
def Reads (problem : Problem) (subject : StateVariable) : List Action → Prop
  | [] => ∃ fact ∈ problem.goals.facts, fact.subject = subject
  | action :: rest => (∃ fact ∈ action.preconditions.facts, fact.subject = subject) ∨
      subject ∉ action.affected ∧ problem.Reads subject rest

/-- What an action overwrites makes no difference to the state after it. -/
theorem successor_eq_of_affected {action : Action} {subject : StateVariable}
    (affected : subject ∈ action.affected) {state other : PlanState}
    (same : ∀ known ∈ problem.subjects, known ≠ subject →
      problem.valueOf other known = problem.valueOf state known) :
    problem.successor action other = problem.successor action state := by
  refine stateOf_congr fun known member => ?_
  by_cases distinct : known = subject
  · subst distinct
    obtain ⟨_, _, _, found⟩ := Action.exists_effect affected
    rw [found, Option.getD_some, Option.getD_some]
  · rw [same known member distinct]

/-- The value that a state variable starts with makes no difference if it is not read. -/
theorem Succeeds.of_unread {subject : StateVariable} {actions : List Action}
    {state other : PlanState} (covered : ∀ action ∈ actions, action.Over problem.subjects)
    (succeeds : problem.Succeeds actions state) (unread : ¬ problem.Reads subject actions)
    (same : ∀ known ∈ problem.subjects, known ≠ subject →
      problem.valueOf other known = problem.valueOf state known) :
    problem.Succeeds actions other := by
  induction actions generalizing state other with
  | nil =>
    intro fact member
    have apart : fact.subject ≠ subject := fun about => unread ⟨fact, member, about⟩
    rw [same fact.subject (problem.goalsKnown fact member) apart]
    exact succeeds fact member
  | cons action rest inductionHypothesis =>
    obtain ⟨here, there⟩ := List.forall_mem_cons.mp covered
    obtain ⟨applicable, consistent, later⟩ := succeeds
    obtain ⟨untested, unread⟩ := not_or.mp unread
    refine ⟨fun fact member => ?_, consistent, ?_⟩
    · rw [same fact.subject (here.preconditions fact member) fun about =>
        untested ⟨fact, member, about⟩]
      exact applicable fact member
    · by_cases affected : subject ∈ action.affected
      · rwa [successor_eq_of_affected affected same]
      · refine inductionHypothesis there later (fun read => unread ⟨affected, read⟩) ?_
        intro known member distinct
        rw [valueOf_successor action other member, valueOf_successor action state member,
          same known member distinct]

/-! ### The table of a run -/

/-- The positions that a run chooses, in the order of the variables of the encoding: its actions,
then the courses of the state variables. -/
def table (problem : Problem) (choices : List Nat) (states : List PlanState) : List Nat :=
  choices ++ problem.subjects.flatMap (problem.course states)

theorem map_range_getD {β γ : Type} (items : List β) (missing : β) (image : β → γ) :
    ((List.range items.length).map fun place => image (items.getD place missing)) =
      items.map image := by
  refine List.ext_getElem (by simp) fun place here there => ?_
  rw [List.length_map] at there
  rw [List.getElem_map, List.getElem_map, List.getElem_range, List.getD_eq_getElem _ _ there]

variable {horizon : Nat} {choices : List Nat} {states : List PlanState}

theorem valuesOf_eq_table (trajectory : problem.Trajectory horizon choices states) :
    problem.valuesOf horizon choices states = (problem.table choices states).map Nat.cast := by
  have layers : ∀ subject, ((List.range states.length).map fun layer =>
      (problem.valueOf (states.getD layer []) subject : Int)) =
        (problem.course states subject).map Nat.cast := by
    intro subject
    rw [course, List.map_map]
    exact map_range_getD states [] fun state => (problem.valueOf state subject : Int)
  rw [valuesOf, tabulate, ← trajectory.states_length, ← trajectory.choices_length,
    map_range_getD choices 0 fun index => (index : Int), table, List.map_append, List.map_flatMap]
  exact congrArg _ (List.flatMap_congr fun subject _ => layers subject)

/-- The domain of a variable counts from zero. -/
def Counts (entry : Variable Int) : Prop := ∃ count, entry.values = positions count

theorem Counts.mem_iff {entry : Variable Int} (counts : Counts entry) {place : Nat} :
    (place : Int) ∈ entry.values ↔ place < entry.values.length := by
  obtain ⟨count, same⟩ := counts
  rw [same, length_positions, mem_positions_iff]
  constructor
  · rintro ⟨other, inside, equal⟩
    rwa [Int.natCast_inj.mp equal]
  · exact fun inside => ⟨place, inside, rfl⟩

theorem Counts.getD_eq {entry : Variable Int} (counts : Counts entry) {place : Nat}
    (inside : place < entry.values.length) : entry.values.getD place Symbol.zero = place := by
  obtain ⟨count, same⟩ := counts
  rw [List.getD_eq_getElem _ _ inside]
  simp [same, positions]

section

variable {declared : List (Variable Int)} {places : List Nat}

theorem placed_iff_within (counting : ∀ entry ∈ declared, Counts entry) :
    Network.Placed declared places ↔ Network.Within declared (places.map Nat.cast) := by
  induction declared generalizing places with
  | nil =>
    rw [Network.Placed, Network.Within, List.forall₂_nil_left_iff, List.forall₂_nil_left_iff,
      List.map_eq_nil_iff]
  | cons entry rest inductionHypothesis =>
    obtain ⟨here, there⟩ := List.forall_mem_cons.mp counting
    cases places with
    | nil =>
      constructor
      · intro impossible
        cases impossible
      · intro impossible
        cases impossible
    | cons place others =>
      rw [Network.Placed, Network.Within, List.map_cons, List.forall₂_cons, List.forall₂_cons,
        here.mem_iff]
      exact and_congr_right fun _ => inductionHypothesis there

theorem valuesAt_eq (counting : ∀ entry ∈ declared, Counts entry)
    (placed : Network.Placed declared places) :
    Network.valuesAt declared places = places.map Nat.cast := by
  induction placed with
  | nil => rfl
  | cons inside _ inductionHypothesis =>
    obtain ⟨here, there⟩ := List.forall_mem_cons.mp counting
    rw [Network.valuesAt, List.zipWith_cons_cons, here.getD_eq inside, List.map_cons]
    exact congrArg _ (inductionHypothesis there)

end

theorem counts_encodedVariables (problem : Problem) (horizon : Nat) :
    ∀ entry ∈ problem.encodedVariables horizon, Counts entry := by
  rw [encodedVariables, List.forall_mem_append, List.forall_mem_map, List.forall_mem_flatMap]
  refine ⟨fun _ _ => ⟨_, rfl⟩, fun subject _ => ?_⟩
  rw [List.forall_mem_map]
  exact fun _ _ => ⟨_, rfl⟩

/-- The table of a trajectory holds the positions of a solution. -/
theorem placedSolution_table (trajectory : problem.Trajectory horizon choices states) :
    (problem.encode horizon).network.PlacedSolution (problem.table choices states) := by
  have counting := counts_encodedVariables problem horizon
  obtain ⟨within, satisfied⟩ := solution_of_trajectory trajectory
  rw [valuesOf_eq_table trajectory] at within satisfied
  have placed := (placed_iff_within counting).mpr within
  rw [← valuesAt_eq counting placed] at satisfied
  exact ⟨placed, satisfied⟩

/-- The positions of a solution are the table of a trajectory. -/
theorem exists_table {places : List Nat}
    (solution : (problem.encode horizon).network.PlacedSolution places) :
    ∃ choices states, problem.Trajectory horizon choices states ∧
      places = problem.table choices states ∧
      Network.valuesAt (problem.encode horizon).network.declared places =
        problem.valuesOf horizon choices states := by
  have within := Network.within_valuesAt solution.placed
  have trajectory := trajectory_of_solution ⟨within, solution.satisfied⟩
  have values := eq_of_same_run within (within_valuesOf trajectory)
    (choicesOf_valuesOf trajectory).symm (statesOf_valuesOf trajectory).symm
  refine ⟨_, _, trajectory, ?_, values⟩
  rw [valuesOf_eq_table trajectory] at values
  have counted : Network.valuesAt (problem.encode horizon).network.declared places =
      places.map Nat.cast := valuesAt_eq (counts_encodedVariables problem horizon) solution.placed
  exact List.map_injective_iff.mpr (fun _ _ same => Int.natCast_inj.mp same)
    (counted.symm.trans values)

/-! ### The first table -/

/-- Among lists of one length, the order is decided by the first parts unless they are the same. -/
theorem lex_append {first second : List Nat} (before : List.Lex (· < ·) first second)
    (length : first.length = second.length) (rest rest' : List Nat) :
    List.Lex (· < ·) (first ++ rest) (second ++ rest') := by
  induction before with
  | nil => cases length
  | rel smaller => exact .rel smaller
  | cons _ inductionHypothesis => exact .cons (inductionHypothesis (Nat.succ.inj length))

/-- A trajectory whose table comes first among those of its length. -/
structure FirstTable (problem : Problem) (horizon : Nat) (choices : List Nat)
    (states : List PlanState) : Prop where
  trajectory : problem.Trajectory horizon choices states
  first : ∀ choices' states', problem.Trajectory horizon choices' states' →
    ¬ List.Lex (· < ·) (problem.table choices' states') (problem.table choices states)

/-- What the backtracking engine finds is decoded from the first table. -/
theorem exists_firstTable {answer : Answer Int}
    (first : Backtracking.AnswersFirst (problem.encode horizon).network answer)
    (satisfiable : answer.status = .satisfiable) :
    ∃ choices states, problem.FirstTable horizon choices states ∧
      answer.values = problem.valuesOf horizon choices states := by
  rcases first with ⟨_, places, solution, values, least⟩ | ⟨unsatisfiable, _⟩
  · obtain ⟨choices, states, trajectory, rfl, same⟩ := exists_table solution
    refine ⟨choices, states, ⟨trajectory, fun choices' states' trajectory' => ?_⟩,
      values.trans same⟩
    exact least _ (placedSolution_table trajectory')
  · rw [satisfiable] at unsatisfiable
    cases unsatisfiable

/-- The first table chooses the first actions. -/
theorem FirstTable.choices_first (first : problem.FirstTable horizon choices states)
    {other : List Nat} (plan : problem.IsPlan other) (length : other.length = horizon) :
    ¬ List.Lex (· < ·) other choices := by
  intro before
  obtain ⟨start, states', achieves⟩ := plan
  have trajectory := trajectory_iff.mpr ⟨length, start, achieves⟩
  have equal : other.length = choices.length := by
    rw [length, first.trajectory.choices_length]
  exact first.first other states' trajectory (lex_append before equal _ _)

/-- Two runs of the same choices can be spliced: one state variable goes its way in the second run,
the others go theirs in the first. -/
theorem Achieves.exists_splice {start start' : PlanState} {states' : List PlanState}
    (achieves : problem.Achieves choices start states)
    (achieves' : problem.Achieves choices start' states')
    (inside : ∀ index ∈ choices, index < problem.actions.length) (subject : StateVariable) :
    ∃ spliced, problem.Achieves choices (problem.splice subject start start') spliced ∧
      ∀ known ∈ problem.subjects, problem.course spliced known =
        problem.course (if known = subject then states' else states) known := by
  have succeeds := (succeeds_iff_execution inside).mpr ⟨_, achieves.execution, achieves.goals⟩
  have succeeds' := (succeeds_iff_execution inside).mpr ⟨_, achieves'.execution, achieves'.goals⟩
  obtain ⟨spliced, execution, goals⟩ := (succeeds_iff_execution inside).mp
    (succeeds.splice (over_actionsAt choices) succeeds' subject)
  refine ⟨spliced, ⟨total_splice achieves.total achieves'.total,
    satisfies_splice problem.initialKnown achieves.initial achieves'.initial, execution, goals⟩, ?_⟩
  intro known member
  have start_eq : problem.valueOf (problem.splice subject start start') known =
      problem.valueOf (if known = subject then start' else start) known :=
    valueOf_splice member start start'
  by_cases same : known = subject
  · rw [if_pos same] at start_eq ⊢
    exact course_eq_of_start member execution achieves'.execution start_eq
  · rw [if_neg same] at start_eq ⊢
    exact course_eq_of_start member execution achieves.execution start_eq

theorem Trajectory.choices_inside (trajectory : problem.Trajectory horizon choices states) :
    ∀ index ∈ choices, index < problem.actions.length := by
  intro index member
  obtain ⟨step, chosen⟩ := List.mem_iff_getElem?.mp member
  exact choice_lt trajectory chosen

/-- In the first table every state variable has the first course that the actions allow. -/
theorem FirstTable.course_first (first : problem.FirstTable horizon choices states)
    {start' : PlanState} {states' : List PlanState}
    (achieves' : problem.Achieves choices start' states') {subject : StateVariable}
    (known : subject ∈ problem.subjects) :
    ¬ List.Lex (· < ·) (problem.course states' subject) (problem.course states subject) := by
  intro smaller
  have trajectory := first.trajectory
  obtain ⟨length, start, achieves⟩ := trajectory_iff.mp trajectory
  obtain ⟨spliced, achieves'', courses⟩ :=
    achieves.exists_splice achieves' trajectory.choices_inside subject
  refine first.first choices spliced (trajectory_iff.mpr ⟨length, _, achieves''⟩) ?_
  -- The tables are the same up to the course of this variable, and there the spliced run is ahead.
  obtain ⟨before, after, split⟩ := List.append_of_mem known
  have apart : ∀ other ∈ before, other ≠ subject := by
    rintro other member rfl
    have distinct := problem.distinct
    rw [split] at distinct
    exact List.disjoint_of_nodup_append distinct member List.mem_cons_self
  have earlier : before.flatMap (problem.course spliced) =
      before.flatMap (problem.course states) := by
    refine List.flatMap_congr fun other member => ?_
    have known' : other ∈ problem.subjects := split ▸ List.mem_append_left _ member
    rw [courses other known', if_neg (apart other member)]
  have here : problem.course spliced subject = problem.course states' subject := by
    rw [courses subject known, if_pos rfl]
  have length' : (problem.course states' subject).length =
      (problem.course states subject).length := by
    rw [course, course, List.length_map, List.length_map, achieves.execution.states_length,
      achieves'.execution.states_length]
  rw [table, table, split, List.flatMap_append, List.flatMap_append, List.flatMap_cons,
    List.flatMap_cons, earlier, here]
  exact .append_left _ (.append_left _ (lex_append smaller length' _ _) _) _

theorem Execution.exists_course {start : PlanState}
    (execution : problem.Execution start choices states) (subject : StateVariable) :
    ∃ later, problem.course states subject = problem.valueOf start subject :: later := by
  cases execution <;> exact ⟨_, rfl⟩

/-- In the first table a state variable whose first value is not asked for starts at the first
position of its domain. -/
theorem FirstTable.valueOf_start (first : problem.FirstTable horizon choices states)
    {start : PlanState} (achieves : problem.Achieves choices start states)
    {subject : StateVariable} (known : subject ∈ problem.subjects)
    (free : ∀ fact ∈ problem.initial.facts, fact.subject ≠ subject)
    (unread : ¬ problem.Reads subject (problem.actionsAt choices)) :
    problem.valueOf start subject = 0 := by
  have inside := first.trajectory.choices_inside
  let zero := problem.stateOf fun _ => 0
  let restart := problem.splice subject start zero
  have same : ∀ known ∈ problem.subjects, known ≠ subject →
      problem.valueOf restart known = problem.valueOf start known := by
    intro known member distinct
    rw [valueOf_splice member, if_neg distinct]
  have restarted : problem.valueOf restart subject = 0 := by
    rw [valueOf_splice known, if_pos rfl, valueOf_stateOf _ known]
  have total : problem.Total restart := total_splice achieves.total
    (total_stateOf fun other _ => List.length_pos_of_ne_nil other.nonempty)
  have initial : problem.Satisfies restart problem.initial := by
    intro fact member
    rw [same fact.subject (problem.initialKnown fact member) (free fact member)]
    exact achieves.initial fact member
  have succeeds := (succeeds_iff_execution inside).mpr ⟨_, achieves.execution, achieves.goals⟩
  obtain ⟨states', execution, goals⟩ := (succeeds_iff_execution inside).mp
    (succeeds.of_unread (over_actionsAt choices) unread same)
  obtain ⟨later, course⟩ := achieves.execution.exists_course subject
  obtain ⟨later', course'⟩ := execution.exists_course subject
  have order := first.course_first ⟨total, initial, execution, goals⟩ known
  rw [course, course', restarted] at order
  by_contra positive
  exact order (.rel (Nat.pos_of_ne_zero positive))

/-! ### The plan that is found -/

/-- How a plan is carried out in the first way: from any other start, every state variable goes
through positions that do not come before these, only these do so for all variables, and a variable
whose first value is not asked for starts at the first position of its domain. -/
structure FirstRun (problem : Problem) (choices : List Nat) (start : PlanState)
    (states : List PlanState) : Prop where
  achieves : problem.Achieves choices start states
  first : ∀ start' states', problem.Achieves choices start' states' →
    ∀ subject ∈ problem.subjects,
      ¬ List.Lex (· < ·) (problem.course states' subject) (problem.course states subject)
  only : ∀ start' states', problem.Achieves choices start' states' →
    (∀ subject ∈ problem.subjects,
      ¬ List.Lex (· < ·) (problem.course states subject) (problem.course states' subject)) →
    states' = states
  unread : ∀ subject ∈ problem.subjects, (∀ fact ∈ problem.initial.facts, fact.subject ≠ subject) →
    ¬ problem.Reads subject (problem.actionsAt choices) → problem.valueOf start subject = 0

/-- What is shown of a plan is that it is the first one of its length, carried out in the first
way. -/
structure ShowsFirst (problem : Problem) (plan : FoundPlan) : Prop where
  choices_length : plan.choices.length = plan.horizon
  choices_first : ∀ other, problem.IsPlan other → other.length = plan.horizon →
    ¬ List.Lex (· < ·) other plan.choices
  carried : ∃ start states, problem.FirstRun plan.choices start states ∧
    plan.states = states.map problem.display

theorem FirstTable.exists_firstRun (first : problem.FirstTable horizon choices states) :
    ∃ start, problem.FirstRun choices start states := by
  obtain ⟨_, start, achieves⟩ := trajectory_iff.mp first.trajectory
  refine ⟨start, achieves, fun start' states' achieves' subject => first.course_first achieves',
    fun start' states' achieves' order => ?_, fun subject => first.valueOf_start achieves⟩
  refine eq_of_courses (achieves'.execution.total achieves'.total)
    (achieves.execution.total achieves.total) ?_ fun subject known => ?_
  · rw [achieves'.execution.states_length, achieves.execution.states_length]
  · exact Std.Trichotomous.trichotomous (r := List.Lex (· < ·)) _ _
      (first.course_first achieves' known) (order subject known)

theorem FirstTable.showsFirst (first : problem.FirstTable horizon choices states) :
    problem.ShowsFirst ⟨horizon, choices, states.map problem.display⟩ := by
  obtain ⟨start, run⟩ := first.exists_firstRun
  exact ⟨first.trajectory.choices_length, fun other => first.choices_first, start, states, run, rfl⟩

/-- A plan that a search found was decoded from the answer to its horizon. -/
theorem exists_solved_of_found {solve : HorizonSolver} {limit : Value}
    {remaining horizon readings : Nat} {status : Status} {sizes : List (EncodingSizes Nat)}
    {report : SearchReport}
    (searched : problem.searchFrom limit solve horizon readings status sizes remaining = .ok report)
    {plan : FoundPlan} (found : report.found = some plan) :
    ∃ readings' solved, solve plan.horizon readings' = .ok solved ∧
      solved.answer.status = .satisfiable ∧
      problem.decodePlan plan.horizon solved.answer.values = .ok plan.choices ∧
      problem.decodeStates plan.horizon solved.answer.values = .ok plan.states := by
  induction remaining generalizing horizon readings status sizes with
  | zero =>
    cases searched
    cases found
  | succ remaining inductionHypothesis =>
    rw [searchFrom] at searched
    obtain ⟨solved, ran, continued⟩ := bind_eq_ok_iff.mp searched
    cases ended : solved.answer.status with
    | satisfiable =>
      simp only [ended] at continued
      obtain ⟨choices, decoded, continued⟩ := bind_eq_ok_iff.mp continued
      obtain ⟨states, decoded', continued⟩ := bind_eq_ok_iff.mp continued
      cases continued
      cases found
      exact ⟨readings, solved, ran, ended, decoded, decoded'⟩
    | timeout =>
      simp only [ended] at continued
      cases continued
      cases found
    | unsatisfiable | failure | other code =>
      simp only [ended] at continued
      exact inductionHypothesis continued

theorem solveHorizon_answersFirst (problem : Problem) {choice : EngineChoice}
    (backend : Cnf.Backend) (clock : Clock) {limit : TimeLimit}
    (named : Engine.ofValue choice.name = .ok .backtracking)
    (stated : TimeLimit.ofValue choice.limit = .ok limit) (unlimited : limit.Absent)
    {horizon readings : Nat} {solved : HorizonReport}
    (ran : problem.solveHorizon choice backend clock horizon readings = .ok solved) :
    Backtracking.AnswersFirst (problem.encode horizon).network solved.answer := by
  have wellFormed := wellFormed_encode problem horizon
  obtain ⟨model, loaded, holds⟩ := (problem.encode horizon).load_holds .backtracking wellFormed
  rw [solveHorizon, named, ok_bind] at ran
  obtain ⟨answer, answered, rfl⟩ := (Encoding.solve_eq_ok_iff loaded).mp ran
  cases holds with
  | backtracking holds =>
    obtain ⟨first, solved, right⟩ := Backtracking.solve_answersFirst holds wellFormed clock
      (unlimited (clock.reading readings))
    simp only [EngineModel.solve, stated] at answered
    obtain rfl := Except.ok.inj (solved.symm.trans answered)
    exact right

/-- Without a time limit, the plan that a search with the backtracking engine finds is the first one
of its length in the order of the actions, and it is carried out in the first way. -/
theorem search_first (problem : Problem) (choice : EngineChoice) (backend : Cnf.Backend)
    (clock : Clock) {limit : TimeLimit} (named : Engine.ofValue choice.name = .ok .backtracking)
    (stated : TimeLimit.ofValue choice.limit = .ok limit) (unlimited : limit.Absent) :
    ∃ report, problem.search choice.limit (problem.solveHorizon choice backend clock) =
        .ok report ∧
      ∀ plan, report.found = some plan → problem.ShowsFirst plan := by
  obtain ⟨report, searched, _⟩ :=
    search_decides problem choice backend clock named stated unlimited (Or.inl rfl)
  refine ⟨report, searched, fun plan found => ?_⟩
  obtain ⟨_, ended, rfl⟩ := map_eq_ok_iff.mp searched
  obtain ⟨readings, solved, ran, satisfiable, decoded, decoded'⟩ :=
    exists_solved_of_found ended found
  obtain ⟨choices, states, first, values⟩ := exists_firstTable
    (solveHorizon_answersFirst problem backend clock named stated unlimited ran) satisfiable
  have trajectory := first.trajectory
  have within := within_valuesOf trajectory
  rw [values, decodePlan_eq within, choicesOf_valuesOf trajectory] at decoded
  rw [values, decodeStates_eq within, statesOf_valuesOf trajectory] at decoded'
  obtain ⟨horizon, _, _⟩ := plan
  cases decoded
  cases decoded'
  exact first.showsFirst

/-- The choice of the backtracking engine, without a time limit. -/
def byBacktracking : EngineChoice :=
  ⟨.text (Text.Passage.ofString Engine.backtrackingName), .integer 0⟩

theorem engine_byBacktracking : Engine.ofValue byBacktracking.name = .ok .backtracking := by
  decide +kernel

/-- A dial that no fact is about. -/
def dial : StateVariable where
  key := 1
  name := .integer 1
  values := [.integer 5, .integer 6]
  owner := none
  nonempty := by decide
  distinct := by decide
  hashable := by decide

/-- The lamp with a second switch like the first one, and a dial beside it. -/
def twoSwitches : Problem where
  subjects := [lamp, dial]
  actions := lightingLamp.actions ++ lightingLamp.actions
  initial := lightingLamp.initial
  goals := lightingLamp.goals
  bound := lightingLamp.bound
  distinct := by decide
  initialKnown := by simp [FactSet.Over, lightingLamp]
  goalsKnown := by simp [FactSet.Over, lightingLamp]
  actionsKnown := by
    have known : ∀ action ∈ lightingLamp.actions, action.Over [lamp, dial] := by
      refine List.forall_mem_singleton.mpr ⟨?_, ?_, _, rfl⟩ <;> simp [FactSet.Over]
    exact List.forall_mem_append.mpr ⟨known, known⟩

theorem search_first_twoSwitches :
    ∃ report plan, twoSwitches.search byBacktracking.limit
        (twoSwitches.solveHorizon byBacktracking Cnf.exhaustive .counting) = .ok report ∧
      report.found = some plan ∧ twoSwitches.ShowsFirst plan ∧ plan.choices = [0] ∧
      plan.states = [[(lamp, .boolean false), (dial, .integer 5)],
        [(lamp, .boolean true), (dial, .integer 5)]] := by
  obtain ⟨report, searched, first⟩ := search_first twoSwitches byBacktracking Cnf.exhaustive
    .counting engine_byBacktracking rfl TimeLimit.unlimited_absent
  have shown : (twoSwitches.search byBacktracking.limit
      (twoSwitches.solveHorizon byBacktracking Cnf.exhaustive .counting)).toOption.bind
        (fun report => report.found.map fun plan => (plan.choices, plan.states)) =
      some ([0], [[(lamp, .boolean false), (dial, .integer 5)],
        [(lamp, .boolean true), (dial, .integer 5)]]) := by
    decide +kernel
  rw [searched] at shown
  obtain ⟨plan, found, same⟩ := Option.map_eq_some_iff.mp shown
  obtain ⟨choices, states⟩ := Prod.mk.inj same
  exact ⟨report, plan, searched, found, first plan found, choices, states⟩

end Problem

end HorizonPlanner
