/-
This file proves that diagnostics are exact.  A role is reported for a variable
exactly if it binds the variable to two positions of its domain, which is when
no state satisfies the role there.  So contradictory initial facts or goals leave
no plan of any length, and a contradictory action is taken in none.

The diagnostics count the facts about a variable.  That the count tells a clash
rests on what a set of facts is: two of its facts about one variable are never at
one position.
-/

import HorizonPlanner.Problem.Diagnostics
import HorizonPlanner.Proofs.Verification

namespace HorizonPlanner

/-! ### Facts that contradict each other -/

namespace FactSet

/-- Some two facts of the set bind the variable to different positions of its domain. -/
def ClashesOn (set : FactSet) (subject : StateVariable) : Prop :=
  ∃ first ∈ set.facts, ∃ second ∈ set.facts,
    first.subject = subject ∧ second.subject = subject ∧ first.index ≠ second.index

variable {set : FactSet} {subject : StateVariable}

/-- The facts of the set about one variable are at different positions. -/
theorem distinct_about (set : FactSet) (subject : StateVariable) :
    (set.facts.filter (·.subject == subject)).Pairwise fun first second =>
      first.index ≠ second.index := by
  refine (set.distinct.filter _).imp_of_mem fun {first second} member member' different same => ?_
  have about := eq_of_beq (List.mem_filter.mp member).2
  have about' := eq_of_beq (List.mem_filter.mp member').2
  rw [Fact.same_iff.mpr ⟨about.trans about'.symm, same⟩] at different
  cases different

/-- A variable has several facts in a set exactly if two of them clash. -/
theorem one_lt_length_iff :
    1 < (set.facts.filter (·.subject == subject)).length ↔ set.ClashesOn subject := by
  have among {fact : Fact} : fact ∈ set.facts.filter (·.subject == subject) ↔
      fact ∈ set.facts ∧ fact.subject = subject := by
    rw [List.mem_filter, beq_iff_eq]
  have distinct := distinct_about set subject
  generalize set.facts.filter (·.subject == subject) = facts at among distinct ⊢
  constructor
  · intro several
    match facts, several with
    | first :: second :: rest, _ =>
      obtain ⟨member, about⟩ := among.mp List.mem_cons_self
      obtain ⟨member', about'⟩ := among.mp (List.mem_cons_of_mem first List.mem_cons_self)
      exact ⟨first, member, second, member', about, about',
        (List.pairwise_cons.mp distinct).1 second List.mem_cons_self⟩
  · rintro ⟨first, member, second, member', about, about', different⟩
    by_contra single
    have here := among.mpr ⟨member, about⟩
    have there := among.mpr ⟨member', about'⟩
    obtain ⟨only, rfl⟩ := List.length_eq_one_iff.mp
      (Nat.le_antisymm (Nat.not_lt.mp single) (List.length_pos_of_mem here))
    rw [List.mem_singleton.mp here, List.mem_singleton.mp there] at different
    exact different rfl

/-- A variable is listed among the conflicts of a set exactly if two of its facts clash. -/
theorem exists_mem_conflicts_iff :
    (∃ values, (subject, values) ∈ set.conflicts) ↔ set.ClashesOn subject := by
  simp only [conflicts, List.mem_filter, List.mem_map, Prod.mk.injEq, decide_eq_true_eq]
  constructor
  · rintro ⟨_, ⟨other, _, rfl, rfl⟩, several⟩
    rw [List.length_map] at several
    exact one_lt_length_iff.mp several
  · intro clashes
    have ⟨first, member, _, _, about, _⟩ := clashes
    refine ⟨_, ⟨subject, ?_, rfl, rfl⟩, ?_⟩
    · rw [subjects, List.mem_eraseDups, List.mem_map]
      exact ⟨first, member, about⟩
    · rw [List.length_map]
      exact one_lt_length_iff.mpr clashes

end FactSet

namespace Problem

variable {problem : Problem} {set : FactSet} {subject : StateVariable}

/-- Facts clash on a variable exactly if no state has a value for it that satisfies them. -/
theorem clashesOn_iff_no_state (covered : set.Over problem.subjects) :
    set.ClashesOn subject ↔ ¬ ∃ state, problem.Total state ∧
      ∀ fact ∈ set.facts, fact.subject = subject →
        problem.valueOf state subject = fact.index := by
  constructor
  · rintro ⟨first, member, second, member', about, about', different⟩ ⟨state, _, satisfied⟩
    exact different ((satisfied first member about).symm.trans (satisfied second member' about'))
  · intro unsatisfied
    by_contra together
    -- Without a clash, any fact about the variable says where its value is.
    obtain ⟨place, inside, told⟩ : ∃ place < subject.size,
        ∀ fact ∈ set.facts, fact.subject = subject → fact.index = place := by
      by_cases some' : ∃ fact ∈ set.facts, fact.subject = subject
      · obtain ⟨first, member, rfl⟩ := some'
        refine ⟨first.index, first.index_lt, fun second member' about => ?_⟩
        by_contra different
        exact together ⟨second, member', first, member, about, rfl, different⟩
      · exact ⟨0, List.length_pos_of_ne_nil subject.nonempty,
          fun fact member about => absurd ⟨fact, member, about⟩ some'⟩
    refine unsatisfied ⟨problem.stateOf fun other => if other = subject then place else 0,
      total_stateOf fun other _ => ?_, fun fact member about => ?_⟩
    · split
      next same => exact same ▸ inside
      next => exact List.length_pos_of_ne_nil other.nonempty
    · rw [valueOf_stateOf _ (about ▸ covered fact member), if_pos rfl, told fact member about]

/-- Facts that a state satisfies do not clash. -/
theorem Satisfies.not_clashesOn {state : PlanState} (satisfied : problem.Satisfies state set)
    (subject : StateVariable) : ¬ set.ClashesOn subject := by
  rintro ⟨first, member, second, member', about, about', different⟩
  refine different ?_
  rw [← satisfied first member, ← satisfied second member', about, about']

/-! ### What is reported -/

/-- The facts that a role is about. -/
def factsIn (problem : Problem) : DiagnosedRole → FactSet
  | .initial => problem.initial
  | .goals => problem.goals
  | .effects action => action.effects
  | .preconditions action => action.preconditions

/-- A role is played in a problem if it is not that of an action the problem does not have. -/
def Plays (problem : Problem) : DiagnosedRole → Prop
  | .initial | .goals => True
  | .effects action | .preconditions action => action ∈ problem.actions

/-- Some diagnostic of a problem is about a role and a variable. -/
def Reports (problem : Problem) (role : DiagnosedRole) (subject : StateVariable) : Prop :=
  ∃ diagnostic ∈ problem.diagnostics, diagnostic.role = role ∧ diagnostic.subject = subject

/-- The effects or the preconditions of an action are reported for some variable. -/
def ReportsAction (problem : Problem) (action : Action) : Prop :=
  ∃ subject, problem.Reports (.effects action) subject ∨
    problem.Reports (.preconditions action) subject

end Problem

/-- The diagnostics of a set are about its role, one for each conflict. -/
theorem FactSet.mem_diagnostics_iff {set : FactSet} {role : DiagnosedRole}
    {diagnostic : Diagnostic} : diagnostic ∈ set.diagnostics role ↔
      diagnostic.role = role ∧ (diagnostic.subject, diagnostic.values) ∈ set.conflicts := by
  obtain ⟨role', subject, values⟩ := diagnostic
  simp only [diagnostics, List.mem_map, Prod.exists, Diagnostic.mk.injEq]
  constructor
  · rintro ⟨_, _, member, rfl, rfl, rfl⟩
    exact ⟨rfl, member⟩
  · rintro ⟨rfl, member⟩
    exact ⟨subject, values, member, rfl, rfl, rfl⟩

namespace Problem

variable {problem : Problem} {set : FactSet} {subject : StateVariable}

/-- The diagnostics of a problem are the conflicts of the roles that are played in it. -/
theorem mem_diagnostics_iff {diagnostic : Diagnostic} :
    diagnostic ∈ problem.diagnostics ↔ problem.Plays diagnostic.role ∧
      (diagnostic.subject, diagnostic.values) ∈ (problem.factsIn diagnostic.role).conflicts := by
  obtain ⟨role, subject, values⟩ := diagnostic
  simp only [diagnostics, Action.diagnostics, List.mem_append, List.mem_flatMap,
    FactSet.mem_diagnostics_iff]
  cases role <;> simp [Plays, factsIn]

/-- A role is reported for a variable exactly if it is played and its facts clash there. -/
theorem reports_iff {role : DiagnosedRole} :
    problem.Reports role subject ↔
      problem.Plays role ∧ (problem.factsIn role).ClashesOn subject := by
  rw [← FactSet.exists_mem_conflicts_iff]
  constructor
  · rintro ⟨diagnostic, member, rfl, rfl⟩
    obtain ⟨played, conflict⟩ := mem_diagnostics_iff.mp member
    exact ⟨played, _, conflict⟩
  · rintro ⟨played, values, conflict⟩
    exact ⟨⟨role, subject, values⟩, mem_diagnostics_iff.mpr ⟨played, conflict⟩, rfl, rfl⟩

/-! ### Contradictory actions -/

end Problem

namespace Action

/-- The effects or the preconditions of an action clash on some variable. -/
def Contradictory (action : Action) : Prop :=
  ∃ subject, action.effects.ClashesOn subject ∨ action.preconditions.ClashesOn subject

variable {action : Action}

theorem Consistent.not_clashesOn (consistent : action.Consistent) (subject : StateVariable) :
    ¬ action.effects.ClashesOn subject := by
  rintro ⟨first, member, second, member', about, about', different⟩
  exact different (consistent first member second member' (about.trans about'.symm))

/-- An action has no diagnostics exactly if it does not contradict itself. -/
theorem diagnostics_eq_nil_iff : action.diagnostics = [] ↔ ¬ action.Contradictory := by
  rw [Contradictory, List.eq_nil_iff_forall_not_mem, not_exists]
  simp only [diagnostics, List.mem_append, FactSet.mem_diagnostics_iff,
    ← FactSet.exists_mem_conflicts_iff]
  constructor
  · rintro silent subject (⟨values, conflict⟩ | ⟨values, conflict⟩)
    · exact silent ⟨_, subject, values⟩ (Or.inl ⟨rfl, conflict⟩)
    · exact silent ⟨_, subject, values⟩ (Or.inr ⟨rfl, conflict⟩)
  · rintro together diagnostic (⟨_, conflict⟩ | ⟨_, conflict⟩)
    · exact together diagnostic.subject (Or.inl ⟨_, conflict⟩)
    · exact together diagnostic.subject (Or.inr ⟨_, conflict⟩)

end Action

namespace Problem

variable {problem : Problem} {subject : StateVariable}

/-- The actions that are reported are those of the problem that contradict themselves. -/
theorem reportsAction_iff {action : Action} :
    problem.ReportsAction action ↔ action ∈ problem.actions ∧ action.Contradictory := by
  simp only [ReportsAction, reports_iff, Plays, factsIn, ← and_or_left, exists_and_left,
    Action.Contradictory]

/-- An action that can be taken and whose effects can be written does not contradict itself. -/
theorem Satisfies.not_contradictory {action : Action} {state : PlanState}
    (applicable : problem.Satisfies state action.preconditions) (consistent : action.Consistent) :
    ¬ action.Contradictory := by
  rintro ⟨subject, effects | preconditions⟩
  · exact consistent.not_clashesOn subject effects
  · exact applicable.not_clashesOn subject preconditions

theorem Succeeds.not_contradictory {plan : List Action} {start : PlanState}
    (succeeds : problem.Succeeds plan start) : ∀ action ∈ plan, ¬ action.Contradictory := by
  induction plan generalizing start with
  | nil => exact fun _ member => absurd member List.not_mem_nil
  | cons action rest inductionHypothesis =>
    obtain ⟨applicable, consistent, later⟩ := succeeds
    exact List.forall_mem_cons.mpr
      ⟨applicable.not_contradictory consistent, inductionHypothesis later⟩

/-- A reported action is chosen in no step of a solution. -/
theorem not_reportsAction_of_solution {horizon : Nat} {values : List Int}
    (solution : (problem.encode horizon).network.Solution values) {step index : Nat}
    (inside : step < horizon) (chosen : values[actionSlot step]? = some (index : Int))
    {action : Action} (found : problem.actions[index]? = some action) :
    ¬ problem.ReportsAction action := by
  have trajectory := trajectory_of_solution solution
  have state (layer : Nat) (placed : layer ≤ horizon) :
      (problem.statesOf horizon values)[layer]? = some _ := getElem?_statesOf.mpr ⟨placed, rfl⟩
  obtain ⟨other, found', taken⟩ := trajectory.steps step index _ _
    (getElem?_choicesOf.mpr ⟨inside, positionIn_of_getElem? chosen⟩)
    (state step (Nat.le_of_lt inside)) (state (step + 1) inside)
  obtain rfl := Option.some.inj (found.symm.trans found')
  rw [reportsAction_iff]
  rintro ⟨_, subject, effects | preconditions⟩
  · exact taken.effects.not_clashesOn subject effects
  · exact taken.preconditions.not_clashesOn subject preconditions

/-- Initial facts or goals that clash leave no plan. -/
theorem IsPlan.not_reports {choices : List Nat} (plan : problem.IsPlan choices)
    (subject : StateVariable) :
    ¬ (problem.Reports .initial subject ∨ problem.Reports .goals subject) := by
  obtain ⟨start, states, achieves⟩ := plan
  have last := List.getLast?_eq_some_getLast achieves.execution.states_ne_nil
  rw [reports_iff, reports_iff]
  rintro (⟨_, initial⟩ | ⟨_, goals⟩)
  · exact achieves.initial.not_clashesOn subject initial
  · exact (achieves.goals _ last).not_clashesOn subject goals

end Problem

end HorizonPlanner
