/-
This file says when a problem is made of its parts.  The parts of a problem make
it again.  Where all facts are about known variables, a problem is refused for
its bound, for a variable that is listed twice or for the title of an action,
and for nothing else.
-/

import Mathlib.Data.Fintype.Basic
import HorizonPlanner.Problem
import HorizonPlanner.Proofs.Outcome

namespace HorizonPlanner

/-! ### Sets of facts -/

/-- The facts of a set are among those it was made of. -/
theorem FactSet.mem_of_mem_ofList {facts : List Fact} :
    ∀ fact ∈ (FactSet.ofList facts).facts, fact ∈ facts := by
  have start : ∀ fact ∈ FactSet.empty.facts, fact ∈ facts :=
    fun _ member => absurd member List.not_mem_nil
  refine List.foldlRecOn facts insert
    (motive := fun set => ∀ fact ∈ set.facts, fact ∈ facts) start
    fun set drawn fact among other member => ?_
  rw [insert] at member
  split at member
  next =>
    rcases List.mem_append.mp member with member | last
    · exact drawn other member
    · exact List.mem_singleton.mp last ▸ among
  next => exact drawn other member

theorem FactSet.ofList_over {facts : List Fact} {subjects : List StateVariable}
    (known : ∀ fact ∈ facts, fact.subject ∈ subjects) : (FactSet.ofList facts).Over subjects :=
  fun fact member => known fact (mem_of_mem_ofList fact member)

/-- Facts of which no two are the same are all entered. -/
theorem FactSet.facts_ofList {facts : List Fact}
    (distinct : facts.Pairwise fun first second => first.same second = false) :
    (FactSet.ofList facts).facts = facts := by
  induction facts using List.reverseRecOn with
  | nil => rfl
  | append_singleton before fact inductionHypothesis =>
    obtain ⟨earlier, _, fresh⟩ := List.pairwise_append.mp distinct
    have entered : ofList (before ++ [fact]) = (ofList before).insert fact := List.foldl_concat ..
    have fresh : ∀ known ∈ (ofList before).facts, known.same fact = false := by
      rw [inductionHypothesis earlier]
      exact fun known member => fresh known member fact (List.mem_singleton_self fact)
    rw [entered, insert, dif_pos fresh]
    exact congrArg (· ++ [fact]) (inductionHypothesis earlier)

/-! ### Parts that are accepted -/

/-- A bound is what its stated value says. -/
theorem HorizonBound.ofValue_stated (bound : HorizonBound) :
    HorizonBound.ofValue bound.stated = .ok bound := by
  obtain ⟨stated, steps, positive, agrees⟩ := bound
  rw [ofValue]
  split
  next missing => cases agrees.symm.trans missing
  next number found =>
    obtain rfl : (steps : Int) = number := Option.some.inj (agrees.symm.trans found)
    rw [dif_pos (Int.natCast_pos.mpr positive)]
    rfl

theorem FactSet.check_eq_ok {set : FactSet} {subjects : List StateVariable}
    (covered : set.Over subjects) (role : String) : set.check subjects role = .ok ⟨covered⟩ := by
  rw [check]
  split
  next fact found =>
    have foreign := List.find?_some found
    exact absurd (covered fact (List.mem_of_find?_eq_some found)) (of_decide_eq_true foreign)
  next => rfl

theorem Action.check_eq_ok {action : Action} {subjects : List StateVariable}
    (covered : action.Over subjects) : action.check subjects = .ok ⟨covered⟩ := by
  obtain ⟨title, titled⟩ := covered.titled
  rw [check]
  split
  next fault refused => cases titled.symm.trans refused
  next => rw [FactSet.check_eq_ok covered.preconditions, FactSet.check_eq_ok covered.effects]; rfl

theorem checkActions_eq_ok {subjects : List StateVariable} {actions : List Action}
    (covered : ∀ action ∈ actions, action.Over subjects) :
    checkActions subjects actions = .ok ⟨covered⟩ := by
  induction actions with
  | nil => rfl
  | cons action rest inductionHypothesis =>
    obtain ⟨here, there⟩ := List.forall_mem_cons.mp covered
    rw [checkActions, Action.check_eq_ok here, inductionHypothesis there]
    rfl

/-- A problem can be put together from its parts. -/
theorem Problem.create_parts (problem : Problem) :
    create problem.subjects problem.actions problem.initial problem.goals problem.bound.stated =
      .ok problem := by
  rw [create, HorizonBound.ofValue_stated, ok_bind, dif_pos problem.distinct,
    FactSet.check_eq_ok problem.initialKnown, FactSet.check_eq_ok problem.goalsKnown,
    checkActions_eq_ok problem.actionsKnown]
  rfl

/-- A problem has the parts that it was put together from. -/
theorem Problem.create_eq_ok {subjects : List StateVariable} {actions : List Action}
    {initial goals : FactSet} {bound : Value} {problem : Problem}
    (made : create subjects actions initial goals bound = .ok problem) :
    problem.subjects = subjects ∧ problem.actions = actions ∧ problem.initial = initial ∧
      problem.goals = goals ∧ problem.bound.stated = bound := by
  obtain ⟨found, accepted, later⟩ := bind_eq_ok_iff.mp made
  have stated : found.stated = bound := by
    unfold HorizonBound.ofValue at accepted
    split at accepted
    next => cases accepted
    next =>
      split at accepted
      next =>
        cases accepted
        rfl
      next => cases accepted
  by_cases distinct : subjects.Nodup
  · rw [dif_pos distinct] at later
    obtain ⟨_, _, later⟩ := bind_eq_ok_iff.mp later
    obtain ⟨_, _, later⟩ := bind_eq_ok_iff.mp later
    obtain ⟨_, _, whole⟩ := bind_eq_ok_iff.mp later
    cases whole
    exact ⟨rfl, rfl, rfl, rfl, stated⟩
  · rw [dif_neg distinct] at later
    cases later

/-- An action has a title exactly if its name is a text or counts as nothing. -/
theorem Action.exists_title_iff {action : Action} : (∃ title, action.title = .ok title) ↔
    (∃ content, action.name = .text content) ∨ action.name.isTruthy = false := by
  rw [title]
  split
  next truthy =>
    split
    next content called => exact iff_of_true ⟨_, rfl⟩ (Or.inl ⟨content, called⟩)
    next noText =>
      refine iff_of_false (fun ⟨_, titled⟩ => nomatch titled) ?_
      rintro (⟨content, called⟩ | falsy)
      · exact noText content called
      · exact Bool.false_ne_true (falsy.symm.trans truthy)
  next falsy => exact iff_of_true ⟨_, rfl⟩ (Or.inr (Bool.not_eq_true _ ▸ falsy))

/-- Known and different parts make a problem exactly if the bound is a positive whole number and
every action has a title. -/
theorem Problem.exists_create_iff {subjects : List StateVariable} {actions : List Action}
    {initial goals : FactSet} {bound : Value} (distinct : subjects.Nodup)
    (initialKnown : initial.Over subjects) (goalsKnown : goals.Over subjects)
    (covered : ∀ action ∈ actions,
      action.preconditions.Over subjects ∧ action.effects.Over subjects) :
    (∃ problem, create subjects actions initial goals bound = .ok problem) ↔
      (∃ steps : Int, bound.wholeNumber? = some steps ∧ 0 < steps) ∧
        ∀ action ∈ actions, ∃ title, action.title = .ok title := by
  constructor
  · rintro ⟨problem, made⟩
    obtain ⟨_, rfl, _, _, rfl⟩ := create_eq_ok made
    exact ⟨⟨_, problem.bound.agrees, Int.natCast_pos.mpr problem.bound.positive⟩,
      fun action member => (problem.actionsKnown action member).titled⟩
  · rintro ⟨⟨steps, agrees, positive⟩, titled⟩
    have whole : (steps.toNat : Int) = steps := Int.toNat_of_nonneg positive.le
    have above : 0 < steps.toNat := Int.natCast_pos.mp (whole ▸ positive)
    have known : ∀ action ∈ actions, action.Over subjects := fun action member =>
      ⟨(covered action member).1, (covered action member).2, titled action member⟩
    exact ⟨_, create_parts ⟨subjects, actions, initial, goals,
      ⟨bound, steps.toNat, above, whole ▸ agrees⟩, distinct, initialKnown, goalsKnown, known⟩⟩

/-! ### Parts that are refused -/

section

variable {fault : Fault}

theorem HorizonBound.ofValue_eq_error {stated : Value}
    (failed : HorizonBound.ofValue stated = .error fault) : fault = .bound stated := by
  unfold ofValue at failed
  split at failed
  next =>
    cases failed
    rfl
  next =>
    split at failed
    next => cases failed
    next =>
      cases failed
      rfl

/-- A title is refused for a name that counts as something and is not a text. -/
theorem Action.title_eq_error {action : Action} (failed : action.title = .error fault) :
    action.name.isTruthy = true ∧ (∀ content, action.name ≠ .text content) ∧
      fault = .nameNotText action.name.kind := by
  rw [title] at failed
  split at failed
  next truthy =>
    split at failed
    next => cases failed
    next noText =>
      cases failed
      exact ⟨truthy, noText, rfl⟩
  next => cases failed

variable {subjects : List StateVariable}

theorem Action.check_eq_error {action : Action} (preconditions : action.preconditions.Over subjects)
    (effects : action.effects.Over subjects) (failed : action.check subjects = .error fault) :
    action.title = .error fault := by
  rw [check] at failed
  split at failed
  next other refused =>
    cases failed
    exact refused
  next =>
    rw [FactSet.check_eq_ok preconditions, FactSet.check_eq_ok effects] at failed
    cases failed

theorem checkActions_eq_error {actions : List Action}
    (covered : ∀ action ∈ actions,
      action.preconditions.Over subjects ∧ action.effects.Over subjects)
    (failed : checkActions subjects actions = .error fault) :
    ∃ action ∈ actions, action.title = .error fault := by
  induction actions with
  | nil => cases failed
  | cons action rest inductionHypothesis =>
    obtain ⟨here, there⟩ := List.forall_mem_cons.mp covered
    rw [checkActions, bind_eq_error_iff] at failed
    rcases failed with first | ⟨_, _, later⟩
    · exact ⟨action, List.mem_cons_self, Action.check_eq_error here.1 here.2 first⟩
    · rcases bind_eq_error_iff.mp later with others | ⟨_, _, impossible⟩
      · obtain ⟨other, member, refused⟩ := inductionHypothesis there others
        exact ⟨other, List.mem_cons_of_mem _ member, refused⟩
      · cases impossible

theorem Problem.create_eq_error {actions : List Action} {initial goals : FactSet} {bound : Value}
    (initialKnown : initial.Over subjects) (goalsKnown : goals.Over subjects)
    (covered : ∀ action ∈ actions,
      action.preconditions.Over subjects ∧ action.effects.Over subjects)
    (failed : create subjects actions initial goals bound = .error fault) :
    fault = .bound bound ∨ fault = .repeatedVariable ∨
      ∃ action ∈ actions, action.title = .error fault := by
  rw [create, bind_eq_error_iff] at failed
  rcases failed with refused | ⟨_, _, later⟩
  · exact .inl (HorizonBound.ofValue_eq_error refused)
  · by_cases distinct : subjects.Nodup
    · rw [dif_pos distinct, FactSet.check_eq_ok initialKnown, FactSet.check_eq_ok goalsKnown,
        ok_bind, ok_bind, bind_eq_error_iff] at later
      rcases later with refused | ⟨_, _, impossible⟩
      · exact .inr (.inr (checkActions_eq_error covered refused))
      · cases impossible
    · rw [dif_neg distinct] at later
      cases later
      exact .inr (.inl rfl)

end

end HorizonPlanner
