/-
This file proves that a simulation does not depend on the order of facts.  A set
of facts keeps the order in which they were entered; whether a simulation goes
through the facts of a set, and what it knows afterwards, is the same in any
order.

What is known is read as a function from variables to values.  Entering a fact
changes it at one variable, so facts about different variables commute; two
facts of a set about the same variable contradict each other, and neither order
goes through.
-/

import Mathlib.Data.List.Forall2
import Mathlib.Data.List.Pairwise
import HorizonPlanner.Proofs.SimulatedPlan

namespace HorizonPlanner

open Simulation

/-! ### Facts in another order -/

/-- The same facts in another order. -/
def FactSet.Reordered (first second : FactSet) : Prop := first.facts.Perm second.facts

/-- The same action with its facts in another order. -/
structure Action.Reordered (first second : Action) : Prop where
  name : first.name = second.name
  preconditions : first.preconditions.Reordered second.preconditions
  effects : first.effects.Reordered second.effects

/-- The same problem with the facts of its sets, and of those of its actions, in another order. -/
structure Problem.Reordered (first second : Problem) : Prop where
  subjects : first.subjects = second.subjects
  actions : List.Forall₂ Action.Reordered first.actions second.actions
  initial : first.initial.Reordered second.initial
  goals : first.goals.Reordered second.goals
  bound : first.bound = second.bound

theorem Action.title_congr {first second : Action} (name : first.name = second.name) :
    first.title = second.title := by
  rw [title, title, name]

namespace FactSet

instance : Std.Symm fun first second : Fact => first.same second = false where
  symm first second apart := by
    refine Bool.eq_false_iff.mpr fun same => Bool.eq_false_iff.mp apart ?_
    rw [Fact.same, Bool.and_eq_true] at same ⊢
    exact ⟨BEq.symm same.1, Value.same_symm same.2⟩

/-- Different facts of a set that are about one variable have different values. -/
theorem values_apart (set : FactSet) {first second : Fact} (member : first ∈ set.facts)
    (member' : second ∈ set.facts) (different : first ≠ second)
    (about : first.subject = second.subject) : first.value.same second.value = false := by
  have apart := set.distinct.forall member member' different
  rwa [Fact.same, about, BEq.rfl, Bool.true_and] at apart

end FactSet

namespace Simulation

/-! ### What is known -/

/-- The values of variables, as far as they are known. -/
abbrev Known := StateVariable → Option Value

/-- What is known after a fact was entered under a rule, which says from the value known of its
variable and the one of the fact what the value is from then on, or that they do not go together. -/
def Known.enter (rule : Option Value → Value → Option Value) (known : Known) (fact : Fact) :
    Option Known :=
  (rule (known fact.subject) fact.value).map fun value =>
    Function.update known fact.subject (some value)

/-- What is known after facts were entered one after another. -/
def Known.enterAll (rule : Option Value → Value → Option Value) (facts : List Fact)
    (known : Option Known) : Option Known :=
  facts.foldl (fun known fact => known.bind (Known.enter rule · fact)) known

/-- Under the rule, no value goes together with two values that are not the same. -/
def Excluding (rule : Option Value → Value → Option Value) : Prop :=
  ∀ known first second value, first.same second = false → rule known first = some value →
    rule (some value) second = none

/-- The rule of a test: a value that is known is compared, and an open one becomes that of the
fact. -/
def testRule (known : Option Value) (value : Value) : Option Value :=
  if (known.getD value).equal value then some (known.getD value) else none

/-- The rule of binding: the value of the fact is taken, unless it contradicts the one that is
known. -/
def bindRule (known : Option Value) (value : Value) : Option Value :=
  if known.all (·.equal value) then some value else none

section

variable {rule : Option Value → Value → Option Value}

theorem excluding_testRule : Excluding testRule := by
  intro known first second value apart passed
  obtain ⟨equal, same⟩ := Option.ite_none_right_eq_some.mp passed
  obtain rfl := Option.some.inj same
  refine if_neg fun equal' => Bool.eq_false_iff.mp apart ?_
  rw [Option.getD_some] at equal'
  rw [Value.equal, Bool.and_eq_true] at equal equal'
  exact Value.same_trans (Value.same_symm equal.1) equal'.1

theorem excluding_bindRule : Excluding bindRule := by
  intro known first second value apart passed
  obtain ⟨_, same⟩ := Option.ite_none_right_eq_some.mp passed
  obtain rfl := Option.some.inj same
  refine if_neg fun equal => Bool.eq_false_iff.mp apart ?_
  rw [Option.all_some, Value.equal, Bool.and_eq_true] at equal
  exact equal.1

/-- Two facts about one variable do not go together. -/
theorem Known.enter_enter_eq_none (excluding : Excluding rule) (known : Known)
    {first second : Fact} (about : first.subject = second.subject)
    (apart : first.value.same second.value = false) :
    (known.enter rule first).bind (Known.enter rule · second) = none := by
  unfold Known.enter
  cases passed : rule (known first.subject) first.value with
  | none => rfl
  | some value =>
    rw [Option.map_some, Option.bind_some, ← about, Function.update_self,
      excluding _ _ _ _ apart passed, Option.map_none]

theorem Known.enter_comm (excluding : Excluding rule) (known : Known) {first second : Fact}
    (apart : first.subject = second.subject → first.value.same second.value = false) :
    (known.enter rule first).bind (Known.enter rule · second) =
      (known.enter rule second).bind (Known.enter rule · first) := by
  by_cases about : first.subject = second.subject
  · have apart' : second.value.same first.value = false :=
      Bool.eq_false_iff.mpr fun same =>
        Bool.eq_false_iff.mp (apart about) (Value.same_symm same)
    rw [enter_enter_eq_none excluding known about (apart about),
      enter_enter_eq_none excluding known about.symm apart']
  · unfold Known.enter
    cases here : rule (known first.subject) first.value <;>
      cases there : rule (known second.subject) second.value <;>
        simp [Function.update_of_ne about, Function.update_of_ne (Ne.symm about), here, there,
          Function.update_comm about]

/-- Facts of a set are entered in any order alike. -/
theorem Known.enterAll_eq_of_reordered (excluding : Excluding rule) {first second : FactSet}
    (reordered : first.Reordered second) (known : Option Known) :
    Known.enterAll rule first.facts known = Known.enterAll rule second.facts known := by
  refine reordered.foldl_eq' (fun here member there member' known => ?_) known
  cases known with
  | none => rfl
  | some known =>
    by_cases same : here = there
    · rw [same]
    · exact known.enter_comm excluding (first.values_apart member member' same)

end

/-! ### What bindings know -/

theorem enter_testRule (state : State) (fact : Fact) :
    Known.enter testRule state.current.value? fact =
      if (state.test fact).1 then some (state.test fact).2.current.value? else none := by
  unfold Known.enter testRule State.test
  cases found : state.current.value? fact.subject with
  | some value =>
    have kept : Function.update state.current.value? fact.subject (some value) =
        state.current.value? := Function.update_eq_self_iff.mpr found.symm
    by_cases equal : value.equal fact.value = true
    · simp [equal, kept]
    · simp [equal]
  | none =>
    by_cases equal : fact.value.equal fact.value = true
    · simp [equal, Bindings.value?_bind]
    · simp [equal]

theorem Known.enterAll_none (rule : Option Value → Value → Option Value) (facts : List Fact) :
    Known.enterAll rule facts none = none := by
  induction facts with
  | nil => rfl
  | cons fact rest inductionHypothesis => exact inductionHypothesis

/-- What a simulation knows after it tested facts, if they hold. -/
theorem enterAll_testRule (facts : List Fact) (state : State) :
    Known.enterAll testRule facts (some state.current.value?) =
      if (state.testAll facts).1 = [] then some (state.testAll facts).2.current.value?
      else none := by
  induction facts generalizing state with
  | nil => rfl
  | cons fact rest inductionHypothesis =>
    have first : Known.enterAll testRule (fact :: rest) (some state.current.value?) =
        Known.enterAll testRule rest (Known.enter testRule state.current.value? fact) := rfl
    rw [first, enter_testRule]
    by_cases holds : (state.test fact).1 = true
    · rw [if_pos holds, inductionHypothesis]
      exact if_congr (Problem.testAll_cons_iff.trans (and_iff_right holds)).symm rfl rfl
    · rw [if_neg holds, Known.enterAll_none,
        if_neg fun passed => holds (Problem.testAll_cons_iff.mp passed).1]

/-- What facts bind together, if they do not contradict each other. -/
theorem enterAll_bindRule (facts : List Fact) (bindings : Bindings) :
    Known.enterAll bindRule facts (some bindings.value?) =
      (bindAll bindings facts).toOption.map Bindings.value? := by
  induction facts generalizing bindings with
  | nil => rfl
  | cons fact rest inductionHypothesis =>
    have first : Known.enterAll bindRule (fact :: rest) (some bindings.value?) =
        Known.enterAll bindRule rest (Known.enter bindRule bindings.value? fact) := rfl
    rw [first, Known.enter, bindRule, bindAll]
    cases found : bindings.value? fact.subject with
    | none =>
      simp only [Option.all_none, if_true, Option.map_some, ← Bindings.value?_bind]
      exact inductionHypothesis _
    | some value =>
      by_cases equal : value.equal fact.value = true
      · simp only [Option.all_some, equal, if_true, Option.map_some, ← Bindings.value?_bind]
        exact inductionHypothesis _
      · simp only [Option.all_some, equal, if_false, Bool.false_eq_true, Option.map_none,
          Known.enterAll_none]
        rfl

theorem nodup_bindAll {facts : List Fact} {bindings after : Bindings}
    (bound : bindAll bindings facts = .ok after) (distinct : bindings.subjects.Nodup) :
    after.subjects.Nodup := by
  induction facts generalizing bindings with
  | nil =>
    cases bound
    exact distinct
  | cons fact rest inductionHypothesis =>
    have first := Bindings.nodup_bind distinct fact.subject fact.value
    rw [bindAll] at bound
    split at bound
    · split at bound
      · exact inductionHypothesis bound first
      · cases bound
    · exact inductionHypothesis bound first

/-! ### Runs -/

/-- Every assumption gives its variable a value of its domain. -/
def State.Located (state : State) : Prop :=
  ∀ entry ∈ state.assumed, ∃ position, entry.1.find? entry.2 = some position

theorem State.Located.test {state : State} (located : state.Located) (fact : Fact) :
    (state.test fact).2.Located := by
  unfold State.test
  split
  next => exact located
  next =>
    intro entry member
    rcases Bindings.mem_bind_iff.mp member with rfl | ⟨member, _⟩
    · exact ⟨_, fact.located⟩
    · exact located entry member

theorem State.Located.testAll {state : State} (located : state.Located) (facts : List Fact) :
    (state.testAll facts).2.Located := by
  induction facts generalizing state with
  | nil => exact located
  | cons fact rest inductionHypothesis => exact inductionHypothesis (located.test fact)

/-- Two states in which the same is known. -/
structure State.Alike (first second : State) : Prop where
  current : first.current.value? = second.current.value?
  located : first.Located
  located' : second.Located

/-- Two runs that end in the same way: both reach the goals, or both fail at the same point. -/
inductive Outcome.Alike : Outcome → Outcome → Prop
  | conflictingInitial (subject subject' : StateVariable) :
      Alike (.conflictingInitial subject) (.conflictingInitial subject')
  | unsatisfied (step : Nat) {action action' : Action} (name : action.name = action'.name)
      (missing missing' : List Fact) :
      Alike (.unsatisfied step action missing) (.unsatisfied step action' missing')
  | contradictory (step : Nat) {action action' : Action} (name : action.name = action'.name) :
      Alike (.contradictory step action) (.contradictory step action')
  | goalsUnmet (unmet unmet' : List Fact) : Alike (.goalsUnmet unmet) (.goalsUnmet unmet')
  | reached (steps : Nat) {assumed assumed' : Bindings}
      (reported : ∃ text, (Outcome.reached steps assumed).report = .ok text)
      (reported' : ∃ text, (Outcome.reached steps assumed').report = .ok text) :
      Alike (.reached steps assumed) (.reached steps assumed')

/-- The verdict of a run: whether it reached the goals, or what is wrong with its report. -/
def Outcome.verdict (outcome : Outcome) : Except Fault Bool :=
  outcome.report.map fun _ => outcome.succeeded

theorem Outcome.Alike.verdict_eq {first second : Outcome} (alike : first.Alike second) :
    first.verdict = second.verdict := by
  cases alike with
  | conflictingInitial | goalsUnmet => rfl
  | @unsatisfied step action action' name missing missing' =>
    rw [verdict, verdict, report, report, Action.title_congr name]
    cases action'.title <;> rfl
  | @contradictory step action action' name =>
    rw [verdict, verdict, report, report, Action.title_congr name]
    cases action'.title <;> rfl
  | reached steps reported reported' =>
    obtain ⟨text, reported⟩ := reported
    obtain ⟨text', reported'⟩ := reported'
    rw [verdict, verdict, reported, reported']
    rfl

section

variable {state state' : State} {set set' : FactSet}

theorem State.Alike.testAll (alike : state.Alike state') (reordered : set.Reordered set') :
    ((state.testAll set.facts).1 = [] ∧ (state'.testAll set'.facts).1 = [] ∧
      (state.testAll set.facts).2.Alike (state'.testAll set'.facts).2) ∨
    ((state.testAll set.facts).1 ≠ [] ∧ (state'.testAll set'.facts).1 ≠ []) := by
  have same := Known.enterAll_eq_of_reordered excluding_testRule reordered
    (some state.current.value?)
  rw [enterAll_testRule, alike.current, enterAll_testRule] at same
  by_cases passed : (state.testAll set.facts).1 = []
  · rw [if_pos passed] at same
    obtain ⟨passed', current⟩ := Option.ite_none_right_eq_some.mp same.symm
    exact Or.inl ⟨passed, passed', (Option.some.inj current).symm, alike.located.testAll _,
      alike.located'.testAll _⟩
  · rw [if_neg passed] at same
    refine Or.inr ⟨passed, fun passed' => ?_⟩
    rw [if_pos passed'] at same
    cases same

theorem bindAll_alike (reordered : set.Reordered set') :
    (∃ changes changes', bindAll [] set.facts = .ok changes ∧
      bindAll [] set'.facts = .ok changes' ∧ changes.value? = changes'.value?) ∨
    (∃ fact fact', bindAll [] set.facts = .error fact ∧ bindAll [] set'.facts = .error fact') := by
  have same := Known.enterAll_eq_of_reordered excluding_bindRule reordered
    (some (Bindings.value? []))
  rw [enterAll_bindRule, enterAll_bindRule] at same
  cases here : bindAll [] set.facts <;> cases there : bindAll [] set'.facts <;>
    rw [here, there] at same
  case ok.ok changes changes' => exact Or.inl ⟨_, _, rfl, rfl, Option.some.inj same⟩
  case error.error fact fact' => exact Or.inr ⟨_, _, rfl, rfl⟩
  all_goals cases same

/-- Following a plan, and the same plan with the facts in another order, ends in the same way. -/
theorem State.Alike.follow {goals goals' : FactSet} {plan plan' : List Action}
    (alike : state.Alike state') (reordered : List.Forall₂ Action.Reordered plan plan')
    (reordered' : goals.Reordered goals') (step : Nat) :
    (follow goals state step plan).Alike (follow goals' state' step plan') := by
  induction reordered generalizing state state' step with
  | nil =>
    rw [Problem.follow_nil, Problem.follow_nil]
    rcases alike.testAll reordered' with ⟨passed, passed', after⟩ | ⟨failed, failed'⟩
    · rw [if_pos (List.isEmpty_iff.mpr passed), if_pos (List.isEmpty_iff.mpr passed')]
      exact .reached _ (Problem.report_reached after.located)
        (Problem.report_reached after.located')
    · rw [if_neg (mt List.isEmpty_iff.mp failed), if_neg (mt List.isEmpty_iff.mp failed')]
      exact .goalsUnmet _ _
  | @cons action action' rest rest' here there inductionHypothesis =>
    rw [Problem.follow_cons, Problem.follow_cons]
    rcases alike.testAll here.preconditions with ⟨passed, passed', after⟩ | ⟨failed, failed'⟩
    · rw [if_neg (by simp [passed]), if_neg (by simp [passed'])]
      rcases bindAll_alike here.effects with
        ⟨changes, changes', bound, bound', same⟩ | ⟨fact, fact', refused, refused'⟩
      · rw [bound, bound']
        have current : ∀ subject,
            ((state.testAll action.preconditions.facts).2.current.update changes).value? subject =
              ((state'.testAll action'.preconditions.facts).2.current.update changes').value?
                subject := by
          intro subject
          rw [Bindings.value?_update _ (nodup_bindAll bound List.nodup_nil),
            Bindings.value?_update _ (nodup_bindAll bound' List.nodup_nil), same, after.current]
        have later : State.Alike ⟨_, _⟩ ⟨_, _⟩ := ⟨funext current, after.located, after.located'⟩
        exact inductionHypothesis later (step + 1)
      · rw [refused, refused']
        exact .contradictory step here.name
    · rw [if_pos (by simpa using failed), if_pos (by simpa using failed')]
      exact .unsatisfied step here.name _ _

/-- Running a plan, and the same plan with the facts in another order, ends in the same way. -/
theorem run_alike {first second : Problem} (reordered : first.Reordered second)
    {plan plan' : List Action} (reordered' : List.Forall₂ Action.Reordered plan plan') :
    (run first plan).Alike (run second plan') := by
  unfold run
  rcases bindAll_alike reordered.initial with
    ⟨current, current', bound, bound', same⟩ | ⟨fact, fact', refused, refused'⟩
  · rw [bound, bound']
    have located : State.Located ⟨current, []⟩ := fun _ member => absurd member List.not_mem_nil
    have located' : State.Located ⟨current', []⟩ := fun _ member => absurd member List.not_mem_nil
    exact State.Alike.follow ⟨same, located, located'⟩ reordered' reordered.goals 1
  · rw [refused, refused']
    exact .conflictingInitial _ _

end

end Simulation

end HorizonPlanner
