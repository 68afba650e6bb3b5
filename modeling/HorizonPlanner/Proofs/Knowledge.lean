/-
This file says what bindings know about a state.  A simulation knows the values
of some state variables and leaves the others open, so its bindings stand for
all states that agree with them.  Binding a variable keeps the bindings proper:
each variable is bound once, and to a value of its domain; so some state always
agrees with them.

What facts bind is read the same way: either some two of them contradict each
other, and no state satisfies them all, or the states that agree with the
bindings are exactly those in which every fact holds.
-/

import HorizonPlanner.Proofs.DomainPosition
import HorizonPlanner.Proofs.Execution
import HorizonPlanner.Simulation

namespace HorizonPlanner

namespace Simulation

/-! ### Looking up bindings -/

/-- The variables that are bound, in the order in which they were. -/
def Bindings.subjects (bindings : Bindings) : List StateVariable := bindings.map Prod.fst

section

variable {bindings : Bindings} {subject : StateVariable} {value : Value}

theorem Bindings.subjects_append (first second : Bindings) :
    Bindings.subjects (first ++ second) = first.subjects ++ second.subjects := List.map_append

theorem Bindings.mem_subjects (entry : StateVariable × Value) (member : entry ∈ bindings) :
    entry.1 ∈ bindings.subjects := List.mem_map_of_mem member

theorem Bindings.mem_of_value? (found : bindings.value? subject = some value) :
    (subject, value) ∈ bindings := by
  obtain ⟨⟨other, _⟩, entry, rfl⟩ := Option.map_eq_some_iff.mp found
  have same := List.find?_some entry
  obtain rfl : other = subject := eq_of_beq same
  exact List.mem_of_find?_eq_some entry

theorem Bindings.value?_eq_none_iff :
    bindings.value? subject = none ↔ subject ∉ bindings.subjects := by
  rw [Bindings.value?, Option.map_eq_none_iff, List.find?_eq_none, subjects, List.mem_map]
  constructor
  · rintro unbound ⟨entry, member, rfl⟩
    exact unbound entry member BEq.rfl
  · intro unbound entry member same
    exact unbound ⟨entry, member, eq_of_beq same⟩

theorem Bindings.value?_of_mem (distinct : bindings.subjects.Nodup)
    (member : (subject, value) ∈ bindings) : bindings.value? subject = some value := by
  cases found : bindings.value? subject with
  | none => exact absurd (mem_subjects _ member) (value?_eq_none_iff.mp found)
  | some other =>
    have same := List.inj_on_of_nodup_map distinct (mem_of_value? found) member rfl
    rw [(Prod.mk.inj same).2]

theorem Bindings.value?_cons (entry : StateVariable × Value) (rest : Bindings)
    (subject : StateVariable) :
    Bindings.value? (entry :: rest) subject =
      if entry.1 == subject then some entry.2 else rest.value? subject := by
  rw [value?, value?, List.find?_cons]
  split <;> simp_all

theorem Bindings.value?_append (first second : Bindings) (subject : StateVariable) :
    Bindings.value? (first ++ second) subject =
      (first.value? subject).or (second.value? subject) := by
  simp only [Bindings.value?, List.find?_append, Option.map_or]

/-! ### Binding a variable -/

/-- A variable that was open is bound at the end. -/
theorem Bindings.bind_of_value?_eq_none (unbound : bindings.value? subject = none) :
    bindings.bind subject value = bindings ++ [(subject, value)] := by
  rw [Bindings.bind, unbound]
  rfl

theorem Bindings.subjects_bind :
    (bindings.bind subject value).subjects =
      if subject ∈ bindings.subjects then bindings.subjects
      else bindings.subjects ++ [subject] := by
  cases found : bindings.value? subject with
  | none =>
    rw [if_neg (value?_eq_none_iff.mp found), bind_of_value?_eq_none found, subjects_append]
    rfl
  | some other =>
    rw [if_pos (mem_subjects _ (mem_of_value? found)), Bindings.bind, found, Option.isSome_some,
      if_pos rfl, subjects, List.map_map]
    refine List.map_congr_left fun entry _ => ?_
    show (if entry.1 == subject then (subject, value) else entry).1 = entry.1
    split
    next same => exact (eq_of_beq same).symm
    next => rfl

theorem Bindings.mem_subjects_bind {other : StateVariable} :
    other ∈ (bindings.bind subject value).subjects ↔
      other ∈ bindings.subjects ∨ other = subject := by
  rw [subjects_bind]
  split
  next bound => exact ⟨Or.inl, fun known => known.elim id fun same => same ▸ bound⟩
  next => rw [List.mem_append, List.mem_singleton]

theorem Bindings.mem_bind_iff {entry : StateVariable × Value} :
    entry ∈ bindings.bind subject value ↔
      entry = (subject, value) ∨ (entry ∈ bindings ∧ entry.1 ≠ subject) := by
  cases found : bindings.value? subject with
  | none =>
    have fresh := value?_eq_none_iff.mp found
    rw [bind_of_value?_eq_none found, List.mem_append, List.mem_singleton, or_comm]
    refine or_congr_right ⟨fun member => ⟨member, ?_⟩, And.left⟩
    rintro rfl
    exact fresh (mem_subjects _ member)
  | some other =>
    rw [Bindings.bind, found, Option.isSome_some, if_pos rfl, List.mem_map]
    constructor
    · rintro ⟨earlier, member, rfl⟩
      by_cases same : earlier.1 = subject
      · rw [if_pos (beq_iff_eq.mpr same)]
        exact Or.inl rfl
      · rw [if_neg (by simpa using same)]
        exact Or.inr ⟨member, same⟩
    · rintro (rfl | ⟨member, different⟩)
      · exact ⟨_, mem_of_value? found, if_pos BEq.rfl⟩
      · exact ⟨entry, member, if_neg (by simpa using different)⟩

theorem Bindings.nodup_bind {bindings : Bindings} (distinct : bindings.subjects.Nodup)
    (subject : StateVariable) (value : Value) : (bindings.bind subject value).subjects.Nodup := by
  rw [subjects_bind]
  split
  next => exact distinct
  next fresh =>
    refine List.nodup_append.mpr ⟨distinct, List.nodup_singleton _, ?_⟩
    rintro other member _ same rfl
    exact fresh (List.mem_singleton.mp same ▸ member)

theorem Bindings.value?_rewritten (bindings : Bindings) (subject other : StateVariable)
    (value : Value) :
    Bindings.value? (bindings.map fun entry =>
        if entry.1 == subject then (subject, value) else entry) other =
      if other = subject then (bindings.value? subject).map fun _ => value
      else bindings.value? other := by
  induction bindings with
  | nil => simp [value?]
  | cons entry rest inductionHypothesis =>
    rw [List.map_cons, value?_cons, value?_cons, value?_cons, inductionHypothesis]
    by_cases here : entry.1 = subject <;> by_cases same : other = subject
    · simp [here, same]
    · simp [here, same, Ne.symm same]
    · simp [here, same]
    · simp [here, same]

/-- Binding a variable changes what is found at this variable only. -/
theorem Bindings.value?_bind (bindings : Bindings) (subject : StateVariable) (value : Value) :
    (bindings.bind subject value).value? =
      Function.update bindings.value? subject (some value) := by
  funext other
  cases found : bindings.value? subject with
  | none =>
    rw [bind_of_value?_eq_none found, value?_append, value?_cons]
    by_cases same : other = subject
    · simp [same, found]
    · simp [same, Ne.symm same, value?]
  | some earlier =>
    rw [Bindings.bind, found, Option.isSome_some, if_pos rfl, value?_rewritten, found,
      Function.update_apply]
    rfl

/-! ### Binding several variables -/

/-- Bindings with other ones written over them. -/
def Bindings.update (bindings changes : Bindings) : Bindings :=
  changes.foldl (fun current (subject, value) => current.bind subject value) bindings

theorem Bindings.update_cons (bindings : Bindings) (entry : StateVariable × Value)
    (rest : Bindings) :
    bindings.update (entry :: rest) = (bindings.bind entry.1 entry.2).update rest := rfl

theorem Bindings.mem_subjects_update {changes : Bindings} :
    subject ∈ (bindings.update changes).subjects ↔
      subject ∈ bindings.subjects ∨ subject ∈ changes.subjects := by
  induction changes generalizing bindings with
  | nil => exact ⟨Or.inl, fun known => known.resolve_right List.not_mem_nil⟩
  | cons entry rest inductionHypothesis =>
    have head : Bindings.subjects (entry :: rest) = entry.1 :: Bindings.subjects rest := rfl
    rw [update_cons, inductionHypothesis, mem_subjects_bind, head, List.mem_cons, or_assoc]

/-- What is bound after an update is bound by it, or was bound before and is not touched. -/
theorem Bindings.mem_of_mem_update {changes : Bindings} {entry : StateVariable × Value}
    (member : entry ∈ bindings.update changes) :
    entry ∈ changes ∨ (entry ∈ bindings ∧ entry.1 ∉ changes.subjects) := by
  induction changes generalizing bindings with
  | nil => exact Or.inr ⟨member, List.not_mem_nil⟩
  | cons change rest inductionHypothesis =>
    rcases inductionHypothesis member with later | ⟨earlier, untouched⟩
    · exact Or.inl (List.mem_cons_of_mem _ later)
    · rcases mem_bind_iff.mp earlier with rfl | ⟨member, different⟩
      · exact Or.inl List.mem_cons_self
      · refine Or.inr ⟨member, fun touched => ?_⟩
        rcases List.mem_cons.mp touched with same | touched
        · exact different same
        · exact untouched touched

/-- An update goes before what was known. -/
theorem Bindings.value?_update (bindings : Bindings) {changes : Bindings}
    (distinct : changes.subjects.Nodup) (subject : StateVariable) :
    (bindings.update changes).value? subject =
      (changes.value? subject).or (bindings.value? subject) := by
  induction changes generalizing bindings with
  | nil => rfl
  | cons entry rest inductionHypothesis =>
    obtain ⟨fresh, distinct⟩ := List.nodup_cons.mp distinct
    rw [update_cons, inductionHypothesis _ distinct, value?_bind, value?_cons]
    by_cases same : subject = entry.1
    · rw [same, Function.update_self, value?_eq_none_iff.mpr fresh, if_pos BEq.rfl]
      rfl
    · rw [Function.update_of_ne same, if_neg (by simpa using Ne.symm same)]

end

end Simulation

open Simulation

namespace Problem

/-! ### Proper bindings -/

/-- Bindings that give variables of a problem values of their domains, each variable one. -/
structure Proper (problem : Problem) (bindings : Bindings) : Prop where
  known : ∀ entry ∈ bindings, entry.1 ∈ problem.subjects
  located : ∀ entry ∈ bindings, ∃ position, entry.1.find? entry.2 = some position
  distinct : bindings.subjects.Nodup

/-- A state agrees with bindings if each variable they bind has the value there. -/
def Agrees (problem : Problem) (bindings : Bindings) (state : PlanState) : Prop :=
  ∀ entry ∈ bindings, entry.1.find? entry.2 = some (problem.valueOf state entry.1)

variable {problem : Problem} {bindings changes : Bindings} {state : PlanState}

theorem proper_nil (problem : Problem) : problem.Proper [] :=
  ⟨fun _ member => absurd member List.not_mem_nil, fun _ member => absurd member List.not_mem_nil,
    List.nodup_nil⟩

theorem agrees_nil (problem : Problem) (state : PlanState) : problem.Agrees [] state :=
  fun _ member => absurd member List.not_mem_nil

theorem agrees_append_iff {first second : Bindings} :
    problem.Agrees (first ++ second) state ↔
      problem.Agrees first state ∧ problem.Agrees second state :=
  List.forall_mem_append

/-- What is bound after other bindings is open in them. -/
theorem Proper.fresh {first second : Bindings} (proper : problem.Proper (first ++ second))
    {entry : StateVariable × Value} (member : entry ∈ second) : entry.1 ∉ first.subjects := by
  have distinct := proper.distinct
  rw [Bindings.subjects_append, List.nodup_append] at distinct
  exact fun earlier => distinct.2.2 _ earlier _ (Bindings.mem_subjects _ member) rfl

/-- What is bound after some bindings can be bound after fewer. -/
theorem Proper.append_of_fewer {first second fewer : Bindings}
    (proper : problem.Proper (first ++ second)) (proper' : problem.Proper fewer)
    (among : ∀ subject ∈ fewer.subjects, subject ∈ first.subjects) :
    problem.Proper (fewer ++ second) where
  known := List.forall_mem_append.mpr
    ⟨proper'.known, fun entry member => proper.known entry (List.mem_append_right _ member)⟩
  located := List.forall_mem_append.mpr
    ⟨proper'.located, fun entry member => proper.located entry (List.mem_append_right _ member)⟩
  distinct := by
    have distinct := proper.distinct
    rw [Bindings.subjects_append, List.nodup_append] at distinct ⊢
    exact ⟨proper'.distinct, distinct.2.1,
      fun subject member => distinct.2.2 subject (among subject member)⟩

theorem Proper.bind (proper : problem.Proper bindings) {subject : StateVariable}
    (known : subject ∈ problem.subjects) {value : Value} {position : Nat}
    (found : subject.find? value = some position) :
    problem.Proper (bindings.bind subject value) where
  known entry member := by
    rcases Bindings.mem_bind_iff.mp member with rfl | ⟨member, _⟩
    · exact known
    · exact proper.known entry member
  located entry member := by
    rcases Bindings.mem_bind_iff.mp member with rfl | ⟨member, _⟩
    · exact ⟨position, found⟩
    · exact proper.located entry member
  distinct := Bindings.nodup_bind proper.distinct subject value

theorem Proper.update (proper : problem.Proper bindings) (proper' : problem.Proper changes) :
    problem.Proper (bindings.update changes) := by
  induction changes generalizing bindings with
  | nil => exact proper
  | cons entry rest inductionHypothesis =>
    obtain ⟨position, found⟩ := proper'.located entry List.mem_cons_self
    refine inductionHypothesis (proper.bind (proper'.known entry List.mem_cons_self) found)
      ⟨fun other member => proper'.known other (List.mem_cons_of_mem _ member),
        fun other member => proper'.located other (List.mem_cons_of_mem _ member),
        (List.nodup_cons.mp proper'.distinct).2⟩

/-- Some state agrees with proper bindings: what they leave open is at the first position. -/
theorem Proper.exists_agrees (proper : problem.Proper bindings) :
    ∃ state, problem.Total state ∧ problem.Agrees bindings state := by
  let positionOf := fun subject : StateVariable =>
    ((bindings.value? subject).bind subject.find?).getD 0
  refine ⟨problem.stateOf positionOf, total_stateOf fun subject _ => ?_, fun entry member => ?_⟩
  · show ((bindings.value? subject).bind subject.find?).getD 0 < subject.size
    cases found : (bindings.value? subject).bind subject.find? with
    | none => exact List.length_pos_of_ne_nil subject.nonempty
    | some position =>
      obtain ⟨value, _, found⟩ := Option.bind_eq_some_iff.mp found
      exact (StateVariable.same_of_find? found).choose
  · obtain ⟨position, found⟩ := proper.located entry member
    have place : positionOf entry.1 = position := by
      show ((bindings.value? entry.1).bind entry.1.find?).getD 0 = position
      rw [Bindings.value?_of_mem proper.distinct member, Option.bind_some, found, Option.getD_some]
    rw [valueOf_stateOf _ (proper.known entry member), place, found]

/-- Binding a variable to a value at the position of the one it had, or for the first time, adds
that it is at that position. -/
theorem Proper.agrees_bind_iff (proper : problem.Proper bindings) {subject : StateVariable}
    {value : Value} (kept : ∀ earlier, bindings.value? subject = some earlier →
      subject.find? earlier = subject.find? value) :
    problem.Agrees (bindings.bind subject value) state ↔ problem.Agrees bindings state ∧
      subject.find? value = some (problem.valueOf state subject) := by
  constructor
  · intro agrees
    have here := agrees (subject, value) (Bindings.mem_bind_iff.mpr (Or.inl rfl))
    refine ⟨fun entry member => ?_, here⟩
    by_cases same : entry.1 = subject
    · obtain ⟨other, earlier⟩ := entry
      obtain rfl : other = subject := same
      rw [kept earlier (Bindings.value?_of_mem proper.distinct member)]
      exact here
    · exact agrees entry (Bindings.mem_bind_iff.mpr (Or.inr ⟨member, same⟩))
  · rintro ⟨agrees, here⟩ entry member
    rcases Bindings.mem_bind_iff.mp member with rfl | ⟨member, _⟩
    · exact here
    · exact agrees entry member

/-! ### What facts bind -/

/-- The domains of a problem hold values that compare equal to themselves only. -/
def SelfEqual (problem : Problem) : Prop := ∀ subject ∈ problem.subjects, subject.SelfEqual

instance : Decidable problem.SelfEqual :=
  inferInstanceAs (Decidable (∀ subject ∈ problem.subjects, subject.SelfEqual))

/-- A variable of a problem is bound to a value that compares equal to another one of its domain
exactly if both are at one position. -/
theorem Proper.equal_iff (proper : problem.Proper bindings) (selfEqual : problem.SelfEqual)
    {fact : Fact} {value : Value} (bound : bindings.value? fact.subject = some value) :
    value.equal fact.value = true ↔ fact.subject.find? value = fact.subject.find? fact.value := by
  have member := Bindings.mem_of_value? bound
  obtain ⟨position, found⟩ := proper.located _ member
  have known := proper.known _ member
  rw [(selfEqual _ known).equal_iff_position_eq found fact.located, found, fact.located,
    Option.some.injEq]

/-- Some facts hold in a state. -/
def FactsHold (problem : Problem) (state : PlanState) (facts : List Fact) : Prop :=
  ∀ fact ∈ facts, problem.valueOf state fact.subject = fact.index

/-- The bindings that come of facts: the states that agree with them are those in which the facts
hold. -/
structure Gathers (problem : Problem) (before : Bindings) (facts : List Fact) (after : Bindings) :
    Prop where
  proper : problem.Proper after
  earlier : ∀ subject ∈ before.subjects, subject ∈ after.subjects
  bound : ∀ fact ∈ facts, fact.subject ∈ after.subjects
  agrees_iff : ∀ state, problem.Agrees after state ↔
    problem.Agrees before state ∧ problem.FactsHold state facts

/-- What comes of binding facts: bindings, or a fact that shows that no state satisfies them all. -/
def Gathered (problem : Problem) (before : Bindings) (facts : List Fact) :
    Except Fact Bindings → Prop
  | .ok after => problem.Gathers before facts after
  | .error _ => ∀ state, problem.Agrees before state → ¬ problem.FactsHold state facts

theorem find?_fact_eq_iff {fact : Fact} :
    fact.subject.find? fact.value = some (problem.valueOf state fact.subject) ↔
      problem.valueOf state fact.subject = fact.index := by
  rw [fact.located, Option.some.injEq, eq_comm]

theorem factsHold_cons_iff {fact : Fact} {rest : List Fact} :
    problem.FactsHold state (fact :: rest) ↔
      problem.valueOf state fact.subject = fact.index ∧ problem.FactsHold state rest :=
  List.forall_mem_cons

/-- A first fact that contradicts nothing is bound before the rest of them. -/
theorem Proper.gathered_cons (proper : problem.Proper bindings) {fact : Fact} {rest : List Fact}
    {outcome : Except Fact Bindings}
    (kept : ∀ earlier, bindings.value? fact.subject = some earlier →
      fact.subject.find? earlier = fact.subject.find? fact.value)
    (gathered : problem.Gathered (bindings.bind fact.subject fact.value) rest outcome) :
    problem.Gathered bindings (fact :: rest) outcome := by
  cases outcome with
  | ok after =>
    refine ⟨gathered.proper, fun subject member => ?_,
      List.forall_mem_cons.mpr ⟨?_, gathered.bound⟩, fun state => ?_⟩
    · exact gathered.earlier subject (Bindings.mem_subjects_bind.mpr (Or.inl member))
    · exact gathered.earlier fact.subject (Bindings.mem_subjects_bind.mpr (Or.inr rfl))
    · rw [gathered.agrees_iff, proper.agrees_bind_iff kept, find?_fact_eq_iff, factsHold_cons_iff,
        and_assoc]
  | error refused =>
    intro state agrees holding
    obtain ⟨first, others⟩ := factsHold_cons_iff.mp holding
    exact gathered state
      ((proper.agrees_bind_iff kept).mpr ⟨agrees, find?_fact_eq_iff.mpr first⟩) others

/-- Facts are bound one after another, unless no state satisfies them all. -/
theorem Proper.gathered_bindAll (proper : problem.Proper bindings) (selfEqual : problem.SelfEqual)
    {facts : List Fact} (covered : ∀ fact ∈ facts, fact.subject ∈ problem.subjects) :
    problem.Gathered bindings facts (bindAll bindings facts) := by
  induction facts generalizing bindings with
  | nil => exact ⟨proper, fun _ => id, by simp, fun state => by simp [FactsHold]⟩
  | cons fact rest inductionHypothesis =>
    obtain ⟨here, there⟩ := List.forall_mem_cons.mp covered
    have further := inductionHypothesis (proper.bind here fact.located) there
    rw [bindAll]
    cases found : bindings.value? fact.subject with
    | none => exact proper.gathered_cons (fun _ bound => nomatch found.symm.trans bound) further
    | some value =>
      have meaning := proper.equal_iff selfEqual found
      show problem.Gathered bindings (fact :: rest) (if value.equal fact.value then _ else _)
      by_cases equal : value.equal fact.value = true
      · rw [if_pos equal]
        refine proper.gathered_cons (fun earlier bound => ?_) further
        rw [← Option.some.inj (found.symm.trans bound)]
        exact meaning.mp equal
      · rw [if_neg equal]
        intro state agrees holding
        have first := find?_fact_eq_iff.mpr (factsHold_cons_iff.mp holding).1
        exact equal (meaning.mpr ((agrees _ (Bindings.mem_of_value? found)).trans first.symm))

end Problem

end HorizonPlanner
