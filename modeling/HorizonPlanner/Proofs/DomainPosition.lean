/-
This file proves that the values of a domain are told apart by their positions.
A list of values makes a domain, in its own order, exactly if there is one, all
can be members of a set and no two are the same.  Two values that a state variable
finds in its domain are the same exactly if it finds them at one position.  They
also compare equal then, unless the domain holds an undefined number, which is
found at a position like any other value but compares equal to nothing.

So a fact is its variable and the position of its value.
-/

import HorizonPlanner.Fact
import HorizonPlanner.Proofs.Outcome

namespace HorizonPlanner

/-! ### Undefined numbers -/

namespace Value

/-- The representative of a value is undefined exactly if the value is. -/
theorem isUndefined_representative (value : Value) :
    value.representative.isUndefined = value.isUndefined := by
  cases value with
  | binary number =>
    show (binaryRepresentative number).isUndefined = _
    rw [binaryRepresentative]
    split
    next whole found => cases number <;> first | rfl | cases found
    next => rfl
  | member owner ownerName label traits content =>
    obtain ⟨integral, _, _⟩ := traits
    cases integral <;> cases content <;> rfl
  | _ => rfl

theorem isUndefined_eq_of_same {first second : Value} (same : first.same second = true) :
    first.isUndefined = second.isUndefined := by
  rw [← isUndefined_representative first, beq_iff_eq.mp same, isUndefined_representative]

/-- Apart from undefined numbers, values compare equal exactly if they are the same. -/
theorem equal_eq_same {first second : Value} (defined : first.isUndefined = false) :
    first.equal second = first.same second := by
  rw [equal, defined, Bool.not_false, Bool.and_true]

theorem equal_self_iff {value : Value} : value.equal value = true ↔ value.isUndefined = false := by
  rw [equal, same_self, Bool.true_and, Bool.not_eq_true']

end Value

namespace StateVariable

variable {subject : StateVariable}

/-! ### Making a domain -/

section

variable {domain after : Domain} {key : Nat} {name value : Value} {owner : Option Nat}
  {values : List Value}

theorem Domain.extend_values (extended : domain.extend name value = .ok after) :
    after.values = domain.values ++ [value] := by
  rw [extend] at extended
  split at extended
  next =>
    split at extended
    next =>
      cases extended
      rfl
    next => cases extended
  next => cases extended

theorem Domain.exists_extend (name : Value) (hashable : value.unhashable? = none)
    (fresh : ∀ known ∈ domain.values, known.same value = false) :
    ∃ after, domain.extend name value = .ok after := by
  rw [extend, dif_pos hashable, dif_pos fresh]
  exact ⟨_, rfl⟩

/-- Values that are entered stand at the end of a domain in their order. -/
theorem Domain.enter_values
    (entered : values.foldlM (fun domain value => domain.extend name value) domain = .ok after) :
    after.values = domain.values ++ values := by
  induction values generalizing domain with
  | nil =>
    cases entered
    exact (List.append_nil _).symm
  | cons value rest inductionHypothesis =>
    obtain ⟨between, extended, entered⟩ := bind_eq_ok_iff.mp entered
    rw [inductionHypothesis entered, extend_values extended, List.append_assoc,
      List.singleton_append]

theorem Domain.exists_enter (name : Value)
    (hashable : ∀ value ∈ values, value.unhashable? = none)
    (distinct : (domain.values ++ values).Pairwise fun first second => first.same second = false) :
    ∃ after, values.foldlM (fun domain value => domain.extend name value) domain = .ok after := by
  induction values generalizing domain with
  | nil => exact ⟨domain, rfl⟩
  | cons value rest inductionHypothesis =>
    have fresh : ∀ known ∈ domain.values, known.same value = false := fun known member =>
      (List.pairwise_append.mp distinct).2.2 known member value List.mem_cons_self
    obtain ⟨between, extended⟩ := exists_extend name (hashable value List.mem_cons_self) fresh
    have distinct' : (between.values ++ rest).Pairwise fun first second =>
        first.same second = false := by
      rwa [extend_values extended, List.append_assoc, List.singleton_append]
    obtain ⟨after, entered⟩ := inductionHypothesis
      (fun known member => hashable known (List.mem_cons_of_mem _ member)) distinct'
    exact ⟨after, bind_eq_ok_iff.mpr ⟨between, extended, entered⟩⟩

/-- A variable is made with what is stated for it. -/
theorem ofList_eq_ok (made : ofList key name owner values = .ok subject) :
    subject.key = key ∧ subject.name = name ∧ subject.owner = owner ∧
      subject.values = values := by
  obtain ⟨domain, entered, closing⟩ := bind_eq_ok_iff.mp made
  split at closing
  next =>
    cases closing
    exact ⟨rfl, rfl, rfl, Domain.enter_values entered⟩
  next => cases closing

/-- A list makes a domain exactly if there is a value in it, all values can be members of a set and
no two are the same. -/
theorem exists_ofList_iff :
    (∃ subject, ofList key name owner values = .ok subject) ↔
      values ≠ [] ∧ (∀ value ∈ values, value.unhashable? = none) ∧
        values.Pairwise fun first second => first.same second = false := by
  constructor
  · rintro ⟨subject, made⟩
    obtain ⟨_, _, _, rfl⟩ := ofList_eq_ok made
    exact ⟨subject.nonempty, subject.hashable, subject.distinct⟩
  · rintro ⟨nonempty, hashable, distinct⟩
    have entering : ∃ domain, Domain.ofList name values = .ok domain :=
      Domain.exists_enter name hashable distinct
    obtain ⟨domain, entered⟩ := entering
    have whole : domain.values = values := Domain.enter_values entered
    refine ⟨_, bind_eq_ok_iff.mpr ⟨domain, entered, dif_pos ?_⟩⟩
    rwa [whole]

end

/-! ### Positions in a domain -/

/-- Every value of the domain compares equal to itself. -/
def SelfEqual (subject : StateVariable) : Prop :=
  ∀ value ∈ subject.values, value.equal value = true

instance : Decidable subject.SelfEqual :=
  inferInstanceAs (Decidable (∀ value ∈ subject.values, value.equal value = true))

/-- A value is the same as the one at the position where it is found. -/
theorem same_of_find? {value : Value} {position : Nat}
    (found : subject.find? value = some position) :
    ∃ inside : position < subject.values.length,
      subject.values[position].same value = true := by
  rw [find?] at found
  split at found
  · cases found
  · obtain ⟨inside, same, _⟩ := List.findIdx?_eq_some_iff_getElem.mp found
    exact ⟨inside, same⟩

/-- Values of the domain at different positions are different. -/
theorem position_eq_of_same {first second : Nat} (inside : first < subject.values.length)
    (inside' : second < subject.values.length)
    (same : subject.values[first].same subject.values[second] = true) : first = second := by
  have distinct := List.pairwise_iff_getElem.mp subject.distinct
  rcases Nat.lt_trichotomy first second with before | together | after
  · rw [distinct first second inside inside' before] at same
    cases same
  · exact together
  · have opposite := Value.same_symm same
    rw [distinct second first inside' inside after] at opposite
    cases opposite

/-- Two values that are found are the same exactly if they are found at one position. -/
theorem same_iff_position_eq {first second : Value} {here there : Nat}
    (found : subject.find? first = some here) (found' : subject.find? second = some there) :
    first.same second = true ↔ here = there := by
  obtain ⟨inside, same⟩ := same_of_find? found
  obtain ⟨inside', same'⟩ := same_of_find? found'
  constructor
  · intro agree
    exact position_eq_of_same inside inside'
      (Value.same_trans (Value.same_trans same agree) (Value.same_symm same'))
  · rintro rfl
    exact Value.same_trans (Value.same_symm same) same'

/-- Each value of the domain is found where it stands. -/
theorem find?_getElem {position : Nat} (inside : position < subject.values.length) :
    subject.find? subject.values[position] = some position := by
  rw [find?, subject.hashable _ (List.getElem_mem inside), Option.isSome_none,
    if_neg Bool.false_ne_true, List.findIdx?_eq_some_iff_getElem]
  refine ⟨inside, Value.same_self _, fun earlier before same => ?_⟩
  have together := position_eq_of_same (Nat.lt_trans before inside) inside same
  exact Nat.ne_of_lt before together

/-- What is found in the domain is what can be a member of a set and is the same as a value of
it. -/
theorem isSome_find?_iff {value : Value} :
    (subject.find? value).isSome = true ↔
      value.unhashable? = none ∧ ∃ known ∈ subject.values, known.same value = true := by
  rw [find?]
  cases value.unhashable? with
  | some obstacle => exact iff_of_false (fun found => nomatch found) fun both => nomatch both.1
  | none =>
    rw [Option.isSome_none, if_neg Bool.false_ne_true, List.findIdx?_isSome, List.any_eq_true]
    exact (and_iff_right rfl).symm

/-- A variable admits what is the same as a value of its domain, and of its enumeration. -/
theorem admits_iff : subject.admits value = true ↔
    value.unhashable? = none ∧ (∃ known ∈ subject.values, known.same value = true) ∧
      ∀ owner, subject.owner = some owner → Enumeration.owns owner value = true := by
  rw [admits, Bool.and_eq_true, isSome_find?_iff, and_comm, and_assoc]
  cases subject.owner <;> simp

/-- No undefined number is found in a domain whose values compare equal to themselves. -/
theorem SelfEqual.isUndefined_eq_false (selfEqual : subject.SelfEqual) {value : Value}
    {position : Nat} (found : subject.find? value = some position) :
    value.isUndefined = false := by
  obtain ⟨inside, same⟩ := same_of_find? found
  rw [← Value.isUndefined_eq_of_same same]
  exact Value.equal_self_iff.mp (selfEqual _ (List.getElem_mem inside))

/-- In such a domain, two values that are found compare equal exactly if they are found at one
position. -/
theorem SelfEqual.equal_iff_position_eq (selfEqual : subject.SelfEqual) {first second : Value}
    {here there : Nat} (found : subject.find? first = some here)
    (found' : subject.find? second = some there) :
    first.equal second = true ↔ here = there := by
  rw [Value.equal_eq_same (selfEqual.isUndefined_eq_false found), same_iff_position_eq found found']

end StateVariable

/-! ### Facts -/

namespace Fact

variable {subject : StateVariable} {value : Value} {fact first second : Fact}

theorem exists_assign_iff :
    (∃ fact, assign subject value = .ok fact) ↔ subject.admits value = true := by
  rw [assign]
  split
  next admitted =>
    have found : (subject.find? value).isSome = true := (Bool.and_eq_true_iff.mp admitted).2
    refine iff_of_true ?_ admitted
    unfold locate
    split
    next => exact ⟨_, rfl⟩
    next missing => rw [missing] at found; cases found
  next refused => exact iff_of_false (fun ⟨_, made⟩ => nomatch made) refused

theorem assign_eq_ok (assigned : assign subject value = .ok fact) :
    fact.subject = subject ∧ fact.value = value := by
  rw [assign] at assigned
  split at assigned
  next =>
    unfold locate at assigned
    split at assigned
    next =>
      cases assigned
      exact ⟨rfl, rfl⟩
    next => split at assigned <;> cases assigned
  next => cases assigned

/-- Facts are the same exactly if they are about one variable and at one position. -/
theorem same_iff :
    first.same second = true ↔ first.subject = second.subject ∧ first.index = second.index := by
  obtain ⟨subject, value, index, located⟩ := first
  obtain ⟨subject', value', index', located'⟩ := second
  rw [Fact.same, Bool.and_eq_true, beq_iff_eq]
  refine and_congr_right fun same => ?_
  obtain rfl : subject = subject' := same
  exact StateVariable.same_iff_position_eq located located'

end Fact

end HorizonPlanner
