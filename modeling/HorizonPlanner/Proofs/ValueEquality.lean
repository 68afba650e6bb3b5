/-
This file says what it means that values are the same, without representatives.
Numbers are equal if they are exactly the same rational number, however they are
spelled: truth values, whole numbers, numbers of double precision and members
that count as numbers mix.  Tuples are equal item by item, and everything else
that can be a member of a set is only equal to itself; so is each of the
undefined numbers, which are objects of their own.

A number of double precision has many spellings as a significand and a power of
two, of which the format has one.  Fractions are compared by their spelling, and
for numbers of the format that is to compare them exactly.
-/

import HorizonPlanner.Proofs.Rounding
import HorizonPlanner.Value.Sameness

namespace HorizonPlanner

/-! ### Numbers of double precision -/

namespace Binary64

/-- A finite number is spelled as the format has it: with a full significand, unless its exponent is
the least one. -/
def Standard : Binary64 → Prop
  | .finite _ significand exponent =>
    significand < powerOfTwo precision ∧ leastExponent ≤ exponent ∧ exponent ≤ greatestExponent ∧
      (powerOfTwo (precision - 1) ≤ significand ∨ exponent = leastExponent)
  | _ => True

instance : DecidablePred Standard
  | .finite _ significand exponent =>
    inferInstanceAs (Decidable (significand < powerOfTwo precision ∧ leastExponent ≤ exponent ∧
      exponent ≤ greatestExponent ∧
        (powerOfTwo (precision - 1) ≤ significand ∨ exponent = leastExponent)))
  | .infinite _ | .undefined _ => isTrue trivial

section

variable {negative negative' : Bool} {significand significand' : Nat} {exponent exponent' : Int}

theorem natAbs_signed (negative : Bool) (magnitude : Nat) :
    (signed negative magnitude).natAbs = magnitude := by
  cases negative <;> simp [signed]

/-- Equal values on the grid of the smaller exponent. -/
theorem signed_eq_of_exactValue_eq (order : exponent ≤ exponent')
    (equal : exactValue negative significand exponent =
      exactValue negative' significand' exponent') :
    signed negative significand =
      signed negative' significand' * 2 ^ (exponent' - exponent).toNat := by
  have apart : (2 : Rat) ^ exponent' = 2 ^ (exponent' - exponent).toNat * 2 ^ exponent := by
    rw [← zpow_natCast, Int.toNat_of_nonneg (Int.sub_nonneg_of_le order),
      ← zpow_add₀ two_ne_zero, Int.sub_add_cancel]
  rw [exactValue_eq_signed, exactValue_eq_signed, apart, ← mul_assoc] at equal
  exact_mod_cast mul_right_cancel₀ (zpow_ne_zero exponent two_ne_zero) equal

/-- Of two equal numbers of the format, none that is not zero has the greater exponent: its
significand is full, so the other one would be too large. -/
theorem Standard.exponent_le (standard : Standard (.finite negative significand exponent))
    (standard' : Standard (.finite negative' significand' exponent'))
    (equal : exactValue negative significand exponent =
      exactValue negative' significand' exponent') : exponent' ≤ exponent := by
  by_contra greater
  have order : exponent < exponent' := Int.not_le.mp greater
  have aligned := congrArg Int.natAbs (signed_eq_of_exactValue_eq order.le equal)
  rw [natAbs_signed, Int.natAbs_mul, natAbs_signed, Int.natAbs_pow] at aligned
  have full : powerOfTwo (precision - 1) ≤ significand' :=
    standard'.2.2.2.resolve_right (by have := standard.2.1; omega)
  have twice : 2 ≤ 2 ^ (exponent' - exponent).toNat :=
    Nat.le_self_pow (by omega) 2
  have tooLarge : powerOfTwo precision ≤ significand := by
    calc powerOfTwo precision = powerOfTwo (precision - 1) * 2 := by decide
      _ ≤ significand' * 2 ^ (exponent' - exponent).toNat := Nat.mul_le_mul full twice
      _ = significand := aligned.symm
  exact absurd standard.1 (Nat.not_lt.mpr tooLarge)

end

/-- A number of the format that is not zero is determined by its value. -/
theorem Standard.eq_of_exactValue? {number number' : Binary64} (standard : number.Standard)
    (standard' : number'.Standard) {exact : Rat} (nonzero : exact ≠ 0)
    (value : number.exactValue? = some exact) (value' : number'.exactValue? = some exact) :
    number = number' := by
  match number, number', value, value' with
  | .finite negative significand exponent, .finite negative' significand' exponent', rfl, equal =>
    have equal : exactValue negative' significand' exponent' =
      exactValue negative significand exponent := Option.some.inj equal
    obtain rfl : exponent = exponent' :=
      Int.le_antisymm (standard'.exponent_le standard equal)
        (standard.exponent_le standard' equal.symm)
    have signs := signed_eq_of_exactValue_eq le_rfl equal
    rw [Int.sub_self, Int.toNat_zero, pow_zero, mul_one] at signs
    have magnitudes := congrArg Int.natAbs signs
    rw [natAbs_signed, natAbs_signed] at magnitudes
    obtain rfl : significand' = significand := magnitudes
    have someDigit : significand' ≠ 0 := by
      rintro rfl
      refine nonzero ?_
      rw [exactValue_eq_signed]
      cases negative <;> simp [signed]
    cases negative <;> cases negative' <;> simp [signed] at signs ⊢ <;> omega

/-- The whole number that a number is equal to is its value. -/
theorem wholeNumber?_eq_some_iff {number : Binary64} {whole : Int} :
    number.wholeNumber? = some whole ↔ number.exactValue? = some (whole : Rat) := by
  cases number with
  | undefined | infinite => simp [wholeNumber?, exactValue?]
  | finite negative significand exponent =>
    cases exponent with
    | ofNat power => simp [wholeNumber?, exactValue?, exactValue]
    | negSucc power =>
      have positive : 0 < powerOfTwo (power + 1) := Nat.two_pow_pos _
      have value : exactValue negative significand (.negSucc power) = whole ↔
          signed negative significand = whole * powerOfTwo (power + 1) := by
        rw [exactValue, Rat.mkRat_eq_div, div_eq_iff (by exact_mod_cast positive.ne')]
        exact_mod_cast Iff.rfl
      rw [exactValue?, Option.some_inj, value, wholeNumber?]
      split
      next divides =>
        obtain ⟨quotient, rfl⟩ := Nat.dvd_of_mod_eq_zero (beq_iff_eq.mp divides)
        have shifted : (powerOfTwo (power + 1) * quotient) >>> (power + 1) = quotient := by
          rw [Nat.shiftRight_eq_div_pow]
          exact Nat.mul_div_cancel_left quotient positive
        rw [shifted, Option.some_inj, Nat.mul_comm, signed_mul]
        exact (Int.mul_eq_mul_right_iff (by exact_mod_cast positive.ne')).symm
      next remains =>
        constructor
        · rintro ⟨⟩
        · intro equal
          have magnitudes := congrArg Int.natAbs equal
          rw [natAbs_signed, Int.natAbs_mul, Int.natAbs_natCast] at magnitudes
          refine absurd ?_ remains
          rw [magnitudes, Nat.mul_mod_left, beq_self_eq_true]

end Binary64

/-! ### Values -/

namespace Value

/-- The number that a value counts as. -/
def number? : Value → Option Rat
  | .boolean truth => some (if truth then 1 else 0)
  | .integer number => some number
  | .binary number => number.exactValue?
  | .member _ _ _ ⟨true, _, _⟩ (.integer number) => some number
  | _ => Option.none

/-- Two values that can be members of a set are equal. -/
inductive Equals : Value → Value → Prop
  | itself (value : Value) : Equals value value
  | numbers {first second : Value} {number : Rat} (counts : first.number? = some number)
      (counts' : second.number? = some number) : Equals first second
  | tuples {items items' : List Value} (lengths : items.length = items'.length)
      (each : ∀ (place : Nat) (inside : place < items.length) (inside' : place < items'.length),
        Equals items[place] items'[place]) : Equals (.tuple items) (.tuple items')

/-- The numbers of double precision in a value are of the format. -/
inductive Standard : Value → Prop
  | binary {number : Binary64} (standard : number.Standard) : Standard (.binary number)
  | tuple {items : List Value} (each : ∀ item ∈ items, Standard item) : Standard (.tuple items)
  | other {value : Value} (notBinary : ∀ number, value ≠ .binary number)
      (notTuple : ∀ items, value ≠ .tuple items) : Standard value

variable {first second value : Value} {items : List Value}

theorem Standard.number {number : Binary64} (standard : Standard (.binary number)) :
    number.Standard := by
  cases standard with
  | binary standard => exact standard
  | other notBinary => exact absurd rfl (notBinary number)

theorem Standard.of_mem (standard : Standard (.tuple items)) {item : Value}
    (member : item ∈ items) : Standard item := by
  cases standard with
  | tuple each => exact each item member
  | other _ notTuple => exact absurd rfl (notTuple items)

theorem unhashableItem?_eq_none_iff :
    unhashableItem? items = Option.none ↔ ∀ item ∈ items, item.unhashable? = Option.none := by
  induction items with
  | nil => simp [unhashableItem?]
  | cons item rest inductionHypothesis =>
    rw [unhashableItem?, Option.or_eq_none_iff, inductionHypothesis, List.forall_mem_cons]

theorem representatives_eq_map (items : List Value) :
    representatives items = items.map representative := by
  induction items with
  | nil => rfl
  | cons item rest inductionHypothesis =>
    exact congrArg (representative item :: ·) inductionHypothesis

theorem representative_binary (number : Binary64) :
    (Value.binary number).representative = binaryRepresentative number := rfl

theorem representative_tuple (items : List Value) :
    (Value.tuple items).representative = .tuple (items.map representative) :=
  congrArg Value.tuple (representatives_eq_map items)

/-! ### What representatives say -/

/-- A value counts as the number that its representative counts as. -/
theorem number?_representative (value : Value) : value.representative.number? = value.number? := by
  cases value with
  | boolean truth => cases truth <;> exact congrArg some (by norm_num)
  | binary number =>
    rw [representative_binary, binaryRepresentative]
    split
    next whole found => exact (Binary64.wholeNumber?_eq_some_iff.mp found).symm
    next => rfl
  | member owner ownerName label traits content =>
    obtain ⟨integral, _, _⟩ := traits
    cases integral <;> cases content <;> rfl
  | _ => rfl

/-- A number is represented by the whole number that it is, and a fraction is a number of double
precision. -/
theorem representative_of_number {number : Rat} (counts : value.number? = some number) :
    (∃ whole : Int, number = whole ∧ value.representative = .integer whole) ∨
      (∃ spelling, value = .binary spelling ∧ ∀ whole : Int, number ≠ whole) := by
  cases value with
  | boolean truth =>
    obtain rfl := Option.some.inj counts
    exact Or.inl ⟨if truth then 1 else 0, by cases truth <;> simp, rfl⟩
  | integer whole => exact Or.inl ⟨whole, (Option.some.inj counts).symm, rfl⟩
  | binary spelling =>
    have counts : spelling.exactValue? = some number := counts
    rw [representative_binary, binaryRepresentative]
    cases found : spelling.wholeNumber? with
    | some whole =>
      have value := Binary64.wholeNumber?_eq_some_iff.mp found
      exact Or.inl ⟨whole, Option.some.inj (counts.symm.trans value), rfl⟩
    | none =>
      refine Or.inr ⟨spelling, rfl, ?_⟩
      rintro whole rfl
      cases found.symm.trans (Binary64.wholeNumber?_eq_some_iff.mpr counts)
  | member owner ownerName label traits content =>
    obtain ⟨integral, _, _⟩ := traits
    cases integral <;> cases content <;>
      first
      | exact Or.inl ⟨_, (Option.some.inj counts).symm, rfl⟩
      | cases counts
  | _ => cases counts

/-- What can be a member of a set and is neither a number nor a tuple represents itself. -/
theorem representative_of_plain (hashable : value.unhashable? = Option.none)
    (uncounted : value.number? = Option.none) (notTuple : ∀ items, value ≠ .tuple items) :
    value.representative = value := by
  cases value with
  | none | text => rfl
  | boolean | integer => cases uncounted
  | binary number =>
    rw [representative_binary, binaryRepresentative]
    cases found : number.wholeNumber? with
    | some whole =>
      have value := Binary64.wholeNumber?_eq_some_iff.mp found
      cases (show number.exactValue? = Option.none from uncounted).symm.trans value
    | none => rfl
  | sequence | mapping => cases hashable
  | tuple items => exact absurd rfl (notTuple items)
  | member owner ownerName label traits content =>
    obtain ⟨integral, _, _⟩ := traits
    cases integral <;> cases content <;> first | rfl | cases uncounted

theorem tuple_of_representative (same : value.representative = .tuple items) :
    ∃ items', value = .tuple items' := by
  cases value with
  | tuple items' => exact ⟨items', rfl⟩
  | binary number =>
    rw [representative_binary, binaryRepresentative] at same
    split at same <;> cases same
  | member owner ownerName label traits content =>
    obtain ⟨integral, _, _⟩ := traits
    cases integral <;> cases content <;> cases same
  | _ => cases same

/-! ### Equality -/

/-- Values with the same representative are equal. -/
theorem equals_of_representative_eq {first second : Value}
    (hashable : first.unhashable? = Option.none) (hashable' : second.unhashable? = Option.none)
    (same : first.representative = second.representative) : Equals first second := by
  -- Both count as the same number or neither is one, since representatives keep that.
  have counted : first.number? = second.number? := by
    rw [← number?_representative first, same, number?_representative]
  cases counts : first.number? with
  | some number => exact .numbers counts (counted ▸ counts)
  | none =>
    by_cases tupled : ∃ items, first = .tuple items
    · obtain ⟨items, rfl⟩ := tupled
      obtain ⟨items', rfl⟩ := tuple_of_representative same.symm
      rw [representative_tuple, representative_tuple] at same
      have same := Value.tuple.inj same
      have each := unhashableItem?_eq_none_iff.mp hashable
      have each' := unhashableItem?_eq_none_iff.mp hashable'
      refine .tuples (by simpa using congrArg List.length same) fun place inside inside' => ?_
      refine equals_of_representative_eq (each _ (List.getElem_mem inside))
        (each' _ (List.getElem_mem inside')) ?_
      have agree := List.getElem_of_eq same ((List.length_map _).symm ▸ inside)
      rwa [List.getElem_map, List.getElem_map] at agree
    · have tupled' : ¬ ∃ items, second = .tuple items := by
        rintro ⟨items, rfl⟩
        exact tupled (tuple_of_representative same)
      rw [representative_of_plain hashable counts (not_exists.mp tupled),
        representative_of_plain hashable' (counted ▸ counts) (not_exists.mp tupled')] at same
      exact same ▸ .itself first
termination_by sizeOf first
decreasing_by
  have smaller := List.sizeOf_lt_of_mem (List.getElem_mem inside)
  rw [‹first = .tuple items›, tuple.sizeOf_spec]
  omega

/-- Numbers of the format that are equal have the same representative. -/
theorem representative_eq_of_number {number : Rat} (standard : first.Standard)
    (standard' : second.Standard) (counts : first.number? = some number)
    (counts' : second.number? = some number) : first.representative = second.representative := by
  rcases representative_of_number counts with
    ⟨whole, rfl, spelled⟩ | ⟨spelling, rfl, broken⟩
  · rcases representative_of_number counts' with ⟨whole', same, spelled'⟩ | ⟨_, _, broken⟩
    · obtain rfl : whole = whole' := by exact_mod_cast same
      rw [spelled, spelled']
    · exact absurd rfl (broken whole)
  · rcases representative_of_number counts' with ⟨whole, rfl, _⟩ | ⟨spelling', rfl, _⟩
    · exact absurd rfl (broken whole)
    · have nonzero : number ≠ 0 := fun zero => broken 0 (by rw [zero, Int.cast_zero])
      rw [standard.number.eq_of_exactValue? standard'.number nonzero counts counts']

/-- Values that are equal have the same representative. -/
theorem Equals.representative_eq (equal : Equals first second) (standard : first.Standard)
    (standard' : second.Standard) : first.representative = second.representative := by
  induction equal with
  | itself => rfl
  | numbers counts counts' => exact representative_eq_of_number standard standard' counts counts'
  | @tuples items items' lengths _ inductionHypothesis =>
    rw [representative_tuple, representative_tuple]
    congr 1
    refine List.ext_getElem (by rw [List.length_map, List.length_map, lengths])
      fun place inside inside' => ?_
    rw [List.length_map] at inside inside'
    rw [List.getElem_map, List.getElem_map]
    exact inductionHypothesis place inside inside' (standard.of_mem (List.getElem_mem inside))
      (standard'.of_mem (List.getElem_mem inside'))

/-- Values that can be members of a set are the same exactly if they are equal. -/
theorem same_iff_equals (hashable : first.unhashable? = Option.none)
    (hashable' : second.unhashable? = Option.none) (standard : first.Standard)
    (standard' : second.Standard) : first.same second = true ↔ Equals first second := by
  rw [same, beq_iff_eq]
  exact ⟨equals_of_representative_eq hashable hashable',
    fun equal => equal.representative_eq standard standard'⟩

end Value

end HorizonPlanner
