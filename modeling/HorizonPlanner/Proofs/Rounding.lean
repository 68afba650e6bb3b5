/-
This file proves that rounding to double precision keeps the order of numbers, and
with it that sums do.  Two quotients that get the same exponent are rounded on one
grid, where the nearest whole number grows with the quotient.  If the exponents
differ, a power of two lies between the quotients and between what they are rounded
to.  Negative numbers mirror positive ones, and what is out of the range of the
format goes to the end of the number line.

As rounding keeps the order, two whole numbers tell from where on whole numbers are
too large for the format.
-/

import Mathlib.Algebra.Order.Field.Power
import Mathlib.Data.Rat.Cast.Order
import Mathlib.Tactic.FieldSimp
import Mathlib.Tactic.Linarith
import Mathlib.Tactic.Positivity
import Mathlib.Tactic.Ring
import HorizonPlanner.Number.Addition
import HorizonPlanner.Number.Order

namespace HorizonPlanner

namespace Binary64

/-! ### The nearest whole number -/

section

variable {numerator denominator : Nat}

/-- A quotient is rounded up by a half at most, and by a half to an even number only. -/
theorem roundHalfEven_le (numerator : Nat) (positive : 0 < denominator) :
    2 * roundHalfEven numerator denominator * denominator ≤ 2 * numerator + denominator ∧
      (2 * roundHalfEven numerator denominator * denominator = 2 * numerator + denominator →
        roundHalfEven numerator denominator % 2 = 0) := by
  have divided := Nat.div_add_mod numerator denominator
  have inside := Nat.mod_lt numerator positive
  rw [roundHalfEven]
  generalize numerator / denominator = quotient at *
  generalize numerator % denominator = remainder at *
  subst divided
  simp only [Bool.or_eq_true, Bool.and_eq_true, beq_iff_eq, decide_eq_true_eq]
  split
  next up =>
    refine ⟨?_, fun tie => ?_⟩
    · rcases up with up | ⟨up, _⟩ <;> nlinarith
    · have half : 2 * remainder = denominator := by nlinarith
      omega
  next down =>
    refine ⟨by nlinarith, fun tie => ?_⟩
    have none : denominator + 2 * remainder = 0 := by nlinarith
    omega

/-- A quotient is rounded down by a half at most, and by a half to an even number only. -/
theorem le_roundHalfEven (numerator : Nat) (positive : 0 < denominator) :
    2 * numerator ≤ 2 * roundHalfEven numerator denominator * denominator + denominator ∧
      (2 * numerator = 2 * roundHalfEven numerator denominator * denominator + denominator →
        roundHalfEven numerator denominator % 2 = 0) := by
  have divided := Nat.div_add_mod numerator denominator
  have inside := Nat.mod_lt numerator positive
  rw [roundHalfEven]
  generalize numerator / denominator = quotient at *
  generalize numerator % denominator = remainder at *
  subst divided
  simp only [Bool.or_eq_true, Bool.and_eq_true, beq_iff_eq, decide_eq_true_eq]
  split
  next up =>
    refine ⟨by nlinarith, fun tie => ?_⟩
    have none : 2 * remainder = 3 * denominator := by nlinarith
    omega
  next down =>
    rw [not_or, not_and] at down
    refine ⟨by nlinarith, fun tie => ?_⟩
    have half : 2 * remainder = denominator := by nlinarith
    have even := down.2 half
    omega

/-- A larger quotient is not rounded to a smaller number. -/
theorem roundHalfEven_mono {numerator' denominator' : Nat} (positive : 0 < denominator)
    (positive' : 0 < denominator')
    (order : numerator * denominator' ≤ numerator' * denominator) :
    roundHalfEven numerator denominator ≤ roundHalfEven numerator' denominator' := by
  obtain ⟨up, upTie⟩ := roundHalfEven_le numerator positive
  obtain ⟨down, downTie⟩ := le_roundHalfEven numerator' positive'
  generalize roundHalfEven numerator denominator = rounded at *
  generalize roundHalfEven numerator' denominator' = rounded' at *
  by_contra smaller
  -- The quotients would both be half way between the two numbers, of which only one is even.
  have chain : 2 * rounded * denominator * denominator' ≤
      (2 * rounded' + 2) * denominator * denominator' := by
    calc 2 * rounded * denominator * denominator'
        ≤ (2 * numerator + denominator) * denominator' := Nat.mul_le_mul_right _ up
      _ ≤ 2 * (numerator' * denominator) + denominator * denominator' := by linarith
      _ ≤ (2 * rounded' * denominator' + denominator') * denominator +
            denominator * denominator' := by
          have scaled := Nat.mul_le_mul_right denominator down
          linarith
      _ = _ := by ring
  have next : rounded = rounded' + 1 := by
    have close := Nat.le_of_mul_le_mul_right
      (Nat.le_of_mul_le_mul_right chain positive') positive
    omega
  subst next
  have tie : 2 * (rounded' + 1) * denominator = 2 * numerator + denominator := by
    refine Nat.le_antisymm up ?_
    refine Nat.le_of_mul_le_mul_right ?_ positive'
    nlinarith [Nat.mul_le_mul_right denominator down]
  have tie' : 2 * numerator' = 2 * rounded' * denominator' + denominator' := by
    refine Nat.le_antisymm down ?_
    refine Nat.le_of_mul_le_mul_right ?_ positive
    nlinarith [Nat.mul_le_mul_right denominator' up]
  have even := upTie tie
  have even' := downTie tie'
  omega

theorem roundHalfEven_mul (quotient : Nat) (positive : 0 < denominator) :
    roundHalfEven (quotient * denominator) denominator = quotient := by
  simp [roundHalfEven, Nat.mul_div_cancel quotient positive, positive.ne]

end

/-! ### The grid of an exponent -/

section

variable {numerator denominator : Nat}

theorem signed_mul (negative : Bool) (magnitude factor : Nat) :
    signed negative (magnitude * factor) = signed negative magnitude * factor := by
  cases negative <;> simp [signed]

theorem exactValue_eq_signed (negative : Bool) (significand : Nat) (exponent : Int) :
    exactValue negative significand exponent =
      (signed negative significand : Rat) * 2 ^ exponent := by
  cases exponent with
  | ofNat power => simp [exactValue, Nat.shiftLeft_eq, signed_mul]
  | negSucc power =>
    simp [exactValue, powerOfTwo, Rat.mkRat_eq_div, zpow_negSucc, div_eq_mul_inv]

/-- Scaling divides a quotient by a power of two. -/
theorem scaled_eq (positive : 0 < denominator) (numerator : Nat) (exponent : Int) :
    0 < (scaled numerator denominator exponent).2 ∧
      ((scaled numerator denominator exponent).1 : Rat) /
          (scaled numerator denominator exponent).2 =
        (numerator / denominator : Rat) / 2 ^ exponent := by
  cases exponent with
  | ofNat power =>
    refine ⟨?_, ?_⟩
    · simp only [scaled, Nat.shiftLeft_eq]
      positivity
    · simp [scaled, Nat.shiftLeft_eq, div_div]
  | negSucc power =>
    refine ⟨positive, ?_⟩
    simp only [scaled, Nat.shiftLeft_eq, zpow_negSucc]
    push_cast
    field_simp

/-- The difference of the logarithms is off by one at most. -/
theorem estimate_spec (positive : 0 < numerator) (positive' : 0 < denominator) :
    (2 : Rat) ^ 52 * 2 ^ ((numerator.log2 : Int) - denominator.log2 - precision) ≤
        numerator / denominator ∧
      (numerator / denominator : Rat) <
        2 ^ 54 * 2 ^ ((numerator.log2 : Int) - denominator.log2 - precision) := by
  have low : (2 : Rat) ^ numerator.log2 ≤ numerator := by
    exact_mod_cast Nat.log2_self_le positive.ne'
  have high : (numerator : Rat) < 2 ^ (numerator.log2 + 1) := by
    exact_mod_cast Nat.lt_log2_self
  have low' : (2 : Rat) ^ denominator.log2 ≤ denominator := by
    exact_mod_cast Nat.log2_self_le positive'.ne'
  have high' : (denominator : Rat) < 2 ^ (denominator.log2 + 1) := by
    exact_mod_cast Nat.lt_log2_self
  have above : (0 : Rat) < denominator := by exact_mod_cast positive'
  have split : ∀ power : Nat, (2 : Rat) ^ power *
      2 ^ ((numerator.log2 : Int) - denominator.log2 - precision) =
        2 ^ numerator.log2 / 2 ^ denominator.log2 * (2 ^ power / 2 ^ 53) := by
    intro power
    rw [zpow_sub₀ two_ne_zero, zpow_sub₀ two_ne_zero, zpow_natCast, zpow_natCast, zpow_natCast,
      precision]
    ring
  rw [split, split, le_div_iff₀ above, div_lt_iff₀ above]
  have positive'' : (0 : Rat) < 2 ^ denominator.log2 := by positivity
  constructor
  · calc (2 : Rat) ^ numerator.log2 / 2 ^ denominator.log2 * (2 ^ 52 / 2 ^ 53) * denominator
        ≤ 2 ^ numerator.log2 / 2 ^ denominator.log2 * (2 ^ 52 / 2 ^ 53) *
            2 ^ (denominator.log2 + 1) := by gcongr
      _ = 2 ^ numerator.log2 := by
          field_simp
          ring
      _ ≤ numerator := low
  · calc (numerator : Rat) < 2 ^ (numerator.log2 + 1) := high
      _ = 2 ^ numerator.log2 / 2 ^ denominator.log2 * (2 ^ 54 / 2 ^ 53) *
            2 ^ denominator.log2 := by
          rw [pow_succ]
          field_simp
      _ ≤ _ := by gcongr

/-- At its exponent a quotient is below the full precision, and it reaches it unless the exponent
is the least one. -/
theorem exponentFor_spec (positive : 0 < numerator) (positive' : 0 < denominator) :
    leastExponent ≤ exponentFor numerator denominator ∧
      (numerator / denominator : Rat) < 2 ^ 53 * 2 ^ exponentFor numerator denominator ∧
      (exponentFor numerator denominator ≠ leastExponent →
        2 ^ 52 * 2 ^ exponentFor numerator denominator ≤ (numerator / denominator : Rat)) := by
  obtain ⟨least, greatest⟩ := estimate_spec positive positive'
  rw [exponentFor]
  generalize (numerator.log2 : Int) - denominator.log2 - precision = estimate at *
  obtain ⟨below, value⟩ := scaled_eq positive' numerator estimate
  have scale : (0 : Rat) < 2 ^ estimate := zpow_pos two_pos estimate
  have small : (scaled numerator denominator estimate).1 /
      (scaled numerator denominator estimate).2 < powerOfTwo precision ↔
        (numerator / denominator : Rat) < 2 ^ 53 * 2 ^ estimate := by
    rw [Nat.div_lt_iff_lt_mul below, ← div_lt_iff₀ scale, ← value,
      div_lt_iff₀ (by exact_mod_cast below)]
    exact_mod_cast Iff.rfl
  have full : ∃ exponent, (if (scaled numerator denominator estimate).1 /
        (scaled numerator denominator estimate).2 < powerOfTwo precision then estimate
      else estimate + 1) = exponent ∧
      (2 : Rat) ^ 52 * 2 ^ exponent ≤ numerator / denominator ∧
      (numerator / denominator : Rat) < 2 ^ 53 * 2 ^ exponent := by
    split
    next short => exact ⟨_, rfl, least, small.mp short⟩
    next long =>
      rw [small, not_lt] at long
      refine ⟨_, rfl, ?_, ?_⟩ <;> rw [zpow_add_one₀ two_ne_zero] <;> linarith
  obtain ⟨exponent, value, low, high⟩ := full
  simp only [value]
  rcases le_total exponent leastExponent with small' | large
  · rw [max_eq_right small']
    refine ⟨le_refl _, lt_of_lt_of_le high ?_, fun other => absurd rfl other⟩
    gcongr
    norm_num
  · rw [max_eq_left large]
    exact ⟨large, high, fun _ => low⟩

/-! ### Rounded quotients -/

/-- The significand of a rounded quotient. -/
def significandFor (numerator denominator : Nat) : Nat :=
  roundHalfEven (scaled numerator denominator (exponentFor numerator denominator)).1
    (scaled numerator denominator (exponentFor numerator denominator)).2

/-- What a quotient is rounded to, were there no largest number. -/
def rounded (numerator denominator : Nat) : Rat :=
  significandFor numerator denominator * 2 ^ exponentFor numerator denominator

/-- A quotient that is a whole number of units is not changed by rounding. -/
theorem significandFor_eq (positive' : 0 < denominator) {units : Nat}
    (value : (numerator / denominator : Rat) = units * 2 ^ exponentFor numerator denominator) :
    significandFor numerator denominator = units := by
  obtain ⟨below, scaled⟩ := scaled_eq positive' numerator (exponentFor numerator denominator)
  have scale : (2 : Rat) ^ exponentFor numerator denominator ≠ 0 := zpow_ne_zero _ two_ne_zero
  rw [value, mul_div_cancel_right₀ _ scale, div_eq_iff (by exact_mod_cast below.ne')] at scaled
  rw [significandFor, ← roundHalfEven_mul units below]
  congr 1
  exact_mod_cast scaled

/-- A significand has the full precision, unless the exponent is the least one. -/
theorem significandFor_spec (positive : 0 < numerator) (positive' : 0 < denominator) :
    significandFor numerator denominator ≤ 2 ^ 53 ∧
      (exponentFor numerator denominator ≠ leastExponent →
        2 ^ 52 ≤ significandFor numerator denominator) := by
  obtain ⟨_, high, low⟩ := exponentFor_spec positive positive'
  obtain ⟨below, value⟩ := scaled_eq positive' numerator (exponentFor numerator denominator)
  have scale : (0 : Rat) < 2 ^ exponentFor numerator denominator := zpow_pos two_pos _
  have below' : (0 : Rat) <
    (scaled numerator denominator (exponentFor numerator denominator)).2 := by exact_mod_cast below
  rw [← div_lt_iff₀ scale, ← value, div_lt_iff₀ below'] at high
  rw [← le_div_iff₀ scale, ← value, le_div_iff₀ below'] at low
  rw [significandFor]
  constructor
  · rw [← roundHalfEven_mul (2 ^ 53) below]
    exact roundHalfEven_mono below below (Nat.mul_le_mul_right _ (by exact_mod_cast high.le))
  · intro other
    rw [← roundHalfEven_mul (2 ^ 52) below]
    exact roundHalfEven_mono below below (Nat.mul_le_mul_right _ (by exact_mod_cast low other))

/-- A larger quotient has no smaller exponent. -/
theorem exponentFor_mono {numerator' denominator' : Nat} (positive : 0 < numerator)
    (positive' : 0 < denominator) (above : 0 < numerator') (above' : 0 < denominator')
    (order : (numerator / denominator : Rat) ≤ numerator' / denominator') :
    exponentFor numerator denominator ≤ exponentFor numerator' denominator' := by
  obtain ⟨_, _, low⟩ := exponentFor_spec positive positive'
  obtain ⟨least, high, _⟩ := exponentFor_spec above above'
  by_cases same : exponentFor numerator denominator = leastExponent
  · exact same ▸ least
  · have between : (2 : Rat) ^ 52 * 2 ^ exponentFor numerator denominator <
        2 ^ 53 * 2 ^ exponentFor numerator' denominator' :=
      lt_of_le_of_lt ((low same).trans order) high
    have powers : (2 : Rat) ^ exponentFor numerator denominator <
        2 ^ (exponentFor numerator' denominator' + 1) := by
      rw [zpow_add_one₀ two_ne_zero]
      linarith
    exact Int.lt_add_one_iff.mp ((zpow_lt_zpow_iff_right₀ one_lt_two).mp powers)

/-- A larger quotient is not rounded to less. -/
theorem rounded_mono {numerator' denominator' : Nat} (positive : 0 < numerator)
    (positive' : 0 < denominator) (above : 0 < numerator') (above' : 0 < denominator')
    (order : (numerator / denominator : Rat) ≤ numerator' / denominator') :
    rounded numerator denominator ≤ rounded numerator' denominator' := by
  have grows := exponentFor_mono positive positive' above above' order
  rw [rounded, rounded]
  rcases grows.eq_or_lt with same | smaller
  · -- On one grid the nearest whole numbers keep the order.
    obtain ⟨below, value⟩ := scaled_eq positive' numerator (exponentFor numerator denominator)
    obtain ⟨below', value'⟩ := scaled_eq above' numerator' (exponentFor numerator denominator)
    have scale : (0 : Rat) < 2 ^ exponentFor numerator denominator := zpow_pos two_pos _
    have nearest :
        significandFor numerator denominator ≤ significandFor numerator' denominator' := by
      rw [significandFor, significandFor, ← same]
      refine roundHalfEven_mono below below' ?_
      rw [← div_le_div_iff_of_pos_right scale, ← value, ← value',
        div_le_div_iff₀ (by exact_mod_cast below) (by exact_mod_cast below')] at order
      exact_mod_cast order
    rw [← same]
    gcongr
  · -- A power of two lies between what the quotients are rounded to.
    have high := (significandFor_spec positive positive').1
    have low := (significandFor_spec above above').2 fun least =>
      absurd (exponentFor_spec positive positive').1 (not_le.mpr (least ▸ smaller))
    calc (significandFor numerator denominator : Rat) * 2 ^ exponentFor numerator denominator
        ≤ 2 ^ 53 * 2 ^ exponentFor numerator denominator := by
          gcongr
          exact_mod_cast high
      _ = 2 ^ 52 * 2 ^ (exponentFor numerator denominator + 1) := by
          rw [zpow_add_one₀ two_ne_zero]
          ring
      _ ≤ 2 ^ 52 * 2 ^ exponentFor numerator' denominator' := by
          gcongr
          · exact one_le_two
          · exact smaller
      _ ≤ significandFor numerator' denominator' *
            2 ^ exponentFor numerator' denominator' := by
          gcongr
          exact_mod_cast low

/-- A quotient that is a number of the format, were there no largest one, is not changed by
rounding. -/
theorem rounded_eq (positive : 0 < numerator) (positive' : 0 < denominator) {significand : Nat}
    {exponent : Int} (short : significand < 2 ^ 53) (least : leastExponent ≤ exponent)
    (value : (numerator / denominator : Rat) = significand * 2 ^ exponent) :
    rounded numerator denominator = numerator / denominator := by
  obtain ⟨_, _, low⟩ := exponentFor_spec positive positive'
  have fits : exponentFor numerator denominator ≤ exponent := by
    by_cases same : exponentFor numerator denominator = leastExponent
    · exact same ▸ least
    · have below : (significand : Rat) < 2 ^ 53 := by exact_mod_cast short
      have powers : (2 : Rat) ^ exponentFor numerator denominator < 2 ^ (exponent + 1) := by
        have between : (significand : Rat) * 2 ^ exponent < 2 ^ 53 * 2 ^ exponent := by gcongr
        rw [zpow_add_one₀ two_ne_zero]
        linarith [value ▸ low same]
      exact Int.lt_add_one_iff.mp ((zpow_lt_zpow_iff_right₀ one_lt_two).mp powers)
  obtain ⟨shift, rfl⟩ := Int.exists_add_of_le fits
  have units : (numerator / denominator : Rat) =
      ((significand * 2 ^ shift : Nat) : Rat) * 2 ^ exponentFor numerator denominator := by
    rw [value, zpow_add₀ two_ne_zero, zpow_natCast]
    push_cast
    ring
  rw [rounded, significandFor_eq positive' units, units]

/-! ### The range of the format -/

theorem ofRatio_eq (negative : Bool) (positive : 0 < numerator) :
    ofRatio negative numerator denominator =
      if significandFor numerator denominator = 2 ^ 53 then
        if greatestExponent < exponentFor numerator denominator + 1 then .infinite negative
        else .finite negative (2 ^ 52) (exponentFor numerator denominator + 1)
      else if greatestExponent < exponentFor numerator denominator then .infinite negative
      else .finite negative (significandFor numerator denominator)
        (exponentFor numerator denominator) := by
  have nonzero : (numerator == 0) = false := beq_false_of_ne positive.ne'
  rw [ofRatio, nonzero]
  simp only [Bool.false_eq_true, if_false, beq_iff_eq]
  split
  next full =>
    rw [if_pos (show significandFor numerator denominator = 2 ^ 53 from full)]
    rfl
  next short =>
    rw [if_neg (show ¬ significandFor numerator denominator = 2 ^ 53 from short)]
    rfl

theorem range_eq : (2 : Rat) ^ 1024 = 2 ^ 52 * 2 ^ (greatestExponent + 1) := by
  rw [show greatestExponent + 1 = (972 : Nat) from rfl, zpow_natCast, ← pow_add]

/-- The nearest number to a quotient is what it is rounded to, unless that is out of the range of
the format. -/
theorem ofRatio_spec (negative : Bool) (positive : 0 < numerator) (positive' : 0 < denominator) :
    (∃ significand exponent, ofRatio negative numerator denominator =
        .finite negative significand exponent ∧ significand < 2 ^ 53 ∧
        exponent ≤ greatestExponent ∧
        rounded numerator denominator = significand * 2 ^ exponent) ∨
      (ofRatio negative numerator denominator = .infinite negative ∧
        2 ^ 1024 ≤ rounded numerator denominator) := by
  obtain ⟨high, low⟩ := significandFor_spec positive positive'
  rw [ofRatio_eq negative positive, range_eq, rounded]
  split
  next full =>
    have carried : ((significandFor numerator denominator : Nat) : Rat) *
        2 ^ exponentFor numerator denominator =
          2 ^ 52 * 2 ^ (exponentFor numerator denominator + 1) := by
      rw [full, zpow_add_one₀ two_ne_zero]
      push_cast
      ring
    rw [carried]
    split
    next past =>
      refine Or.inr ⟨rfl, ?_⟩
      gcongr
      · exact one_le_two
      · exact Int.lt_add_one_iff.mp past
    next within =>
      exact Or.inl ⟨_, _, rfl, by norm_num, not_lt.mp within, by push_cast; rfl⟩
  next short =>
    split
    next past =>
      have other : exponentFor numerator denominator ≠ leastExponent := by
        intro same
        rw [same] at past
        exact absurd past (by decide)
      have full : (2 : Rat) ^ 52 ≤ significandFor numerator denominator := by
        exact_mod_cast low other
      refine Or.inr ⟨rfl, ?_⟩
      gcongr
      · exact one_le_two
      · exact past
    next within =>
      exact Or.inl ⟨_, _, rfl, lt_of_le_of_ne high short, not_lt.mp within, rfl⟩

theorem cast_powerOfTwo (power : Nat) : (powerOfTwo power : Rat) = 2 ^ power :=
  Nat.cast_pow 2 power

theorem largestFinite_eq : (largestFinite : Rat) = (2 ^ 53 - 1) * 2 ^ greatestExponent := by
  rw [largestFinite, Nat.cast_mul, Nat.cast_sub (by decide), cast_powerOfTwo, cast_powerOfTwo,
    Nat.cast_one, show greatestExponent = (971 : Nat) from rfl, zpow_natCast]

/-- A number in the range of the format is at most the largest finite one. -/
theorem le_largestFinite {significand : Nat} {exponent : Int} (short : significand < 2 ^ 53)
    (within : exponent ≤ greatestExponent) :
    (significand : Rat) * 2 ^ exponent ≤ largestFinite := by
  have full : (significand : Rat) ≤ 2 ^ 53 - 1 := by
    have below : (significand : Rat) + 1 ≤ 2 ^ 53 := by exact_mod_cast short
    linarith
  calc (significand : Rat) * 2 ^ exponent
      ≤ (2 ^ 53 - 1) * 2 ^ greatestExponent := by
        gcongr
        exact one_le_two
    _ = largestFinite := largestFinite_eq.symm

theorem largestFinite_lt : (largestFinite : Rat) < 2 ^ 1024 := by
  have below : largestFinite < 2 ^ 1024 := by decide +kernel
  exact_mod_cast below

end

/-! ### The nearest number -/

theorem exactValue_eq_mul (negative : Bool) (significand : Nat) (exponent : Int) :
    exactValue negative significand exponent =
      (if negative then -1 else 1) * (significand * 2 ^ exponent) := by
  rw [exactValue_eq_signed]
  cases negative <;> simp [signed]

/-- What the magnitude of a value is rounded to, were there no largest number. -/
def roundedMagnitude (exact : Rat) : Rat := rounded exact.num.natAbs exact.den

section

variable {exact exact' : Rat}

theorem roundedMagnitude_neg (exact : Rat) :
    roundedMagnitude (-exact) = roundedMagnitude exact := by
  rw [roundedMagnitude, roundedMagnitude, Rat.neg_num, Int.natAbs_neg, Rat.neg_den]

theorem roundedMagnitude_nonneg (exact : Rat) : 0 ≤ roundedMagnitude exact := by
  rw [roundedMagnitude, rounded]
  positivity

theorem roundedMagnitude_zero : roundedMagnitude 0 = 0 := by
  have nothing : significandFor 0 1 = 0 := significandFor_eq one_pos (by simp)
  simp [roundedMagnitude, rounded, nothing]

theorem natAbs_num_pos (positive : 0 < exact) : 0 < exact.num.natAbs :=
  Int.natAbs_pos.mpr (Rat.num_pos.mpr positive).ne'

theorem natAbs_num_div_den (positive : 0 < exact) :
    (exact.num.natAbs / exact.den : Rat) = exact := by
  have sign : ((exact.num.natAbs : Int) : Rat) = exact.num := by
    rw [Int.natAbs_of_nonneg (Rat.num_pos.mpr positive).le]
  rw [← Int.cast_natCast, sign, Rat.num_div_den]

/-- A larger magnitude is not rounded to less. -/
theorem roundedMagnitude_mono (nonneg : 0 ≤ exact) (order : exact ≤ exact') :
    roundedMagnitude exact ≤ roundedMagnitude exact' := by
  obtain rfl | positive := nonneg.eq_or_lt
  · rw [roundedMagnitude_zero]
    exact roundedMagnitude_nonneg exact'
  · have positive' := lt_of_lt_of_le positive order
    refine rounded_mono (natAbs_num_pos positive) exact.den_pos (natAbs_num_pos positive')
      exact'.den_pos ?_
    rwa [natAbs_num_div_den positive, natAbs_num_div_den positive']

/-- The magnitude of a number of the format is not changed by rounding. -/
theorem roundedMagnitude_eq {significand : Nat} {exponent : Int} (short : significand < 2 ^ 53)
    (least : leastExponent ≤ exponent) :
    roundedMagnitude (significand * 2 ^ exponent) = significand * 2 ^ exponent := by
  obtain zero | positive := (by positivity : (0 : Rat) ≤ significand * 2 ^ exponent).eq_or_lt
  · rw [← zero, roundedMagnitude_zero]
  · rw [roundedMagnitude, rounded_eq (natAbs_num_pos positive) (Rat.den_pos _) short least
      (natAbs_num_div_den positive), natAbs_num_div_den positive]

end

end Binary64

/-! ### Rounding on the number line -/

open Binary64

namespace Extent

/-- A magnitude with a sign.  Past the largest finite number is the end of the number line. -/
def placed (negative : Bool) (magnitude : Rat) : Extent :=
  if magnitude ≤ largestFinite then .rational ((if negative then -1 else 1) * magnitude)
  else if negative then .lowest else .highest

/-- What an extent is rounded to; the ends of the number line stay as they are. -/
def rounded : Extent → Extent
  | .rational exact => placed (exact < 0) (roundedMagnitude exact)
  | extent => extent

/-- An extent with an offset. -/
def shifted (offset : Rat) : Extent → Extent
  | .rational exact => .rational (offset + exact)
  | extent => extent

variable {magnitude magnitude' : Rat} {extent extent' : Extent}

theorem placed_of_le {negative : Bool} (within : magnitude ≤ largestFinite) :
    placed negative magnitude = .rational ((if negative then -1 else 1) * magnitude) :=
  if_pos within

theorem placed_of_lt {negative : Bool} (past : largestFinite < magnitude) :
    placed negative magnitude = if negative then .lowest else .highest :=
  if_neg (not_le.mpr past)

theorem placed_mono (order : magnitude ≤ magnitude') :
    placed false magnitude ≤ placed false magnitude' := by
  rcases le_or_gt magnitude' largestFinite with within' | past'
  · rw [placed_of_le (order.trans within'), placed_of_le within', rational_le_iff]
    simpa using order
  · rw [placed_of_lt past']
    exact le_highest _

theorem placed_anti (order : magnitude ≤ magnitude') :
    placed true magnitude' ≤ placed true magnitude := by
  rcases le_or_gt magnitude' largestFinite with within' | past'
  · rw [placed_of_le (order.trans within'), placed_of_le within', rational_le_iff]
    simpa using order
  · rw [placed_of_lt past']
    exact lowest_le _

theorem placed_opposite (nonneg : 0 ≤ magnitude) (nonneg' : 0 ≤ magnitude') :
    placed true magnitude ≤ placed false magnitude' := by
  rcases le_or_gt magnitude largestFinite with within | past
  · rcases le_or_gt magnitude' largestFinite with within' | past'
    · rw [placed_of_le within, placed_of_le within', rational_le_iff]
      simpa using (neg_nonpos.mpr nonneg).trans nonneg'
    · rw [placed_of_lt past']
      exact le_highest _
  · rw [placed_of_lt past]
    exact lowest_le _

/-- What is at most an extent is the lowest one, unless both are rational or the other is the
highest one. -/
theorem cases_of_le (order : extent ≤ extent') :
    extent = .lowest ∨ extent' = .highest ∨
      ∃ exact exact', extent = .rational exact ∧ extent' = .rational exact' ∧ exact ≤ exact' := by
  cases extent with
  | lowest => exact Or.inl rfl
  | rational exact =>
    cases extent' with
    | lowest => cases order
    | rational exact' => exact Or.inr (Or.inr ⟨_, _, rfl, rfl, rational_le_iff.mp order⟩)
    | highest => exact Or.inr (Or.inl rfl)
  | highest =>
    cases extent' with
    | lowest | rational => cases order
    | highest => exact Or.inr (Or.inl rfl)

/-- Rounding keeps the order. -/
theorem rounded_mono (order : extent ≤ extent') : extent.rounded ≤ extent'.rounded := by
  obtain rfl | rfl | ⟨exact, exact', rfl, rfl, ascending⟩ := cases_of_le order
  · exact lowest_le _
  · exact le_highest _
  rw [rounded, rounded]
  rcases lt_or_ge exact 0 with below | nonneg
  · rcases lt_or_ge exact' 0 with below' | nonneg'
    · rw [decide_eq_true below, decide_eq_true below', ← roundedMagnitude_neg exact,
        ← roundedMagnitude_neg exact']
      exact placed_anti (roundedMagnitude_mono (neg_nonneg.mpr below'.le) (neg_le_neg ascending))
    · rw [decide_eq_true below, decide_eq_false (not_lt.mpr nonneg')]
      exact placed_opposite (roundedMagnitude_nonneg _) (roundedMagnitude_nonneg _)
  · rw [decide_eq_false (not_lt.mpr nonneg), decide_eq_false (not_lt.mpr (nonneg.trans ascending))]
    exact placed_mono (roundedMagnitude_mono nonneg ascending)

theorem shifted_mono (offset : Rat) (order : extent ≤ extent') :
    extent.shifted offset ≤ extent'.shifted offset := by
  obtain rfl | rfl | ⟨exact, exact', rfl, rfl, ascending⟩ := cases_of_le order
  · exact lowest_le _
  · exact le_highest _
  · exact rational_le_iff.mpr (add_le_add_right ascending offset)

end Extent

namespace Binary64

/-- The nearest number to a value is where rounding puts it. -/
theorem nearest_extent? (negativeZero : Bool) (exact : Rat) :
    (nearest negativeZero exact).extent? = some (Extent.rational exact).rounded := by
  by_cases origin : exact = 0
  · rw [origin, Extent.rounded, roundedMagnitude_zero, Extent.placed_of_le (Nat.cast_nonneg _),
      mul_zero, show nearest negativeZero 0 = zero negativeZero from rfl, zero, extent?,
      exactValue_eq_mul, Nat.cast_zero, zero_mul, mul_zero]
  rw [nearest, Extent.rounded]
  have nonzero : (exact.num == 0) = false := beq_false_of_ne (Rat.num_ne_zero.mpr origin)
  have sign : decide (exact.num < 0) = decide (exact < 0) := decide_eq_decide.mpr Rat.num_neg
  rw [nonzero, sign, roundedMagnitude]
  simp only [Bool.false_eq_true, if_false]
  have positive : 0 < exact.num.natAbs := Int.natAbs_pos.mpr (Rat.num_ne_zero.mpr origin)
  rcases ofRatio_spec (decide (exact < 0)) positive exact.den_pos with
    ⟨significand, exponent, finite, short, within, value⟩ | ⟨infinite, past⟩
  · rw [finite, extent?, exactValue_eq_mul, value,
      Extent.placed_of_le (le_largestFinite short within)]
  · rw [infinite, Extent.placed_of_lt (lt_of_lt_of_le largestFinite_lt past)]
    cases decide (exact < 0) <;> rfl

theorem nearest_mono (negativeZero negativeZero' : Bool) {exact exact' : Rat}
    (order : exact ≤ exact') : nearest negativeZero exact ≤ nearest negativeZero' exact' :=
  le_iff.mpr ⟨_, _, nearest_extent? _ _, nearest_extent? _ _,
    Extent.rounded_mono (Extent.rational_le_iff.mpr order)⟩

/-! ### Whole numbers that are too large -/

/-- The least whole number that is too large for the format.  It is as far from the largest finite
number as from the one that would come next. -/
def overflowThreshold : Nat := powerOfTwo 1024 - powerOfTwo 970

theorem nearest_overflowThreshold : nearest false (overflowThreshold : Int) = .infinite false := by
  decide +kernel

theorem nearest_before_overflowThreshold : nearest false ((overflowThreshold - 1 : Int) : Rat) =
    .finite false (powerOfTwo precision - 1) greatestExponent := by
  decide +kernel

theorem ofWhole?_eq_none_iff {whole : Int} (nonneg : 0 ≤ whole) :
    ofWhole? whole = none ↔ overflowThreshold ≤ whole := by
  constructor
  · intro overflow
    by_contra below
    have least := nearest_mono false false (Int.cast_le.mpr nonneg : ((0 : Int) : Rat) ≤ whole)
    have greatest := nearest_mono false false
      (Int.cast_le.mpr (Int.le_sub_one_of_lt (Int.not_le.mp below)) :
        (whole : Rat) ≤ ((overflowThreshold - 1 : Int) : Rat))
    rw [nearest_before_overflowThreshold] at greatest
    rw [ofWhole?] at overflow
    generalize nearest false whole = number at least greatest overflow
    match number with
    | .undefined _ | .finite .. => cases overflow
    | .infinite true => cases least
    | .infinite false => cases greatest
  · intro above
    have greatest := nearest_mono false false
      (Int.cast_le.mpr above : ((overflowThreshold : Int) : Rat) ≤ whole)
    rw [nearest_overflowThreshold] at greatest
    rw [ofWhole?, eq_infinite_of_le greatest]

/-! ### Sums -/

/-- A sum is rounded where the exact one is. -/
theorem add_extent? (negative : Bool) (significand : Nat) (exponent : Int) (second : Binary64) :
    (add (.finite negative significand exponent) second).extent? =
      second.extent?.map fun extent =>
        (extent.shifted (exactValue negative significand exponent)).rounded := by
  match second with
  | .undefined _ => rfl
  | .infinite true | .infinite false => rfl
  | .finite negative' significand' exponent' => exact nearest_extent? _ _

theorem infinite_add {number : Binary64} (above : .infinite true < number) :
    add (.infinite false) number = .infinite false := by
  match number, above with
  | .finite .., _ | .infinite false, _ => rfl

/-- A sum is not undefined if neither number is the lowest one. -/
theorem add_defined {start number : Binary64} (begun : .infinite true < start)
    (above : .infinite true < number) : ∃ extent, (start.add number).extent? = some extent := by
  match start, begun with
  | .infinite false, _ => exact ⟨.highest, by rw [infinite_add above]; rfl⟩
  | .finite negative significand exponent, _ =>
    obtain ⟨_, extent, _, defined, _⟩ := lt_iff.mp above
    exact ⟨_, (add_extent? ..).trans (congrArg _ defined)⟩

/-- Adding to a number that is not negatively infinite keeps the order. -/
theorem add_mono {start number number' : Binary64} (begun : .infinite true < start)
    (above : .infinite true < number) (order : number ≤ number') :
    start.add number ≤ start.add number' := by
  match start, begun with
  | .finite negative significand exponent, _ =>
    obtain ⟨extent, extent', defined, defined', order⟩ := le_iff.mp order
    refine le_iff.mpr ⟨_, _, (add_extent? ..).trans (congrArg _ defined),
      (add_extent? ..).trans (congrArg _ defined'), ?_⟩
    exact Extent.rounded_mono (Extent.shifted_mono _ order)
  | .infinite false, _ =>
    rw [infinite_add above, infinite_add (Binary64.lt_of_lt_of_le above order)]
    rfl

end Binary64

end HorizonPlanner
