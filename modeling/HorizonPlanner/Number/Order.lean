/-
This file compares numbers of the double-precision binary format.  Finite ones
are compared by their exact values, and the infinities are the ends of the number
line.  An undefined number is nowhere on it, so it is neither less than a number
nor equal to one.
-/

import HorizonPlanner.Number.Binary64

namespace HorizonPlanner

/-! ### The number line -/

/-- Where a number is on the number line, which has two ends. -/
inductive Extent where
  | lowest
  | rational (value : Rat)
  | highest

namespace Extent

/-- Whether an extent is strictly below another. -/
def below : Extent → Extent → Bool
  | .highest, _ => false
  | _, .lowest => false
  | .rational value, .rational value' => value < value'
  | _, _ => true

instance : LT Extent := ⟨fun first second => first.below second = true⟩

instance : LE Extent := ⟨fun first second => second.below first = false⟩

instance (first second : Extent) : Decidable (first < second) :=
  inferInstanceAs (Decidable (_ = true))

instance (first second : Extent) : Decidable (first ≤ second) :=
  inferInstanceAs (Decidable (_ = false))

variable {first second third : Extent}

theorem rational_lt_iff {value value' : Rat} :
    Extent.rational value < .rational value' ↔ value < value' := decide_eq_true_iff

theorem rational_le_iff {value value' : Rat} :
    Extent.rational value ≤ .rational value' ↔ value ≤ value' :=
  decide_eq_false_iff_not.trans Rat.not_lt

theorem lowest_le (extent : Extent) : .lowest ≤ extent := by cases extent <;> rfl

theorem le_highest (extent : Extent) : extent ≤ .highest := by cases extent <;> rfl

protected theorem not_lt : ¬ first < second ↔ second ≤ first := Bool.not_eq_true _ ▸ Iff.rfl

protected theorem lt_of_le_of_lt (order : first ≤ second) (past : second < third) :
    first < third := by
  cases third with
  | lowest => exact absurd past (Extent.not_lt.mpr (lowest_le second))
  | rational value =>
    match first, second, order, past with
    | .lowest, _, _, _ => rfl
    | .rational _, .rational _, order, past =>
      exact rational_lt_iff.mpr
        (Std.lt_of_le_of_lt (rational_le_iff.mp order) (rational_lt_iff.mp past))
  | highest =>
    match first, second, order, past with
    | .lowest, _, _, _ | .rational _, _, _, _ => rfl

protected theorem lt_of_lt_of_le (past : first < second) (order : second ≤ third) :
    first < third :=
  Classical.byContradiction fun early =>
    Extent.not_lt.mpr order (Extent.lt_of_le_of_lt (Extent.not_lt.mp early) past)

end Extent

/-! ### Numbers of double precision -/

namespace Binary64

/-- Where a number is on the number line, unless it is undefined. -/
def extent? : Binary64 → Option Extent
  | .finite negative significand exponent =>
    some (.rational (exactValue negative significand exponent))
  | .infinite true => some .lowest
  | .infinite false => some .highest
  | .undefined _ => none

/-- Whether a number is less than another. -/
def less (first second : Binary64) : Bool :=
  match first.extent?, second.extent? with
  | some extent, some extent' => extent < extent'
  | _, _ => false

/-- Whether a number is less than another or equal to it. -/
def atMost (first second : Binary64) : Bool :=
  match first.extent?, second.extent? with
  | some extent, some extent' => extent ≤ extent'
  | _, _ => false

instance : LT Binary64 := ⟨fun first second => first.less second = true⟩

instance : LE Binary64 := ⟨fun first second => first.atMost second = true⟩

instance (first second : Binary64) : Decidable (first < second) :=
  inferInstanceAs (Decidable (_ = true))

instance (first second : Binary64) : Decidable (first ≤ second) :=
  inferInstanceAs (Decidable (_ = true))

theorem le_iff {first second : Binary64} : first ≤ second ↔
    ∃ extent extent', first.extent? = some extent ∧ second.extent? = some extent' ∧
      extent ≤ extent' := by
  show first.atMost second = true ↔ _
  rw [atMost]
  cases first.extent? <;> cases second.extent? <;> simp

theorem lt_iff {first second : Binary64} : first < second ↔
    ∃ extent extent', first.extent? = some extent ∧ second.extent? = some extent' ∧
      extent < extent' := by
  show first.less second = true ↔ _
  rw [less]
  cases first.extent? <;> cases second.extent? <;> simp

/-- Nothing is past the end of the number line. -/
theorem not_infinite_lt (number : Binary64) : ¬ .infinite false < number := by
  rw [lt_iff]
  rintro ⟨_, extent, ⟨⟩, _, past⟩
  cases past

theorem eq_infinite_of_le {number : Binary64} (order : .infinite false ≤ number) :
    number = .infinite false := by
  match number, order with
  | .infinite false, _ => rfl

section

variable {first second third : Binary64}

/-- What is less than a number or equal to it is not past the end of the number line. -/
theorem le_infinite_of_le (order : first ≤ second) : first ≤ .infinite false := by
  obtain ⟨extent, _, defined, _⟩ := le_iff.mp order
  exact le_iff.mpr ⟨extent, .highest, defined, rfl, extent.le_highest⟩

protected theorem lt_of_le_of_lt (order : first ≤ second) (past : second < third) :
    first < third := by
  obtain ⟨extent, extent', defined, defined', order⟩ := le_iff.mp order
  obtain ⟨_, extent'', same, defined'', past⟩ := lt_iff.mp past
  cases defined'.symm.trans same
  exact lt_iff.mpr ⟨extent, extent'', defined, defined'', Extent.lt_of_le_of_lt order past⟩

protected theorem lt_of_lt_of_le (past : first < second) (order : second ≤ third) :
    first < third := by
  obtain ⟨extent, extent', defined, defined', past⟩ := lt_iff.mp past
  obtain ⟨_, extent'', same, defined'', order⟩ := le_iff.mp order
  cases defined'.symm.trans same
  exact lt_iff.mpr ⟨extent, extent'', defined, defined'', Extent.lt_of_lt_of_le past order⟩

protected theorem not_lt_of_le (order : first ≤ second) : ¬ second < first := by
  intro past
  obtain ⟨extent, extent', defined, defined', order⟩ := le_iff.mp order
  obtain ⟨_, _, same', same, past⟩ := lt_iff.mp past
  cases defined.symm.trans same
  cases defined'.symm.trans same'
  exact Extent.not_lt.mpr order past

/-- Of two numbers that are not undefined, one that is not less than the other is at least as
large. -/
protected theorem le_of_not_lt {extent extent' : Extent} (defined : first.extent? = some extent)
    (defined' : second.extent? = some extent') (early : ¬ second < first) : first ≤ second :=
  le_iff.mpr ⟨extent, extent', defined, defined', Extent.not_lt.mp fun past =>
    early (lt_iff.mpr ⟨extent', extent, defined', defined, past⟩)⟩

end

end Binary64

end HorizonPlanner
