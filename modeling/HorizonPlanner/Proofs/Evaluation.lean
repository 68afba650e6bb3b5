/-
This file proves what three-valued evaluation promises to a search.  A verdict
depends on the slots a constraint mentions only; once it is true or false,
binding more variables does not change it; and when every mentioned slot is
bound it is the truth of the constraint.  A constraint is therefore only ever
rejected if no way to bind the remaining variables can make it true.
-/

import HorizonPlanner.Proofs.Network
import HorizonPlanner.Proofs.Outcome

namespace HorizonPlanner

variable {α : Type}

/-! ### Knowing more -/

/-- What was known stays known. -/
def Kept {β : Type} (before after : Option β) : Prop :=
  ∀ known, before = some known → after = some known

theorem Kept.refl {β : Type} (known : Option β) : Kept known known := fun _ same => same

theorem Kept.map {β γ : Type} {before after : Option β} (kept : Kept before after) (image : β → γ) :
    Kept (before.map image) (after.map image) := by
  intro known same
  obtain ⟨value, rfl, rfl⟩ := Option.map_eq_some_iff.mp same
  rw [kept value rfl, Option.map_some]

theorem Kept.bind {β γ : Type} {before after : Option β} {next next' : β → Option γ}
    (kept : Kept before after) (nextKept : ∀ value, Kept (next value) (next' value)) :
    Kept (before.bind next) (after.bind next') := by
  intro known same
  obtain ⟨value, rfl, found⟩ := Option.bind_eq_some_iff.mp same
  rw [kept value rfl, Option.bind_some]
  exact nextKept value known found

/-- A partial assignment binds at least the slots that another one binds, to the same values. -/
def PartialAssignment.Extends (larger smaller : PartialAssignment α) : Prop :=
  ∀ (slot : Nat) (value : Option α), smaller[slot]? = some value →
    ∃ later, larger[slot]? = some later ∧ Kept value later

namespace PartialAssignment

/-- The partial assignment that binds a number of slots to the values of a total one. -/
def complete (count : Nat) (total : Nat → α) : PartialAssignment α :=
  ((List.range count).map fun slot => some (total slot)).toArray

theorem complete_getElem? {count slot : Nat} (total : Nat → α) (inside : slot < count) :
    (complete count total)[slot]? = some (some (total slot)) := by
  simp [complete, inside]

/-- The total assignment that gives every slot without a value the zero. -/
def total [Symbol α] (assignment : PartialAssignment α) (slot : Nat) : α :=
  assignment[slot]?.join.getD Symbol.zero

theorem total_eq [Symbol α] {assignment : PartialAssignment α} {slot : Nat} {value : α}
    (bound : assignment[slot]? = some (some value)) : assignment.total slot = value := by
  rw [total, bound, Option.join_some, Option.getD_some]

theorem valueAt_eq_ok_iff {assignment : PartialAssignment α} {slot : Nat} {value : Option α} :
    assignment.valueAt slot = .ok value ↔ assignment[slot]? = some value := by
  unfold valueAt
  split
  next bounded => rw [Array.getElem?_eq_getElem bounded, Except.ok.injEq, Option.some.injEq]
  next outside =>
    rw [Array.getElem?_eq_none (Nat.le_of_not_lt outside)]
    simp only [reduceCtorEq]

theorem valueAt_congr {first second : PartialAssignment α} {slot : Nat}
    (same : first[slot]? = second[slot]?) : first.valueAt slot = second.valueAt slot := by
  cases found : first[slot]? with
  | some value =>
    rw [valueAt_eq_ok_iff.mpr found, valueAt_eq_ok_iff.mpr (same ▸ found)]
  | none =>
    have outside : ¬ slot < first.size := Nat.not_lt.mpr (Array.getElem?_eq_none_iff.mp found)
    have outside' : ¬ slot < second.size :=
      Nat.not_lt.mpr (Array.getElem?_eq_none_iff.mp (same ▸ found))
    rw [valueAt, valueAt, dif_neg outside, dif_neg outside']

end PartialAssignment

namespace Constraint

variable [Symbol α]

/-! ### Locality -/

mutual

/-- A verdict depends on the slots that the constraint mentions only. -/
theorem evaluate_congr (constraint : Constraint α) {first second : PartialAssignment α}
    (same : ∀ slot ∈ constraint.slots, first[slot]? = second[slot]?) :
    evaluate first constraint = evaluate second constraint := by
  cases constraint with
  | always => rfl
  | equals slot constant =>
    rw [evaluate, evaluate, PartialAssignment.valueAt_congr (same slot (by simp))]
  | agree left right =>
    rw [evaluate, evaluate, PartialAssignment.valueAt_congr (same left (by simp)),
      PartialAssignment.valueAt_congr (same right (by simp))]
  | all parts =>
    rw [evaluate, evaluate]
    exact evaluateParts_congr parts (by rwa [slots_all] at same)
  | implies condition consequence =>
    simp only [slots_implies, List.mem_append] at same
    rw [evaluate, evaluate, evaluate_congr condition fun slot member => same slot (Or.inl member),
      evaluate_congr consequence fun slot member => same slot (Or.inr member)]
  | unsupported content => rfl

theorem evaluateParts_congr (parts : List (Constraint α)) {first second : PartialAssignment α}
    (same : ∀ slot ∈ slotsOfParts parts, first[slot]? = second[slot]?) :
    evaluateParts first parts = evaluateParts second parts := by
  cases parts with
  | nil => rfl
  | cons part rest =>
    simp only [slotsOfParts_cons, List.mem_append] at same
    rw [evaluateParts, evaluateParts,
      evaluate_congr part fun slot member => same slot (Or.inl member),
      evaluateParts_congr rest fun slot member => same slot (Or.inr member)]

end

/-! ### Verdicts from the verdicts on the parts -/

/-- The verdict on an implication, given those on its condition and its consequence. -/
def impliedVerdict (premise conclusion : Option Bool) : Option Bool :=
  if premise == some false then some true else implicationVerdict premise conclusion

/-- The verdict on a conjunction, given those on its first part and on the others. -/
def joinedVerdict (first others : Option Bool) : Option Bool :=
  if first == some false || others == some false then some false
  else if first == some true then others else none

theorem evaluate_equals {assignment : PartialAssignment α} {slot : Nat} {constant : α}
    {value : Option α} (found : assignment[slot]? = some value) :
    evaluate assignment (.equals slot constant) = .ok (value.map (Symbol.equal · constant)) := by
  rw [evaluate, PartialAssignment.valueAt_eq_ok_iff.mpr found, ok_bind]

theorem evaluate_agree {assignment : PartialAssignment α} {left right : Nat}
    {first second : Option α} (found : assignment[left]? = some first)
    (found' : assignment[right]? = some second) :
    evaluate assignment (.agree left right) =
      .ok (first.bind fun first => second.map (Symbol.equal first)) := by
  rw [evaluate, PartialAssignment.valueAt_eq_ok_iff.mpr found, ok_bind,
    PartialAssignment.valueAt_eq_ok_iff.mpr found', ok_bind]
  rcases first with _ | first <;> rcases second with _ | second <;> rfl

theorem evaluate_implies {assignment : PartialAssignment α} {condition consequence : Constraint α}
    {premise conclusion : Option Bool} (evaluated : evaluate assignment condition = .ok premise)
    (evaluated' : evaluate assignment consequence = .ok conclusion) :
    evaluate assignment (.implies condition consequence) =
      .ok (impliedVerdict premise conclusion) := by
  rw [evaluate, evaluated, ok_bind, evaluated', ok_bind, impliedVerdict]
  split <;> rfl

theorem evaluateParts_cons {assignment : PartialAssignment α} {part : Constraint α}
    {rest : List (Constraint α)} {first others : Option Bool}
    (evaluated : evaluate assignment part = .ok first)
    (evaluated' : evaluateParts assignment rest = .ok others) :
    evaluateParts assignment (part :: rest) = .ok (joinedVerdict first others) := by
  rw [evaluateParts, evaluated, ok_bind, evaluated', ok_bind, joinedVerdict]
  rcases first with _ | _ | _ <;> rcases others with _ | _ | _ <;> rfl

/-! ### Monotonicity -/

theorem impliedVerdict_kept {premise premise' conclusion conclusion' : Option Bool}
    (premiseKept : Kept premise premise') (conclusionKept : Kept conclusion conclusion') :
    Kept (impliedVerdict premise conclusion) (impliedVerdict premise' conclusion') := by
  intro truth decided
  rcases premise with _ | premise
  · rcases conclusion with _ | _ | _
    · cases decided
    · cases decided
    · rw [conclusionKept true rfl]
      rcases premise' with _ | _ | _ <;> exact decided
  · rw [premiseKept premise rfl]
    rcases conclusion with _ | conclusion
    · cases premise with
      | true => cases decided
      | false => exact decided
    · rw [conclusionKept conclusion rfl]
      exact decided

theorem joinedVerdict_kept {first first' others others' : Option Bool}
    (firstKept : Kept first first') (othersKept : Kept others others') :
    Kept (joinedVerdict first others) (joinedVerdict first' others') := by
  intro truth decided
  rcases first with _ | first
  · rcases others with _ | _ | _
    · cases decided
    · rw [othersKept false rfl]
      rcases first' with _ | _ | _ <;> exact decided
    · cases decided
  · rw [firstKept first rfl]
    rcases others with _ | others
    · cases first with
      | true => cases decided
      | false => exact decided
    · rw [othersKept others rfl]
      exact decided

/-- An implication has a verdict in two ways: its condition is false and its consequence is not
looked at, or both have verdicts. -/
theorem evaluate_implies_eq_ok_iff {assignment : PartialAssignment α}
    {condition consequence : Constraint α} {verdict : Option Bool} :
    evaluate assignment (.implies condition consequence) = .ok verdict ↔
      (evaluate assignment condition = .ok (some false) ∧ verdict = some true) ∨
      ∃ premise conclusion, evaluate assignment condition = .ok premise ∧
        premise ≠ some false ∧ evaluate assignment consequence = .ok conclusion ∧
        verdict = impliedVerdict premise conclusion := by
  rw [evaluate, bind_eq_ok_iff]
  constructor
  · rintro ⟨premise, evaluated, later⟩
    split at later
    next untrue =>
      rw [beq_iff_eq.mp untrue] at evaluated
      exact Or.inl ⟨evaluated, (Except.ok.inj later).symm⟩
    next possible =>
      obtain ⟨conclusion, evaluated', result⟩ := bind_eq_ok_iff.mp later
      refine Or.inr ⟨premise, conclusion, evaluated, by simpa using possible, evaluated', ?_⟩
      rw [impliedVerdict, if_neg possible]
      exact (Except.ok.inj result).symm
  · rintro (⟨evaluated, rfl⟩ | ⟨premise, conclusion, evaluated, possible, evaluated', rfl⟩)
    · exact ⟨_, evaluated, rfl⟩
    · refine ⟨premise, evaluated, ?_⟩
      have looked : ¬ (premise == some false) = true := by simpa using possible
      rw [if_neg looked, evaluated', ok_bind, impliedVerdict, if_neg looked]

/-- A conjunction has a verdict in two ways: its first part is false and the others are not looked
at, or its first part and the others have verdicts. -/
theorem evaluateParts_cons_eq_ok_iff {assignment : PartialAssignment α} {part : Constraint α}
    {rest : List (Constraint α)} {verdict : Option Bool} :
    evaluateParts assignment (part :: rest) = .ok verdict ↔
      (evaluate assignment part = .ok (some false) ∧ verdict = some false) ∨
      ∃ first others, evaluate assignment part = .ok first ∧ first ≠ some false ∧
        evaluateParts assignment rest = .ok others ∧ verdict = joinedVerdict first others := by
  constructor
  · intro whole
    have steps := whole
    rw [evaluateParts, bind_eq_ok_iff] at steps
    obtain ⟨first, here, later⟩ := steps
    split at later
    next untrue =>
      rw [beq_iff_eq.mp untrue] at here
      exact Or.inl ⟨here, (Except.ok.inj later).symm⟩
    next possible =>
      obtain ⟨others, there, _⟩ := bind_eq_ok_iff.mp later
      refine Or.inr ⟨first, others, here, by simpa using possible, there, ?_⟩
      rw [evaluateParts_cons here there] at whole
      exact (Except.ok.inj whole).symm
  · rintro (⟨here, rfl⟩ | ⟨first, others, here, _, there, rfl⟩)
    · rw [evaluateParts, here, ok_bind]
      rfl
    · exact evaluateParts_cons here there

mutual

/-- Binding more variables leaves a verdict as it is once it is true or false. -/
theorem evaluate_kept (constraint : Constraint α) {smaller larger : PartialAssignment α}
    (extended : larger.Extends smaller) {before : Option Bool}
    (evaluated : evaluate smaller constraint = .ok before) :
    ∃ after, evaluate larger constraint = .ok after ∧ Kept before after := by
  cases constraint with
  | always => exact ⟨_, evaluated, .refl _⟩
  | equals slot constant =>
    rw [evaluate, bind_eq_ok_iff] at evaluated
    obtain ⟨value, found, result⟩ := evaluated
    obtain ⟨later, found', kept⟩ :=
      extended _ _ (PartialAssignment.valueAt_eq_ok_iff.mp found)
    exact ⟨_, evaluate_equals found', Except.ok.inj result ▸ kept.map _⟩
  | agree left right =>
    have whole := evaluated
    rw [evaluate, bind_eq_ok_iff] at evaluated
    obtain ⟨first, found, rest⟩ := evaluated
    obtain ⟨second, found', _⟩ := bind_eq_ok_iff.mp rest
    rw [PartialAssignment.valueAt_eq_ok_iff] at found found'
    obtain ⟨first', laterFound, firstKept⟩ := extended _ _ found
    obtain ⟨second', laterFound', secondKept⟩ := extended _ _ found'
    rw [evaluate_agree found found'] at whole
    refine ⟨_, evaluate_agree laterFound laterFound', Except.ok.inj whole ▸ ?_⟩
    exact firstKept.bind fun value => secondKept.map _
  | all parts => exact evaluateParts_kept parts extended evaluated
  | implies condition consequence =>
    rcases evaluate_implies_eq_ok_iff.mp evaluated with
      ⟨untrue, rfl⟩ | ⟨premise, conclusion, premise', _, conclusion', rfl⟩
    · obtain ⟨after, later, kept⟩ := evaluate_kept condition extended untrue
      rw [kept false rfl] at later
      exact ⟨_, evaluate_implies_eq_ok_iff.mpr (Or.inl ⟨later, rfl⟩), .refl _⟩
    · obtain ⟨_, laterPremise, premiseKept⟩ := evaluate_kept condition extended premise'
      obtain ⟨_, laterConclusion, conclusionKept⟩ :=
        evaluate_kept consequence extended conclusion'
      exact ⟨_, evaluate_implies laterPremise laterConclusion,
        impliedVerdict_kept premiseKept conclusionKept⟩
  | unsupported content => cases evaluated

theorem evaluateParts_kept (parts : List (Constraint α)) {smaller larger : PartialAssignment α}
    (extended : larger.Extends smaller) {before : Option Bool}
    (evaluated : evaluateParts smaller parts = .ok before) :
    ∃ after, evaluateParts larger parts = .ok after ∧ Kept before after := by
  cases parts with
  | nil => exact ⟨_, evaluated, .refl _⟩
  | cons part rest =>
    rcases evaluateParts_cons_eq_ok_iff.mp evaluated with
      ⟨untrue, rfl⟩ | ⟨first, others, here, _, there, rfl⟩
    · obtain ⟨after, later, kept⟩ := evaluate_kept part extended untrue
      rw [kept false rfl] at later
      exact ⟨_, evaluateParts_cons_eq_ok_iff.mpr (Or.inl ⟨later, rfl⟩), .refl _⟩
    · obtain ⟨_, laterFirst, firstKept⟩ := evaluate_kept part extended here
      obtain ⟨_, laterOthers, othersKept⟩ := evaluateParts_kept rest extended there
      exact ⟨_, evaluateParts_cons laterFirst laterOthers,
        joinedVerdict_kept firstKept othersKept⟩

end

/-! ### Verdicts on supported constraints -/

mutual

/-- A supported constraint over the slots of an assignment has a verdict. -/
theorem evaluate_fits {constraint : Constraint α} {assignment : PartialAssignment α}
    (fits : constraint.Fits assignment.size) :
    ∃ verdict, evaluate assignment constraint = .ok verdict := by
  cases constraint with
  | always => exact ⟨_, rfl⟩
  | equals slot constant => exact ⟨_, evaluate_equals (Array.getElem?_eq_getElem fits.slot_lt)⟩
  | agree left right =>
    exact ⟨_, evaluate_agree (Array.getElem?_eq_getElem fits.left_lt)
      (Array.getElem?_eq_getElem fits.right_lt)⟩
  | all parts => exact evaluateParts_fits fits.all
  | implies condition consequence =>
    obtain ⟨premise, evaluated⟩ := evaluate_fits fits.condition
    obtain ⟨conclusion, evaluated'⟩ := evaluate_fits fits.consequence
    exact ⟨_, evaluate_implies evaluated evaluated'⟩
  | unsupported content => exact nomatch fits.supported

theorem evaluateParts_fits {parts : List (Constraint α)} {assignment : PartialAssignment α}
    (fits : FitsAll assignment.size parts) :
    ∃ verdict, evaluateParts assignment parts = .ok verdict := by
  cases parts with
  | nil => exact ⟨_, rfl⟩
  | cons part rest =>
    obtain ⟨first, here⟩ := evaluate_fits fits.head
    obtain ⟨others, there⟩ := evaluateParts_fits fits.tail
    exact ⟨_, evaluateParts_cons here there⟩

end

/-! ### Agreement with the truth -/

mutual

/-- When every slot that a supported constraint mentions is bound, the verdict is the truth. -/
theorem evaluate_bound (constraint : Constraint α) {assignment : PartialAssignment α}
    {total : Nat → α} (supported : constraint.supported = true)
    (bound : ∀ slot ∈ constraint.slots, assignment[slot]? = some (some (total slot))) :
    evaluate assignment constraint = .ok (some (constraint.holds total)) := by
  cases constraint with
  | always => rfl
  | equals slot constant => exact evaluate_equals (bound slot (by simp))
  | agree left right =>
    exact evaluate_agree (bound left (by simp)) (bound right (by simp))
  | all parts =>
    exact evaluateParts_bound parts supported (by rwa [slots_all] at bound)
  | implies condition consequence =>
    simp only [slots_implies, List.mem_append] at bound
    rw [supported_implies, Bool.and_eq_true] at supported
    have premise := evaluate_bound condition supported.1 fun slot member =>
      bound slot (Or.inl member)
    have conclusion := evaluate_bound consequence supported.2 fun slot member =>
      bound slot (Or.inr member)
    rw [evaluate_implies premise conclusion, holds]
    cases condition.holds total <;> cases consequence.holds total <;> rfl
  | unsupported content => exact nomatch supported

theorem evaluateParts_bound (parts : List (Constraint α)) {assignment : PartialAssignment α}
    {total : Nat → α} (supported : supportedAll parts = true)
    (bound : ∀ slot ∈ slotsOfParts parts, assignment[slot]? = some (some (total slot))) :
    evaluateParts assignment parts = .ok (some (holdsAll total parts)) := by
  cases parts with
  | nil => rfl
  | cons part rest =>
    simp only [slotsOfParts_cons, List.mem_append] at bound
    rw [supportedAll_cons, Bool.and_eq_true] at supported
    have first := evaluate_bound part supported.1 fun slot member => bound slot (Or.inl member)
    have others := evaluateParts_bound rest supported.2 fun slot member =>
      bound slot (Or.inr member)
    rw [evaluateParts_cons first others, holdsAll]
    cases part.holds total <;> cases holdsAll total rest <;> rfl

end

/-- What a search may rely on when it prunes: a supported constraint has a verdict as soon as an
assignment has its slots; true and false stay what they are when more variables are bound; once
every slot that it mentions is bound, the verdict is its truth; and no other slot matters. -/
theorem evaluate_reliable {constraint : Constraint α} (supported : constraint.supported = true) :
    (∀ assignment : PartialAssignment α,
      (∀ slot ∈ constraint.slots, slot < assignment.size) →
        ∃ verdict, evaluate assignment constraint = .ok verdict) ∧
    (∀ smaller larger : PartialAssignment α, larger.Extends smaller → ∀ truth,
      evaluate smaller constraint = .ok (some truth) →
        evaluate larger constraint = .ok (some truth)) ∧
    (∀ assignment : PartialAssignment α,
      (∀ slot ∈ constraint.slots, ∃ value, assignment[slot]? = some (some value)) →
        evaluate assignment constraint = .ok (some (constraint.holds assignment.total))) ∧
    (∀ first second : PartialAssignment α,
      (∀ slot ∈ constraint.slots, first[slot]? = second[slot]?) →
        evaluate first constraint = evaluate second constraint) := by
  refine ⟨fun assignment inside => evaluate_fits ⟨supported, inside⟩,
    fun smaller larger extended truth decided => ?_, fun assignment bound => ?_,
    fun first second same => evaluate_congr constraint same⟩
  · obtain ⟨after, later, kept⟩ := evaluate_kept constraint extended decided
    rw [later, kept truth rfl]
  · refine evaluate_bound constraint supported fun slot mentioned => ?_
    obtain ⟨value, found⟩ := bound slot mentioned
    rw [found, PartialAssignment.total_eq found]

/-- An implication whose condition is a conjunction with an open part: the other part is false, so
it stays true however the open variables are bound. -/
theorem evaluate_reliable_implication :
    (implies (all [equals 0 1, agree 0 1]) (equals 2 5) : Constraint Int).supported = true ∧
    ∀ larger : PartialAssignment Int, larger.Extends #[some 2, none, none] →
      evaluate larger (implies (all [equals 0 1, agree 0 1]) (equals 2 5)) = .ok (some true) :=
  ⟨rfl, fun larger extended => (evaluate_reliable rfl).2.1 _ larger extended true rfl⟩

/-- A constraint that is false under a partial assignment is false however the remaining variables
are bound. -/
theorem holds_of_refuted {constraint : Constraint α} {assignment : PartialAssignment α}
    {total : Nat → α} (fits : constraint.Fits assignment.size)
    (agrees : ∀ (slot : Nat) value, assignment[slot]? = some (some value) → total slot = value)
    (refuted : evaluate assignment constraint = .ok (some false)) :
    constraint.holds total = false := by
  have completed : (PartialAssignment.complete assignment.size total).Extends assignment := by
    intro slot value found
    have inside := (Array.getElem?_eq_some_iff.mp found).choose
    refine ⟨_, PartialAssignment.complete_getElem? total inside, fun known same => ?_⟩
    rw [agrees slot known (by rw [found, same])]
  obtain ⟨after, later, kept⟩ := evaluate_kept constraint completed refuted
  rw [kept false rfl] at later
  rw [evaluate_bound constraint fits.supported fun slot member =>
    PartialAssignment.complete_getElem? total (fits.bounded slot member)] at later
  exact Option.some.inj (Except.ok.inj later)

mutual

/-- As long as no slot is bound, a supported constraint is not false. -/
theorem evaluate_unbound (constraint : Constraint α) {assignment : PartialAssignment α}
    (fits : constraint.Fits assignment.size)
    (unbound : ∀ (slot : Nat) value, assignment[slot]? = some value → value = none) :
    ∃ verdict, evaluate assignment constraint = .ok verdict ∧ verdict ≠ some false := by
  cases constraint with
  | always => exact ⟨_, rfl, by simp⟩
  | equals slot constant =>
    have found := Array.getElem?_eq_getElem fits.slot_lt
    refine ⟨_, evaluate_equals found, ?_⟩
    rw [unbound _ _ found]
    simp
  | agree left right =>
    have found := Array.getElem?_eq_getElem fits.left_lt
    refine ⟨_, evaluate_agree found (Array.getElem?_eq_getElem fits.right_lt), ?_⟩
    rw [unbound _ _ found]
    simp
  | all parts => exact evaluateParts_unbound parts fits.all unbound
  | implies condition consequence =>
    obtain ⟨premise, evaluated, _⟩ := evaluate_unbound condition fits.condition unbound
    obtain ⟨conclusion, evaluated', open'⟩ := evaluate_unbound consequence fits.consequence unbound
    refine ⟨_, evaluate_implies evaluated evaluated', ?_⟩
    rcases premise with _ | _ | _ <;> rcases conclusion with _ | _ | _ <;>
      simp_all [impliedVerdict, implicationVerdict]
  | unsupported content => exact nomatch fits.supported

theorem evaluateParts_unbound (parts : List (Constraint α)) {assignment : PartialAssignment α}
    (fits : FitsAll assignment.size parts)
    (unbound : ∀ (slot : Nat) value, assignment[slot]? = some value → value = none) :
    ∃ verdict, evaluateParts assignment parts = .ok verdict ∧ verdict ≠ some false := by
  cases parts with
  | nil => exact ⟨_, rfl, by simp⟩
  | cons part rest =>
    obtain ⟨first, evaluated, _⟩ := evaluate_unbound part fits.head unbound
    obtain ⟨others, evaluated', _⟩ := evaluateParts_unbound rest fits.tail unbound
    refine ⟨_, evaluateParts_cons evaluated evaluated', ?_⟩
    rcases first with _ | _ | _ <;> rcases others with _ | _ | _ <;>
      simp_all [joinedVerdict]

end

end Constraint

end HorizonPlanner
