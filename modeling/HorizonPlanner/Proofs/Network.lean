/-
This file says what it means to solve constraints, apart from any engine.  A
network is what a sequence of calls states: variables with finite domains, and
constraints over the variables stated so far.  A solution takes the value of
each variable from its domain and makes every constraint true.

A domain may list a value more than once.  Where the order of the domains
matters, a solution is given by positions in them instead of values; a list of
positions comes before another one if it does in lexicographic order.
-/

import Mathlib.Data.List.Forall2
import Mathlib.Data.List.GetD
import HorizonPlanner.Constraint.Evaluation

namespace HorizonPlanner

/-! ### Constraints that an engine can make sense of -/

namespace Constraint

variable {α : Type}

mutual

/-- Whether every part of a constraint has one of the forms that engines know. -/
def supported : Constraint α → Bool
  | all parts => supportedAll parts
  | implies condition consequence => condition.supported && consequence.supported
  | unsupported _ => false
  | always | equals _ _ | agree _ _ => true

/-- Whether the parts of a conjunction are supported. -/
def supportedAll : List (Constraint α) → Bool
  | [] => true
  | part :: rest => part.supported && supportedAll rest

end

/-! ### Parts of a constraint -/

@[simp] theorem supported_all (parts : List (Constraint α)) :
    (all parts).supported = supportedAll parts := rfl

@[simp] theorem supported_implies (condition consequence : Constraint α) :
    (implies condition consequence).supported =
      (condition.supported && consequence.supported) := rfl

@[simp] theorem supportedAll_nil : supportedAll ([] : List (Constraint α)) = true := rfl

@[simp] theorem supportedAll_cons (part : Constraint α) (rest : List (Constraint α)) :
    supportedAll (part :: rest) = (part.supported && supportedAll rest) := rfl

@[simp] theorem slots_always : (always : Constraint α).slots = [] := rfl

@[simp] theorem slots_equals (slot : Nat) (constant : α) : (equals slot constant).slots = [slot] :=
  rfl

@[simp] theorem slots_agree (left right : Nat) :
    (agree left right : Constraint α).slots = [left, right] := rfl

@[simp] theorem slots_all (parts : List (Constraint α)) :
    (all parts).slots = slotsOfParts parts := rfl

@[simp] theorem slots_implies (condition consequence : Constraint α) :
    (implies condition consequence).slots = condition.slots ++ consequence.slots := rfl

@[simp] theorem slotsOfParts_nil : slotsOfParts ([] : List (Constraint α)) = [] := rfl

@[simp] theorem slotsOfParts_cons (part : Constraint α) (rest : List (Constraint α)) :
    slotsOfParts (part :: rest) = part.slots ++ slotsOfParts rest := rfl

/-- A supported constraint over the slots below a bound. -/
structure Fits (count : Nat) (constraint : Constraint α) : Prop where
  supported : constraint.supported = true
  bounded : ∀ slot ∈ constraint.slots, slot < count

/-- The parts of a conjunction are supported, and over the slots below a bound. -/
structure FitsAll (count : Nat) (parts : List (Constraint α)) : Prop where
  supported : supportedAll parts = true
  bounded : ∀ slot ∈ slotsOfParts parts, slot < count

section

variable {count : Nat}

theorem Fits.all {parts : List (Constraint α)} (fits : (all parts).Fits count) :
    FitsAll count parts := by
  refine ⟨?_, fun slot member => fits.bounded slot ?_⟩
  · rw [← supported_all]
    exact fits.supported
  · rwa [slots_all]

theorem Fits.condition {condition consequence : Constraint α}
    (fits : (implies condition consequence).Fits count) : condition.Fits count := by
  have supported := fits.supported
  rw [supported_implies, Bool.and_eq_true] at supported
  exact ⟨supported.1, fun slot member =>
    fits.bounded slot (by rw [slots_implies]; exact List.mem_append_left _ member)⟩

theorem Fits.consequence {condition consequence : Constraint α}
    (fits : (implies condition consequence).Fits count) : consequence.Fits count := by
  have supported := fits.supported
  rw [supported_implies, Bool.and_eq_true] at supported
  exact ⟨supported.2, fun slot member =>
    fits.bounded slot (by rw [slots_implies]; exact List.mem_append_right _ member)⟩

theorem FitsAll.head {part : Constraint α} {rest : List (Constraint α)}
    (fits : FitsAll count (part :: rest)) : part.Fits count := by
  have supported := fits.supported
  rw [supportedAll_cons, Bool.and_eq_true] at supported
  exact ⟨supported.1, fun slot member =>
    fits.bounded slot (by rw [slotsOfParts_cons]; exact List.mem_append_left _ member)⟩

theorem FitsAll.tail {part : Constraint α} {rest : List (Constraint α)}
    (fits : FitsAll count (part :: rest)) : FitsAll count rest := by
  have supported := fits.supported
  rw [supportedAll_cons, Bool.and_eq_true] at supported
  exact ⟨supported.2, fun slot member =>
    fits.bounded slot (by rw [slotsOfParts_cons]; exact List.mem_append_right _ member)⟩

theorem Fits.slot_lt {slot : Nat} {constant : α} (fits : (equals slot constant).Fits count) :
    slot < count :=
  fits.bounded slot (by rw [slots_equals]; exact List.mem_singleton_self slot)

theorem Fits.left_lt {left right : Nat} (fits : (agree left right : Constraint α).Fits count) :
    left < count :=
  fits.bounded left (by rw [slots_agree]; exact List.mem_cons_self)

theorem Fits.right_lt {left right : Nat} (fits : (agree left right : Constraint α).Fits count) :
    right < count :=
  fits.bounded right (by
    rw [slots_agree]
    exact List.mem_cons_of_mem _ (List.mem_singleton_self right))

theorem fits_equals {slot : Nat} {constant : α} (inside : slot < count) :
    (equals slot constant).Fits count :=
  ⟨rfl, fun other mentioned => by
    rw [slots_equals, List.mem_singleton] at mentioned
    exact mentioned ▸ inside⟩

theorem fits_agree {left right : Nat} (inside : left < count) (inside' : right < count) :
    (agree left right : Constraint α).Fits count :=
  ⟨rfl, fun other mentioned => by
    rw [slots_agree, List.mem_cons, List.mem_singleton] at mentioned
    rcases mentioned with rfl | rfl
    · exact inside
    · exact inside'⟩

theorem Fits.implies {condition consequence : Constraint α} (fits : condition.Fits count)
    (fits' : consequence.Fits count) : (implies condition consequence).Fits count := by
  refine ⟨?_, fun slot mentioned => ?_⟩
  · rw [supported_implies, fits.supported, fits'.supported, Bool.and_self]
  · rw [slots_implies, List.mem_append] at mentioned
    exact mentioned.elim (fits.bounded slot) (fits'.bounded slot)

theorem fitsAll_of_forall {parts : List (Constraint α)} (fits : ∀ part ∈ parts, part.Fits count) :
    FitsAll count parts := by
  induction parts with
  | nil => exact ⟨rfl, fun _ member => absurd member List.not_mem_nil⟩
  | cons part rest inductionHypothesis =>
    obtain ⟨here, there⟩ := List.forall_mem_cons.mp fits
    obtain ⟨supported, bounded⟩ := inductionHypothesis there
    refine ⟨?_, fun slot mentioned => ?_⟩
    · rw [supportedAll_cons, here.supported, supported, Bool.and_self]
    · rw [slotsOfParts_cons, List.mem_append] at mentioned
      exact mentioned.elim (here.bounded slot) (bounded slot)

theorem fits_conjunction {parts : List (Constraint α)} (fits : ∀ part ∈ parts, part.Fits count) :
    (conjunction parts).Fits count := by
  have kept : ∀ part ∈ parts.filter (fun part => !part.isAlways), part.Fits count :=
    fun part member => fits part (List.mem_filter.mp member).1
  rw [conjunction]
  split
  next => exact ⟨rfl, fun _ member => absurd member List.not_mem_nil⟩
  next part single => exact kept part (single ▸ List.mem_singleton_self part)
  next =>
    obtain ⟨supported, bounded⟩ := fitsAll_of_forall kept
    exact ⟨supported, bounded⟩

theorem Fits.mono {constraint : Constraint α} {larger : Nat} (fits : constraint.Fits count)
    (order : count ≤ larger) : constraint.Fits larger :=
  ⟨fits.supported, fun slot member => Nat.lt_of_lt_of_le (fits.bounded slot member) order⟩

end

/-! ### Truth -/

variable [Symbol α]

mutual

/-- The truth of a constraint depends on the slots it mentions only. -/
theorem holds_congr (constraint : Constraint α) {first second : Nat → α}
    (same : ∀ slot ∈ constraint.slots, first slot = second slot) :
    constraint.holds first = constraint.holds second := by
  cases constraint with
  | always => rfl
  | equals slot constant =>
    rw [holds, holds, same slot (by rw [slots_equals]; exact List.mem_singleton_self slot)]
  | agree left right =>
    rw [holds, holds, same left (by rw [slots_agree]; exact List.mem_cons_self),
      same right (by
        rw [slots_agree]
        exact List.mem_cons_of_mem _ (List.mem_singleton_self right))]
  | all parts =>
    rw [holds, holds]
    exact holdsAll_congr parts (by rwa [slots_all] at same)
  | implies condition consequence =>
    simp only [slots_implies, List.mem_append] at same
    rw [holds, holds, holds_congr condition fun slot member => same slot (Or.inl member),
      holds_congr consequence fun slot member => same slot (Or.inr member)]
  | unsupported content => rfl

theorem holdsAll_congr (parts : List (Constraint α)) {first second : Nat → α}
    (same : ∀ slot ∈ slotsOfParts parts, first slot = second slot) :
    holdsAll first parts = holdsAll second parts := by
  cases parts with
  | nil => rfl
  | cons part rest =>
    simp only [slotsOfParts_cons, List.mem_append] at same
    rw [holdsAll, holdsAll, holds_congr part fun slot member => same slot (Or.inl member),
      holdsAll_congr rest fun slot member => same slot (Or.inr member)]

end

theorem holdsAll_iff (assignment : Nat → α) (parts : List (Constraint α)) :
    holdsAll assignment parts = true ↔ ∀ part ∈ parts, part.holds assignment = true := by
  induction parts with
  | nil => simp [holdsAll]
  | cons part rest inductionHypothesis =>
    rw [holdsAll, Bool.and_eq_true, inductionHypothesis, List.forall_mem_cons]

/-- Leaving out what always holds and the frame of a single part does not change the truth of a
conjunction. -/
theorem holds_conjunction (assignment : Nat → α) (parts : List (Constraint α)) :
    (conjunction parts).holds assignment = true ↔
      ∀ part ∈ parts, part.holds assignment = true := by
  have kept : (∀ part ∈ parts, part.holds assignment = true) ↔
      ∀ part ∈ parts.filter (fun part => !part.isAlways), part.holds assignment = true := by
    constructor
    · exact fun holding part member => holding part (List.mem_filter.mp member).1
    · intro holding part member
      cases trivial : part.isAlways with
      | true =>
        cases part with
        | always => rfl
        | _ => cases trivial
      | false => exact holding part (List.mem_filter.mpr ⟨member, by rw [trivial]; rfl⟩)
  rw [kept, conjunction]
  split
  next none => simp [none, holds]
  next part single => simp [single]
  next several _ _ => rw [holds, holdsAll_iff]

end Constraint

/-! ### Networks -/

/-- The variables and the constraints that an engine was given, each in the order of the calls. -/
structure Network (α : Type) where
  declared : List (Variable α)
  constraints : List (Constraint α)

/-- A call that builds a model.  An implication between two constraints is posted like any other
constraint. -/
inductive BuildStep (α : Type) where
  | declare (entry : Variable α)
  | post (constraint : Constraint α)

namespace Network

section

variable {α : Type}

/-- The network without variables and constraints. -/
def empty : Network α := ⟨[], []⟩

/-- A network after one more call. -/
def extend (network : Network α) : BuildStep α → Network α
  | .declare entry => { network with declared := network.declared ++ [entry] }
  | .post constraint => { network with constraints := network.constraints ++ [constraint] }

/-- A network after some more calls. -/
def extendAll (network : Network α) (steps : List (BuildStep α)) : Network α :=
  steps.foldl extend network

/-- Whether a call makes sense after a network was stated: what is posted is a supported constraint
over the variables there are. -/
def Admits (network : Network α) : BuildStep α → Prop
  | .declare _ => True
  | .post constraint => constraint.Fits network.declared.length

/-- Whether calls make sense one after another. -/
def AdmitsAll (network : Network α) : List (BuildStep α) → Prop
  | [] => True
  | step :: rest => network.Admits step ∧ (network.extend step).AdmitsAll rest

/-- Every constraint is supported and over the variables there are. -/
def WellFormed (network : Network α) : Prop :=
  ∀ constraint ∈ network.constraints, constraint.Fits network.declared.length

theorem wellFormed_empty : (empty : Network α).WellFormed :=
  fun _ member => absurd member List.not_mem_nil

theorem wellFormed_extend {network : Network α} (wellFormed : network.WellFormed)
    {step : BuildStep α} (admitted : network.Admits step) : (network.extend step).WellFormed := by
  cases step with
  | declare entry =>
    intro constraint member
    refine (wellFormed constraint member).mono ?_
    rw [extend, List.length_append]
    exact Nat.le_add_right _ _
  | post constraint =>
    intro other member
    rcases List.mem_append.mp member with member | member
    · exact wellFormed other member
    · rw [List.mem_singleton.mp member]
      exact admitted

theorem wellFormed_extendAll {network : Network α} (wellFormed : network.WellFormed)
    {steps : List (BuildStep α)} (admitted : network.AdmitsAll steps) :
    (network.extendAll steps).WellFormed := by
  induction steps generalizing network with
  | nil => exact wellFormed
  | cons step rest inductionHypothesis =>
    exact inductionHypothesis (wellFormed_extend wellFormed admitted.1) admitted.2

theorem extendAll_declare (network : Network α) (entries : List (Variable α)) :
    network.extendAll (entries.map .declare) =
      { network with declared := network.declared ++ entries } := by
  induction entries generalizing network with
  | nil => rw [List.append_nil]; rfl
  | cons entry rest inductionHypothesis =>
    rw [List.map_cons, extendAll, List.foldl_cons]
    refine (inductionHypothesis (network.extend (.declare entry))).trans ?_
    rw [extend, List.append_assoc, List.singleton_append]

theorem admitsAll_declare (network : Network α) (entries : List (Variable α)) :
    network.AdmitsAll (entries.map .declare) := by
  induction entries generalizing network with
  | nil => exact trivial
  | cons entry rest inductionHypothesis => exact ⟨trivial, inductionHypothesis _⟩

theorem extendAll_post (network : Network α) (constraints : List (Constraint α)) :
    network.extendAll (constraints.map .post) =
      { network with constraints := network.constraints ++ constraints } := by
  induction constraints generalizing network with
  | nil => rw [List.append_nil]; rfl
  | cons constraint rest inductionHypothesis =>
    rw [List.map_cons, extendAll, List.foldl_cons]
    refine (inductionHypothesis (network.extend (.post constraint))).trans ?_
    rw [extend, List.append_assoc, List.singleton_append]

theorem admitsAll_post {network : Network α} {constraints : List (Constraint α)}
    (fits : ∀ constraint ∈ constraints, constraint.Fits network.declared.length) :
    network.AdmitsAll (constraints.map .post) := by
  induction constraints generalizing network with
  | nil => exact trivial
  | cons constraint rest inductionHypothesis =>
    obtain ⟨here, there⟩ := List.forall_mem_cons.mp fits
    exact ⟨here, inductionHypothesis there⟩

end

/-! ### Values from the domains -/

section

variable {α : Type}

/-- Every value is from the domain of its variable. -/
def Within (declared : List (Variable α)) (values : List α) : Prop :=
  List.Forall₂ (fun entry value => value ∈ entry.values) declared values

/-- Values are from the domains if there are as many as variables and each is from its own. -/
theorem within_iff_getElem? {declared : List (Variable α)} {values : List α} :
    Within declared values ↔ values.length = declared.length ∧
      ∀ (slot : Nat) entry value, declared[slot]? = some entry → values[slot]? = some value →
        value ∈ entry.values := by
  rw [Within, List.forall₂_iff_get]
  refine and_congr eq_comm ⟨fun within slot entry value declared' found => ?_,
    fun within slot inside inside' => ?_⟩
  · obtain ⟨inside, rfl⟩ := List.getElem?_eq_some_iff.mp declared'
    obtain ⟨inside', rfl⟩ := List.getElem?_eq_some_iff.mp found
    exact within slot inside inside'
  · exact within slot _ _ (List.getElem?_eq_getElem inside) (List.getElem?_eq_getElem inside')

theorem within_concat_iff {declared : List (Variable α)} {entry : Variable α} {values : List α} :
    Within (declared ++ [entry]) values ↔
      ∃ earlier value, values = earlier ++ [value] ∧ Within declared earlier ∧
        value ∈ entry.values := by
  rw [Within, ← List.forall₂_reverse_iff, List.reverse_append, List.reverse_singleton,
    List.singleton_append, List.forall₂_cons_left_iff]
  constructor
  · rintro ⟨value, earlier, member, within, same⟩
    refine ⟨earlier.reverse, value, ?_, ?_, member⟩
    · rw [← List.reverse_reverse values, same, List.reverse_cons]
    · rwa [Within, ← List.forall₂_reverse_iff, List.reverse_reverse]
  · rintro ⟨earlier, value, rfl, within, member⟩
    refine ⟨value, earlier.reverse, member, List.forall₂_reverse_iff.mpr within, ?_⟩
    rw [List.reverse_append, List.reverse_singleton, List.singleton_append]

end

/-! ### Solutions -/

section

variable {α : Type} [Symbol α]

/-- The value of each slot in a list of values; slots without one count as zero. -/
def slotValue (values : List α) (slot : Nat) : α := values.getD slot Symbol.zero

/-- Every constraint of a network is true under a list of values. -/
def Satisfied (network : Network α) (values : List α) : Prop :=
  ∀ constraint ∈ network.constraints, constraint.holds (slotValue values) = true

/-- A list of values from the domains that makes every constraint true. -/
structure Solution (network : Network α) (values : List α) : Prop where
  within : Within network.declared values
  satisfied : network.Satisfied values

/-- A value for one more variable does not matter to constraints over the variables before it. -/
theorem satisfied_concat_iff {network : Network α} (wellFormed : network.WellFormed)
    {values : List α} (full : values.length = network.declared.length) (value : α) :
    network.Satisfied (values ++ [value]) ↔ network.Satisfied values := by
  refine forall₂_congr fun constraint member => ?_
  rw [Constraint.holds_congr constraint fun slot mentioned => ?_]
  have inside : slot < values.length := full ▸ (wellFormed constraint member).bounded slot mentioned
  rw [slotValue, slotValue, List.getD_append _ _ _ _ inside]

theorem solution_extend_declare_iff {network : Network α} (wellFormed : network.WellFormed)
    {entry : Variable α} {values : List α} :
    (network.extend (.declare entry)).Solution values ↔
      ∃ earlier value, values = earlier ++ [value] ∧ network.Solution earlier ∧
        value ∈ entry.values := by
  constructor
  · rintro ⟨within, satisfied⟩
    obtain ⟨earlier, value, rfl, within, member⟩ := within_concat_iff.mp within
    exact ⟨earlier, value, rfl,
      ⟨within, (satisfied_concat_iff wellFormed within.length_eq.symm value).mp satisfied⟩, member⟩
  · rintro ⟨earlier, value, rfl, ⟨within, satisfied⟩, member⟩
    exact ⟨within_concat_iff.mpr ⟨earlier, value, rfl, within, member⟩,
      (satisfied_concat_iff wellFormed within.length_eq.symm value).mpr satisfied⟩

theorem solution_extend_post_iff {network : Network α} {constraint : Constraint α}
    {values : List α} :
    (network.extend (.post constraint)).Solution values ↔
      network.Solution values ∧ constraint.holds (slotValue values) = true := by
  constructor
  · rintro ⟨within, satisfied⟩
    obtain ⟨earlier, last⟩ := List.forall_mem_append.mp satisfied
    exact ⟨⟨within, earlier⟩, last constraint (List.mem_singleton_self constraint)⟩
  · rintro ⟨⟨within, satisfied⟩, last⟩
    exact ⟨within, List.forall_mem_append.mpr ⟨satisfied, List.forall_mem_singleton.mpr last⟩⟩

/-- Every position is one in the domain of its variable. -/
def Placed (declared : List (Variable α)) (positions : List Nat) : Prop :=
  List.Forall₂ (fun entry position => position < entry.values.length) declared positions

/-- The values at positions in the domains. -/
def valuesAt (declared : List (Variable α)) (positions : List Nat) : List α :=
  List.zipWith (fun entry position => entry.values.getD position Symbol.zero) declared positions

/-- Positions in the domains whose values make every constraint true. -/
structure PlacedSolution (network : Network α) (positions : List Nat) : Prop where
  placed : Placed network.declared positions
  satisfied : network.Satisfied (valuesAt network.declared positions)

theorem within_valuesAt {declared : List (Variable α)} {positions : List Nat}
    (placed : Placed declared positions) : Within declared (valuesAt declared positions) := by
  induction placed with
  | nil => exact .nil
  | @cons entry position _ _ bound _ inductionHypothesis =>
    refine .cons ?_ inductionHypothesis
    show entry.values.getD position Symbol.zero ∈ entry.values
    rw [List.getD_eq_getElem _ _ bound]
    exact List.getElem_mem bound

theorem exists_positions {declared : List (Variable α)} {values : List α}
    (within : Within declared values) :
    ∃ positions, Placed declared positions ∧ valuesAt declared positions = values := by
  induction within with
  | nil => exact ⟨[], .nil, rfl⟩
  | cons member _ inductionHypothesis =>
    obtain ⟨positions, placed, same⟩ := inductionHypothesis
    obtain ⟨position, bound, found⟩ := List.getElem_of_mem member
    refine ⟨position :: positions, .cons bound placed, ?_⟩
    rw [valuesAt, List.zipWith_cons_cons, List.getD_eq_getElem _ _ bound, found]
    exact congrArg _ same

/-- There are positions that solve a network exactly if there are values that do. -/
theorem exists_placedSolution_iff (network : Network α) :
    (∃ positions, network.PlacedSolution positions) ↔ ∃ values, network.Solution values := by
  constructor
  · rintro ⟨positions, placed, satisfied⟩
    exact ⟨_, within_valuesAt placed, satisfied⟩
  · rintro ⟨values, within, satisfied⟩
    obtain ⟨positions, placed, rfl⟩ := exists_positions within
    exact ⟨positions, placed, satisfied⟩

end

end Network

end HorizonPlanner
