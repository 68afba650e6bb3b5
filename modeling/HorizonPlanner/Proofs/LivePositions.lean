/-
This file says which positions a search tries.  Positions for the first
variables are live if none of their proper beginnings makes a constraint false:
a search has no reason to give up before it tries them.  There are no more of
them than positions for the first variable, the first two, and so on.
-/

import Mathlib.Algebra.BigOperators.Ring.List
import Mathlib.Algebra.Ring.Nat
import HorizonPlanner.Proofs.BacktrackingSearch

namespace HorizonPlanner

namespace Network

/-! ### Positions for the first variables -/

section

variable {declared : List (Variable Int)} {entry : Variable Int}

theorem valuesAt_append (declared : List (Variable Int)) (first rest : List Nat) :
    valuesAt declared (first ++ rest) =
      valuesAt declared first ++ valuesAt (declared.drop first.length) rest := by
  induction first generalizing declared with
  | nil => rw [valuesAt, valuesAt, valuesAt, List.zipWith_nil_right]; rfl
  | cons position first inductionHypothesis =>
    cases declared with
    | nil => rfl
    | cons entry declared => exact congrArg _ (inductionHypothesis declared)

theorem valuesAt_concat {positions : List Nat} (here : declared[positions.length]? = some entry)
    {position : Nat} {value : Int} (found : entry.values[position]? = some value) :
    valuesAt declared (positions ++ [position]) = valuesAt declared positions ++ [value] := by
  obtain ⟨inside, rfl⟩ := List.getElem?_eq_some_iff.mp here
  rw [valuesAt_append, List.drop_eq_getElem_cons inside]
  refine congrArg _ ?_
  rw [valuesAt, List.zipWith_cons_cons, List.zipWith_nil_right, List.getD_eq_getElem?_getD, found,
    Option.getD_some]

theorem placed_take_concat_iff {positions : List Nat}
    (here : declared[positions.length]? = some entry) {position : Nat} :
    Placed (declared.take (positions ++ [position]).length) (positions ++ [position]) ↔
      Placed (declared.take positions.length) positions ∧ position < entry.values.length := by
  rw [List.length_append, List.length_singleton, List.take_add_one, here, Option.toList_some,
    Placed, ← List.forall₂_reverse_iff, List.reverse_append, List.reverse_append,
    List.reverse_singleton, List.reverse_singleton, List.singleton_append, List.singleton_append,
    List.forall₂_cons, List.forall₂_reverse_iff, and_comm]
  rfl

theorem length_le_of_placed {positions : List Nat}
    (placed : Placed (declared.take positions.length) positions) :
    positions.length ≤ declared.length := by
  have length := placed.length_eq
  rw [List.length_take] at length
  omega

theorem length_valuesAt {positions : List Nat} (inside : positions.length ≤ declared.length) :
    (valuesAt declared positions).length = positions.length := by
  rw [valuesAt, List.length_zipWith, Nat.min_eq_right inside]

/-- A position that goes on from others is one in the domain of the next variable. -/
theorem lt_of_placed {positions rest : List Nat} {position : Nat}
    (placed : Placed (declared.take (positions ++ position :: rest).length)
      (positions ++ position :: rest))
    (here : declared[positions.length]? = some entry) : position < entry.values.length := by
  rw [Placed, List.forall₂_iff_get] at placed
  obtain ⟨inside, rfl⟩ := List.getElem?_eq_some_iff.mp here
  have later := placed.2 positions.length
    (by rw [List.length_take, List.length_append, List.length_cons]; omega)
    (by rw [List.length_append, List.length_cons]; omega)
  simpa using later

/-- All positions in some domains. -/
def placements : List (Variable Int) → List (List Nat)
  | [] => [[]]
  | entry :: rest =>
    (List.range entry.values.length).flatMap fun position =>
      (placements rest).map (position :: ·)

theorem mem_placements_iff {positions : List Nat} :
    positions ∈ placements declared ↔ Placed declared positions := by
  induction declared generalizing positions with
  | nil => rw [placements, List.mem_singleton, Placed, List.forall₂_nil_left_iff]
  | cons entry rest inductionHypothesis =>
    simp only [placements, List.mem_flatMap, List.mem_range, List.mem_map, inductionHypothesis]
    rw [Placed, List.forall₂_cons_left_iff]
    constructor
    · rintro ⟨position, inside, others, placed, rfl⟩
      exact ⟨position, others, inside, placed, rfl⟩
    · rintro ⟨position, others, inside, placed, rfl⟩
      exact ⟨position, inside, others, placed, rfl⟩

theorem length_placements (declared : List (Variable Int)) :
    (placements declared).length = (declared.map fun entry => entry.values.length).prod := by
  induction declared with
  | nil => rfl
  | cons entry rest inductionHypothesis =>
    simp only [placements, List.length_flatMap, List.length_map, inductionHypothesis,
      List.map_const', List.length_range, List.sum_replicate_nat, List.map_cons,
      List.prod_cons]

end

end Network

namespace Backtracking

/-! ### Live positions -/

/-- Positions for the first variables, one at least, none of whose proper beginnings makes a
constraint false. -/
structure Live (network : Network Int) (positions : List Nat) : Prop where
  nonempty : positions ≠ []
  placed : Network.Placed (network.declared.take positions.length) positions
  unrefuted : ∀ shorter, shorter <+: positions → shorter ≠ positions →
    Unrefuted network (Network.valuesAt network.declared shorter)

section

variable {network : Network Int}

theorem extends_bindFirst {count : Nat} {bound more : List Int}
    (fits : (bound ++ more).length ≤ count) :
    (bindFirst count (bound ++ more)).Extends (bindFirst count bound) := by
  intro slot value found
  by_cases inside : slot < bound.length
  · have inside' : slot < (bound ++ more).length := by rw [List.length_append]; omega
    rw [bindFirst_getElem? inside, Option.some.injEq] at found
    refine ⟨_, bindFirst_getElem? inside', fun known same => ?_⟩
    rw [← same, ← found, Network.slotValue, Network.slotValue, List.getD_append _ _ _ _ inside]
  · cases bindFirst_getElem?_open (Nat.le_of_not_lt inside) found
    have fewer : bound.length ≤ count := by
      rw [List.length_append] at fits
      omega
    have room : slot < (bindFirst count (bound ++ more)).size := by
      rw [size_bindFirst fits, ← size_bindFirst fewer]
      exact (Array.getElem?_eq_some_iff.mp found).choose
    exact ⟨_, Array.getElem?_eq_getElem room, fun _ same => by cases same⟩

/-- What makes a constraint false keeps making it false. -/
theorem Unrefuted.of_append {bound more : List Int} (unrefuted : Unrefuted network (bound ++ more))
    (fits : (bound ++ more).length ≤ network.declared.length) : Unrefuted network bound := by
  intro constraint member refuted
  obtain ⟨after, later, kept⟩ :=
    Constraint.evaluate_kept constraint (extends_bindFirst fits) refuted
  rw [kept false rfl] at later
  exact unrefuted constraint member later

/-- Beginnings of positions that refute nothing refute nothing. -/
theorem unrefuted_of_prefix {positions shorter : List Nat}
    (unrefuted : Unrefuted network (Network.valuesAt network.declared positions))
    (inside : positions.length ≤ network.declared.length) (begins : shorter <+: positions) :
    Unrefuted network (Network.valuesAt network.declared shorter) := by
  obtain ⟨rest, rfl⟩ := begins
  have fits := Network.length_valuesAt inside
  rw [Network.valuesAt_append] at unrefuted fits
  exact unrefuted.of_append (fits ▸ inside)

theorem Live.length_le {positions : List Nat} (live : Live network positions) :
    positions.length ≤ network.declared.length := Network.length_le_of_placed live.placed

/-! ### How many there are -/

/-- There are as many positions for the first variables as the product of the sizes of their
domains, so a search can only try so many. -/
theorem length_le_of_live {tried : List (List Nat)} (nodup : tried.Nodup)
    (live : ∀ positions ∈ tried, Live network positions) :
    tried.length ≤ ((List.range network.declared.length).map fun slot =>
      ((network.declared.take (slot + 1)).map fun entry => entry.values.length).prod).sum := by
  have among : tried ⊆ (List.range network.declared.length).flatMap fun slot =>
      Network.placements (network.declared.take (slot + 1)) := by
    intro positions member
    have alive := live positions member
    have positive := List.length_pos_iff.mpr alive.nonempty
    refine List.mem_flatMap.mpr ⟨positions.length - 1, List.mem_range.mpr ?_, ?_⟩
    · have inside := alive.length_le
      omega
    · rw [Network.mem_placements_iff, Nat.sub_add_cancel positive]
      exact alive.placed
  calc tried.length
      ≤ ((List.range network.declared.length).flatMap fun slot =>
          Network.placements (network.declared.take (slot + 1))).length :=
        (List.subperm_of_subset nodup among).length_le
    _ = _ := by simp only [List.length_flatMap, Network.length_placements]

end

end Backtracking

end HorizonPlanner
