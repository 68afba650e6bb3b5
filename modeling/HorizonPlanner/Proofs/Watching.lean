/-
This file says which constraints a backtracking search looks at when it binds a
variable.  However a model was built, each slot watches the constraints of the
network that mention it: all of them, no others, each once and in the order in
which they were posted.
-/

import Mathlib.Data.List.Basic
import Mathlib.Data.List.Nodup
import HorizonPlanner.Backtracking
import HorizonPlanner.Proofs.Network

namespace HorizonPlanner

variable {α : Type}

theorem nodup_eraseDups {β : Type} [BEq β] [LawfulBEq β] (items : List β) :
    items.eraseDups.Nodup := by
  cases items with
  | nil => exact .nil
  | cons item rest =>
    rw [List.eraseDups_cons, List.nodup_cons]
    refine ⟨?_, nodup_eraseDups _⟩
    rw [List.mem_eraseDups]
    simp
termination_by items.length
decreasing_by exact Nat.lt_succ_of_le (List.length_filter_le _ _)

/-- The positions of the constraints of a network that mention a slot. -/
def Network.mentions (network : Network α) (slot : Nat) : List Nat :=
  (network.constraints.zipIdx.filter fun entry => entry.1.slots.contains slot).map Prod.snd

theorem Network.mem_mentions_iff {network : Network α} {slot position : Nat} :
    position ∈ network.mentions slot ↔
      ∃ constraint, network.constraints[position]? = some constraint ∧ slot ∈ constraint.slots := by
  rw [mentions, List.mem_map]
  constructor
  · rintro ⟨⟨constraint, position⟩, member, rfl⟩
    obtain ⟨among, mentioned⟩ := List.mem_filter.mp member
    exact ⟨constraint, List.mk_mem_zipIdx_iff_getElem?.mp among,
      List.contains_iff_mem.mp mentioned⟩
  · rintro ⟨constraint, found, mentioned⟩
    exact ⟨(constraint, position), List.mem_filter.mpr
      ⟨List.mk_mem_zipIdx_iff_getElem?.mpr found, List.contains_iff_mem.mpr mentioned⟩, rfl⟩

theorem Network.nodup_mentions (network : Network α) (slot : Nat) :
    (network.mentions slot).Nodup := by
  have positions : (network.constraints.zipIdx.map Prod.snd).Nodup := by
    rw [List.zipIdx_map_snd]
    exact List.nodup_range'
  exact positions.sublist (List.filter_sublist.map Prod.snd)

namespace Backtracking.Model

/-! ### Building a model -/

/-- A model after one more call. -/
def perform (model : Model α) : BuildStep α → Model α
  | .declare entry => model.declare entry
  | .post constraint => model.post constraint

/-- A model after some more calls. -/
def performAll (model : Model α) (steps : List (BuildStep α)) : Model α :=
  steps.foldl perform model

/-- A model holds a network: its variables, its constraints, and for each slot the positions of the
constraints that mention it. -/
structure Holds (model : Model α) (network : Network α) : Prop where
  declared : model.declared.toList = network.declared
  constraints : model.constraints.toList = network.constraints
  covered : model.watchers.size = network.declared.length
  watching : ∀ slot < network.declared.length,
    (model.watchers.getD slot #[]).toList = network.mentions slot

theorem Holds.size_eq {model : Model α} {network : Network α} (holds : model.Holds network) :
    model.declared.size = network.declared.length := by
  rw [← Array.length_toList, holds.declared]

theorem Holds.getElem?_eq {model : Model α} {network : Network α} (holds : model.Holds network)
    (slot : Nat) : model.declared[slot]? = network.declared[slot]? := by
  rw [← Array.getElem?_toList, holds.declared]

theorem holds_empty : (empty : Model α).Holds .empty where
  declared := rfl
  constraints := rfl
  covered := rfl
  watching _ inside := absurd inside (Nat.not_lt_zero _)

/-! ### Declaring and posting -/

/-- A slot that no constraint mentions is watched by none. -/
theorem mentions_eq_nil {network : Network α} {slot : Nat}
    (unmentioned : ∀ constraint ∈ network.constraints, slot ∉ constraint.slots) :
    network.mentions slot = [] := by
  rw [Network.mentions, List.map_eq_nil_iff, List.filter_eq_nil_iff]
  rintro ⟨constraint, position⟩ member
  rw [List.contains_iff_mem]
  exact unmentioned constraint (List.fst_mem_of_mem_zipIdx member)

theorem mentions_post (network : Network α) (constraint : Constraint α) (slot : Nat) :
    (network.extend (.post constraint)).mentions slot =
      network.mentions slot ++
        if slot ∈ constraint.slots then [network.constraints.length] else [] := by
  rw [Network.mentions, Network.mentions, Network.extend, List.zipIdx_append, List.filter_append,
    List.map_append]
  refine congrArg _ ?_
  by_cases mentioned : slot ∈ constraint.slots
  · simp [mentioned]
  · simp [mentioned]

/-- Entering a position for each of some slots adds it to the lists of these slots, once, and leaves
the others alone. -/
theorem getD_enter (position : Nat) {slots : List Nat} (nodup : slots.Nodup) {slot : Nat}
    {watchers : Array (Array Nat)} (inside : slot < watchers.size) :
    ((slots.foldl (fun watchers slot => watchers.modify slot (·.push position)) watchers).getD
        slot #[]).toList =
      (watchers.getD slot #[]).toList ++ if slot ∈ slots then [position] else [] := by
  induction slots generalizing watchers with
  | nil => simp
  | cons first rest inductionHypothesis =>
    obtain ⟨fresh, nodup⟩ := List.nodup_cons.mp nodup
    rw [List.foldl_cons, inductionHypothesis nodup (by rwa [Array.size_modify])]
    by_cases same : first = slot
    · subst same
      simp [fresh, inside, Array.getElem_modify_self]
    · simp [same, Ne.symm same, Array.getElem?_modify]

theorem size_enter (position : Nat) (slots : List Nat) (watchers : Array (Array Nat)) :
    (slots.foldl (fun watchers slot => watchers.modify slot (·.push position)) watchers).size =
      watchers.size := by
  induction slots generalizing watchers with
  | nil => rfl
  | cons first rest inductionHypothesis =>
    rw [List.foldl_cons, inductionHypothesis, Array.size_modify]

theorem holds_declare {model : Model α} {network : Network α} (holds : model.Holds network)
    (wellFormed : network.WellFormed) (entry : Variable α) :
    (model.declare entry).Holds (network.extend (.declare entry)) where
  declared := by rw [declare, Array.toList_push, holds.declared, Network.extend]
  constraints := holds.constraints
  covered := by
    rw [declare, Array.size_push, holds.covered, Network.extend, List.length_append]
    rfl
  watching slot inside := by
    rw [Network.extend, List.length_append, List.length_singleton] at inside
    show ((model.watchers.push #[]).getD slot #[]).toList = network.mentions slot
    by_cases known : slot < network.declared.length
    · rw [← holds.watching slot known]
      simp [Array.getElem?_push, holds.covered, Nat.ne_of_lt known]
    · obtain rfl : slot = network.declared.length := by omega
      rw [mentions_eq_nil fun constraint member mentioned =>
        Nat.lt_irrefl _ ((wellFormed constraint member).bounded _ mentioned)]
      simp [← holds.covered]

theorem holds_post {model : Model α} {network : Network α} (holds : model.Holds network)
    (constraint : Constraint α) :
    (model.post constraint).Holds (network.extend (.post constraint)) where
  declared := holds.declared
  constraints := by rw [post, Array.toList_push, holds.constraints, Network.extend]
  covered := by rw [post, size_enter, holds.covered, Network.extend]
  watching slot inside := by
    have known : slot < model.watchers.size := by rw [holds.covered]; exact inside
    rw [post, getD_enter _ (nodup_eraseDups _) known, holds.watching slot inside, mentions_post,
      ← Array.length_toList, holds.constraints]
    simp only [List.mem_eraseDups]

/-- Whatever calls built a model, it holds the network that they state. -/
theorem holds_performAll {model : Model α} {network : Network α} (holds : model.Holds network)
    (wellFormed : network.WellFormed) {steps : List (BuildStep α)}
    (admitted : network.AdmitsAll steps) :
    (model.performAll steps).Holds (network.extendAll steps) := by
  induction steps generalizing model network with
  | nil => exact holds
  | cons step rest inductionHypothesis =>
    refine inductionHypothesis ?_ (Network.wellFormed_extend wellFormed admitted.1) admitted.2
    cases step with
    | declare entry => exact holds_declare holds wellFormed entry
    | post constraint => exact holds_post holds constraint

/-! ### The constraints that a slot watches -/

/-- The constraints that a slot watches are those that mention it. -/
theorem watched_eq {model : Model α} {network : Network α} (holds : model.Holds network)
    {slot : Nat} (inside : slot < network.declared.length) :
    model.watched slot =
      network.constraints.filter fun constraint => constraint.slots.contains slot := by
  have found : ∀ entry ∈ network.constraints.zipIdx,
      model.constraints[entry.2]? = some entry.1 := by
    rintro ⟨constraint, position⟩ member
    rw [← Array.getElem?_toList, holds.constraints]
    exact List.mk_mem_zipIdx_iff_getElem?.mp member
  calc model.watched slot
      = (network.constraints.zipIdx.filter fun entry => entry.1.slots.contains slot).filterMap
          fun entry => model.constraints[entry.2]? := by
        rw [watched, Array.toList_filterMap, holds.watching slot inside, Network.mentions,
          List.filterMap_map]
        rfl
    _ = (network.constraints.zipIdx.filter fun entry => entry.1.slots.contains slot).map
          Prod.fst :=
        List.filterMap_eq_map_iff_forall_eq_some.mpr fun entry member =>
          found entry (List.mem_filter.mp member).1
    _ = (network.constraints.zipIdx.map Prod.fst).filter
          fun constraint => constraint.slots.contains slot := by
        rw [List.filter_map]
        rfl
    _ = network.constraints.filter fun constraint => constraint.slots.contains slot := by
        rw [List.zipIdx_map_fst]

end Backtracking.Model

end HorizonPlanner
