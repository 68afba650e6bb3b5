/-
This file relates the propositional variables of a variable to its value.  The
table of a variable has one entry for each value of its domain.  A truth
assignment encodes a value in the table if it makes the propositional variable
of that value true and the others false; the value can then be read off, and
what the clauses about one or two tables say is a statement about the values.
-/

import Mathlib.Data.List.Nodup
import HorizonPlanner.Cnf.Model
import HorizonPlanner.Proofs.ExactlyOne

namespace HorizonPlanner.Cnf

namespace LiteralTable

/-- The values of a table. -/
def keys (table : LiteralTable Int) : List Int := table.map Prod.fst

/-- The propositional variables of a table. -/
def atoms (table : LiteralTable Int) : List Nat := table.map Prod.snd

/-- A table for a domain: each value has one entry, and a propositional variable of its own. -/
structure Covers (table : LiteralTable Int) (values : List Int) : Prop where
  keys_nodup : table.keys.Nodup
  atoms_nodup : table.atoms.Nodup
  mem_keys : ∀ value, value ∈ table.keys ↔ value ∈ values

/-- A truth assignment makes the propositional variable of a value true, and of no other value. -/
structure Encodes (table : LiteralTable Int) (truth : Nat → Bool) (value : Int) : Prop where
  mem_keys : value ∈ table.keys
  only : ∀ entry ∈ table, truth entry.2 = true ↔ entry.1 = value

/-! ### Looking up a value -/

theorem atom?_cons (key value : Int) (atom : Nat) (rest : LiteralTable Int) :
    LiteralTable.atom? ((key, atom) :: rest) value =
      if key = value then some atom else rest.atom? value := by
  by_cases same : key = value
  · rw [if_pos same, atom?, List.find?_cons_of_pos (by simpa [Symbol.same] using same)]
    rfl
  · rw [if_neg same, atom?, List.find?_cons_of_neg (by simpa [Symbol.same] using same)]
    rfl

theorem atom?_eq_none_iff {table : LiteralTable Int} {value : Int} :
    table.atom? value = none ↔ value ∉ table.keys := by
  induction table with
  | nil => simp [atom?, keys]
  | cons entry rest inductionHypothesis =>
    obtain ⟨key, atom⟩ := entry
    rw [atom?_cons, keys, List.map_cons, List.mem_cons, not_or]
    split
    next same => simp [same]
    next other => simpa [Ne.symm other, keys] using inductionHypothesis

theorem mem_of_atom? {table : LiteralTable Int} {value : Int} {atom : Nat}
    (found : table.atom? value = some atom) : (value, atom) ∈ table := by
  induction table with
  | nil => cases found
  | cons entry rest inductionHypothesis =>
    obtain ⟨key, first⟩ := entry
    rw [atom?_cons] at found
    split at found
    next same =>
      cases found
      rw [same]
      exact List.mem_cons_self
    next => exact List.mem_cons_of_mem _ (inductionHypothesis found)

theorem exists_atom? {table : LiteralTable Int} {value : Int} (member : value ∈ table.keys) :
    ∃ atom, table.atom? value = some atom :=
  Option.ne_none_iff_exists'.mp fun none => atom?_eq_none_iff.mp none member

theorem atom_mem {table : LiteralTable Int} {entry : Int × Nat} (member : entry ∈ table) :
    entry.2 ∈ table.atoms :=
  List.mem_map_of_mem member

theorem key_mem {table : LiteralTable Int} {entry : Int × Nat} (member : entry ∈ table) :
    entry.1 ∈ table.keys :=
  List.mem_map_of_mem member

/-! ### The value that is encoded -/

section

variable {table : LiteralTable Int} {truth : Nat → Bool} {value : Int}

/-- The propositional variable of a value is true exactly if that is the value encoded. -/
theorem Encodes.atom_iff (encodes : table.Encodes truth value) {constant : Int} {atom : Nat}
    (found : table.atom? constant = some atom) : truth atom = true ↔ value = constant :=
  (encodes.only _ (mem_of_atom? found)).trans eq_comm

theorem Encodes.valueIn_eq (encodes : table.Encodes truth value) : table.valueIn truth = value := by
  obtain ⟨entry, member, same⟩ := List.mem_map.mp encodes.mem_keys
  have true' : truth entry.2 = true := (encodes.only entry member).mpr same
  cases found : table.find? fun entry => truth entry.2 with
  | none => exact absurd true' (List.find?_eq_none.mp found entry member)
  | some first =>
    have first_true := List.find?_some found
    rw [valueIn, found]
    exact (encodes.only first (List.mem_of_find?_eq_some found)).mp first_true

theorem valueIn_congr {other : Nat → Bool}
    (same : ∀ atom ∈ table.atoms, truth atom = other atom) :
    table.valueIn truth = table.valueIn other := by
  suffices found : (table.find? fun entry => truth entry.2) =
      table.find? fun entry => other entry.2 by
    rw [valueIn, valueIn, found]
  induction table with
  | nil => rfl
  | cons entry rest inductionHypothesis =>
    obtain ⟨here, there⟩ := List.forall_mem_cons.mp same
    rw [List.find?_cons, List.find?_cons, here, inductionHypothesis there]

theorem encodes_congr {other : Nat → Bool} (same : ∀ atom ∈ table.atoms, truth atom = other atom) :
    table.Encodes truth value ↔ table.Encodes other value := by
  have only : (∀ entry ∈ table, truth entry.2 = true ↔ entry.1 = value) ↔
      ∀ entry ∈ table, other entry.2 = true ↔ entry.1 = value :=
    forall₂_congr fun entry member => by rw [same entry.2 (atom_mem member)]
  exact ⟨fun ⟨member, holding⟩ => ⟨member, only.mp holding⟩,
    fun ⟨member, holding⟩ => ⟨member, only.mpr holding⟩⟩

/-- Some value is encoded exactly if one propositional variable of the table is true. -/
theorem exists_encodes_iff (keys_nodup : table.keys.Nodup) (atoms_nodup : table.atoms.Nodup) :
    (∃ value, table.Encodes truth value) ↔ ∃ atom, Chosen truth table.atoms atom := by
  constructor
  · rintro ⟨value, member, only⟩
    obtain ⟨entry, inside, rfl⟩ := List.mem_map.mp member
    refine ⟨entry.2, atom_mem inside, fun other among => ?_⟩
    obtain ⟨entry', member', rfl⟩ := List.mem_map.mp among
    rw [only entry' member']
    exact ⟨fun same => congrArg Prod.snd (List.inj_on_of_nodup_map keys_nodup member' inside same),
      fun same => congrArg Prod.fst (List.inj_on_of_nodup_map atoms_nodup member' inside same)⟩
  · rintro ⟨atom, member, only⟩
    obtain ⟨entry, inside, rfl⟩ := List.mem_map.mp member
    refine ⟨entry.1, key_mem inside, fun entry' member' => ?_⟩
    rw [only entry'.2 (atom_mem member')]
    exact ⟨fun same => congrArg Prod.fst (List.inj_on_of_nodup_map atoms_nodup member' inside same),
      fun same => congrArg Prod.snd (List.inj_on_of_nodup_map keys_nodup member' inside same)⟩

end

/-! ### Agreement -/

section

variable {left right : LiteralTable Int} {truth : Nat → Bool} {first second : Int}

theorem forall_agreementClauses_iff :
    (∀ clause ∈ agreementClauses left right, Clause.satisfied truth clause = true) ↔
      (∀ entry ∈ left, truth entry.2 = true →
        ∃ partner, right.atom? entry.1 = some partner ∧ truth partner = true) ∧
      ∀ entry ∈ right, left.atom? entry.1 = none → truth entry.2 = false := by
  rw [agreementClauses, List.forall_mem_append, matched, unmatched, List.map_map,
    List.map_map, List.forall_mem_map, List.forall_mem_map]
  refine and_congr (forall₂_congr fun entry _ => ?_) ?_
  · cases partner : right.atom? entry.1 with
    | none => simp [partner]
    | some partner' => cases here : truth entry.2 <;> simp [partner, here]
  · simp only [List.mem_filter, and_imp, Option.isNone_iff_eq_none]
    refine forall₃_congr fun entry _ _ => ?_
    simp

/-- The clauses of an agreement say that the values of two variables are equal. -/
theorem agreementClauses_iff (leftEncodes : left.Encodes truth first)
    (rightEncodes : right.Encodes truth second) :
    (∀ clause ∈ agreementClauses left right, Clause.satisfied truth clause = true) ↔
      first = second := by
  rw [forall_agreementClauses_iff]
  constructor
  · rintro ⟨fromLeft, _⟩
    obtain ⟨atom, found⟩ := exists_atom? leftEncodes.mem_keys
    obtain ⟨partner, found', there⟩ := fromLeft (first, atom) (mem_of_atom? found)
      ((leftEncodes.atom_iff found).mpr rfl)
    exact ((rightEncodes.atom_iff found').mp there).symm
  · rintro rfl
    refine ⟨fun entry member here => ?_, fun entry member missing => ?_⟩
    · obtain ⟨partner, found⟩ := exists_atom? rightEncodes.mem_keys
      rw [(leftEncodes.only entry member).mp here]
      exact ⟨partner, found, (rightEncodes.atom_iff found).mpr rfl⟩
    · rw [Bool.eq_false_iff]
      intro there
      rw [(rightEncodes.only entry member).mp there] at missing
      exact atom?_eq_none_iff.mp missing leftEncodes.mem_keys

theorem forall_agreementDefinition_iff {name : Nat} :
    (∀ clause ∈ agreementDefinition name left right, Clause.satisfied truth clause = true) ↔
      (truth name = true →
        ∀ clause ∈ agreementClauses left right, Clause.satisfied truth clause = true) ∧
      ∀ entry ∈ left, ∀ partner, right.atom? entry.1 = some partner → truth entry.2 = true →
        truth partner = true → truth name = true := by
  calc
    _ ↔ (∀ entry ∈ left, (truth name = true → truth entry.2 = true →
          ∃ partner, right.atom? entry.1 = some partner ∧ truth partner = true) ∧
        ∀ partner, right.atom? entry.1 = some partner → truth entry.2 = true →
          truth partner = true → truth name = true) ∧
        ∀ entry ∈ right, left.atom? entry.1 = none → truth name = true →
          truth entry.2 = false := by
      rw [agreementDefinition, List.forall_mem_append, List.forall_mem_flatMap, matched,
        List.forall_mem_map, unmatched, List.map_map, List.forall_mem_map]
      refine and_congr (forall₂_congr fun entry _ => ?_) ?_
      · cases found : right.atom? entry.1 with
        | none => cases named : truth name <;> simp [found, named]
        | some partner =>
          cases named : truth name <;> cases here : truth entry.2 <;> simp [found, named, here]
      · simp only [List.mem_filter, and_imp, Option.isNone_iff_eq_none]
        refine forall₃_congr fun entry _ _ => ?_
        cases named : truth name <;> simp [named]
    _ ↔ _ := by
      rw [forall_agreementClauses_iff]
      exact ⟨fun ⟨fromLeft, fromRight⟩ =>
          ⟨fun named => ⟨fun entry member => (fromLeft entry member).1 named,
              fun entry member missing => fromRight entry member missing named⟩,
            fun entry member => (fromLeft entry member).2⟩,
        fun ⟨sound, named⟩ =>
          ⟨fun entry member => ⟨fun true' => (sound true').1 entry member, named entry member⟩,
            fun entry member missing true' => (sound true').2 entry member missing⟩⟩

/-- The clauses that define a name for an agreement say that it is true exactly if the values of two
variables are equal. -/
theorem agreementDefinition_iff {name : Nat} (leftEncodes : left.Encodes truth first)
    (rightEncodes : right.Encodes truth second) :
    (∀ clause ∈ agreementDefinition name left right, Clause.satisfied truth clause = true) ↔
      (truth name = true ↔ first = second) := by
  rw [forall_agreementDefinition_iff, agreementClauses_iff leftEncodes rightEncodes]
  refine ⟨fun ⟨sound, named⟩ => ⟨sound, ?_⟩, fun same => ⟨same.mp, ?_⟩⟩
  · rintro rfl
    obtain ⟨atom, found⟩ := exists_atom? leftEncodes.mem_keys
    obtain ⟨partner, found'⟩ := exists_atom? rightEncodes.mem_keys
    exact named (first, atom) (mem_of_atom? found) partner found'
      ((leftEncodes.atom_iff found).mpr rfl) ((rightEncodes.atom_iff found').mpr rfl)
  · intro entry member partner found here there
    refine same.mpr ?_
    rw [(rightEncodes.atom_iff found).mp there]
    exact ((leftEncodes.only entry member).mp here).symm

end

/-! ### The variables that occur -/

section

variable {α : Type} [Symbol α] {table left right : LiteralTable α} {bound : Nat}

theorem exists_mem_of_atom? {value : α} {atom : Nat} (found : table.atom? value = some atom) :
    ∃ entry ∈ table, entry.2 = atom ∧ Symbol.same entry.1 value = true := by
  obtain ⟨entry, first, rfl⟩ := Option.map_eq_some_iff.mp found
  exact ⟨entry, List.mem_of_find?_eq_some first, rfl,
    List.find?_some (p := fun entry : α × Nat => Symbol.same entry.1 value) first⟩

theorem agreementClauses_below (leftBelow : ∀ entry ∈ left, 0 < entry.2 ∧ entry.2 ≤ bound)
    (rightBelow : ∀ entry ∈ right, 0 < entry.2 ∧ entry.2 ≤ bound) :
    ∀ clause ∈ agreementClauses left right, clause.Below bound := by
  rw [agreementClauses, List.forall_mem_append, matched, unmatched, List.map_map, List.map_map,
    List.forall_mem_map, List.forall_mem_map]
  refine ⟨fun entry member => ?_, fun entry member => ?_⟩
  · have here := leftBelow entry member
    cases found : right.atom? entry.1 with
    | none => simpa [found, Clause.Below, Literal.Below, Literal.fails] using here
    | some partner =>
      obtain ⟨entry', member', rfl, _⟩ := exists_mem_of_atom? found
      have there := rightBelow entry' member'
      simpa [found, Clause.Below, Literal.Below, Literal.fails, Literal.holds] using ⟨here, there⟩
  · have there := rightBelow entry (List.mem_filter.mp member).1
    simpa [Clause.Below, Literal.Below, Literal.fails] using there

theorem agreementDefinition_below {name : Nat} (named : 0 < name ∧ name ≤ bound)
    (leftBelow : ∀ entry ∈ left, 0 < entry.2 ∧ entry.2 ≤ bound)
    (rightBelow : ∀ entry ∈ right, 0 < entry.2 ∧ entry.2 ≤ bound) :
    ∀ clause ∈ agreementDefinition name left right, clause.Below bound := by
  rw [agreementDefinition, List.forall_mem_append, List.forall_mem_flatMap, matched,
    List.forall_mem_map, unmatched, List.map_map, List.forall_mem_map]
  refine ⟨fun entry member => ?_, fun entry member => ?_⟩
  · have here := leftBelow entry member
    cases found : right.atom? entry.1 with
    | none => simpa [found, Clause.Below, Literal.Below, Literal.fails] using ⟨named, here⟩
    | some partner =>
      obtain ⟨entry', member', rfl, _⟩ := exists_mem_of_atom? found
      have there := rightBelow entry' member'
      simpa [found, Clause.Below, Literal.Below, Literal.fails, Literal.holds] using
        ⟨named, here, there⟩
  · have there := rightBelow entry (List.mem_filter.mp member).1
    simpa [Clause.Below, Literal.Below, Literal.fails] using ⟨named, there⟩

theorem agreementClauses_nonempty (left right : LiteralTable α) :
    ∀ clause ∈ agreementClauses left right, clause ≠ [] := by
  rw [agreementClauses, List.forall_mem_append, List.forall_mem_map, List.forall_mem_map]
  refine ⟨?_, fun _ _ => List.cons_ne_nil _ _⟩
  rintro ⟨atom, _ | partner⟩ _ <;> exact List.cons_ne_nil _ _

theorem agreementDefinition_nonempty (name : Nat) (left right : LiteralTable α) :
    ∀ clause ∈ agreementDefinition name left right, clause ≠ [] := by
  rw [agreementDefinition, List.forall_mem_append, List.forall_mem_flatMap, matched,
    List.forall_mem_map, unmatched, List.map_map, List.forall_mem_map]
  refine ⟨fun entry _ => ?_, fun _ _ => List.cons_ne_nil _ _⟩
  cases found : right.atom? entry.1 with
  | none => simp [found]
  | some partner => simp [found]

end

end LiteralTable

end HorizonPlanner.Cnf
