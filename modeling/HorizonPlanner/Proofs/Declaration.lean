/-
This file proves what declaring a variable does to a compiled model.  The
variable gets a table in which each value of its domain has a propositional
variable of its own, repeated values having one in common, and clauses that make
exactly one of them true.  Every value of the domain can be chosen, and the
choice determines all propositional variables that were added.  From an empty
domain there is nothing to choose, and nothing is admitted any more.
-/

import HorizonPlanner.Proofs.Allocation
import HorizonPlanner.Proofs.Refinement

namespace HorizonPlanner.Cnf

/-! ### Filling a table -/

/-- A table for a list of values whose propositional variables are those between two
bounds. -/
structure LiteralTable.Fills (table : LiteralTable Int) (seen : List Int) (base top : Nat) :
    Prop where
  covers : table.Covers seen
  mem_atoms : ∀ atom, atom ∈ table.atoms ↔ base < atom ∧ atom ≤ top

theorem LiteralTable.Tabulates.covers {table : LiteralTable Int} {values : List Int}
    (tabulates : table.Tabulates values) (atoms_nodup : table.atoms.Nodup) :
    table.Covers values where
  keys_nodup := List.pairwise_map.mpr (tabulates.distinct.imp fun apart => ne_of_beq_false apart)
  atoms_nodup := atoms_nodup
  mem_keys value := by
    constructor
    · intro member
      obtain ⟨entry, among, rfl⟩ := List.mem_map.mp member
      exact tabulates.drawn entry among
    · intro member
      obtain ⟨entry, among, same⟩ := tabulates.complete value member
      exact List.mem_map.mpr ⟨entry, among, eq_of_beq same⟩

theorem run_allocateTable (values : List Int) (model : Model Int) :
    ∃ filled top, (allocateTable [] values).run model = .ok filled { model with atoms := top } ∧
      model.atoms ≤ top ∧ LiteralTable.Fills filled values model.atoms top := by
  obtain ⟨filled, ran, numbered, tabulates⟩ :=
    exists_extension values model LiteralTable.tabulates_nil fun _ _ => rfl
  rw [List.nil_append] at ran tabulates
  refine ⟨filled, _, ran, Nat.le_add_right _ _, tabulates.covers ?_, fun atom => ?_⟩
  · rw [LiteralTable.atoms, numbered]
    exact List.nodup_range'
  · rw [LiteralTable.atoms, numbered, List.mem_range'_1]
    omega

/-! ### Choosing a value -/

section

variable {table : LiteralTable Int} {values : List Int} {base top : Nat}

/-- Any value of the domain can be encoded, whatever the variables below the table say. -/
theorem exists_encodes (fills : table.Fills values base top) (truth : Nat → Bool) {value : Int}
    (member : value ∈ values) :
    ∃ picked, SameUpTo base picked truth ∧ table.Encodes picked value := by
  let picked := fun atom => if atom ≤ base then truth atom else decide ((value, atom) ∈ table)
  refine ⟨picked, fun atom _ old => if_pos old, (fills.covers.mem_keys value).mpr member,
    fun entry among => ?_⟩
  have new : ¬ entry.2 ≤ base :=
    Nat.not_le.mpr ((fills.mem_atoms entry.2).mp (LiteralTable.atom_mem among)).1
  have pickedEntry : picked entry.2 = decide ((value, entry.2) ∈ table) := if_neg new
  rw [pickedEntry, decide_eq_true_eq]
  constructor
  · exact fun chosen => congrArg Prod.fst
      (List.inj_on_of_nodup_map fills.covers.atoms_nodup among chosen rfl)
  · rintro rfl
    exact among

/-- The value that is encoded determines the propositional variables of the table. -/
theorem sameUpTo_of_encodes (fills : table.Fills values base top) {first second : Nat → Bool}
    {value : Int} (encodes : table.Encodes first value) (encodes' : table.Encodes second value)
    (same : SameUpTo base first second) : SameUpTo top first second := by
  intro atom positive inside
  by_cases old : atom ≤ base
  · exact same atom positive old
  · obtain ⟨entry, among, rfl⟩ := List.mem_map.mp ((fills.mem_atoms atom).mpr ⟨by omega, inside⟩)
    rw [Bool.eq_iff_iff, encodes.only entry among, encodes'.only entry among]

end

/-! ### Declaring a variable -/

theorem run_excludeAll (model : Model Int) (atoms : List Nat)
    (inside : ∀ atom ∈ atoms, 0 < atom ∧ atom ≤ model.atoms) :
    ∃ after, (excludeAll atoms).run model = .ok () after ∧
      Model.Narrows { model with atoms := model.atoms + rungCount atoms.length } after fun truth =>
        ∀ clause ∈ atMostOneClauses (model.atoms + 1) atoms, Clause.satisfied truth clause = true :=
  Model.run_addClauses _ _ (atMostOneClauses_below inside)

namespace Model

/-- The model after a declaration: the table that was filled, and what its clauses say. -/
structure Enters (before after : Model Int) (entry : Variable Int) (table : LiteralTable Int)
    (top : Nat) : Prop where
  fills : table.Fills entry.values before.atoms top
  order : before.atoms ≤ top
  declared : after.declared = before.declared.push entry
  tables : after.tables = before.tables.push table
  truth : after.truth = before.truth
  atoms : after.atoms = top + rungCount table.atoms.length
  clauses_below : (∀ clause ∈ before.clauses, Clause.Below before.atoms clause) →
    ∀ clause ∈ after.clauses, Clause.Below after.atoms clause
  admits : ∀ truth, after.Admits truth ↔ before.Admits truth ∧
    (∃ value, table.Encodes truth value) ∧ Settled truth (top + 1) table.atoms

/-- Once its table is filled, a variable is entered by two steps that say: one of its values is
taken, and no other one is. -/
theorem enters_of_narrows {before stated after : Model Int} {entry : Variable Int}
    {table : LiteralTable Int} {top : Nat} (fills : table.Fills entry.values before.atoms top)
    (order : before.atoms ≤ top)
    (narrows : Narrows { before with
        declared := before.declared.push entry, atoms := top, tables := before.tables.push table }
      stated fun truth => Clause.satisfied truth (table.atoms.map .holds) = true)
    (narrows' : Narrows { stated with atoms := stated.atoms + rungCount table.atoms.length } after
      fun truth => ∀ clause ∈ atMostOneClauses (stated.atoms + 1) table.atoms,
        Clause.satisfied truth clause = true) : before.Enters after entry table top where
  fills := fills
  order := order
  declared := narrows'.declared.trans narrows.declared
  tables := narrows'.tables.trans narrows.tables
  truth := narrows'.truth.trans narrows.truth
  atoms := by rw [narrows'.atoms, narrows.atoms]
  clauses_below bounded := by
    have stated_below := narrows.clauses_below fun clause member =>
      (bounded clause member).mono order
    rw [narrows'.atoms]
    refine narrows'.clauses_below fun clause member => (stated_below clause member).mono ?_
    rw [narrows.atoms]
    exact Nat.le_add_right top _
  admits truth := by
    have meaning := exactlyOne_iff truth (top + 1) fills.covers.atoms_nodup
    rw [← LiteralTable.exists_encodes_iff fills.covers.keys_nodup fills.covers.atoms_nodup]
      at meaning
    rw [narrows.atoms] at narrows'
    calc after.Admits truth
        ↔ stated.Admits truth ∧ ∀ clause ∈ atMostOneClauses (top + 1) table.atoms,
            Clause.satisfied truth clause = true := narrows'.admits truth
      _ ↔ before.Admits truth ∧ Clause.satisfied truth (table.atoms.map .holds) = true ∧
            ∀ clause ∈ atMostOneClauses (top + 1) table.atoms,
              Clause.satisfied truth clause = true := by
          rw [narrows.admits, and_assoc]
          rfl
      _ ↔ _ := and_congr_right fun _ => meaning

theorem run_declare (entry : Variable Int) (model : Model Int) :
    ∃ after table top, (declare entry).run model = .ok () after ∧
      model.Enters after entry table top := by
  let entered := { model with declared := model.declared.push entry }
  obtain ⟨table, top, filled, order, fills⟩ :=
    run_allocateTable entry.values entered
  let tabled := { entered with atoms := top, tables := model.tables.push table }
  have inside : ∀ atom ∈ table.atoms, 0 < atom ∧ atom ≤ top := fun atom member =>
    have place := (fills.mem_atoms atom).mp member
    ⟨Nat.zero_lt_of_lt place.1, place.2⟩
  obtain ⟨stated, emitted, narrows⟩ := run_emit tabled (table.atoms.map .holds)
    (List.forall_mem_map.mpr inside)
  obtain ⟨after, excluded, narrows'⟩ := run_excludeAll stated table.atoms (by
    rw [narrows.atoms]
    exact inside)
  refine ⟨after, table, top, ?_, enters_of_narrows fills order narrows narrows'⟩
  rw [declare, EStateM.run_bind, EStateM.run_modify]
  refine (run_bind_ok filled).trans ?_
  rw [EStateM.run_bind, EStateM.run_modify]
  exact (run_bind_ok emitted).trans excluded

/-- What declaring a variable does to a model: one more table, in which any value of the domain can
be chosen, and no freedom beyond this choice. -/
structure Declares (before after : Model Int) (entry : Variable Int) (table : LiteralTable Int) :
    Prop where
  coherent : after.Coherent
  covers : table.Covers entry.values
  declared : after.declared = before.declared.push entry
  tables : after.tables = before.tables.push table
  sound : ∀ truth, after.Admits truth → before.Admits truth
  complete : ∀ truth value, before.Admits truth → value ∈ entry.values →
    ∃ extended, SameUpTo before.atoms extended truth ∧ after.Admits extended ∧
      table.Encodes extended value
  unique : ∀ first second value, after.Admits first → after.Admits second →
    SameUpTo before.atoms first second → table.Encodes first value →
      table.Encodes second value → SameUpTo after.atoms first second

theorem Enters.atoms_le {before after : Model Int} {entry : Variable Int}
    {table : LiteralTable Int} {top : Nat} (enters : before.Enters after entry table top) :
    before.atoms ≤ after.atoms := by
  rw [enters.atoms]
  exact Nat.le_add_right_of_le enters.order

theorem Enters.coherent {before after : Model Int} {entry : Variable Int}
    {table : LiteralTable Int} {top : Nat} (enters : before.Enters after entry table top)
    (coherent : before.Coherent) : after.Coherent where
  covered := by
    rw [enters.tables, enters.declared, Array.size_push, Array.size_push, coherent.covered]
  covers slot other found := by
    rw [enters.tables, Array.getElem?_push] at found
    rw [enters.declared, Array.getElem?_push]
    rw [coherent.covered] at found
    split at found
    next last =>
      cases found
      exact ⟨entry, if_pos last, enters.fills.covers⟩
    next earlier =>
      obtain ⟨entry', declared, covers⟩ := coherent.covers slot other found
      exact ⟨entry', (if_neg earlier).trans declared, covers⟩
  tables_below other member atom among := by
    rw [enters.tables, Array.mem_push] at member
    rcases member with member | rfl
    · have place := coherent.tables_below other member atom among
      exact ⟨place.1, Nat.le_trans place.2 enters.atoms_le⟩
    · have place := (enters.fills.mem_atoms atom).mp among
      rw [enters.atoms]
      exact ⟨Nat.zero_lt_of_lt place.1, Nat.le_add_right_of_le place.2⟩
  clauses_below := enters.clauses_below coherent.clauses_below
  encodes truth admitted other member := by
    obtain ⟨admitted, encodes, _⟩ := (enters.admits truth).mp admitted
    rw [enters.tables, Array.mem_push] at member
    rcases member with member | rfl
    · exact coherent.encodes truth admitted other member
    · exact encodes
  pinned atom found := by
    rw [enters.truth] at found
    obtain ⟨positive, inside, holding⟩ := coherent.pinned atom found
    exact ⟨positive, Nat.le_trans inside enters.atoms_le,
      fun truth admitted => holding truth ((enters.admits truth).mp admitted).1⟩

theorem Enters.declares {before after : Model Int} {entry : Variable Int}
    {table : LiteralTable Int} {top : Nat} (enters : before.Enters after entry table top)
    (coherent : before.Coherent) : before.Declares after entry table where
  coherent := enters.coherent coherent
  covers := enters.fills.covers
  declared := enters.declared
  tables := enters.tables
  sound truth admitted := ((enters.admits truth).mp admitted).1
  complete truth value admitted member := by
    obtain ⟨picked, same, encodes⟩ := exists_encodes enters.fills truth member
    obtain ⟨extended, same', settled⟩ := exists_settled picked fun atom among =>
      ((enters.fills.mem_atoms atom).mp among).2
    have same'' := (same'.mono enters.order).trans same
    have encodes' : table.Encodes extended value := by
      refine (LiteralTable.encodes_congr fun atom among => ?_).mp encodes
      have place := (enters.fills.mem_atoms atom).mp among
      exact (same' atom (Nat.zero_lt_of_lt place.1) place.2).symm
    exact ⟨extended, same'', (enters.admits extended).mpr
      ⟨(coherent.admits_congr same'').mpr admitted, ⟨value, encodes'⟩, settled⟩, encodes'⟩
  unique first second value admitted admitted' same encodes encodes' := by
    obtain ⟨_, _, settled⟩ := (enters.admits first).mp admitted
    obtain ⟨_, _, settled'⟩ := (enters.admits second).mp admitted'
    rw [enters.atoms]
    refine settled.sameUpTo settled' (fun atom among => ?_)
      (sameUpTo_of_encodes enters.fills encodes encodes' same)
    have place := (enters.fills.mem_atoms atom).mp among
    exact ⟨Nat.zero_lt_of_lt place.1, place.2⟩

end Model

end HorizonPlanner.Cnf
