/-
This file says what a step of the compilation may do to a model.  A step narrows
a model if it only adds clauses, so that fewer truth assignments are admitted.
It refines a model if it may also add propositional variables, provided that
these are determined: a truth assignment that was admitted, and meets the
condition that the step states, can be extended to the new variables in exactly
one way.  Of a step that stops half way it is only asked that there is some way,
since it may leave variables without the clauses that determine them.

An auxiliary variable is allocated before the clauses that define it are known,
and meanwhile other steps are taken.  That the whole is a refinement is stated
once, for every definition.
-/

import HorizonPlanner.Proofs.LiteralTable
import HorizonPlanner.Proofs.Network

namespace HorizonPlanner.Cnf

/-! ### Runs -/

theorem run_bind_ok {β γ : Type} {first : Build Int β} {second : β → Build Int γ}
    {model middle : Model Int} {value : β} (ran : first.run model = .ok value middle) :
    (first >>= second).run model = (second value).run middle := by
  rw [EStateM.run_bind, ran]

theorem run_tableAt {model : Model Int} {slot : Nat} {table : LiteralTable Int}
    (found : model.tables[slot]? = some table) : (tableAt slot).run model = .ok table model := by
  rw [tableAt, EStateM.run_bind, EStateM.run_get]
  simp only [found]
  rfl

theorem run_atomAt {model : Model Int} {slot : Nat} {table : LiteralTable Int}
    (found : model.tables[slot]? = some table) (value : Int) :
    (atomAt slot value).run model = .ok (table.atom? value) model := by
  rw [atomAt, run_bind_ok (run_tableAt found)]
  rfl

namespace Model

/-! ### What a model says -/

/-- A truth assignment is admitted if no empty clause was stated and it makes every clause true. -/
def Admits (model : Model Int) (truth : Nat → Bool) : Prop :=
  model.contradiction = false ∧ ∀ clause ∈ model.clauses, Clause.satisfied truth clause = true

/-- The value of a slot under a truth assignment. -/
def decode (model : Model Int) (truth : Nat → Bool) (slot : Nat) : Int :=
  LiteralTable.valueIn (model.tables.getD slot []) truth

/-- The parts of a model fit together: each variable has a table for its domain, only propositional
variables that were allocated occur, and every truth assignment that is admitted encodes a value in
each table and makes the variable for truth true. -/
structure Coherent (model : Model Int) : Prop where
  covered : model.tables.size = model.declared.size
  covers : ∀ (slot : Nat) (table : LiteralTable Int), model.tables[slot]? = some table →
    ∃ entry, model.declared[slot]? = some entry ∧ table.Covers entry.values
  tables_below : ∀ table ∈ model.tables, ∀ atom ∈ LiteralTable.atoms table,
    0 < atom ∧ atom ≤ model.atoms
  clauses_below : ∀ clause ∈ model.clauses, Clause.Below model.atoms clause
  encodes : ∀ truth, model.Admits truth → ∀ table ∈ model.tables,
    ∃ value, LiteralTable.Encodes table truth value
  pinned : ∀ atom, model.truth = some atom → 0 < atom ∧ atom ≤ model.atoms ∧
    ∀ truth, model.Admits truth → truth atom = true

section

variable {model : Model Int} {first second truth : Nat → Bool}

theorem coherent_empty : (empty : Model Int).Coherent where
  covered := rfl
  covers _ _ found := nomatch (show (none : Option (LiteralTable Int)) = some _ from found)
  tables_below _ member := nomatch member
  clauses_below _ member := nomatch member
  encodes _ _ _ member := nomatch member
  pinned _ impossible := nomatch impossible

/-- Whether a truth assignment is admitted depends on the variables that were allocated only. -/
theorem Coherent.admits_congr (coherent : model.Coherent)
    (same : SameUpTo model.atoms first second) : model.Admits first ↔ model.Admits second := by
  refine and_congr_right fun _ => forall₂_congr fun clause member => ?_
  rw [Clause.satisfied_congr (coherent.clauses_below clause member) same]

theorem Coherent.table_below (coherent : model.Coherent) {slot : Nat} {table : LiteralTable Int}
    (found : model.tables[slot]? = some table) :
    ∀ atom ∈ LiteralTable.atoms table, 0 < atom ∧ atom ≤ model.atoms :=
  coherent.tables_below table (Array.mem_of_getElem? found)

theorem Coherent.atom_below (coherent : model.Coherent) {slot atom : Nat} {value : Int}
    {table : LiteralTable Int} (found : model.tables[slot]? = some table)
    (found' : table.atom? value = some atom) : 0 < atom ∧ atom ≤ model.atoms :=
  coherent.table_below found atom (LiteralTable.atom_mem (LiteralTable.mem_of_atom? found'))

/-- The values depend on the variables that were allocated only. -/
theorem Coherent.decode_congr (coherent : model.Coherent)
    (same : SameUpTo model.atoms first second) : model.decode first = model.decode second := by
  funext slot
  rw [decode, decode, Array.getD_eq_getD_getElem?]
  cases found : model.tables[slot]? with
  | none => rfl
  | some table =>
    refine LiteralTable.valueIn_congr fun atom member => ?_
    have place := coherent.table_below found atom member
    exact same atom place.1 place.2

theorem Coherent.exists_table (coherent : model.Coherent) {slot : Nat}
    (inside : slot < model.declared.size) : ∃ table, model.tables[slot]? = some table :=
  ⟨_, Array.getElem?_eq_getElem (coherent.covered ▸ inside)⟩

/-- A variable that was declared has a table for its domain. -/
theorem Coherent.exists_covers (coherent : model.Coherent) {slot : Nat} {entry : Variable Int}
    (declared : model.declared[slot]? = some entry) :
    ∃ table, model.tables[slot]? = some table ∧ table.Covers entry.values := by
  obtain ⟨table, found⟩ := coherent.exists_table (Array.getElem?_eq_some_iff.mp declared).choose
  obtain ⟨entry', same, covers⟩ := coherent.covers slot table found
  obtain rfl : entry = entry' := Option.some.inj (declared.symm.trans same)
  exact ⟨table, found, covers⟩

/-- The value of a slot is the one that its table encodes. -/
theorem Coherent.encodes_decode (coherent : model.Coherent) (admitted : model.Admits truth)
    {slot : Nat} {table : LiteralTable Int} (found : model.tables[slot]? = some table) :
    table.Encodes truth (model.decode truth slot) := by
  obtain ⟨value, encodes⟩ := coherent.encodes truth admitted table (Array.mem_of_getElem? found)
  rw [decode, Array.getD_eq_getD_getElem?, found, Option.getD_some, encodes.valueIn_eq]
  exact encodes

end

/-! ### Adding clauses -/

/-- A step adds clauses that say no more and no less than a condition. -/
structure Narrows (before after : Model Int) (condition : (Nat → Bool) → Prop) : Prop where
  declared : after.declared = before.declared
  tables : after.tables = before.tables
  atoms : after.atoms = before.atoms
  truth : after.truth = before.truth
  clauses_below : (∀ clause ∈ before.clauses, Clause.Below before.atoms clause) →
    ∀ clause ∈ after.clauses, Clause.Below before.atoms clause
  admits : ∀ truth, after.Admits truth ↔ before.Admits truth ∧ condition truth

section

variable {before middle after model : Model Int} {condition condition' : (Nat → Bool) → Prop}

theorem Narrows.trans (first : before.Narrows middle condition)
    (second : middle.Narrows after condition') :
    before.Narrows after fun truth => condition truth ∧ condition' truth where
  declared := second.declared.trans first.declared
  tables := second.tables.trans first.tables
  atoms := second.atoms.trans first.atoms
  truth := second.truth.trans first.truth
  clauses_below below :=
    first.atoms ▸ second.clauses_below (first.atoms ▸ first.clauses_below below)
  admits truth := by rw [second.admits, first.admits, and_assoc]

theorem Narrows.congr (narrows : before.Narrows after condition)
    (same : ∀ truth, condition truth ↔ condition' truth) : before.Narrows after condition' :=
  { narrows with
    admits := fun truth => (narrows.admits truth).trans (and_congr_right' (same truth)) }

theorem Narrows.decode_eq (narrows : before.Narrows after condition) :
    after.decode = before.decode := by
  funext truth slot
  rw [decode, decode, narrows.tables]

theorem Narrows.refl (model : Model Int) : model.Narrows model fun _ => True where
  declared := rfl
  tables := rfl
  atoms := rfl
  truth := rfl
  clauses_below := id
  admits _ := by rw [and_true]

theorem narrows_of_mem {clauses : Array Clause} (added : List Clause)
    (mem : ∀ clause, clause ∈ clauses ↔ clause ∈ model.clauses ∨ clause ∈ added)
    (below : ∀ clause ∈ added, Clause.Below model.atoms clause) :
    model.Narrows { model with clauses := clauses }
      fun truth => ∀ clause ∈ added, Clause.satisfied truth clause = true where
  declared := rfl
  tables := rfl
  atoms := rfl
  truth := rfl
  clauses_below bounded clause member :=
    ((mem clause).mp member).elim (bounded clause) (below clause)
  admits truth := by simp only [Admits, mem, or_imp, forall_and, and_assoc]

theorem run_addClauses (model : Model Int) (clauses : List Clause)
    (below : ∀ clause ∈ clauses, Clause.Below model.atoms clause) :
    ∃ after, (addClauses clauses).run model = .ok () after ∧ model.Narrows after
      fun truth => ∀ clause ∈ clauses, Clause.satisfied truth clause = true := by
  refine ⟨_, rfl, narrows_of_mem clauses (fun clause => ?_) below⟩
  rw [← Array.mem_toList_iff, Array.toList_appendList, List.mem_append, Array.mem_toList_iff]

theorem run_addClause (model : Model Int) (clause : Clause) (below : clause.Below model.atoms) :
    ∃ after, (addClause clause).run model = .ok () after ∧
      model.Narrows after fun truth => clause.satisfied truth = true := by
  refine ⟨_, rfl, (narrows_of_mem [clause] (fun other => ?_) ?_).congr fun truth => ?_⟩
  · rw [Array.mem_push, List.mem_singleton]
  · rwa [List.forall_mem_singleton]
  · rw [List.forall_mem_singleton]

/-- An empty clause is never satisfied, so stating it admits nothing any more. -/
theorem run_emit (model : Model Int) (clause : Clause) (below : clause.Below model.atoms) :
    ∃ after, (emit clause).run model = .ok () after ∧
      model.Narrows after fun truth => clause.satisfied truth = true := by
  cases clause with
  | nil =>
    refine ⟨_, rfl, rfl, rfl, rfl, rfl, id, fun truth => ?_⟩
    simp [Admits]
  | cons literal rest => exact run_addClause model _ below

theorem run_emitAll (model : Model Int) (clauses : List Clause)
    (below : ∀ clause ∈ clauses, Clause.Below model.atoms clause) :
    ∃ after, (emitAll clauses).run model = .ok () after ∧ model.Narrows after
      fun truth => ∀ clause ∈ clauses, Clause.satisfied truth clause = true := by
  induction clauses generalizing model with
  | nil => exact ⟨model, rfl, (Narrows.refl model).congr fun truth => by simp⟩
  | cons clause rest inductionHypothesis =>
    obtain ⟨here, there⟩ := List.forall_mem_cons.mp below
    obtain ⟨middle, ran, narrows⟩ := run_emit model clause here
    rw [← narrows.atoms] at there
    obtain ⟨after, ran', narrows'⟩ := inductionHypothesis middle there
    refine ⟨after, ?_, (narrows.trans narrows').congr fun truth => ?_⟩
    · rw [emitAll, run_bind_ok ran, ran']
    · rw [List.forall_mem_cons]

end

/-! ### Adding variables -/

/-- A step says no more and no less than a condition about the values that were there: a truth
assignment that meets it extends in some way to the propositional variables that the step adds. -/
structure Conserves (before after : Model Int) (condition : (Nat → Bool) → Prop) : Prop where
  coherent : after.Coherent
  declared : after.declared = before.declared
  tables : after.tables = before.tables
  atoms_le : before.atoms ≤ after.atoms
  sound : ∀ truth, after.Admits truth → before.Admits truth ∧ condition truth
  complete : ∀ truth, before.Admits truth → condition truth →
    ∃ extended, SameUpTo before.atoms extended truth ∧ after.Admits extended

/-- Such a step refines a model if the propositional variables that it adds are determined. -/
structure Refines (before after : Model Int) (condition : (Nat → Bool) → Prop) : Prop
    extends before.Conserves after condition where
  unique : ∀ first second, after.Admits first → after.Admits second →
    SameUpTo before.atoms first second → SameUpTo after.atoms first second

section

variable {before middle after model : Model Int} {condition condition' : (Nat → Bool) → Prop}

theorem Conserves.decode_eq (conserves : before.Conserves after condition) :
    after.decode = before.decode := by
  funext truth slot
  rw [decode, decode, conserves.tables]

theorem Conserves.congr (conserves : before.Conserves after condition)
    (same : ∀ truth, before.Admits truth → (condition truth ↔ condition' truth)) :
    before.Conserves after condition' :=
  { conserves with
    sound := fun truth admitted =>
      have held := conserves.sound truth admitted
      ⟨held.1, (same truth held.1).mp held.2⟩
    complete := fun truth admitted held =>
      conserves.complete truth admitted ((same truth admitted).mpr held) }

theorem Refines.congr (refines : before.Refines after condition)
    (same : ∀ truth, before.Admits truth → (condition truth ↔ condition' truth)) :
    before.Refines after condition' :=
  { refines.toConserves.congr same with unique := refines.unique }

/-- Two steps in a row say what both say if the condition of the second is about the variables that
were there before the first. -/
theorem Conserves.trans (first : before.Conserves middle condition)
    (second : middle.Conserves after condition')
    (stable : ∀ truth extended, SameUpTo before.atoms extended truth →
      condition' truth → condition' extended) :
    before.Conserves after fun truth => condition truth ∧ condition' truth where
  coherent := second.coherent
  declared := second.declared.trans first.declared
  tables := second.tables.trans first.tables
  atoms_le := Nat.le_trans first.atoms_le second.atoms_le
  sound truth admitted := by
    obtain ⟨admitted, held'⟩ := second.sound truth admitted
    obtain ⟨admitted, held⟩ := first.sound truth admitted
    exact ⟨admitted, held, held'⟩
  complete truth admitted held := by
    obtain ⟨extended, same, admitted⟩ := first.complete truth admitted held.1
    obtain ⟨extended', same', admitted⟩ :=
      second.complete extended admitted (stable truth extended same held.2)
    exact ⟨extended', (same'.mono first.atoms_le).trans same, admitted⟩

theorem Refines.trans (first : before.Refines middle condition)
    (second : middle.Refines after condition')
    (stable : ∀ truth extended, SameUpTo before.atoms extended truth →
      condition' truth → condition' extended) :
    before.Refines after fun truth => condition truth ∧ condition' truth :=
  { first.toConserves.trans second.toConserves stable with
    unique := fun left right admitted admitted' same =>
      second.unique left right admitted admitted' (first.unique left right
        (second.sound left admitted).1 (second.sound right admitted').1 same) }

/-- A step that states nothing may come before any other. -/
theorem Conserves.prepend (first : before.Conserves middle fun _ => True)
    (second : middle.Conserves after condition)
    (stable : ∀ truth extended, SameUpTo before.atoms extended truth →
      condition truth → condition extended) : before.Conserves after condition :=
  (first.trans second stable).congr fun _ _ => by rw [true_and]

theorem Refines.prepend (first : before.Refines middle fun _ => True)
    (second : middle.Refines after condition)
    (stable : ∀ truth extended, SameUpTo before.atoms extended truth →
      condition truth → condition extended) : before.Refines after condition :=
  (first.trans second stable).congr fun _ _ => by rw [true_and]

theorem Coherent.narrows (coherent : before.Coherent) (narrows : before.Narrows after condition) :
    after.Coherent where
  covered := by rw [narrows.tables, narrows.declared, coherent.covered]
  covers := by rw [narrows.tables, narrows.declared]; exact coherent.covers
  tables_below := by rw [narrows.tables, narrows.atoms]; exact coherent.tables_below
  clauses_below := by rw [narrows.atoms]; exact narrows.clauses_below coherent.clauses_below
  encodes truth admitted := by
    rw [narrows.tables]
    exact coherent.encodes truth ((narrows.admits truth).mp admitted).1
  pinned atom found := by
    rw [narrows.truth] at found
    obtain ⟨positive, inside, holding⟩ := coherent.pinned atom found
    exact ⟨positive, narrows.atoms ▸ inside,
      fun truth admitted => holding truth ((narrows.admits truth).mp admitted).1⟩

/-- Adding clauses adds no variables. -/
theorem Narrows.refines (narrows : before.Narrows after condition) (coherent : before.Coherent) :
    before.Refines after condition where
  coherent := coherent.narrows narrows
  declared := narrows.declared
  tables := narrows.tables
  atoms_le := Nat.le_of_eq narrows.atoms.symm
  sound truth := (narrows.admits truth).mp
  complete truth admitted held :=
    ⟨truth, .refl _ truth, (narrows.admits truth).mpr ⟨admitted, held⟩⟩
  unique _ _ _ _ same := narrows.atoms ▸ same

theorem Refines.refl (coherent : model.Coherent) : model.Refines model fun _ => True :=
  (Narrows.refl model).refines coherent

/-! ### Definitions -/

/-- A literal stands for a truth value that depends on the values of the variables. -/
structure Names (model : Model Int) (literal : Literal) (value : (Nat → Int) → Bool) : Prop where
  below : literal.Below model.atoms
  satisfied_eq : ∀ truth, model.Admits truth → literal.satisfied truth = value (model.decode truth)

theorem Names.refines {literal : Literal} {value : (Nat → Int) → Bool}
    (names : before.Names literal value) (refines : before.Refines after condition) :
    after.Names literal value where
  below := names.below.mono refines.atoms_le
  satisfied_eq truth admitted := by
    rw [refines.decode_eq, names.satisfied_eq truth (refines.sound truth admitted).1]

/-- A model with one more propositional variable. -/
def allocated (model : Model Int) : Model Int := { model with atoms := model.atoms + 1 }

theorem run_allocate (model : Model Int) :
    (allocate : Build Int Nat).run model = .ok (model.atoms + 1) model.allocated := rfl

theorem Coherent.allocated (coherent : model.Coherent) : model.allocated.Coherent where
  covered := coherent.covered
  covers := coherent.covers
  tables_below table member atom among :=
    have place := coherent.tables_below table member atom among
    ⟨place.1, Nat.le_succ_of_le place.2⟩
  clauses_below clause member := (coherent.clauses_below clause member).mono (Nat.le_succ _)
  encodes := coherent.encodes
  pinned atom found :=
    have ⟨positive, inside, holding⟩ := coherent.pinned atom found
    ⟨positive, Nat.le_succ_of_le inside, holding⟩

theorem Coherent.conserves_allocated (coherent : model.Coherent) :
    model.Conserves model.allocated fun _ => True where
  coherent := coherent.allocated
  declared := rfl
  tables := rfl
  atoms_le := Nat.le_succ _
  sound _ admitted := ⟨admitted, trivial⟩
  complete truth admitted _ := ⟨truth, .refl _ truth, admitted⟩

theorem sameUpTo_update (bound : Nat) (truth : Nat → Bool) (value : Bool) :
    SameUpTo bound (Function.update truth (bound + 1) value) truth :=
  fun _ _ inside => Function.update_of_ne (Nat.ne_of_lt (Nat.lt_succ_of_le inside)) _ _

/-- A variable that is allocated first and defined last is determined, whatever is refined in
between. -/
theorem Refines.define (value : (Nat → Int) → Bool) (coherent : model.Coherent)
    (refines : model.allocated.Refines middle fun _ => True)
    (narrows : middle.Narrows after condition)
    (defines : ∀ truth, middle.Admits truth →
      (condition truth ↔ truth (model.atoms + 1) = value (model.decode truth))) :
    (model.Refines after fun _ => True) ∧ after.Names (.holds (model.atoms + 1)) value := by
  have defined : ∀ truth, after.Admits truth →
      middle.Admits truth ∧ truth (model.atoms + 1) = value (model.decode truth) := by
    intro truth admitted
    obtain ⟨admitted, held⟩ := (narrows.admits truth).mp admitted
    exact ⟨admitted, (defines truth admitted).mp held⟩
  refine ⟨⟨⟨refines.coherent.narrows narrows, narrows.declared.trans refines.declared,
    narrows.tables.trans refines.tables, ?_, fun truth admitted => ?_, fun truth admitted _ => ?_⟩,
    fun first second admitted admitted' same => ?_⟩, ⟨Nat.succ_pos _, ?_⟩, fun truth admitted => ?_⟩
  · rw [narrows.atoms]
    exact Nat.le_of_succ_le refines.atoms_le
  · exact ⟨(refines.sound truth (defined truth admitted).1).1, trivial⟩
  -- The name gets its value first, and the steps in between extend an assignment that has it.
  · have same := sameUpTo_update model.atoms truth (value (model.decode truth))
    obtain ⟨extended, same', admitted'⟩ :=
      refines.complete _ ((coherent.admits_congr same).mpr admitted) trivial
    have same'' := (same'.mono (Nat.le_succ _)).trans same
    refine ⟨extended, same'', (narrows.admits _).mpr ⟨admitted', (defines _ admitted').mpr ?_⟩⟩
    rw [same' _ (Nat.succ_pos _) (Nat.le_refl _), Function.update_self,
      coherent.decode_congr same'']
  · obtain ⟨admitted, named⟩ := defined first admitted
    obtain ⟨admitted', named'⟩ := defined second admitted'
    rw [narrows.atoms]
    refine refines.unique first second admitted admitted' fun atom positive inside => ?_
    rcases Nat.le_succ_iff.mp inside with old | rfl
    · exact same atom positive old
    · rw [named, named', coherent.decode_congr same]
  · rw [narrows.atoms]
    exact refines.atoms_le
  · rw [Literal.satisfied_holds, (defined truth admitted).2, narrows.decode_eq, refines.decode_eq]
    rfl

end

end Model

end HorizonPlanner.Cnf
