/-
This file proves what every compiled model keeps, however it was built and
whichever of its constraints were refused half way.  The propositional variables
up to the number of those taken are used once each: for a value of a variable,
for truth, or for an auxiliary of a ladder or a name.  The clauses are nonempty
and over these numbers.  A further call only adds to the clauses and the numbers,
and leaves the propositional variable of each value as it is.
-/

import HorizonPlanner.Proofs.Allocation

namespace HorizonPlanner.Cnf

variable {α : Type}

/-! ### Calls -/

/-- A call on a model.  Solving a model reports on it and leaves it as it is. -/
inductive Use (α : Type) where
  | declare (entry : Variable α)
  | post (constraint : Constraint α)
  | solve

variable [Symbol α]

/-- A call that declares no value which cannot be a key. -/
def Use.Hashable : Use α → Prop
  | .declare entry => ∀ value ∈ entry.values, Symbol.unhashable? value = none
  | .post _ | .solve => True

instance (use : Use α) : Decidable use.Hashable :=
  match use with
  | .declare entry =>
    inferInstanceAs (Decidable (∀ value ∈ entry.values, Symbol.unhashable? value = none))
  | .post _ => inferInstanceAs (Decidable True)
  | .solve => inferInstanceAs (Decidable True)

namespace Model

/-- A model after one more call. -/
def after (model : Model α) : Use α → Model α
  | .declare entry => endOf ((declare entry).run model)
  | .post constraint => endOf ((Cnf.post constraint).run model)
  | .solve => model

/-- A model after some more calls. -/
def afterAll (model : Model α) (uses : List (Use α)) : Model α := uses.foldl after model

/-- The model in which a variable was entered, but has no table yet. -/
def entered (model : Model α) (entry : Variable α) : Model α :=
  { model with declared := model.declared.push entry }

/-- The auxiliary variables that a call takes: the rungs of a ladder above a table, or the names
that a constraint takes. -/
def auxiliaries (model : Model α) : Use α → List Nat
  | .declare entry =>
    onward ((allocateTable [] entry.values).run (model.entered entry)) fun table filled =>
      List.range' (filled.atoms + 1) (rungCount table.length)
  | .post constraint => compileNames { model with posted := model.posted + 1 } [] constraint
  | .solve => []

/-- The auxiliary variables that some calls take. -/
def auxiliariesOfAll (model : Model α) : List (Use α) → List Nat
  | [] => []
  | use :: rest => model.auxiliaries use ++ (model.after use).auxiliariesOfAll rest

/-! ### What a model keeps -/

/-- The propositional variables that stand for values, table by table. -/
def valueAtoms (model : Model α) : List Nat :=
  model.tables.toList.flatMap fun table => table.map Prod.snd

/-- What holds of a model with given auxiliary variables: each variable has a table of its distinct
values; the propositional variables of values, the one for truth and the auxiliary ones are
together the numbers from one to the number of those taken, each once; every clause is nonempty
and over them; and a variable for truth is stated to be true. -/
structure Numbered (model : Model α) (auxiliaries : List Nat) : Prop where
  tabulated : List.Forall₂ (fun table entry => LiteralTable.Tabulates table entry.values)
    model.tables.toList model.declared.toList
  numbers : (model.valueAtoms ++ model.truth.toList ++ auxiliaries).Perm
    (List.range' 1 model.atoms)
  clauses : ∀ clause ∈ model.clauses.toList, clause ≠ [] ∧ clause.Below model.atoms
  pinned : ∀ atom, model.truth = some atom → [Literal.holds atom] ∈ model.clauses.toList

/-- What a call does to a model at most. -/
structure Grows (before after : Model α) : Prop where
  atoms_le : before.atoms ≤ after.atoms
  clauses : before.clauses.toList <+: after.clauses.toList
  literal : ∀ slot value atom,
    before.literal slot value = .ok atom → after.literal slot value = .ok atom

section

variable {model before after : Model α} {others names : List Nat}

theorem numbered_empty : (empty : Model α).Numbered [] where
  tabulated := .nil
  numbers := .nil
  clauses _ member := absurd member List.not_mem_nil
  pinned _ impossible := nomatch impossible

theorem Numbered.mem_numbers_iff (numbered : model.Numbered others) {atom : Nat} :
    atom ∈ model.valueAtoms ++ model.truth.toList ++ others ↔
      0 < atom ∧ atom ≤ model.atoms := by
  rw [numbered.numbers.mem_iff, List.mem_range'_1]
  omega

theorem Numbered.bounded (numbered : model.Numbered others) : model.Bounded where
  tables table member entry among := by
    refine numbered.mem_numbers_iff.mp (List.mem_append_left _ (List.mem_append_left _ ?_))
    exact List.mem_flatMap.mpr ⟨table, Array.mem_toList_iff.mpr member, List.mem_map_of_mem among⟩
  truth atom found :=
    numbered.mem_numbers_iff.mp
      (List.mem_append_left _ (List.mem_append_right _ (Option.mem_toList.mpr found)))

theorem Grows.refl (model : Model α) : model.Grows model :=
  ⟨Nat.le_refl _, List.prefix_rfl, fun _ _ _ found => found⟩

theorem Grows.trans {middle : Model α} (first : before.Grows middle)
    (second : middle.Grows after) : before.Grows after where
  atoms_le := Nat.le_trans first.atoms_le second.atoms_le
  clauses := first.clauses.trans second.clauses
  literal slot value atom found :=
    second.literal slot value atom (first.literal slot value atom found)

/-- The literal of a value is found in the table of its slot. -/
theorem literal_congr {slot : Nat} (same : before.tables[slot]? = after.tables[slot]?) (value : α) :
    before.literal slot value = after.literal slot value := by
  rw [literal, literal, same]

/-! ### Posting a constraint -/

/-- What compiling a constraint adds leaves a model numbered, with its names as new auxiliaries. -/
theorem Adds.numbered (adds : before.Adds after names) (numbered : before.Numbered others) :
    after.Numbered (others ++ names) where
  tabulated := by
    rw [adds.tables, adds.declared]
    exact numbered.tabulated
  numbers := by
    have order := adds.atoms_le
    have split : List.range' 1 after.atoms = List.range' 1 before.atoms ++ before.taken after := by
      rw [taken, Nat.add_comm before.atoms, List.range'_append_1, Nat.add_sub_cancel' order]
    have values : after.valueAtoms = before.valueAtoms := by
      rw [valueAtoms, valueAtoms, adds.tables]
    rw [split, values]
    refine List.perm_iff_count.mpr fun atom => ?_
    have old := List.perm_iff_count.mp numbered.numbers atom
    have new := List.perm_iff_count.mp adds.numbers atom
    simp only [List.count_append] at old new ⊢
    omega
  clauses := by
    obtain ⟨added, same, proper⟩ := adds.clauses
    rw [same, List.forall_mem_append]
    refine ⟨fun clause member => ?_, proper⟩
    have here := numbered.clauses clause member
    exact ⟨here.1, here.2.mono adds.atoms_le⟩
  pinned atom found := by
    rcases adds.pinned atom found with earlier | here
    · exact adds.clauses_prefix.subset (numbered.pinned atom earlier)
    · exact Array.mem_toList_iff.mpr here

theorem Adds.grows (adds : before.Adds after names) : before.Grows after where
  atoms_le := adds.atoms_le
  clauses := adds.clauses_prefix
  literal slot value atom found := by
    rwa [← literal_congr (congrArg (·[slot]?) adds.tables.symm)]

/-- Whether a constraint is posted or refused half way, the model it leaves is one that was added
to. -/
theorem adds_post (bounded : model.Bounded) (constraint : Constraint α) :
    Adds { model with posted := model.posted + 1 } (model.after (.post constraint))
      (model.auxiliaries (.post constraint)) := by
  let counted := { model with posted := model.posted + 1 }
  have bounded' : counted.Bounded := { bounded with }
  exact (ends_compile constraint bounded' fun _ member => absurd member List.not_mem_nil).adds

/-! ### Declaring a variable -/

/-- A model in which a variable was entered with its table. -/
def tabled (model : Model α) (entry : Variable α) (table : LiteralTable α) : Model α :=
  { model.entered entry with
    atoms := model.atoms + table.length
    tables := model.tables.push table }

section

variable {entry : Variable α} {table : LiteralTable α}

theorem Numbered.tabled (numbered : model.Numbered others)
    (tabulates : table.Tabulates entry.values)
    (numbers : table.map Prod.snd = List.range' (model.atoms + 1) table.length) :
    (model.tabled entry table).Numbered others where
  tabulated := by
    show List.Forall₂ _ (model.tables.push table).toList (model.declared.push entry).toList
    rw [Array.toList_push, Array.toList_push]
    exact List.rel_append numbered.tabulated (.cons tabulates .nil)
  numbers := by
    have values : (model.tabled entry table).valueAtoms =
        model.valueAtoms ++ List.range' (model.atoms + 1) table.length := by
      show (model.tables.push table).toList.flatMap _ = _
      rw [Array.toList_push, List.flatMap_append, List.flatMap_singleton, numbers]
      rfl
    have split : List.range' 1 (model.tabled entry table).atoms =
        List.range' 1 model.atoms ++ List.range' (model.atoms + 1) table.length := by
      rw [Nat.add_comm model.atoms 1, List.range'_append_1]
      rfl
    rw [values, split]
    refine List.perm_iff_count.mpr fun atom => ?_
    have old := List.perm_iff_count.mp numbered.numbers atom
    show List.count atom (_ ++ model.truth.toList ++ others) = _
    simp only [List.count_append] at old ⊢
    omega
  clauses clause member :=
    have here := numbered.clauses clause member
    ⟨here.1, here.2.mono (Nat.le_add_right _ _)⟩
  pinned := numbered.pinned

theorem grows_tabled (model : Model α) (entry : Variable α) (table : LiteralTable α) :
    model.Grows (model.tabled entry table) where
  atoms_le := Nat.le_add_right _ _
  clauses := List.prefix_rfl
  literal slot value atom found := by
    rw [literal] at found
    by_cases inside : slot < model.tables.size
    · have kept : model.tables[slot]? = (model.tabled entry table).tables[slot]? := by
        show _ = (model.tables.push table)[slot]?
        rw [Array.getElem?_push, if_neg (Nat.ne_of_lt inside)]
      rwa [← literal_congr kept]
    · rw [Array.getElem?_eq_none (Nat.le_of_not_lt inside)] at found
      cases found

omit [Symbol α] in
theorem onward_emit (clause : Clause) (count : Nat) :
    (onward ((emit clause : Build α Unit).run model) fun _ stated =>
      List.range' (stated.atoms + 1) count) = List.range' (model.atoms + 1) count := by
  cases clause <;> rfl

/-- Declaring a variable fills its table and adds the ladder above it. -/
theorem adds_declare [ReflexiveSymbol α] (model : Model α)
    (hashable : ∀ value ∈ entry.values, Symbol.unhashable? value = none) :
    ∃ table, LiteralTable.Tabulates table entry.values ∧
      table.map Prod.snd = List.range' (model.atoms + 1) table.length ∧
      (model.tabled entry table).Adds (model.after (.declare entry))
        (model.auxiliaries (.declare entry)) := by
  obtain ⟨table, ran, numbers, tabulates⟩ :=
    exists_extension entry.values (model.entered entry) LiteralTable.tabulates_nil hashable
  rw [List.nil_append] at ran tabulates
  refine ⟨table, tabulates, numbers, ?_⟩
  let start := model.tabled entry table
  have inside : ∀ atom ∈ table.map Prod.snd, 0 < atom ∧ atom ≤ start.atoms := by
    rw [numbers]
    intro atom member
    have place : model.atoms + 1 ≤ atom ∧ atom < model.atoms + 1 + table.length :=
      List.mem_range'_1.mp member
    show 0 < atom ∧ atom ≤ model.atoms + table.length
    omega
  have below : Clause.Below start.atoms ((table.map Prod.snd).map .holds) :=
    List.forall_mem_map.mpr inside
  have ends := (ends_emit below).bind fun _ stated adds _ =>
    ends_excludeAll fun atom member =>
      have place := inside atom member
      ⟨place.1, Nat.le_trans place.2 adds.atoms_le⟩
  rw [List.nil_append, onward_emit, List.length_map] at ends
  have names : model.auxiliaries (.declare entry) =
      List.range' (start.atoms + 1) (rungCount table.length) := by
    rw [auxiliaries, ran]
    rfl
  have ran' : (declare entry).run model =
      (emit ((table.map Prod.snd).map .holds) >>= fun _ => excludeAll (table.map Prod.snd) :
        Build α Unit).run start := by
    rw [declare, EStateM.run_bind, EStateM.run_modify]
    show ((allocateTable [] entry.values) >>= _ : Build α Unit).run (model.entered entry) = _
    rw [EStateM.run_bind, ran]
    rfl
  rw [names, after, ran']
  exact ends.adds

end

/-! ### Any sequence of calls -/

/-- A call keeps a model numbered, with the auxiliary variables that it takes, and only adds to
it. -/
theorem Numbered.use [ReflexiveSymbol α] (numbered : model.Numbered others) {call : Use α}
    (hashable : call.Hashable) :
    (model.after call).Numbered (others ++ model.auxiliaries call) ∧
      model.Grows (model.after call) := by
  cases call with
  | declare entry =>
    obtain ⟨table, tabulates, numbers, adds⟩ := adds_declare model hashable
    exact ⟨adds.numbered (numbered.tabled tabulates numbers),
      (grows_tabled model entry table).trans adds.grows⟩
  | post constraint =>
    have adds := adds_post numbered.bounded constraint
    have counted : Numbered { model with posted := model.posted + 1 } others := { numbered with }
    exact ⟨adds.numbered counted, { adds.grows with }⟩
  | solve => exact ⟨by rwa [auxiliaries, List.append_nil], .refl model⟩

theorem Numbered.useAll [ReflexiveSymbol α] {uses : List (Use α)}
    (numbered : model.Numbered others) (hashable : ∀ use ∈ uses, use.Hashable) :
    (model.afterAll uses).Numbered (others ++ model.auxiliariesOfAll uses) := by
  induction uses generalizing model others with
  | nil => rwa [auxiliariesOfAll, List.append_nil]
  | cons use rest inductionHypothesis =>
    obtain ⟨here, there⟩ := List.forall_mem_cons.mp hashable
    rw [auxiliariesOfAll, ← List.append_assoc]
    exact inductionHypothesis (numbered.use here).1 there

end

/-- Whatever calls built a model, even if constraints were refused half way: the propositional
variables of values, the one for truth and those of ladders and names are the numbers from one on,
each used once; its clauses are nonempty and over these numbers; and one more call only adds to the
model. -/
theorem numbered_afterAll [ReflexiveSymbol α] (uses : List (Use α))
    (hashable : ∀ use ∈ uses, use.Hashable) :
    ((empty : Model α).afterAll uses).Numbered ((empty : Model α).auxiliariesOfAll uses) ∧
      ∀ next : Use α, next.Hashable →
        ((empty : Model α).afterAll uses).Grows (((empty : Model α).afterAll uses).after next) := by
  have numbered := numbered_empty.useAll hashable
  rw [List.nil_append] at numbered
  exact ⟨numbered, fun next hashable => (numbered.use hashable).2⟩

/-- A ladder over values of which two are the same, a constraint that is refused when truth was
asked for and parts of its condition were named, and an empty domain. -/
def refusedUses : List (Use Value) :=
  [.declare ⟨"x", [.integer 4, .boolean true, .integer 1, .integer 2, .integer 3, .integer 5]⟩,
    .declare ⟨"y", [.integer 2, .none]⟩,
    .post (.implies (.all [.equals 0 (.integer 9), .agree 0 1, .unsupported (.integer 7)])
      (.equals 1 (.integer 2))),
    .solve, .declare ⟨"z", []⟩]

theorem numbered_afterAll_refusedUses :
    ((empty : Model Value).afterAll refusedUses).atoms = 15 ∧
      ((empty : Model Value).afterAll refusedUses).truth = some 13 ∧
      ((empty : Model Value).afterAll refusedUses).Numbered [6, 7, 8, 9, 12, 14, 15] ∧
      ((empty : Model Value).afterAll refusedUses).Grows
        (((empty : Model Value).afterAll refusedUses).after (.post (.equals 2 .none))) := by
  have hashable : ∀ use ∈ refusedUses, use.Hashable := by decide
  obtain ⟨numbered, grows⟩ := numbered_afterAll refusedUses hashable
  exact ⟨rfl, rfl, numbered, grows (.post (.equals 2 .none)) trivial⟩

end Model

end HorizonPlanner.Cnf
