/-
This file says what is left of a declaration that is refused.  A variable is
entered first and its values after it, one by one, up to the first that cannot
be a key.  So the variable stays, without a table, and the propositional
variables of the values before stay taken; tables, clauses and the rest are as
they were.

From then on tables stand in earlier slots than their variables.  Those of the
variables that were accepted follow each other without a gap, and the last slots,
as many as variables were refused, have none.
-/

import Mathlib.Data.List.Forall2
import HorizonPlanner.Proofs.Numbering

namespace HorizonPlanner.Cnf

variable {α : Type} [Symbol α]

/-! ### A single refusal -/

/-- A list of values is entered as far as it goes, and then what follows it. -/
theorem allocateTable_append (table : LiteralTable α) (values rest : List α) :
    allocateTable table (values ++ rest) =
      allocateTable table values >>= fun filled => allocateTable filled rest := by
  induction values generalizing table with
  | nil => rfl
  | cons value others inductionHypothesis =>
    rw [List.cons_append, allocateTable, allocateTable]
    split
    next => rfl
    next => exact inductionHypothesis table
    next =>
      rw [bind_assoc]
      exact bind_congr fun atom => inductionHypothesis (table ++ [(value, atom)])

/-- A list with a value that cannot be a key has a first one. -/
theorem exists_first_unhashable {values : List α}
    (refused : ¬ ∀ value ∈ values, Symbol.unhashable? value = none) :
    ∃ before value rest obstacle, values = before ++ value :: rest ∧
      (∀ early ∈ before, Symbol.unhashable? early = none) ∧
      Symbol.unhashable? value = some obstacle := by
  induction values with
  | nil => exact absurd (fun _ member => absurd member List.not_mem_nil) refused
  | cons value others inductionHypothesis =>
    cases here : Symbol.unhashable? value with
    | some obstacle =>
      exact ⟨[], value, others, obstacle, rfl, fun _ member => absurd member List.not_mem_nil, here⟩
    | none =>
      obtain ⟨before, later, rest, obstacle, same, hashable, found⟩ :=
        inductionHypothesis fun all => refused (List.forall_mem_cons.mpr ⟨here, all⟩)
      exact ⟨value :: before, later, rest, obstacle, by rw [same, List.cons_append],
        List.forall_mem_cons.mpr ⟨here, hashable⟩, found⟩

namespace Model

/-- A refused declaration leaves the variable entered and the propositional variables taken for the
distinct values before the one that is refused.  Tables, clauses, truth, contradiction and the
count of constraints stay as they were. -/
theorem run_declare_refused [ReflexiveSymbol α] (model : Model α) (entry : Variable α)
    {before rest : List α} {value : α} {obstacle : Obstacle}
    (stated : entry.values = before ++ value :: rest)
    (hashable : ∀ early ∈ before, Symbol.unhashable? early = none)
    (refused : Symbol.unhashable? value = some obstacle) :
    ∃ table : LiteralTable α, table.Tabulates before ∧
      (declare entry).run model = .error (.obstructed obstacle)
        { model.entered entry with atoms := model.atoms + table.length } := by
  obtain ⟨table, ran, _, tabulates⟩ :=
    exists_extension before (model.entered entry) LiteralTable.tabulates_nil hashable
  rw [List.nil_append] at ran tabulates
  refine ⟨table, tabulates, ?_⟩
  have stops : allocateTable table (value :: rest) = throw (.obstructed obstacle) := by
    rw [allocateTable, refused]
  rw [declare, stated, allocateTable_append, EStateM.run_bind, EStateM.run_modify]
  show (((allocateTable [] before >>= _) >>= _ : Build α Unit).run (model.entered entry)) = _
  rw [bind_assoc, EStateM.run_bind, ran]
  show ((allocateTable table (value :: rest) >>= _ : Build α Unit).run _) = _
  rw [stops]
  rfl

end Model

/-! ### What is entered and what is accepted -/

/-- The variable that a call is to declare. -/
def Use.entry? : Use α → Option (Variable α)
  | .declare entry => some entry
  | .post _ | .solve => none

/-- The variables that some calls are to declare. -/
def entriesOf (uses : List (Use α)) : List (Variable α) := uses.filterMap Use.entry?

/-- Those of them that are not refused. -/
def acceptedOf (uses : List (Use α)) : List (Variable α) :=
  entriesOf (uses.filter fun use => use.Hashable)

omit [Symbol α] in
theorem entriesOf_append (uses further : List (Use α)) :
    entriesOf (uses ++ further) = entriesOf uses ++ entriesOf further :=
  List.filterMap_append

theorem acceptedOf_append (uses further : List (Use α)) :
    acceptedOf (uses ++ further) = acceptedOf uses ++ acceptedOf further := by
  rw [acceptedOf, List.filter_append, entriesOf_append]
  rfl

theorem acceptedOf_cons_accepted {entry : Variable α} (hashable : (Use.declare entry).Hashable)
    (further : List (Use α)) :
    acceptedOf (.declare entry :: further) = entry :: acceptedOf further := by
  rw [acceptedOf, List.filter_cons_of_pos (by rwa [decide_eq_true_eq])]
  rfl

theorem acceptedOf_cons_refused {entry : Variable α} (refused : ¬ (Use.declare entry).Hashable)
    (further : List (Use α)) : acceptedOf (.declare entry :: further) = acceptedOf further := by
  rw [acceptedOf, List.filter_cons_of_neg (by rwa [decide_eq_true_eq])]
  rfl

theorem acceptedOf_of_hashable {uses : List (Use α)} (hashable : ∀ use ∈ uses, use.Hashable) :
    acceptedOf uses = entriesOf uses := by
  rw [acceptedOf, List.filter_eq_self.mpr fun use member => decide_eq_true (hashable use member)]

theorem length_acceptedOf_le (uses : List (Use α)) :
    (acceptedOf uses).length ≤ (entriesOf uses).length :=
  (List.filter_sublist.filterMap Use.entry?).length_le

/-- As many variables are accepted as are declared exactly if no call is refused: a call that is
refused declares a variable. -/
theorem length_acceptedOf_eq_iff (uses : List (Use α)) :
    (acceptedOf uses).length = (entriesOf uses).length ↔ ∀ use ∈ uses, use.Hashable := by
  refine ⟨fun same use member => ?_, fun hashable => by rw [acceptedOf_of_hashable hashable]⟩
  obtain ⟨before, rest, rfl⟩ := List.append_of_mem member
  by_contra refused
  obtain ⟨entry, rfl⟩ : ∃ entry, use = .declare entry := by
    cases use with
    | declare entry => exact ⟨entry, rfl⟩
    | post constraint => exact absurd trivial refused
    | solve => exact absurd trivial refused
  have entered : entriesOf (.declare entry :: rest) = entry :: entriesOf rest := rfl
  rw [acceptedOf_append, entriesOf_append, acceptedOf_cons_refused refused, entered,
    List.length_append, List.length_append, List.length_cons] at same
  have here := length_acceptedOf_le before
  have there := length_acceptedOf_le rest
  omega

/-! ### Any sequence of calls -/

namespace Model

/-- What holds of a model with given variables, of which some were accepted: all of them are
entered, and the accepted ones have tables, one after another. -/
structure Records (model : Model α) (entries accepted : List (Variable α)) : Prop where
  entered : model.declared.toList = entries
  tabulated : List.Forall₂ (fun table entry => LiteralTable.Tabulates table entry.values)
    model.tables.toList accepted
  bounded : model.Bounded

section

variable {model : Model α} {entries accepted : List (Variable α)}

theorem records_empty : (empty : Model α).Records [] [] where
  entered := rfl
  tabulated := .nil
  bounded := numbered_empty.bounded

theorem Records.adds {after : Model α} {names : List Nat} (records : model.Records entries accepted)
    (adds : model.Adds after names) : after.Records entries accepted where
  entered := by rw [adds.declared, records.entered]
  tabulated := by
    rw [adds.tables]
    exact records.tabulated
  bounded := adds.bounded records.bounded

theorem Records.tabled (records : model.Records entries accepted) {entry : Variable α}
    {table : LiteralTable α} (tabulates : table.Tabulates entry.values)
    (numbers : table.map Prod.snd = List.range' (model.atoms + 1) table.length) :
    (model.tabled entry table).Records (entries ++ [entry]) (accepted ++ [entry]) where
  entered := by
    show (model.declared.push entry).toList = _
    rw [Array.toList_push, records.entered]
  tabulated := by
    show List.Forall₂ _ (model.tables.push table).toList _
    rw [Array.toList_push]
    exact List.rel_append records.tabulated (.cons tabulates .nil)
  bounded :=
    { tables := by
        intro other member pair among
        show 0 < pair.2 ∧ pair.2 ≤ model.atoms + table.length
        rcases Array.mem_push.mp member with member | rfl
        · have place := records.bounded.tables other member pair among
          omega
        · have place := List.mem_range'_1.mp (numbers ▸ List.mem_map_of_mem among)
          omega
      truth := fun atom found =>
        have place := records.bounded.truth atom found
        ⟨place.1, Nat.le_trans place.2 (Nat.le_add_right _ _)⟩ }

/-- A declaration that is accepted enters its variable with a table. -/
theorem Records.declare_accepted [ReflexiveSymbol α] (records : model.Records entries accepted)
    {entry : Variable α} (hashable : (Use.declare entry).Hashable) :
    (model.after (.declare entry)).Records (entries ++ [entry]) (accepted ++ [entry]) := by
  obtain ⟨table, tabulates, numbers, adds⟩ := adds_declare model hashable
  exact (records.tabled tabulates numbers).adds adds

/-- A declaration that is refused enters its variable without one. -/
theorem Records.declare_refused [ReflexiveSymbol α] (records : model.Records entries accepted)
    {entry : Variable α} (refused : ¬ (Use.declare entry).Hashable) :
    (model.after (.declare entry)).Records (entries ++ [entry]) accepted := by
  obtain ⟨before, value, rest, obstacle, stated, hashable, found⟩ := exists_first_unhashable refused
  obtain ⟨table, _, ran⟩ := model.run_declare_refused entry stated hashable found
  rw [after, ran]
  refine ⟨?_, records.tabulated, fun other member pair among => ?_, fun atom found => ?_⟩
  · show (model.declared.push entry).toList = _
    rw [Array.toList_push, records.entered]
  · have place := records.bounded.tables other member pair among
    exact ⟨place.1, Nat.le_trans place.2 (Nat.le_add_right _ _)⟩
  · have place := records.bounded.truth atom found
    exact ⟨place.1, Nat.le_trans place.2 (Nat.le_add_right _ _)⟩

theorem Records.use [ReflexiveSymbol α] (records : model.Records entries accepted) (use : Use α) :
    (model.after use).Records (entries ++ entriesOf [use]) (accepted ++ acceptedOf [use]) := by
  cases use with
  | declare entry =>
    by_cases hashable : (Use.declare entry).Hashable
    · rw [acceptedOf_cons_accepted hashable]
      exact records.declare_accepted hashable
    · rw [acceptedOf_cons_refused hashable]
      show Records _ _ (accepted ++ [])
      rw [List.append_nil]
      exact records.declare_refused hashable
  | post constraint =>
    have counted : Records { model with posted := model.posted + 1 } entries accepted :=
      ⟨records.entered, records.tabulated, { records.bounded with }⟩
    have nothing : acceptedOf [(.post constraint : Use α)] = [] :=
      acceptedOf_of_hashable (List.forall_mem_singleton.mpr trivial)
    rw [nothing, List.append_nil]
    show Records _ (entries ++ []) _
    rw [List.append_nil]
    exact counted.adds (adds_post records.bounded constraint)
  | solve =>
    have nothing : acceptedOf [(.solve : Use α)] = [] :=
      acceptedOf_of_hashable (List.forall_mem_singleton.mpr trivial)
    rw [nothing, List.append_nil]
    show Records _ (entries ++ []) _
    rwa [List.append_nil]

theorem Records.useAll [ReflexiveSymbol α] (records : model.Records entries accepted)
    (uses : List (Use α)) :
    (model.afterAll uses).Records (entries ++ entriesOf uses) (accepted ++ acceptedOf uses) := by
  induction uses generalizing model entries accepted with
  | nil =>
    show model.Records (entries ++ []) (accepted ++ [])
    rwa [List.append_nil, List.append_nil]
  | cons use rest inductionHypothesis =>
    have further := inductionHypothesis (records.use use)
    rwa [List.append_assoc, List.append_assoc, ← entriesOf_append, ← acceptedOf_append,
      List.singleton_append] at further

end

/-- Whatever calls built a model, refused declarations among them: each variable that was declared
is entered, and the tables are those of the variables that were accepted, in their order. -/
theorem records_afterAll [ReflexiveSymbol α] (uses : List (Use α)) :
    ((empty : Model α).afterAll uses).Records (entriesOf uses) (acceptedOf uses) := by
  have records := (records_empty : (empty : Model α).Records [] []).useAll uses
  rwa [List.nil_append, List.nil_append] at records

/-! ### Slots and tables -/

section

variable {model : Model α} {entries accepted : List (Variable α)}

theorem Records.exists_table (records : model.Records entries accepted) {slot : Nat}
    {entry : Variable α} (found : accepted[slot]? = some entry) :
    ∃ table, model.tables[slot]? = some table ∧ table.Tabulates entry.values := by
  obtain ⟨inside, rfl⟩ := List.getElem?_eq_some_iff.mp found
  have count := records.tabulated.length_eq
  have inside' : slot < model.tables.toList.length := by rwa [count]
  refine ⟨model.tables.toList[slot], ?_, records.tabulated.get inside' inside⟩
  rw [← Array.getElem?_toList, List.getElem?_eq_getElem inside']

theorem Records.table_eq_none (records : model.Records entries accepted) {slot : Nat}
    (past : accepted.length ≤ slot) : model.tables[slot]? = none := by
  rw [Array.getElem?_eq_none_iff, ← Array.length_toList, records.tabulated.length_eq]
  exact past

/-- Nothing can be posted on a slot without a table, which counts as posted all the same. -/
theorem run_post_equals_refused {slot : Nat} (missing : model.tables[slot]? = none) (value : α) :
    (post (.equals slot value)).run model =
      .error .listPosition { model with posted := model.posted + 1 } := by
  have stops : (tableAt slot : Build α (LiteralTable α)).run
      { model with posted := model.posted + 1 } =
        .error .listPosition { model with posted := model.posted + 1 } := by
    rw [tableAt, EStateM.run_bind, EStateM.run_get]
    simp only [missing]
    rfl
  rw [post, EStateM.run_bind, EStateM.run_modify]
  show ((compile [] (.equals slot value)).run { model with posted := model.posted + 1 }) = _
  rw [compile, EStateM.run_bind, atomAt, EStateM.run_bind, stops]

/-- A slot without a table is read as zero, whatever the clauses say. -/
theorem valueIn_of_missing {slot : Nat} (missing : model.tables[slot]? = none)
    (inside : slot < model.declared.size) (truth : Nat → Bool) :
    (model.valuesIn truth)[slot]? = some Symbol.zero := by
  have nothing : model.tables.getD slot [] = [] := by
    rw [Array.getD_eq_getD_getElem?, missing, Option.getD_none]
  rw [valuesIn, List.getElem?_map, List.getElem?_range inside, Option.map_some, nothing]
  rfl

end

/-- How slots and tables go together in a model that some calls built.  A variable that is accepted
has the slot after all variables declared before it, and its table stands after all tables of
variables accepted before it, which is the same slot exactly if none was refused before it.  Slots
past the tables have no literals, nothing can be posted on them, and they are read as zero. -/
structure Placed (model : Model α) (uses : List (Use α)) : Prop where
  accepted : ∀ early entry late, uses = early ++ .declare entry :: late →
    (Use.declare entry).Hashable →
      model.declared.toList[(entriesOf early).length]? = some entry ∧
        ∃ table, model.tables[(acceptedOf early).length]? = some table ∧
          table.Tabulates entry.values
  aligned : ∀ early late, uses = early ++ late →
    ((acceptedOf early).length = (entriesOf early).length ↔ ∀ use ∈ early, use.Hashable)
  past : ∀ slot, (acceptedOf uses).length ≤ slot → ∀ value,
    model.literal slot value = .error .listPosition ∧
      (post (.equals slot value)).run model =
        .error .listPosition { model with posted := model.posted + 1 }
  unread : ∀ slot, (acceptedOf uses).length ≤ slot → slot < (entriesOf uses).length →
    ∀ truth, (model.valuesIn truth)[slot]? = some Symbol.zero

theorem placed_afterAll [ReflexiveSymbol α] (uses : List (Use α)) :
    ((empty : Model α).afterAll uses).Placed uses := by
  have records := records_afterAll uses
  refine ⟨?_, fun early _ _ => length_acceptedOf_eq_iff early, fun slot past value => ?_,
    fun slot past inside truth => ?_⟩
  · rintro early entry late rfl hashable
    rw [entriesOf_append, acceptedOf_append, acceptedOf_cons_accepted hashable] at records
    have here : (acceptedOf early ++ entry :: acceptedOf late)[(acceptedOf early).length]? =
        some entry := by
      rw [List.getElem?_append_right (Nat.le_refl _), Nat.sub_self, List.getElem?_cons_zero]
    refine ⟨?_, records.exists_table here⟩
    rw [records.entered, List.getElem?_append_right (Nat.le_refl _), Nat.sub_self]
    rfl
  · have missing := records.table_eq_none past
    exact ⟨by rw [literal, missing], run_post_equals_refused missing value⟩
  · refine valueIn_of_missing (records.table_eq_none past) ?_ truth
    rwa [← Array.length_toList, records.entered]

/-- A declaration that is refused, whatever calls came before it, keeps tables, clauses, truth,
contradiction and the count of constraints as they were.  It leaves its variable entered, and the
propositional variables taken for the distinct values before the first that cannot be a key.
Whatever calls follow, there are fewer tables than variables from then on. -/
theorem refused_declaration [ReflexiveSymbol α] (early late : List (Use α)) {entry : Variable α}
    (refused : ¬ (Use.declare entry).Hashable) :
    (∃ before value rest obstacle, ∃ table : LiteralTable α,
      entry.values = before ++ value :: rest ∧
      (∀ other ∈ before, Symbol.unhashable? other = none) ∧
      Symbol.unhashable? value = some obstacle ∧ table.Tabulates before ∧
      (declare entry).run ((empty : Model α).afterAll early) = .error (.obstructed obstacle)
        { ((empty : Model α).afterAll early).entered entry with
          atoms := ((empty : Model α).afterAll early).atoms + table.length }) ∧
      ((empty : Model α).afterAll (early ++ .declare entry :: late)).Placed
        (early ++ .declare entry :: late) ∧
      (acceptedOf (early ++ .declare entry :: late)).length <
        (entriesOf (early ++ .declare entry :: late)).length := by
  refine ⟨?_, placed_afterAll _, ?_⟩
  · obtain ⟨before, value, rest, obstacle, stated, hashable, found⟩ :=
      exists_first_unhashable refused
    obtain ⟨table, tabulates, ran⟩ :=
      ((empty : Model α).afterAll early).run_declare_refused entry stated hashable found
    exact ⟨before, value, rest, obstacle, table, stated, hashable, found, tabulates, ran⟩
  · refine Nat.lt_of_le_of_ne (length_acceptedOf_le _) fun same => refused ?_
    exact (length_acceptedOf_eq_iff _).mp same _
      (List.mem_append_right _ List.mem_cons_self)

/-- The second value of a variable cannot be a key. -/
def unkeyed : Variable Value := ⟨"x", [.integer 0, .sequence []]⟩

/-- A variable with one value. -/
def keyed : Variable Value := ⟨"y", [.integer 7]⟩

theorem refused_declaration_unkeyed :
    ¬ (Use.declare unkeyed).Hashable ∧
      (declare unkeyed).run ((empty : Model Value).afterAll [.declare keyed, .solve]) =
        .error (.obstructed (.unhashable "list"))
          { ((empty : Model Value).afterAll [.declare keyed, .solve]).entered unkeyed with
            atoms := 2 } ∧
      ((empty : Model Value).afterAll
        ([.declare keyed, .solve] ++ .declare unkeyed :: [.declare keyed])).Placed
          ([.declare keyed, .solve] ++ .declare unkeyed :: [.declare keyed]) ∧
      (acceptedOf ([.declare keyed, .solve] ++ .declare unkeyed :: [.declare keyed])).length <
        (entriesOf ([.declare keyed, .solve] ++ .declare unkeyed :: [.declare keyed])).length := by
  have refused : ¬ (Use.declare unkeyed).Hashable := by decide
  obtain ⟨_, placed, fewer⟩ := refused_declaration [.declare keyed, .solve] [.declare keyed] refused
  exact ⟨refused, rfl, placed, fewer⟩

/-- A variable and a propositional variable are left of the refused declaration.  The variable that
is declared next is in slot one, where it has no table and no literals and is read as zero; without
the refused declaration it would have had a literal in slot zero. -/
theorem misplaced_after_unkeyed :
    (declare unkeyed).run (empty : Model Value) =
        .error (.obstructed (.unhashable "list")) (empty.after (.declare unkeyed)) ∧
      ((empty : Model Value).after (.declare unkeyed)).declared.size ≠
        (empty : Model Value).declared.size ∧
      ((empty : Model Value).after (.declare unkeyed)).atoms ≠ (empty : Model Value).atoms ∧
      ((empty : Model Value).afterAll [.declare unkeyed, .declare keyed]).declared[1]? =
        some keyed ∧
      ((empty : Model Value).afterAll [.declare unkeyed, .declare keyed]).tables[1]? = none ∧
      ((empty : Model Value).afterAll [.declare unkeyed, .declare keyed]).literal 1 (.integer 7) =
        .error .listPosition ∧
      (∀ truth, (((empty : Model Value).afterAll
        [.declare unkeyed, .declare keyed]).valuesIn truth)[1]? = some (.integer 0)) ∧
      ((empty : Model Value).afterAll [.declare keyed]).literal 0 (.integer 7) = .ok 1 :=
  ⟨rfl, by decide, by decide, rfl, rfl, rfl, fun _ => rfl, rfl⟩

end Model

end HorizonPlanner.Cnf
