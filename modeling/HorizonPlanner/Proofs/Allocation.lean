/-
This file follows the propositional variables that are taken while a model is
built.  A table takes one for each of its values.  A constraint takes one for
each of its parts that gets a name of its own, and one for truth if it is asked
for.  They are always the next free numbers, each number has one purpose only,
and every clause that a constraint adds is nonempty and over the numbers taken
so far.

Compiling a constraint may stop half way.  What was taken and added until then
stays, so the statements are about the model that a step ends with, whether or
not it succeeds.
-/

import HorizonPlanner.Proofs.LiteralTable

namespace HorizonPlanner.Cnf

variable {α β γ : Type}

namespace Model

/-! ### Adding to a model -/

/-- The propositional variables that stand for values or for truth are among those taken. -/
structure Bounded (model : Model α) : Prop where
  tables : ∀ table ∈ model.tables, ∀ entry ∈ table, 0 < entry.2 ∧ entry.2 ≤ model.atoms
  truth : ∀ atom, model.truth = some atom → 0 < atom ∧ atom ≤ model.atoms

/-- The propositional variables taken between two models. -/
def taken (before after : Model α) : List Nat :=
  List.range' (before.atoms + 1) (after.atoms - before.atoms)

/-- A step adds clauses, and takes the next propositional variables: each is the one for truth or
one of the given names, and none is two of these.  It posts nothing itself. -/
structure Adds (before after : Model α) (names : List Nat) : Prop where
  declared : after.declared = before.declared
  tables : after.tables = before.tables
  posted : after.posted = before.posted
  atoms_le : before.atoms ≤ after.atoms
  clauses : ∃ added, after.clauses.toList = before.clauses.toList ++ added ∧
    ∀ clause ∈ added, clause ≠ [] ∧ clause.Below after.atoms
  numbers : (before.truth.toList ++ before.taken after).Perm (after.truth.toList ++ names)
  pinned : ∀ atom, after.truth = some atom →
    before.truth = some atom ∨ [Literal.holds atom] ∈ after.clauses

section

variable {before middle after model : Model α} {names names' : List Nat}

theorem taken_append (order : before.atoms ≤ middle.atoms) (order' : middle.atoms ≤ after.atoms) :
    before.taken after = before.taken middle ++ middle.taken after := by
  have start : middle.atoms + 1 = before.atoms + 1 + (middle.atoms - before.atoms) := by omega
  have count : after.atoms - before.atoms =
      middle.atoms - before.atoms + (after.atoms - middle.atoms) := by omega
  rw [taken, taken, taken, start, List.range'_append_1, count]

theorem mem_taken_iff {atom : Nat} (order : before.atoms ≤ after.atoms) :
    atom ∈ before.taken after ↔ before.atoms < atom ∧ atom ≤ after.atoms := by
  rw [taken, List.mem_range'_1]
  omega

theorem Adds.refl (model : Model α) : model.Adds model [] where
  declared := rfl
  tables := rfl
  posted := rfl
  atoms_le := Nat.le_refl _
  clauses := ⟨[], (List.append_nil _).symm, fun _ member => absurd member List.not_mem_nil⟩
  numbers := by rw [taken, Nat.sub_self, List.range'_zero]
  pinned _ found := .inl found

theorem Adds.clauses_prefix (adds : before.Adds after names) :
    before.clauses.toList <+: after.clauses.toList := by
  obtain ⟨added, same, _⟩ := adds.clauses
  exact ⟨added, same.symm⟩

theorem Adds.trans (first : before.Adds middle names) (second : middle.Adds after names') :
    before.Adds after (names ++ names') where
  declared := second.declared.trans first.declared
  tables := second.tables.trans first.tables
  posted := second.posted.trans first.posted
  atoms_le := Nat.le_trans first.atoms_le second.atoms_le
  clauses := by
    obtain ⟨added, same, proper⟩ := first.clauses
    obtain ⟨added', same', proper'⟩ := second.clauses
    refine ⟨added ++ added', by rw [same', same, List.append_assoc], ?_⟩
    refine List.forall_mem_append.mpr ⟨fun clause member => ?_, proper'⟩
    exact ⟨(proper clause member).1, (proper clause member).2.mono second.atoms_le⟩
  numbers := by
    rw [taken_append first.atoms_le second.atoms_le, ← List.append_assoc]
    calc
      List.Perm (before.truth.toList ++ before.taken middle ++ middle.taken after)
          (middle.truth.toList ++ names ++ middle.taken after) := first.numbers.append_right _
      List.Perm _ (middle.truth.toList ++ middle.taken after ++ names) := by
          rw [List.append_assoc, List.append_assoc]
          exact List.perm_append_comm.append_left _
      List.Perm _ (after.truth.toList ++ names' ++ names) := second.numbers.append_right _
      List.Perm _ (after.truth.toList ++ (names ++ names')) := by
          rw [List.append_assoc]
          exact List.perm_append_comm.append_left _
  pinned atom found := by
    rcases second.pinned atom found with earlier | here
    · refine (first.pinned atom earlier).imp_right fun member => ?_
      exact Array.mem_toList_iff.mp (second.clauses_prefix.subset (Array.mem_toList_iff.mpr member))
    · exact .inr here

/-- What was there stays where it was, and a variable for truth that is new was taken since. -/
theorem Adds.bounded (adds : before.Adds after names) (bounded : before.Bounded) :
    after.Bounded where
  tables := by
    rw [adds.tables]
    exact fun table member entry among =>
      have place := bounded.tables table member entry among
      ⟨place.1, Nat.le_trans place.2 adds.atoms_le⟩
  truth atom found := by
    have member : atom ∈ before.truth.toList ++ before.taken after :=
      adds.numbers.mem_iff.mpr (List.mem_append_left _ (Option.mem_toList.mpr found))
    rcases List.mem_append.mp member with earlier | new
    · have place := bounded.truth atom (Option.mem_toList.mp earlier)
      exact ⟨place.1, Nat.le_trans place.2 adds.atoms_le⟩
    · have place := (mem_taken_iff adds.atoms_le).mp new
      exact ⟨Nat.zero_lt_of_lt place.1, place.2⟩

end

/-! ### How a step ends -/

/-- However a step ends, it added to the model; if it succeeded, what it returned is as promised. -/
def Ends (before : Model α) (names : List Nat) (promise : β → Model α → Prop) :
    EStateM.Result Fault (Model α) β → Prop
  | .ok value after => before.Adds after names ∧ promise value after
  | .error _ after => before.Adds after names

/-- The model that a step ends with, whether or not it succeeds. -/
def endOf : EStateM.Result Fault (Model α) β → Model α
  | .ok _ after => after
  | .error _ after => after

/-- What is read off the value and the model of a step that succeeded. -/
def onward (outcome : EStateM.Result Fault (Model α) β) (names : β → Model α → List Nat) :
    List Nat :=
  match outcome with
  | .ok value after => names value after
  | .error _ _ => []

section

variable {model : Model α} {names : List Nat} {promise : β → Model α → Prop}
  {promise' : γ → Model α → Prop}

theorem Ends.adds {outcome : EStateM.Result Fault (Model α) β}
    (ends : model.Ends names promise outcome) : model.Adds (endOf outcome) names := by
  cases outcome with
  | ok value after => exact ends.1
  | error fault after => exact ends

/-- Two steps in a row take what the first takes and, if it succeeds, what the second takes. -/
theorem Ends.bind {first : Build α β} {second : β → Build α γ} {further : β → Model α → List Nat}
    (ends : model.Ends names promise (first.run model))
    (next : ∀ value middle, model.Adds middle names → promise value middle →
      middle.Ends (further value middle) promise' ((second value).run middle)) :
    model.Ends (names ++ onward (first.run model) further) promise'
      ((first >>= second).run model) := by
  rw [EStateM.run_bind]
  cases ran : first.run model with
  | error fault middle =>
    rw [ran] at ends
    rw [onward, List.append_nil]
    exact ends
  | ok value middle =>
    rw [ran] at ends
    have later := next value middle ends.1 ends.2
    rw [onward]
    show model.Ends _ promise' ((second value).run middle)
    cases ran' : (second value).run middle with
    | error fault after =>
      rw [ran'] at later
      exact ends.1.trans later
    | ok value' after =>
      rw [ran'] at later
      exact ⟨ends.1.trans later.1, later.2⟩

theorem onward_nil (outcome : EStateM.Result Fault (Model α) β) :
    onward outcome (fun _ _ => []) = [] := by
  cases outcome <;> rfl

/-- A second step that takes no names. -/
theorem Ends.bindQuiet {first : Build α β} {second : β → Build α γ}
    (ends : model.Ends names promise (first.run model))
    (next : ∀ value middle, model.Adds middle names → promise value middle →
      middle.Ends [] promise' ((second value).run middle)) :
    model.Ends names promise' ((first >>= second).run model) := by
  have both := ends.bind next
  rwa [onward_nil, List.append_nil] at both

theorem ends_pure {value : β} (kept : promise value model) :
    model.Ends [] promise ((pure value : Build α β).run model) :=
  ⟨.refl model, kept⟩

theorem ends_throw (fault : Fault) :
    model.Ends [] promise ((throw fault : Build α β).run model) :=
  Adds.refl model

end

/-! ### Single steps -/

section

variable {model : Model α}

theorem adds_clauses {clauses : Array Clause} (added : List Clause)
    (same : clauses.toList = model.clauses.toList ++ added)
    (proper : ∀ clause ∈ added, clause ≠ [] ∧ clause.Below model.atoms) :
    model.Adds { model with clauses } [] where
  declared := rfl
  tables := rfl
  posted := rfl
  atoms_le := Nat.le_refl _
  clauses := ⟨added, same, proper⟩
  numbers := by rw [taken, Nat.sub_self, List.range'_zero]
  pinned _ found := .inl found

theorem ends_addClauses {clauses : List Clause}
    (proper : ∀ clause ∈ clauses, clause ≠ [] ∧ clause.Below model.atoms) :
    model.Ends [] (fun _ _ => True) ((addClauses clauses : Build α Unit).run model) :=
  ⟨adds_clauses clauses (Array.toList_appendList ..) proper, trivial⟩

theorem ends_addClause {clause : Clause} (nonempty : clause ≠ [])
    (below : clause.Below model.atoms) :
    model.Ends [] (fun _ _ => True) ((addClause clause : Build α Unit).run model) :=
  ⟨adds_clauses [clause] (Array.toList_push ..)
    (List.forall_mem_singleton.mpr ⟨nonempty, below⟩), trivial⟩

/-- An empty clause is recorded and not added. -/
theorem ends_emit {clause : Clause} (below : clause.Below model.atoms) :
    model.Ends [] (fun _ _ => True) ((emit clause : Build α Unit).run model) := by
  cases clause with
  | nil => exact ⟨{ Adds.refl model with }, trivial⟩
  | cons literal rest => exact ends_addClause (List.cons_ne_nil _ _) below

theorem ends_emitAll {clauses : List Clause}
    (below : ∀ clause ∈ clauses, clause.Below model.atoms) :
    model.Ends [] (fun _ _ => True) ((emitAll clauses : Build α Unit).run model) := by
  induction clauses generalizing model with
  | nil => exact ends_pure trivial
  | cons clause rest inductionHypothesis =>
    obtain ⟨here, there⟩ := List.forall_mem_cons.mp below
    refine (ends_emit here).bindQuiet fun _ middle adds _ => ?_
    exact inductionHypothesis fun other member => (there other member).mono adds.atoms_le

/-- The ladder above a list of propositional variables takes the next ones for its rungs. -/
theorem ends_excludeAll {atoms : List Nat}
    (inside : ∀ atom ∈ atoms, 0 < atom ∧ atom ≤ model.atoms) :
    model.Ends (List.range' (model.atoms + 1) (rungCount atoms.length)) (fun _ _ => True)
      ((excludeAll atoms : Build α Unit).run model) := by
  refine ⟨⟨rfl, rfl, rfl, Nat.le_add_right _ _, ?_, ?_, fun _ found => .inl found⟩, trivial⟩
  · refine ⟨atMostOneClauses (model.atoms + 1) atoms, Array.toList_appendList .., ?_⟩
    exact fun clause member => ⟨atMostOneClauses_nonempty _ atoms clause member,
      atMostOneClauses_below inside clause member⟩
  · show List.Perm (_ ++ List.range' _ (model.atoms + rungCount atoms.length - model.atoms)) _
    rw [Nat.add_sub_cancel_left]

theorem ends_allocate :
    model.Ends [model.atoms + 1] (fun name after => (Literal.holds name).Below after.atoms)
      ((allocate : Build α Nat).run model) := by
  refine ⟨⟨rfl, rfl, rfl, Nat.le_succ _, ?_, ?_, fun _ found => .inl found⟩,
    Nat.succ_pos _, Nat.le_refl _⟩
  · exact ⟨[], (List.append_nil _).symm, fun _ member => absurd member List.not_mem_nil⟩
  · rw [taken, Nat.add_sub_cancel_left, List.range'_one]

/-- The variable for truth is not one of the names, whether it was there or is taken now. -/
theorem ends_always (bounded : model.Bounded) :
    model.Ends [] (fun literal after => literal.Below after.atoms)
      ((always : Build α Literal).run model) := by
  rw [always, EStateM.run_bind, EStateM.run_get]
  cases pinned : model.truth with
  | some atom =>
    simp only [pinned]
    exact ends_pure (bounded.truth atom pinned)
  | none =>
    simp only [pinned]
    refine ⟨⟨rfl, rfl, rfl, Nat.le_succ _, ?_, ?_, ?_⟩, Nat.succ_pos _, Nat.le_refl _⟩
    · refine ⟨[[.holds (model.atoms + 1)]], Array.toList_push .., ?_⟩
      rw [List.forall_mem_singleton]
      exact ⟨List.cons_ne_nil _ _, List.forall_mem_singleton.mpr ⟨Nat.succ_pos _, Nat.le_refl _⟩⟩
    · rw [pinned, taken, Nat.add_sub_cancel_left, List.range'_one]
      exact .refl [model.atoms + 1]
    · rintro atom ⟨⟩
      exact .inr Array.mem_push_self

/-- The last step in naming a conjunction. -/
theorem ends_nameConjunction {model : Model α} {name : Nat} {literals : List Literal}
    (named : (Literal.holds name).Below model.atoms)
    (below : ∀ literal ∈ literals, literal.Below model.atoms) :
    model.Ends [] (fun literal after => literal.Below after.atoms)
      ((do
        addClauses (literals.map fun literal => [.fails name, literal])
        addClause (.holds name :: literals.map Literal.negate)
        pure (.holds name) : Build α Literal).run model) := by
  have proper : ∀ clause ∈ literals.map fun literal => [Literal.fails name, literal],
      clause ≠ [] ∧ Clause.Below model.atoms clause := by
    rw [List.forall_mem_map]
    exact fun literal member => ⟨List.cons_ne_nil _ _,
      List.forall_mem_cons.mpr ⟨named, List.forall_mem_singleton.mpr (below literal member)⟩⟩
  have defined : Clause.Below model.atoms (.holds name :: literals.map Literal.negate) :=
    List.forall_mem_cons.mpr ⟨named, List.forall_mem_map.mpr below⟩
  refine (ends_addClauses proper).bindQuiet fun _ middle adds _ => ?_
  refine (ends_addClause (List.cons_ne_nil _ _) (defined.mono adds.atoms_le)).bindQuiet
    fun _ after adds' _ => ?_
  exact ends_pure ((named.mono adds.atoms_le).mono adds'.atoms_le)

/-- The last step in naming an implication. -/
theorem ends_nameImplication {model : Model α} {name : Nat} {premise conclusion : Literal}
    (named : (Literal.holds name).Below model.atoms) (below : premise.Below model.atoms)
    (below' : conclusion.Below model.atoms) :
    model.Ends [] (fun literal after => literal.Below after.atoms)
      ((do
        addClause [.fails name, premise.negate, conclusion]
        addClause [.holds name, premise]
        addClause [.holds name, conclusion.negate]
        pure (.holds name) : Build α Literal).run model) := by
  have sound : Clause.Below model.atoms [.fails name, premise.negate, conclusion] :=
    List.forall_mem_cons.mpr
      ⟨named, List.forall_mem_cons.mpr ⟨below, List.forall_mem_singleton.mpr below'⟩⟩
  have vacuous : Clause.Below model.atoms [.holds name, premise] :=
    List.forall_mem_cons.mpr ⟨named, List.forall_mem_singleton.mpr below⟩
  have concluded : Clause.Below model.atoms [.holds name, conclusion.negate] :=
    List.forall_mem_cons.mpr ⟨named, List.forall_mem_singleton.mpr below'⟩
  refine (ends_addClause (List.cons_ne_nil _ _) sound).bindQuiet fun _ first adds _ => ?_
  refine (ends_addClause (List.cons_ne_nil _ _) (vacuous.mono adds.atoms_le)).bindQuiet
    fun _ second adds' _ => ?_
  have order := Nat.le_trans adds.atoms_le adds'.atoms_le
  refine (ends_addClause (List.cons_ne_nil _ _) (concluded.mono order)).bindQuiet
    fun _ after adds'' _ => ?_
  exact ends_pure ((named.mono order).mono adds''.atoms_le)

theorem ends_tableAt (slot : Nat) :
    model.Ends [] (fun table after => table ∈ after.tables)
      ((tableAt slot : Build α (LiteralTable α)).run model) := by
  rw [tableAt, EStateM.run_bind, EStateM.run_get]
  cases found : model.tables[slot]? with
  | none =>
    simp only [found]
    exact ends_throw _
  | some table =>
    simp only [found]
    exact ends_pure (Array.mem_of_getElem? found)

theorem ends_atomAt [Symbol α] (bounded : model.Bounded) (slot : Nat) (value : α) :
    model.Ends [] (fun found after => ∀ atom, found = some atom → 0 < atom ∧ atom ≤ after.atoms)
      ((atomAt slot value).run model) := by
  rw [atomAt]
  refine (ends_tableAt slot).bindQuiet fun table middle adds member => ?_
  cases refused : Symbol.unhashable? value with
  | some obstacle => exact ends_throw _
  | none =>
    refine ends_pure fun atom found => ?_
    obtain ⟨entry, among, rfl, _⟩ := LiteralTable.exists_mem_of_atom? found
    exact (adds.bounded bounded).tables table member entry among

end

end Model

/-! ### Filling a table -/

section

variable [Symbol α]

/-- Keys are told apart in such a way that each value is the same as itself. -/
class ReflexiveSymbol (α : Type) [Symbol α] : Prop where
  same_self : ∀ value : α, Symbol.same value value = true

instance : ReflexiveSymbol Int := ⟨fun value => beq_self_eq_true value⟩

instance : ReflexiveSymbol Value := ⟨Value.same_self⟩

/-- The keys of a table are the distinct values of a list. -/
structure LiteralTable.Tabulates (table : LiteralTable α) (values : List α) : Prop where
  distinct : table.Pairwise fun first second => Symbol.same first.1 second.1 = false
  drawn : ∀ entry ∈ table, entry.1 ∈ values
  complete : ∀ value ∈ values, ∃ entry ∈ table, Symbol.same entry.1 value = true

variable {table : LiteralTable α} {seen : List α} {value : α}

theorem LiteralTable.tabulates_nil : LiteralTable.Tabulates ([] : LiteralTable α) [] where
  distinct := .nil
  drawn _ member := absurd member List.not_mem_nil
  complete _ member := absurd member List.not_mem_nil

theorem LiteralTable.Tabulates.repeated (tabulates : table.Tabulates seen) {atom : Nat}
    (found : table.atom? value = some atom) : table.Tabulates (seen ++ [value]) where
  distinct := tabulates.distinct
  drawn entry member := List.mem_append_left _ (tabulates.drawn entry member)
  complete other member := by
    rcases List.mem_append.mp member with member | last
    · exact tabulates.complete other member
    · obtain ⟨entry, member, _, same⟩ := exists_mem_of_atom? found
      exact ⟨entry, member, List.mem_singleton.mp last ▸ same⟩

theorem LiteralTable.Tabulates.fresh [ReflexiveSymbol α] (tabulates : table.Tabulates seen)
    (missing : table.atom? value = none) (atom : Nat) :
    LiteralTable.Tabulates (table ++ [(value, atom)]) (seen ++ [value]) where
  distinct := by
    refine List.pairwise_append.mpr ⟨tabulates.distinct, List.pairwise_singleton _ _, ?_⟩
    intro entry member last among
    rw [List.mem_singleton.mp among, Bool.eq_false_iff]
    exact List.find?_eq_none.mp (Option.map_eq_none_iff.mp missing) entry member
  drawn entry member := by
    rcases List.mem_append.mp member with member | last
    · exact List.mem_append_left _ (tabulates.drawn entry member)
    · rw [List.mem_singleton.mp last]
      exact List.mem_append_right _ (List.mem_singleton_self value)
  complete other member := by
    rcases List.mem_append.mp member with member | last
    · obtain ⟨entry, among, same⟩ := tabulates.complete other member
      exact ⟨entry, List.mem_append_left _ among, same⟩
    · rw [List.mem_singleton.mp last]
      exact ⟨(value, atom), List.mem_append_right _ (List.mem_singleton_self _),
        ReflexiveSymbol.same_self value⟩

/-- A table is extended by the values that it does not have, which take the next propositional
variables one after another. -/
theorem exists_extension [ReflexiveSymbol α] (values : List α) (model : Model α)
    (tabulates : table.Tabulates seen)
    (hashable : ∀ value ∈ values, Symbol.unhashable? value = none) :
    ∃ more, (allocateTable table values).run model =
        .ok (table ++ more) { model with atoms := model.atoms + more.length } ∧
      more.map Prod.snd = List.range' (model.atoms + 1) more.length ∧
      LiteralTable.Tabulates (table ++ more) (seen ++ values) := by
  induction values generalizing table seen model with
  | nil => exact ⟨[], by rw [List.append_nil]; rfl, rfl, by rwa [List.append_nil, List.append_nil]⟩
  | cons value rest inductionHypothesis =>
    obtain ⟨here, there⟩ := List.forall_mem_cons.mp hashable
    rw [allocateTable, here]
    cases found : table.atom? value with
    | some atom =>
      obtain ⟨more, ran, numbered, filled⟩ :=
        inductionHypothesis model (tabulates.repeated found) there
      exact ⟨more, ran, numbered, by rwa [List.append_assoc] at filled⟩
    | none =>
      obtain ⟨more, ran, numbered, filled⟩ := inductionHypothesis
        { model with atoms := model.atoms + 1 } (tabulates.fresh found (model.atoms + 1)) there
      rw [List.append_assoc, List.singleton_append] at ran filled
      rw [List.append_assoc, List.singleton_append] at filled
      refine ⟨(value, model.atoms + 1) :: more, ?_, ?_, filled⟩
      · rw [List.length_cons, Nat.add_comm more.length, ← Nat.add_assoc]
        exact ran
      · rw [List.map_cons, List.length_cons, List.range'_succ, numbered]

end

namespace Model

/-! ### The names that a constraint takes -/

section

variable [Symbol α]

mutual

/-- The propositional variables that become names when a constraint is turned into a literal: one
for each part that is not a literal itself, taken before those of its own parts. -/
def reifyNames (model : Model α) : Constraint α → List Nat
  | .always | .equals _ _ => []
  | .agree _ _ | .unsupported _ => [model.atoms + 1]
  | .all parts =>
    (model.atoms + 1) :: onward (allocate.run model) fun _ middle => reifyPartsNames middle parts
  | .implies condition consequence =>
    (model.atoms + 1) :: onward (allocate.run model) fun _ middle =>
      reifyNames middle condition ++ onward ((reify condition).run middle) fun _ middle =>
        reifyNames middle consequence

/-- The names that the parts of a conjunction take. -/
def reifyPartsNames (model : Model α) : List (Constraint α) → List Nat
  | [] => []
  | part :: rest =>
    reifyNames model part ++ onward ((reify part).run model) fun _ middle =>
      reifyPartsNames middle rest

end

mutual

/-- The names that a constraint takes when it is compiled under guards: those of the conditions of
its implications. -/
def compileNames (model : Model α) (guards : List Literal) : Constraint α → List Nat
  | .always | .equals _ _ | .agree _ _ | .unsupported _ => []
  | .all parts => compilePartsNames model guards parts
  | .implies condition consequence =>
    reifyNames model condition ++ onward ((reify condition).run model) fun premise middle =>
      compileNames middle (guards ++ [premise.negate]) consequence

/-- The names that the parts of a conjunction take. -/
def compilePartsNames (model : Model α) (guards : List Literal) : List (Constraint α) → List Nat
  | [] => []
  | part :: rest =>
    compileNames model guards part ++ onward ((compile guards part).run model) fun _ middle =>
      compilePartsNames middle guards rest

end

/-! ### Turning a constraint into a literal -/

theorem ends_reify_equals {model : Model α} (bounded : model.Bounded) (slot : Nat) (constant : α) :
    model.Ends [] (fun literal after => literal.Below after.atoms)
      ((reify (.equals slot constant)).run model) := by
  rw [reify]
  refine (ends_atomAt bounded slot constant).bindQuiet fun found middle adds inside => ?_
  cases found with
  | some atom => exact ends_pure (inside atom rfl)
  | none =>
    exact (ends_always (adds.bounded bounded)).bindQuiet fun literal after _ below =>
      ends_pure below.negate

theorem ends_reify_agree {model : Model α} (bounded : model.Bounded) (left right : Nat) :
    model.Ends [model.atoms + 1] (fun literal after => literal.Below after.atoms)
      ((reify (.agree left right : Constraint α)).run model) := by
  rw [reify]
  refine ends_allocate.bindQuiet fun name first adds named => ?_
  refine (ends_tableAt left).bindQuiet fun leftTable second adds' leftMember => ?_
  refine (ends_tableAt right).bindQuiet fun rightTable third adds'' rightMember => ?_
  have bounded' := adds'.bounded (adds.bounded bounded)
  have named' := (named.mono adds'.atoms_le).mono adds''.atoms_le
  have leftBelow := (adds''.bounded bounded').tables leftTable (adds''.tables ▸ leftMember)
  have rightBelow := (adds''.bounded bounded').tables rightTable rightMember
  refine (ends_addClauses fun clause member => ⟨?_, ?_⟩).bindQuiet fun _ after adds _ =>
    ends_pure (named'.mono adds.atoms_le)
  · exact LiteralTable.agreementDefinition_nonempty name leftTable rightTable clause member
  · exact LiteralTable.agreementDefinition_below named' leftBelow rightBelow clause member

mutual

theorem ends_reify (constraint : Constraint α) {model : Model α} (bounded : model.Bounded) :
    model.Ends (reifyNames model constraint) (fun literal after => literal.Below after.atoms)
      ((reify constraint).run model) := by
  cases constraint with
  | always => exact ends_always bounded
  | equals slot constant => exact ends_reify_equals bounded slot constant
  | agree left right => exact ends_reify_agree bounded left right
  | all parts =>
    rw [reify]
    refine ends_allocate.bind fun name first adds named => ?_
    have parts := ends_reifyParts parts (adds.bounded bounded)
    refine parts.bindQuiet fun literals second adds' below => ?_
    exact ends_nameConjunction (named.mono adds'.atoms_le) below
  | implies condition consequence =>
    rw [reify]
    refine ends_allocate.bind fun name first adds named => ?_
    refine (ends_reify condition (adds.bounded bounded)).bind fun premise second adds' below => ?_
    refine (ends_reify consequence (adds'.bounded (adds.bounded bounded))).bindQuiet
      fun conclusion third adds'' below' => ?_
    exact ends_nameImplication ((named.mono adds'.atoms_le).mono adds''.atoms_le)
      (below.mono adds''.atoms_le) below'
  | unsupported content =>
    rw [reify]
    exact ends_allocate.bindQuiet fun _ _ _ _ => ends_throw _

theorem ends_reifyParts (parts : List (Constraint α)) {model : Model α} (bounded : model.Bounded) :
    model.Ends (reifyPartsNames model parts)
      (fun literals after => ∀ literal ∈ literals, Literal.Below after.atoms literal)
      ((reifyParts parts).run model) := by
  cases parts with
  | nil => exact ends_pure fun _ member => absurd member List.not_mem_nil
  | cons part rest =>
    rw [reifyParts]
    refine (ends_reify part bounded).bind fun literal first adds below => ?_
    have others := ends_reifyParts rest (adds.bounded bounded)
    refine others.bindQuiet fun literals second adds' below' => ?_
    exact ends_pure (List.forall_mem_cons.mpr ⟨below.mono adds'.atoms_le, below'⟩)

end

/-! ### Compiling a constraint -/

mutual

theorem ends_compile (constraint : Constraint α) {guards : List Literal} {model : Model α}
    (bounded : model.Bounded) (below : Clause.Below model.atoms guards) :
    model.Ends (compileNames model guards constraint) (fun _ _ => True)
      ((compile guards constraint).run model) := by
  cases constraint with
  | always => exact ends_pure trivial
  | equals slot constant =>
    rw [compile]
    refine (ends_atomAt bounded slot constant).bindQuiet fun found middle adds inside => ?_
    have below' := below.mono adds.atoms_le
    cases found with
    | none => exact ends_emit below'
    | some atom =>
      exact ends_emit (List.forall_mem_append.mpr
        ⟨below', List.forall_mem_singleton.mpr (inside atom rfl)⟩)
  | agree left right =>
    rw [compile]
    refine (ends_tableAt left).bindQuiet fun leftTable first adds leftMember => ?_
    refine (ends_tableAt right).bindQuiet fun rightTable second adds' rightMember => ?_
    have bounded' := adds'.bounded (adds.bounded bounded)
    have agreed := LiteralTable.agreementClauses_below
      (bounded'.tables leftTable (adds'.tables ▸ leftMember))
      (bounded'.tables rightTable rightMember)
    have below' := (below.mono adds.atoms_le).mono adds'.atoms_le
    refine ends_emitAll ?_
    rw [List.forall_mem_map]
    exact fun clause member => List.forall_mem_append.mpr ⟨below', agreed clause member⟩
  | all parts => exact ends_compileParts parts bounded below
  | implies condition consequence =>
    rw [compile]
    refine (ends_reify condition bounded).bind fun premise middle adds below' => ?_
    exact ends_compile consequence (adds.bounded bounded) (List.forall_mem_append.mpr
      ⟨below.mono adds.atoms_le, List.forall_mem_singleton.mpr below'.negate⟩)
  | unsupported content => exact ends_throw _

theorem ends_compileParts (parts : List (Constraint α)) {guards : List Literal} {model : Model α}
    (bounded : model.Bounded) (below : Clause.Below model.atoms guards) :
    model.Ends (compilePartsNames model guards parts) (fun _ _ => True)
      ((compileParts guards parts).run model) := by
  cases parts with
  | nil => exact ends_pure trivial
  | cons part rest =>
    rw [compileParts]
    refine (ends_compile part bounded below).bind fun _ middle adds _ => ?_
    exact ends_compileParts rest (adds.bounded bounded) (below.mono adds.atoms_le)

end

end

end Model

end HorizonPlanner.Cnf
