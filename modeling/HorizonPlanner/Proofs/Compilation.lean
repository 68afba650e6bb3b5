/-
This file proves that the clauses of a constraint say what the constraint says.
Turned into a literal, a constraint gets auxiliary variables whose values are
determined, and the literal is true exactly if the constraint holds.  Compiled
under guards, it is refined by the condition that a guard is true or the
constraint holds.

Both are proved along the constraint, for all parts of a conjunction and both
sides of an implication, so a constraint may stand in any place.
-/

import HorizonPlanner.Proofs.Refinement

namespace HorizonPlanner.Cnf.Model

variable {model : Model Int}

/-! ### The literal that is always true -/

/-- Remembering a variable that is true in any case changes nothing. -/
theorem refines_pin (coherent : model.Coherent) {atom : Nat}
    (names : model.Names (.holds atom) fun _ => true) :
    model.Refines { model with truth := some atom } fun _ => True where
  coherent :=
    { coherent with
      pinned := fun other found => by
        cases found
        refine ⟨names.below.1, names.below.2, fun truth admitted => ?_⟩
        rw [← Literal.satisfied_holds truth]
        exact names.satisfied_eq truth admitted }
  declared := rfl
  tables := rfl
  atoms_le := Nat.le_refl _
  sound _ admitted := ⟨admitted, trivial⟩
  complete truth admitted _ := ⟨truth, .refl _ truth, admitted⟩
  unique _ _ _ _ same := same

theorem run_always (coherent : model.Coherent) :
    ∃ literal after, (always : Build Int Literal).run model = .ok literal after ∧
      (model.Refines after fun _ => True) ∧ after.Names literal fun _ => true := by
  cases pinned : model.truth with
  | some atom =>
    obtain ⟨positive, inside, holding⟩ := coherent.pinned atom pinned
    refine ⟨.holds atom, model, ?_, .refl coherent, ⟨positive, inside⟩, fun truth admitted => ?_⟩
    · rw [always, EStateM.run_bind, EStateM.run_get]
      simp only [pinned]
      rfl
    · rw [Literal.satisfied_holds, holding truth admitted]
  | none =>
    have narrows : model.allocated.Narrows
        { model.allocated with clauses := model.clauses.push [.holds (model.atoms + 1)] } _ :=
      narrows_of_mem [[.holds (model.atoms + 1)]]
        (fun clause => by rw [Array.mem_push, List.mem_singleton]; rfl) (by
          simp [Clause.Below, Literal.Below, Literal.holds, allocated])
    obtain ⟨refines, names⟩ := Refines.define (fun _ => true) coherent (.refl coherent.allocated)
      narrows fun truth _ => by simp
    have pin := refines_pin refines.coherent names
    refine ⟨.holds (model.atoms + 1), _, ?_, refines.prepend pin fun _ _ _ => id, names.refines pin⟩
    rw [always, EStateM.run_bind, EStateM.run_get]
    simp only [pinned]
    rfl

/-! ### What single constraints say -/

section

variable {truth : Nat → Bool}

/-- The propositional variable of a value says that the variable has the value. -/
theorem Coherent.atom_eq_holds (coherent : model.Coherent) (admitted : model.Admits truth)
    {slot atom : Nat} {constant : Int} {table : LiteralTable Int}
    (found : model.tables[slot]? = some table) (found' : table.atom? constant = some atom) :
    truth atom = (Constraint.equals slot constant).holds (model.decode truth) := by
  rw [Bool.eq_iff_iff, (coherent.encodes_decode admitted found).atom_iff found', Constraint.holds]
  exact (beq_iff_eq).symm

/-- A variable does not have a value outside its domain. -/
theorem Coherent.holds_eq_false (coherent : model.Coherent) (admitted : model.Admits truth)
    {slot : Nat} {constant : Int} {table : LiteralTable Int}
    (found : model.tables[slot]? = some table) (missing : table.atom? constant = none) :
    (Constraint.equals slot constant).holds (model.decode truth) = false := by
  have member := (coherent.encodes_decode admitted found).mem_keys
  rw [Constraint.holds]
  refine beq_false_of_ne fun same => LiteralTable.atom?_eq_none_iff.mp missing ?_
  rwa [← same]

theorem holds_agree_iff (assignment : Nat → Int) (left right : Nat) :
    (Constraint.agree left right).holds assignment = true ↔ assignment left = assignment right :=
  beq_iff_eq

end

/-! ### Constraints as literals -/

/-- The clauses that define a name for a conjunction of literals. -/
theorem conjunctionDefinition_iff {truth : Nat → Bool} {name : Nat} {literals : List Literal} :
    ((∀ clause ∈ literals.map fun literal => [.fails name, literal],
        Clause.satisfied truth clause = true) ∧
      Clause.satisfied truth (.holds name :: literals.map Literal.negate) = true) ↔
      truth name = literals.all (Literal.satisfied truth) := by
  have sound : (∀ literal ∈ literals, Clause.satisfied truth [.fails name, literal] = true) ↔
      (truth name = true → literals.all (Literal.satisfied truth) = true) := by
    cases named : truth name <;> simp [named]
  have negated : Clause.satisfied truth (literals.map Literal.negate) =
      !literals.all (Literal.satisfied truth) := by
    rw [Bool.eq_iff_iff]
    simp [Clause.satisfied]
  rw [List.forall_mem_map, sound, Clause.satisfied_cons, negated, Literal.satisfied_holds]
  cases truth name <;> cases literals.all (Literal.satisfied truth) <;> simp

/-- The clauses that define a name for an implication between literals. -/
theorem implicationDefinition_iff {truth : Nat → Bool} {name : Nat} {premise conclusion : Literal} :
    ((Clause.satisfied truth [.fails name, premise.negate, conclusion] = true ∧
      Clause.satisfied truth [.holds name, premise] = true) ∧
      Clause.satisfied truth [.holds name, conclusion.negate] = true) ↔
      truth name = (!premise.satisfied truth || conclusion.satisfied truth) := by
  cases named : truth name <;> cases first : premise.satisfied truth <;>
    cases second : conclusion.satisfied truth <;> simp [named, first, second]

/-- Literals that stand for the parts of a conjunction are all true exactly if the parts hold. -/
theorem all_satisfied_eq {truth : Nat → Bool} (admitted : model.Admits truth)
    {literals : List Literal} {parts : List (Constraint Int)}
    (names : List.Forall₂ (fun literal (part : Constraint Int) =>
      model.Names literal fun assignment => part.holds assignment) literals parts) :
    literals.all (Literal.satisfied truth) = Constraint.holdsAll (model.decode truth) parts := by
  induction names with
  | nil => rfl
  | cons name _ inductionHypothesis =>
    rw [List.all_cons, name.satisfied_eq truth admitted, inductionHypothesis, Constraint.holdsAll]

theorem forall_below {literals : List Literal} {parts : List (Constraint Int)}
    (names : List.Forall₂ (fun literal (part : Constraint Int) =>
      model.Names literal fun assignment => part.holds assignment) literals parts) :
    ∀ literal ∈ literals, literal.Below model.atoms := by
  induction names with
  | nil => exact fun _ member => absurd member List.not_mem_nil
  | cons name _ inductionHypothesis =>
    exact List.forall_mem_cons.mpr ⟨name.below, inductionHypothesis⟩

/-- The literal of a constant is that of its value, or the opposite of the literal that is always
true if the domain does not have it. -/
theorem run_reify_equals (coherent : model.Coherent) {slot : Nat}
    (inside : slot < model.declared.size) (constant : Int) :
    ∃ literal after, (reify (.equals slot constant)).run model = .ok literal after ∧
      (model.Refines after fun _ => True) ∧
      after.Names literal fun assignment => (Constraint.equals slot constant).holds assignment := by
  obtain ⟨table, found⟩ := coherent.exists_table inside
  rw [reify, run_bind_ok (run_atomAt found constant)]
  cases found' : table.atom? constant with
  | some atom =>
    refine ⟨.holds atom, model, rfl, .refl coherent, coherent.atom_below found found',
      fun truth admitted => ?_⟩
    rw [Literal.satisfied_holds, coherent.atom_eq_holds admitted found found']
  | none =>
    obtain ⟨literal, after, ran, refines, names⟩ := run_always coherent
    refine ⟨literal.negate, after, run_bind_ok ran, refines, names.below, fun truth admitted => ?_⟩
    rw [Literal.satisfied_negate, names.satisfied_eq truth admitted,
      refines.coherent.holds_eq_false admitted (refines.tables ▸ found) found', Bool.not_true]

theorem run_reify_agree (coherent : model.Coherent) {left right : Nat}
    (leftInside : left < model.declared.size) (rightInside : right < model.declared.size) :
    ∃ literal after, (reify (.agree left right)).run model = .ok literal after ∧
      (model.Refines after fun _ => True) ∧
      after.Names literal fun assignment => (Constraint.agree left right).holds assignment := by
  have allocated := coherent.allocated
  obtain ⟨leftTable, foundLeft⟩ := allocated.exists_table leftInside
  obtain ⟨rightTable, foundRight⟩ := allocated.exists_table rightInside
  have below := LiteralTable.agreementDefinition_below
    ⟨Nat.succ_pos model.atoms, Nat.le_refl model.allocated.atoms⟩
    (List.forall_mem_map.mp (allocated.table_below foundLeft))
    (List.forall_mem_map.mp (allocated.table_below foundRight))
  obtain ⟨after, ran, narrows⟩ := run_addClauses model.allocated _ below
  obtain ⟨refines, names⟩ := Refines.define
    (fun assignment => (Constraint.agree left right).holds assignment) coherent (.refl allocated)
    narrows fun truth admitted => by
      rw [LiteralTable.agreementDefinition_iff (allocated.encodes_decode admitted foundLeft)
        (allocated.encodes_decode admitted foundRight), ← holds_agree_iff, ← Bool.eq_iff_iff]
      rfl
  refine ⟨.holds (model.atoms + 1), after, ?_, refines, names⟩
  rw [reify, run_bind_ok (run_allocate model), run_bind_ok (run_tableAt foundLeft),
    run_bind_ok (run_tableAt foundRight), run_bind_ok ran]
  rfl

section

variable {middle : Model Int}

/-- A variable that was allocated before the literals of the parts becomes a name for the
conjunction. -/
theorem run_nameConjunction (coherent : model.Coherent)
    (refines : model.allocated.Refines middle fun _ => True) {literals : List Literal}
    {parts : List (Constraint Int)}
    (names : List.Forall₂ (fun literal (part : Constraint Int) =>
      middle.Names literal fun assignment => part.holds assignment) literals parts) :
    ∃ after, (do
        addClauses (literals.map fun literal => [.fails (model.atoms + 1), literal])
        addClause (.holds (model.atoms + 1) :: literals.map Literal.negate)
        pure (.holds (model.atoms + 1)) : Build Int Literal).run middle =
          .ok (.holds (model.atoms + 1)) after ∧
      (model.Refines after fun _ => True) ∧
      after.Names (.holds (model.atoms + 1)) fun assignment =>
        (Constraint.all parts).holds assignment := by
  have named : (Literal.holds (model.atoms + 1)).Below middle.atoms :=
    ⟨Nat.succ_pos _, refines.atoms_le⟩
  have below := forall_below names
  obtain ⟨next, ran, narrows⟩ := run_addClauses middle
    (literals.map fun literal => [.fails (model.atoms + 1), literal]) (by
      rw [List.forall_mem_map]
      exact fun literal member => List.forall_mem_cons.mpr
        ⟨named, List.forall_mem_singleton.mpr (below literal member)⟩)
  obtain ⟨after, ran', narrows'⟩ := run_addClause next
    (.holds (model.atoms + 1) :: literals.map Literal.negate) (by
      rw [narrows.atoms]
      exact List.forall_mem_cons.mpr ⟨named, List.forall_mem_map.mpr below⟩)
  refine ⟨after, ?_, Refines.define _ coherent refines (narrows.trans narrows')
    fun truth admitted => ?_⟩
  · rw [run_bind_ok ran, run_bind_ok ran']
    rfl
  · rw [conjunctionDefinition_iff, all_satisfied_eq admitted names, refines.decode_eq,
      Constraint.holds]
    rfl

/-- A variable that was allocated before the literals of both sides becomes a name for the
implication. -/
theorem run_nameImplication (coherent : model.Coherent)
    (refines : model.allocated.Refines middle fun _ => True) {premise conclusion : Literal}
    {condition consequence : Constraint Int}
    (name : middle.Names premise fun assignment => condition.holds assignment)
    (name' : middle.Names conclusion fun assignment => consequence.holds assignment) :
    ∃ after, (do
        addClause [.fails (model.atoms + 1), premise.negate, conclusion]
        addClause [.holds (model.atoms + 1), premise]
        addClause [.holds (model.atoms + 1), conclusion.negate]
        pure (.holds (model.atoms + 1)) : Build Int Literal).run middle =
          .ok (.holds (model.atoms + 1)) after ∧
      (model.Refines after fun _ => True) ∧
      after.Names (.holds (model.atoms + 1)) fun assignment =>
        (Constraint.implies condition consequence).holds assignment := by
  have named : (Literal.holds (model.atoms + 1)).Below middle.atoms :=
    ⟨Nat.succ_pos _, refines.atoms_le⟩
  have premiseBelow := name.below
  have conclusionBelow := name'.below
  obtain ⟨second, ran, narrows⟩ := run_addClause middle
    [.fails (model.atoms + 1), premise.negate, conclusion] (by
      simpa [Clause.Below] using ⟨named, premiseBelow, conclusionBelow⟩)
  obtain ⟨third, ran', narrows'⟩ := run_addClause second [.holds (model.atoms + 1), premise] (by
    rw [narrows.atoms]
    simpa [Clause.Below] using ⟨named, premiseBelow⟩)
  obtain ⟨after, ran'', narrows''⟩ := run_addClause third
    [.holds (model.atoms + 1), conclusion.negate] (by
      rw [narrows'.atoms, narrows.atoms]
      simpa [Clause.Below] using ⟨named, conclusionBelow⟩)
  refine ⟨after, ?_, Refines.define _ coherent refines ((narrows.trans narrows').trans narrows'')
    fun truth admitted => ?_⟩
  · rw [run_bind_ok ran, run_bind_ok ran', run_bind_ok ran'']
    rfl
  · rw [implicationDefinition_iff, name.satisfied_eq truth admitted,
      name'.satisfied_eq truth admitted, refines.decode_eq, Constraint.holds]
    rfl

end

mutual

/-- Turning a constraint into a literal states nothing, and the literal stands for it. -/
theorem run_reify (constraint : Constraint Int) {model : Model Int} (coherent : model.Coherent)
    (fits : constraint.Fits model.declared.size) :
    ∃ literal after, (reify constraint).run model = .ok literal after ∧
      (model.Refines after fun _ => True) ∧
      after.Names literal fun assignment => constraint.holds assignment := by
  cases constraint with
  | always => exact run_always coherent
  | equals slot constant => exact run_reify_equals coherent fits.slot_lt constant
  | agree left right => exact run_reify_agree coherent fits.left_lt fits.right_lt
  -- The name was allocated before the parts are turned into literals, which leave it undefined.
  | all parts =>
    obtain ⟨literals, middle, ran, refines, names⟩ :=
      run_reifyParts parts coherent.allocated fits.all
    obtain ⟨after, ran', refines, name⟩ := run_nameConjunction coherent refines names
    refine ⟨.holds (model.atoms + 1), after, ?_, refines, name⟩
    rw [reify, run_bind_ok (run_allocate model), run_bind_ok ran, ran']
  | implies condition consequence =>
    obtain ⟨premise, first, ran, refines, name⟩ :=
      run_reify condition coherent.allocated fits.condition
    obtain ⟨conclusion, second, ran', refines', name'⟩ :=
      run_reify consequence refines.coherent (refines.declared ▸ fits.consequence)
    obtain ⟨after, ran'', refines, name⟩ := run_nameImplication coherent
      (refines.prepend refines' fun _ _ _ => id) (name.refines refines') name'
    refine ⟨.holds (model.atoms + 1), after, ?_, refines, name⟩
    rw [reify, run_bind_ok (run_allocate model), run_bind_ok ran, run_bind_ok ran', ran'']
  | unsupported content => exact nomatch fits.supported

theorem run_reifyParts (parts : List (Constraint Int)) {model : Model Int}
    (coherent : model.Coherent) (fits : Constraint.FitsAll model.declared.size parts) :
    ∃ literals after, (reifyParts parts).run model = .ok literals after ∧
      (model.Refines after fun _ => True) ∧
      List.Forall₂ (fun literal (part : Constraint Int) =>
        after.Names literal fun assignment => part.holds assignment) literals parts := by
  cases parts with
  | nil => exact ⟨[], model, rfl, .refl coherent, .nil⟩
  | cons part rest =>
    obtain ⟨literal, middle, ran, refines, name⟩ := run_reify part coherent fits.head
    obtain ⟨literals, after, ran', refines', names⟩ :=
      run_reifyParts rest refines.coherent (refines.declared ▸ fits.tail)
    refine ⟨literal :: literals, after, ?_, refines.prepend refines' fun _ _ _ => id,
      .cons (name.refines refines') names⟩
    rw [reifyParts, run_bind_ok ran, run_bind_ok ran']
    rfl

end

/-! ### Constraints as clauses -/

/-- What a constraint under guards says: a guard is true or the constraint holds. -/
def Guarded (model : Model Int) (guards : List Literal) (value : (Nat → Int) → Bool)
    (truth : Nat → Bool) : Prop :=
  Clause.satisfied truth guards = true ∨ value (model.decode truth) = true

theorem Guarded.stable {guards : List Literal} {value : (Nat → Int) → Bool}
    (coherent : model.Coherent) (below : Clause.Below model.atoms guards)
    {truth extended : Nat → Bool} (same : SameUpTo model.atoms extended truth)
    (guarded : model.Guarded guards value truth) : model.Guarded guards value extended := by
  rw [Guarded, Clause.satisfied_congr below same, coherent.decode_congr same]
  exact guarded

theorem Conserves.guarded_eq {before after : Model Int} {condition : (Nat → Bool) → Prop}
    (conserves : before.Conserves after condition) (guards : List Literal)
    (value : (Nat → Int) → Bool) : after.Guarded guards value = before.Guarded guards value := by
  funext truth
  rw [Guarded, Guarded, conserves.decode_eq]

/-- A clause for a constant has the guards and its literal, and only the guards if the domain does
not have it. -/
theorem run_compile_equals (coherent : model.Coherent) {guards : List Literal} {slot : Nat}
    (below : Clause.Below model.atoms guards) (inside : slot < model.declared.size)
    (constant : Int) :
    ∃ after, (compile guards (.equals slot constant)).run model = .ok () after ∧
      model.Refines after (model.Guarded guards fun assignment =>
        (Constraint.equals slot constant).holds assignment) := by
  obtain ⟨table, found⟩ := coherent.exists_table inside
  rw [compile, run_bind_ok (run_atomAt found constant)]
  cases found' : table.atom? constant with
  | some atom =>
    have place : (Literal.holds atom).Below model.atoms := coherent.atom_below found found'
    obtain ⟨after, ran, narrows⟩ := run_emit model (guards ++ [.holds atom])
      (List.forall_mem_append.mpr ⟨below, List.forall_mem_singleton.mpr place⟩)
    refine ⟨after, ran, (narrows.refines coherent).congr fun truth admitted => ?_⟩
    simp [Guarded, coherent.atom_eq_holds admitted found found']
  | none =>
    obtain ⟨after, ran, narrows⟩ := run_emit model guards below
    refine ⟨after, ran, (narrows.refines coherent).congr fun truth admitted => ?_⟩
    simp [Guarded, coherent.holds_eq_false admitted found found']

theorem run_compile_agree (coherent : model.Coherent) {guards : List Literal} {left right : Nat}
    (below : Clause.Below model.atoms guards) (leftInside : left < model.declared.size)
    (rightInside : right < model.declared.size) :
    ∃ after, (compile guards (.agree left right)).run model = .ok () after ∧
      model.Refines after (model.Guarded guards fun assignment =>
        (Constraint.agree left right).holds assignment) := by
  obtain ⟨leftTable, foundLeft⟩ := coherent.exists_table leftInside
  obtain ⟨rightTable, foundRight⟩ := coherent.exists_table rightInside
  have bounded := LiteralTable.agreementClauses_below
    (List.forall_mem_map.mp (coherent.table_below foundLeft))
    (List.forall_mem_map.mp (coherent.table_below foundRight))
  obtain ⟨after, ran, narrows⟩ := run_emitAll model
    ((agreementClauses leftTable rightTable).map (guards ++ ·)) (by
      rw [List.forall_mem_map]
      exact fun clause member => List.forall_mem_append.mpr ⟨below, bounded clause member⟩)
  refine ⟨after, ?_, (narrows.refines coherent).congr fun truth admitted => ?_⟩
  · rw [compile, run_bind_ok (run_tableAt foundLeft), run_bind_ok (run_tableAt foundRight), ran]
  · rw [Guarded, holds_agree_iff, ← LiteralTable.agreementClauses_iff
      (coherent.encodes_decode admitted foundLeft) (coherent.encodes_decode admitted foundRight)]
    cases guarded : Clause.satisfied truth guards <;> simp [guarded]

mutual

/-- Compiling a constraint under guards states that a guard is true or the constraint holds. -/
theorem run_compile (constraint : Constraint Int) (guards : List Literal) {model : Model Int}
    (coherent : model.Coherent) (fits : constraint.Fits model.declared.size)
    (below : Clause.Below model.atoms guards) :
    ∃ after, (compile guards constraint).run model = .ok () after ∧
      model.Refines after (model.Guarded guards fun assignment => constraint.holds assignment) := by
  cases constraint with
  | always =>
    refine ⟨model, rfl, (Refines.refl coherent).congr fun truth _ => ?_⟩
    simp [Guarded, Constraint.holds]
  | equals slot constant => exact run_compile_equals coherent below fits.slot_lt constant
  | agree left right => exact run_compile_agree coherent below fits.left_lt fits.right_lt
  | all parts =>
    obtain ⟨after, ran, refines⟩ := run_compileParts parts guards coherent fits.all below
    exact ⟨after, ran, refines.congr fun truth _ => by rw [Guarded, Guarded, Constraint.holds]⟩
  | implies condition consequence =>
    obtain ⟨premise, middle, ran, refines, name⟩ := run_reify condition coherent fits.condition
    have below' : Clause.Below middle.atoms (guards ++ [premise.negate]) :=
      List.forall_mem_append.mpr ⟨below.mono refines.atoms_le,
        List.forall_mem_singleton.mpr name.below.negate⟩
    obtain ⟨after, ran', refines'⟩ := run_compile consequence _ refines.coherent
      (refines.declared ▸ fits.consequence) below'
    refine ⟨after, ?_, refines.prepend (refines'.congr fun truth admitted => ?_)
      fun truth extended same => Guarded.stable coherent below same⟩
    · rw [compile, run_bind_ok ran, ran']
    · have value := name.satisfied_eq truth admitted
      rw [refines.decode_eq] at value
      simp [Guarded, Constraint.holds, refines.decode_eq, value, or_assoc]
  | unsupported content => exact nomatch fits.supported

theorem run_compileParts (parts : List (Constraint Int)) (guards : List Literal) {model : Model Int}
    (coherent : model.Coherent) (fits : Constraint.FitsAll model.declared.size parts)
    (below : Clause.Below model.atoms guards) :
    ∃ after, (compileParts guards parts).run model = .ok () after ∧
      model.Refines after (model.Guarded guards fun assignment =>
        Constraint.holdsAll assignment parts) := by
  cases parts with
  | nil =>
    exact ⟨model, rfl, (Refines.refl coherent).congr fun truth _ => by
      simp [Guarded, Constraint.holdsAll]⟩
  | cons part rest =>
    obtain ⟨middle, ran, refines⟩ := run_compile part guards coherent fits.head below
    obtain ⟨after, ran', refines'⟩ := run_compileParts rest guards refines.coherent
      (refines.declared ▸ fits.tail) (below.mono refines.atoms_le)
    rw [refines.guarded_eq] at refines'
    refine ⟨after, ?_, (refines.trans refines' fun truth extended same =>
      Guarded.stable coherent below same).congr fun truth _ => ?_⟩
    · rw [compileParts, run_bind_ok ran, ran']
    · simp only [Guarded, Constraint.holdsAll, Bool.and_eq_true, or_and_left]

end

end HorizonPlanner.Cnf.Model
