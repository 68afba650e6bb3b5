/-
This file proves that compiling is conservative on its own, apart from what a
model says as a whole.  A truth assignment that makes the clauses of a model true
encodes a value for each variable.  Turning a constraint into a literal lets it
be extended to the new propositional variables in exactly one way, and the
literal then tells whether the constraint holds for these values.  Compiling a
constraint under guards lets it be extended, in one way again, exactly if a guard
is true or the constraint holds.

Of a model that records an empty clause one could say nothing through the truth
assignments that it admits, as there are none.  Its clauses are considered
without the record here, and it is only asked of a step that it adds none.
-/

import Mathlib.Data.List.Induction
import HorizonPlanner.Proofs.EmptyClause
import HorizonPlanner.Proofs.RejectedPost

namespace HorizonPlanner.Cnf.Model

/-! ### The clauses of a model without its record -/

section

variable {model before after : Model Int} {truth : Nat → Bool} {names : List Nat}

theorem admits_pardoned_iff :
    model.pardoned.Admits truth ↔ model.formula.satisfied truth = true := by
  rw [admits_iff]
  exact and_iff_right rfl

/-- If an empty clause is only recorded where the clauses cannot be true anyway, the parts of a
model fit together without the record. -/
theorem Coherent.pardoned (coherent : model.Coherent)
    (possible : ∀ truth, model.pardoned.Admits truth → model.contradiction = false) :
    model.pardoned.Coherent :=
  { coherent with
    encodes := fun truth admitted =>
      coherent.encodes truth ⟨possible truth admitted, admitted.2⟩
    pinned := fun atom found =>
      have ⟨positive, inside, holding⟩ := coherent.pinned atom found
      ⟨positive, inside, fun truth admitted =>
        holding truth ⟨possible truth admitted, admitted.2⟩⟩ }

theorem admits_pardoned_of_grown (grown : before.clauses.toList <+: after.clauses.toList)
    (admitted : after.pardoned.Admits truth) : before.pardoned.Admits truth := by
  refine ⟨rfl, fun clause member => admitted.2 clause ?_⟩
  exact Array.mem_toList_iff.mp (grown.subset (Array.mem_toList_iff.mpr member))

/-- The parts keep fitting together when clauses and auxiliary variables are added, whatever the
clauses say. -/
theorem Adds.coherent_pardoned (adds : before.Adds after names)
    (coherent : before.pardoned.Coherent) : after.pardoned.Coherent where
  covered := by
    show after.tables.size = after.declared.size
    rw [adds.tables, adds.declared]
    exact coherent.covered
  covers := by
    show ∀ (slot : Nat) (table : LiteralTable Int), after.tables[slot]? = some table →
      ∃ entry, after.declared[slot]? = some entry ∧ table.Covers entry.values
    rw [adds.tables, adds.declared]
    exact coherent.covers
  tables_below := by
    show ∀ table ∈ after.tables, ∀ atom ∈ LiteralTable.atoms table, 0 < atom ∧ atom ≤ after.atoms
    rw [adds.tables]
    exact fun table member atom among =>
      have place := coherent.tables_below table member atom among
      ⟨place.1, Nat.le_trans place.2 adds.atoms_le⟩
  clauses_below clause member := by
    obtain ⟨added, same, proper⟩ := adds.clauses
    have among : clause ∈ before.clauses.toList ++ added :=
      same ▸ Array.mem_toList_iff.mpr member
    rcases List.mem_append.mp among with old | new
    · exact (coherent.clauses_below clause (Array.mem_toList_iff.mp old)).mono adds.atoms_le
    · exact (proper clause new).2
  encodes truth admitted := by
    show ∀ table ∈ after.tables, ∃ value, LiteralTable.Encodes table truth value
    rw [adds.tables]
    exact coherent.encodes truth (admits_pardoned_of_grown adds.clauses_prefix admitted)
  pinned atom found := by
    have bounded : after.Bounded := adds.bounded { coherent.bounded with }
    obtain ⟨positive, inside⟩ := bounded.truth atom found
    refine ⟨positive, inside, fun truth admitted => ?_⟩
    have before := admits_pardoned_of_grown adds.clauses_prefix admitted
    rcases adds.pinned atom found with earlier | stated
    · exact (coherent.pinned atom earlier).2.2 truth before
    · simpa using admitted.2 [.holds atom] stated

/-- A variable with a value to choose adds no empty clause. -/
theorem coherent_pardoned_declare (coherent : model.pardoned.Coherent) {entry : Variable Int}
    (inhabited : entry.values ≠ []) : (model.after (.declare entry)).pardoned.Coherent := by
  obtain ⟨plain, table, top, ran, enters⟩ := run_declare entry model.pardoned
  obtain ⟨final, ran', same, -⟩ := run_of_pardoned (oblivious_declare entry) ran
  have declares := enters.declares coherent
  have hashable : ∀ value ∈ entry.values, Symbol.unhashable? value = none := fun _ _ => rfl
  obtain ⟨filled, -, -, adds⟩ := adds_declare model.pardoned hashable
  have grows := (grows_tabled model.pardoned entry filled).trans adds.grows
  rw [Model.after, ran, endOf] at grows
  have possible : ∀ truth, plain.pardoned.Admits truth → plain.contradiction = false := by
    intro truth admitted
    have before : model.pardoned.Admits truth := admits_pardoned_of_grown grows.clauses admitted
    obtain ⟨value, member⟩ := List.exists_mem_of_ne_nil _ inhabited
    obtain ⟨extended, -, chosen, -⟩ := declares.complete truth value before member
    exact chosen.1
  rw [Model.after, ran', endOf, same]
  exact declares.coherent.pardoned possible

end

/-! ### What the clauses of a model encode -/

theorem afterAll_concat (model : Model Int) (uses : List (Use Int)) (use : Use Int) :
    model.afterAll (uses ++ [use]) = (model.afterAll uses).after use := by
  rw [afterAll, List.foldl_append]
  rfl

theorem declared_declare (model : Model Int) (entry : Variable Int) :
    (model.after (.declare entry)).declared = model.declared.push entry := by
  obtain ⟨after, table, top, ran, enters⟩ := run_declare entry model
  rw [Model.after, ran, endOf, enters.declared]

theorem bounded_afterAll (uses : List (Use Int)) : ((empty : Model Int).afterAll uses).Bounded := by
  refine (numbered_empty.useAll fun use _ => ?_).bounded
  cases use with
  | declare entry => exact fun _ _ => rfl
  | _ => trivial

/-- Whatever calls built a model, if no domain is empty its parts fit together without the record
of an empty clause. -/
theorem coherent_pardoned_afterAll {uses : List (Use Int)}
    (inhabited : ∀ entry ∈ ((empty : Model Int).afterAll uses).declared.toList,
      entry.values ≠ []) : ((empty : Model Int).afterAll uses).pardoned.Coherent := by
  induction uses using List.reverseRecOn with
  | nil => exact coherent_empty
  | append_singleton uses use inductionHypothesis =>
    rw [afterAll_concat] at inhabited ⊢
    cases use with
    | declare entry =>
      rw [declared_declare, Array.toList_push, List.forall_mem_append] at inhabited
      exact coherent_pardoned_declare (inductionHypothesis inhabited.1)
        (inhabited.2 entry List.mem_cons_self)
    | post constraint =>
      have adds := adds_post (bounded_afterAll uses) constraint
      rw [adds.declared] at inhabited
      have coherent := inductionHypothesis inhabited
      exact adds.coherent_pardoned { coherent with }
    | solve => exact inductionHypothesis inhabited

/-- The values that a truth assignment encodes.  There is one from the domain of each variable, and
the propositional variable of a value is true exactly if its variable has that value. -/
structure Encoded (model : Model Int) (truth : Nat → Bool) (values : List Int) : Prop where
  within : Network.Within model.declared.toList values
  literal : ∀ slot value atom, model.literal slot value = .ok atom →
    (truth atom = true ↔ values[slot]? = some value)

theorem exists_table_of_literal {model : Model Int} {slot atom : Nat} {value : Int}
    (found : model.literal slot value = .ok atom) :
    ∃ table, model.tables[slot]? = some table ∧ table.atom? value = some atom := by
  unfold literal at found
  split at found
  next => cases found
  next table here =>
    refine ⟨table, here, ?_⟩
    have hashable : Symbol.unhashable? value = none := rfl
    cases known : table.atom? value with
    | none =>
      rw [hashable, known] at found
      cases found
    | some other =>
      rw [hashable, known] at found
      cases found
      rfl

theorem Coherent.encoded {model : Model Int} (coherent : model.Coherent) {truth : Nat → Bool}
    (admitted : model.Admits truth) : model.Encoded truth (model.valuesIn truth) where
  within := by
    refine Network.within_iff_getElem?.mpr ⟨?_, fun slot entry value declared found => ?_⟩
    · rw [valuesIn_eq, List.length_map, List.length_range, Array.length_toList]
    · rw [Array.getElem?_toList] at declared
      obtain ⟨table, found', covers⟩ := coherent.exists_covers declared
      rw [getElem?_valuesIn truth (Array.getElem?_eq_some_iff.mp declared).choose,
        Option.some_inj] at found
      rw [← found, ← covers.mem_keys]
      exact (coherent.encodes_decode admitted found').mem_keys
  literal slot value atom found := by
    obtain ⟨table, found', known⟩ := exists_table_of_literal found
    exact coherent.atom_iff_getElem? admitted found' known

/-! ### Truth assignments that extend another one -/

/-- A truth assignment extends another one over a step that adds to a model: it agrees with it on
the propositional variables that were there, and makes the clauses that were added true.  An empty
clause is never true, so none may have been recorded. -/
structure Extends (before after : Model Int) (truth extended : Nat → Bool) : Prop where
  same : SameUpTo before.atoms extended truth
  clauses : ∀ clause ∈ after.clauses.toList.drop before.clauses.size,
    Clause.satisfied extended clause = true
  unrecorded : after.contradiction = true → before.contradiction = true

section

variable {before plain after : Model Int} {truth : Nat → Bool}

theorem mem_iff_of_grown {first second : Array Clause} (grown : first.toList <+: second.toList)
    (clause : Clause) :
    clause ∈ second ↔ clause ∈ first ∨ clause ∈ second.toList.drop first.size := by
  obtain ⟨added, same⟩ := grown
  rw [← Array.mem_toList_iff, ← Array.mem_toList_iff, ← same, ← Array.length_toList,
    List.drop_left, List.mem_append]

/-- A truth assignment that makes the clauses of a model true is extended by those that make all
clauses true after the step. -/
theorem Coherent.extends_iff (coherent : before.pardoned.Coherent)
    (grown : before.clauses.toList <+: after.clauses.toList)
    (admitted : before.pardoned.Admits truth) (extended : Nat → Bool) :
    before.Extends after truth extended ↔
      SameUpTo before.atoms extended truth ∧ after.pardoned.Admits extended ∧
        (after.contradiction = true → before.contradiction = true) := by
  constructor
  · intro extends'
    refine ⟨extends'.same, ⟨rfl, fun clause member => ?_⟩, extends'.unrecorded⟩
    rcases (mem_iff_of_grown grown clause).mp member with old | new
    · exact ((coherent.admits_congr extends'.same).mpr admitted).2 clause old
    · exact extends'.clauses clause new
  · rintro ⟨same, satisfied, unrecorded⟩
    exact ⟨same, fun clause member =>
      satisfied.2 clause ((mem_iff_of_grown grown clause).mpr (Or.inr member)), unrecorded⟩

/-- If the model has no record of an empty clause, these are the truth assignments that are admitted
after the step. -/
theorem Coherent.extends_iff_admits (coherent : before.Coherent)
    (grown : before.clauses.toList <+: after.clauses.toList) (admitted : before.Admits truth)
    (extended : Nat → Bool) :
    before.Extends after truth extended ↔
      SameUpTo before.atoms extended truth ∧ after.Admits extended := by
  have clear := pardoned_eq_self admitted.1
  rw [extends_iff (clear.symm ▸ coherent) grown (clear.symm ▸ admitted), admitted.1]
  refine and_congr_right fun _ => ?_
  rw [admits_pardoned_iff, admits_iff]
  cases after.contradiction <;> simp

end

/-! ### Constraints as literals -/

/-- What turning a constraint into a literal does to a model, with or without the record of an empty
clause. -/
theorem run_reify_pardoned {model : Model Int} (coherent : model.pardoned.Coherent)
    {constraint : Constraint Int} (fits : constraint.Fits model.declared.size) :
    ∃ literal plain after, (reify constraint).run model = .ok literal after ∧
      model.clauses.toList <+: after.clauses.toList ∧ after.pardoned = plain.pardoned ∧
      (model.pardoned.Refines plain fun _ => True) ∧
      (plain.Names literal fun assignment => constraint.holds assignment) ∧
      (plain.contradiction = false → after.contradiction = true → model.contradiction = true) := by
  obtain ⟨literal, plain, ran, refines, names⟩ := run_reify constraint coherent fits
  obtain ⟨after, ran', same, recorded, clear⟩ := run_of_pardoned (oblivious_reify constraint) ran
  have bounded : model.Bounded := { coherent.bounded with }
  have adds := (ends_reify constraint bounded).adds
  rw [ran', endOf] at adds
  refine ⟨literal, plain, after, ran', adds.clauses_prefix, same, refines, names,
    fun possible contradictory => ?_⟩
  by_contra before
  rw [clear (Bool.eq_false_iff.mpr before), possible] at contradictory
  cases contradictory

/-- In any model without an empty domain, turning a supported constraint into a literal succeeds.
Every truth assignment that makes the clauses of the model true encodes values, and extends in
exactly one way to the new propositional variables; the literal is then true exactly if the
constraint holds for these values. -/
theorem reify_conservative (uses : List (Use Int)) (constraint : Constraint Int) :
    let model := (empty : Model Int).afterAll uses
    (∀ entry ∈ model.declared.toList, entry.values ≠ []) →
    constraint.Fits model.declared.size →
    ∃ literal after, (reify constraint).run model = .ok literal after ∧
      model.clauses.toList <+: after.clauses.toList ∧ model.atoms ≤ after.atoms ∧
      literal.Below after.atoms ∧
      ∀ truth, model.formula.satisfied truth = true →
        model.Encoded truth (model.valuesIn truth) ∧
        ∃ extended, model.Extends after truth extended ∧
          (∀ other, model.Extends after truth other → SameUpTo after.atoms other extended) ∧
          literal.satisfied extended =
            constraint.holds (Network.slotValue (model.valuesIn truth)) := by
  intro model inhabited fits
  have coherent : model.pardoned.Coherent := coherent_pardoned_afterAll inhabited
  obtain ⟨literal, plain, after, ran, grown, same, refines, names, unrecorded⟩ :=
    run_reify_pardoned coherent fits
  have atoms : plain.atoms = after.atoms := (congrArg Model.atoms same).symm
  refine ⟨literal, after, ran, grown, atoms ▸ refines.atoms_le, atoms ▸ names.below,
    fun truth satisfied => ?_⟩
  have admitted := admits_pardoned_iff.mpr satisfied
  obtain ⟨extended, kept, admitted'⟩ := refines.complete truth admitted trivial
  have admits_plain (other : Nat → Bool) : after.pardoned.Admits other ↔ plain.Admits other := by
    rw [same, pardoned_eq_self admitted'.1]
  have extends_iff (other : Nat → Bool) : model.Extends after truth other ↔
      SameUpTo model.atoms other truth ∧ plain.Admits other := by
    rw [coherent.extends_iff grown admitted, and_iff_left (unrecorded admitted'.1), admits_plain]
  refine ⟨{ coherent.encoded admitted with }, extended,
    (extends_iff extended).mpr ⟨kept, admitted'⟩, fun other extends' => ?_, ?_⟩
  · obtain ⟨kept', admitted''⟩ := (extends_iff other).mp extends'
    exact atoms ▸ refines.unique other extended admitted'' admitted' (kept'.trans kept.symm)
  · rw [holds_valuesIn fits.bounded, names.satisfied_eq extended admitted', refines.decode_eq,
      coherent.decode_congr kept]
    rfl

/-- An empty clause is recorded, and names of a condition that was given up are without a
definition. -/
def refutedUses : List (Use Int) :=
  [.declare ⟨"x", [4, 0, 2, 2, 3, 5]⟩, .declare ⟨"y", [2, 3, 7]⟩, .post (.equals 0 9),
    .post (.implies (.all [.agree 0 1, .unsupported (.integer 7)]) (.equals 1 3))]

/-- An implication in the condition of another one, with a constant out of the domain. -/
def nestedCondition : Constraint Int :=
  .implies (.implies (.equals 0 9) (.agree 0 1)) (.all [.agree 0 1, .always])

/-- Both variables have the value two. -/
theorem reify_conservative_refutedUses :
    let model := (empty : Model Int).afterAll refutedUses
    let truth := fun atom => [3, 8, 9, 10, 14].contains atom
    model.contradiction = true ∧ model.valuesIn truth = [2, 2] ∧
      ∃ literal after extended, (reify nestedCondition).run model = .ok literal after ∧
        model.Extends after truth extended ∧ literal.satisfied extended = true := by
  intro model truth
  obtain ⟨literal, after, ran, -, -, -, meaning⟩ :=
    reify_conservative refutedUses nestedCondition (by decide) ⟨rfl, by decide⟩
  obtain ⟨-, extended, extends', -, value⟩ := meaning truth (Formula.satisfied_iff.mpr (by decide))
  exact ⟨rfl, rfl, literal, after, extended, ran, extends', value⟩

/-! ### Constraints as clauses -/

/-- In any model without an empty domain that records no empty clause, compiling a supported
constraint under guards succeeds.  A truth assignment that makes the clauses of the model true
extends to the clauses that are added exactly if a guard is true or the constraint holds for the
values that it encodes, and in at most one way. -/
theorem compile_extends_iff (uses : List (Use Int)) (guards : List Literal)
    (constraint : Constraint Int) :
    let model := (empty : Model Int).afterAll uses
    (∀ entry ∈ model.declared.toList, entry.values ≠ []) → model.contradiction = false →
    Clause.Below model.atoms guards → constraint.Fits model.declared.size →
    ∃ after, (compile guards constraint).run model = .ok () after ∧
      model.clauses.toList <+: after.clauses.toList ∧ model.atoms ≤ after.atoms ∧
      ∀ truth, model.formula.satisfied truth = true →
        model.Encoded truth (model.valuesIn truth) ∧
        ((∃ extended, model.Extends after truth extended) ↔
          (∃ guard ∈ guards, guard.satisfied truth = true) ∨
            constraint.holds (Network.slotValue (model.valuesIn truth)) = true) ∧
        ∀ first second, model.Extends after truth first → model.Extends after truth second →
          SameUpTo after.atoms first second := by
  intro model inhabited possible below fits
  have clear : model.pardoned = model := pardoned_eq_self possible
  have coherent : model.Coherent := clear ▸ coherent_pardoned_afterAll inhabited
  obtain ⟨after, ran, refines⟩ := run_compile constraint guards coherent fits below
  have adds := (ends_compile constraint coherent.bounded below).adds
  rw [ran, endOf] at adds
  refine ⟨after, ran, adds.clauses_prefix, refines.atoms_le, fun truth satisfied => ?_⟩
  have admitted : model.Admits truth := admits_iff.mpr ⟨possible, satisfied⟩
  have extends_iff := coherent.extends_iff_admits adds.clauses_prefix admitted
  refine ⟨coherent.encoded admitted, ?_, fun first second extends' extends'' => ?_⟩
  · rw [exists_congr extends_iff, holds_valuesIn fits.bounded, ← List.any_eq_true]
    constructor
    · rintro ⟨extended, kept, admitted'⟩
      have guarded := (refines.sound extended admitted').2
      exact Guarded.stable coherent below kept.symm guarded
    · exact refines.complete truth admitted
  · obtain ⟨kept, admitted'⟩ := (extends_iff first).mp extends'
    obtain ⟨kept', admitted''⟩ := (extends_iff second).mp extends''
    exact refines.unique first second admitted' admitted'' (kept.trans kept'.symm)

/-- The guard says that the second variable is three.  It is two here, so nothing extends the truth
assignment that gives the first variable the same value. -/
theorem compile_extends_iff_interruptedUses :
    let model := (empty : Model Int).afterAll interruptedUses
    let differing := fun atom => [1, 3].contains atom
    let agreeing := fun atom => [2, 3, 6].contains atom
    ∃ after, (compile [.holds 4] (.implies (.agree 0 1) (.equals 0 9))).run model = .ok () after ∧
      (∃ extended, model.Extends after differing extended) ∧
      ¬ ∃ extended, model.Extends after agreeing extended := by
  intro model differing agreeing
  obtain ⟨after, ran, -, -, meaning⟩ :=
    compile_extends_iff interruptedUses [.holds 4] (.implies (.agree 0 1) (.equals 0 9))
      (by decide) rfl (List.forall_mem_singleton.mpr ⟨by decide, by decide⟩) ⟨rfl, by decide⟩
  obtain ⟨-, extends_iff, -⟩ := meaning differing (Formula.satisfied_iff.mpr (by decide))
  obtain ⟨-, extends_iff', -⟩ := meaning agreeing (Formula.satisfied_iff.mpr (by decide))
  refine ⟨after, ran, extends_iff.mpr (by decide), fun extended => ?_⟩
  exact absurd (extends_iff'.mp extended) (by decide)

end HorizonPlanner.Cnf.Model
