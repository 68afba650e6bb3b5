/-
This file proves that compiling loses nothing and adds nothing.  However a model
was built, the truth assignments that make its clauses true correspond one to
one to the solutions of the network that the calls stated: each yields a
solution, each solution comes from one, and from only one, so every auxiliary
variable is determined.

The correspondence is kept by each call.  Declaring a variable chooses a value
for it, and posting a constraint rules out the solutions that break it.
-/

import Mathlib.Data.Set.Function
import HorizonPlanner.Proofs.Compilation
import HorizonPlanner.Proofs.Declaration

namespace HorizonPlanner.Cnf

/-! ### Building a model -/

/-- One more call on a model. -/
def perform : BuildStep Int → Build Int Unit
  | .declare entry => declare entry
  | .post constraint => post constraint

/-- Some more calls on a model. -/
def performAll : List (BuildStep Int) → Build Int Unit
  | [] => pure ()
  | step :: rest => do
    perform step
    performAll rest

namespace Model

/-- The truth assignments that a model admits correspond one to one to a network's solutions. -/
structure Represents (model : Model Int) (network : Network Int) : Prop where
  coherent : model.Coherent
  declared : model.declared.toList = network.declared
  sound : ∀ truth, model.Admits truth → network.Solution (model.valuesIn truth)
  complete : ∀ values, network.Solution values →
    ∃ truth, model.Admits truth ∧ model.valuesIn truth = values
  unique : ∀ first second, model.Admits first → model.Admits second →
    model.valuesIn first = model.valuesIn second → SameUpTo model.atoms first second

theorem Represents.size_eq {model : Model Int} {network : Network Int}
    (represents : model.Represents network) :
    model.declared.size = network.declared.length := by
  rw [← represents.declared, Array.length_toList]

theorem valuesIn_eq (model : Model Int) (truth : Nat → Bool) :
    model.valuesIn truth = (List.range model.declared.size).map (model.decode truth) := rfl

theorem getElem?_valuesIn {model : Model Int} (truth : Nat → Bool) {slot : Nat}
    (inside : slot < model.declared.size) :
    (model.valuesIn truth)[slot]? = some (model.decode truth slot) := by
  rw [valuesIn_eq, List.getElem?_map, List.getElem?_range inside, Option.map_some]

theorem slotValue_valuesIn {model : Model Int} (truth : Nat → Bool) {slot : Nat}
    (inside : slot < model.declared.size) :
    Network.slotValue (model.valuesIn truth) slot = model.decode truth slot := by
  rw [Network.slotValue, List.getD_eq_getElem?_getD, getElem?_valuesIn truth inside,
    Option.getD_some]

/-- Constraints over the variables there are cannot tell the values from their table entries. -/
theorem holds_valuesIn {model : Model Int} {constraint : Constraint Int}
    (inside : ∀ slot ∈ constraint.slots, slot < model.declared.size) (truth : Nat → Bool) :
    constraint.holds (Network.slotValue (model.valuesIn truth)) =
      constraint.holds (model.decode truth) :=
  Constraint.holds_congr constraint fun slot mentioned =>
    slotValue_valuesIn truth (inside slot mentioned)

/-- The values depend on the propositional variables that were allocated only. -/
theorem Coherent.valuesIn_congr {model : Model Int} (coherent : model.Coherent)
    {first second : Nat → Bool} (same : SameUpTo model.atoms first second) :
    model.valuesIn first = model.valuesIn second := by
  rw [valuesIn_eq, valuesIn_eq, coherent.decode_congr same]

/-- The propositional variable that a table has for a value says that its variable has the value. -/
theorem Coherent.atom_iff_getElem? {model : Model Int} (coherent : model.Coherent)
    {truth : Nat → Bool} (admitted : model.Admits truth) {slot atom : Nat} {value : Int}
    {table : LiteralTable Int} (found : model.tables[slot]? = some table)
    (known : table.atom? value = some atom) :
    truth atom = true ↔ (model.valuesIn truth)[slot]? = some value := by
  have inside := coherent.covered ▸ (Array.getElem?_eq_some_iff.mp found).choose
  rw [(coherent.encodes_decode admitted found).atom_iff known, getElem?_valuesIn truth inside,
    Option.some_inj]

theorem Conserves.valuesIn_eq {before after : Model Int} {condition : (Nat → Bool) → Prop}
    (conserves : before.Conserves after condition) : after.valuesIn = before.valuesIn := by
  funext truth
  rw [Model.valuesIn_eq, Model.valuesIn_eq, conserves.decode_eq, conserves.declared]

theorem represents_empty : (empty : Model Int).Represents .empty where
  coherent := coherent_empty
  declared := rfl
  sound _ _ := ⟨.nil, fun _ member => absurd member List.not_mem_nil⟩
  complete values solution := by
    rw [List.forall₂_nil_left_iff.mp solution.within]
    exact ⟨fun _ => false, ⟨rfl, fun _ member => nomatch member⟩, rfl⟩
  unique _ _ _ _ _ := fun _ positive inside => absurd positive (Nat.not_lt.mpr inside)

/-! ### One more variable -/

section

variable {before after : Model Int} {entry : Variable Int} {table : LiteralTable Int}

theorem Declares.decode_eq (declares : before.Declares after entry table)
    (coherent : before.Coherent) (truth : Nat → Bool) {slot : Nat}
    (inside : slot < before.declared.size) :
    after.decode truth slot = before.decode truth slot := by
  rw [decode, decode, Array.getD_eq_getD_getElem?, Array.getD_eq_getD_getElem?, declares.tables,
    Array.getElem?_push, if_neg (Nat.ne_of_lt (coherent.covered ▸ inside))]

theorem Declares.valuesIn_eq (declares : before.Declares after entry table)
    (coherent : before.Coherent) {truth : Nat → Bool} {value : Int}
    (encodes : table.Encodes truth value) :
    after.valuesIn truth = before.valuesIn truth ++ [value] := by
  have last : after.decode truth before.declared.size = value := by
    rw [decode, Array.getD_eq_getD_getElem?, declares.tables, Array.getElem?_push,
      if_pos coherent.covered.symm, Option.getD_some, encodes.valueIn_eq]
  rw [Model.valuesIn_eq, Model.valuesIn_eq, declares.declared, Array.size_push, List.range_succ,
    List.map_append, List.map_singleton, last]
  refine congrArg (· ++ [value]) (List.map_congr_left fun slot member => ?_)
  exact declares.decode_eq coherent truth (List.mem_range.mp member)

theorem Declares.exists_encodes (declares : before.Declares after entry table)
    {truth : Nat → Bool} (admitted : after.Admits truth) :
    ∃ value ∈ entry.values, table.Encodes truth value := by
  have member : table ∈ after.tables := by
    rw [declares.tables]
    exact Array.mem_push_self
  obtain ⟨value, encodes⟩ := declares.coherent.encodes truth admitted table member
  exact ⟨value, (declares.covers.mem_keys value).mp encodes.mem_keys, encodes⟩

/-- Declaring a variable keeps the correspondence. -/
theorem Declares.represents (declares : before.Declares after entry table)
    {network : Network Int} (represents : before.Represents network)
    (wellFormed : network.WellFormed) : after.Represents (network.extend (.declare entry)) where
  coherent := declares.coherent
  declared := by
    rw [declares.declared, Array.toList_push, represents.declared, Network.extend]
  sound truth admitted := by
    obtain ⟨value, member, encodes⟩ := declares.exists_encodes admitted
    rw [declares.valuesIn_eq represents.coherent encodes]
    exact (Network.solution_extend_declare_iff wellFormed).mpr
      ⟨_, value, rfl, represents.sound truth (declares.sound truth admitted), member⟩
  complete values solution := by
    obtain ⟨earlier, value, rfl, solution, member⟩ :=
      (Network.solution_extend_declare_iff wellFormed).mp solution
    obtain ⟨truth, admitted, rfl⟩ := represents.complete earlier solution
    obtain ⟨extended, same, admitted', encodes⟩ := declares.complete truth value admitted member
    refine ⟨extended, admitted', ?_⟩
    rw [declares.valuesIn_eq represents.coherent encodes, represents.coherent.valuesIn_congr same]
  unique first second admitted admitted' same := by
    obtain ⟨value, _, encodes⟩ := declares.exists_encodes admitted
    obtain ⟨value', _, encodes'⟩ := declares.exists_encodes admitted'
    rw [declares.valuesIn_eq represents.coherent encodes,
      declares.valuesIn_eq represents.coherent encodes'] at same
    obtain ⟨earlier, last⟩ := List.append_inj' same rfl
    obtain rfl : value = value' := List.singleton_inj.mp last
    exact declares.unique first second value admitted admitted'
      (represents.unique first second (declares.sound first admitted)
        (declares.sound second admitted') earlier) encodes encodes'

end

/-! ### One more constraint -/

theorem Represents.holds_eq {model : Model Int} {network : Network Int}
    (represents : model.Represents network) {constraint : Constraint Int}
    (fits : constraint.Fits network.declared.length) (truth : Nat → Bool) :
    constraint.holds (Network.slotValue (model.valuesIn truth)) =
      constraint.holds (model.decode truth) :=
  holds_valuesIn (represents.size_eq ▸ fits.bounded) truth

/-- Posting a constraint keeps the correspondence. -/
theorem Refines.represents {before after : Model Int} {network : Network Int}
    {constraint : Constraint Int}
    (refines : before.Refines after
      (before.Guarded [] fun assignment => constraint.holds assignment))
    (represents : before.Represents network) (fits : constraint.Fits network.declared.length) :
    after.Represents (network.extend (.post constraint)) := by
  have valuesIn_eq := refines.valuesIn_eq
  refine ⟨refines.coherent, ?_, fun truth admitted => ?_, fun values solution => ?_,
    fun first second admitted admitted' same => ?_⟩
  · rw [refines.declared, represents.declared, Network.extend]
  · obtain ⟨admitted, guarded⟩ := refines.sound truth admitted
    rw [valuesIn_eq, Network.solution_extend_post_iff, represents.holds_eq fits]
    exact ⟨represents.sound truth admitted, guarded.resolve_left Bool.false_ne_true⟩
  · obtain ⟨solution, holding⟩ := Network.solution_extend_post_iff.mp solution
    obtain ⟨truth, admitted, rfl⟩ := represents.complete values solution
    rw [represents.holds_eq fits] at holding
    obtain ⟨extended, same, admitted'⟩ := refines.complete truth admitted (Or.inr holding)
    refine ⟨extended, admitted', ?_⟩
    rw [valuesIn_eq, represents.coherent.valuesIn_congr same]
  · rw [valuesIn_eq] at same
    exact refines.unique first second admitted admitted' (represents.unique first second
      (refines.sound first admitted).1 (refines.sound second admitted').1 same)

/-! ### Any sequence of calls -/

theorem run_perform {model : Model Int} {network : Network Int}
    (represents : model.Represents network) (wellFormed : network.WellFormed)
    {step : BuildStep Int} (admitted : network.Admits step) :
    ∃ after, (perform step).run model = .ok () after ∧
      after.Represents (network.extend step) := by
  cases step with
  | declare entry =>
    obtain ⟨after, table, top, ran, enters⟩ := run_declare entry model
    exact ⟨after, ran, (enters.declares represents.coherent).represents represents wellFormed⟩
  | post constraint =>
    let counted := { model with posted := model.posted + 1 }
    have counts : counted.Represents network :=
      { represents with coherent := { represents.coherent with } }
    obtain ⟨after, ran, refines⟩ := run_compile constraint [] counts.coherent
      (counts.size_eq ▸ admitted) (fun _ member => absurd member List.not_mem_nil)
    exact ⟨after, ran, refines.represents counts admitted⟩

/-- Whatever calls built a model, it represents the network that they state. -/
theorem run_performAll {model : Model Int} {network : Network Int}
    (represents : model.Represents network) (wellFormed : network.WellFormed)
    {steps : List (BuildStep Int)} (admitted : network.AdmitsAll steps) :
    ∃ after, (performAll steps).run model = .ok () after ∧
      after.Represents (network.extendAll steps) := by
  induction steps generalizing model network with
  | nil => exact ⟨model, rfl, represents⟩
  | cons step rest inductionHypothesis =>
    obtain ⟨middle, ran, represents⟩ := run_perform represents wellFormed admitted.1
    obtain ⟨after, ran', represents⟩ := inductionHypothesis represents
      (Network.wellFormed_extend wellFormed admitted.1) admitted.2
    exact ⟨after, (run_bind_ok ran).trans ran', represents⟩

end Model

/-! ### Truth assignments of a formula -/

/-- The truth assignment that gives the propositional variables of a formula some truth values, and
is false elsewhere. -/
def assignmentOf {atoms : Nat} (truth : Fin atoms → Bool) (atom : Nat) : Bool :=
  if inside : 0 < atom ∧ atom ≤ atoms then truth ⟨atom - 1, by omega⟩ else false

theorem assignmentOf_restrict (atoms : Nat) (truth : Nat → Bool) :
    SameUpTo atoms (assignmentOf fun place : Fin atoms => truth (place + 1)) truth := by
  intro atom positive inside
  rw [assignmentOf, dif_pos ⟨positive, inside⟩]
  exact congrArg truth (Nat.sub_add_cancel positive)

theorem assignmentOf_inj {atoms : Nat} {first second : Fin atoms → Bool}
    (same : SameUpTo atoms (assignmentOf first) (assignmentOf second)) : first = second := by
  funext place
  have here := same (place + 1) (Nat.succ_pos _) place.isLt
  rw [assignmentOf, assignmentOf, dif_pos ⟨Nat.succ_pos _, place.isLt⟩,
    dif_pos ⟨Nat.succ_pos _, place.isLt⟩] at here
  exact here

theorem Formula.satisfied_iff {formula : Formula} {truth : Nat → Bool} :
    formula.satisfied truth = true ↔
      ∀ clause ∈ formula.clauses, Clause.satisfied truth clause = true := by
  rw [Formula.satisfied, Array.all_eq_true_iff_forall_mem]

namespace Model

theorem admits_iff {model : Model Int} {truth : Nat → Bool} :
    model.Admits truth ↔ model.contradiction = false ∧ model.formula.satisfied truth = true := by
  rw [Admits, Formula.satisfied_iff]
  rfl

/-- A network whose model admits nothing has no solution. -/
theorem Represents.not_solution {model : Model Int} {network : Network Int}
    (represents : model.Represents network) (refuted : ∀ truth, ¬ model.Admits truth) :
    ¬ ∃ values, network.Solution values := by
  rintro ⟨values, solution⟩
  obtain ⟨truth, admitted, _⟩ := represents.complete values solution
  exact refuted truth admitted

theorem not_admits_of_contradiction {model : Model Int} (contradictory : model.contradiction = true)
    (truth : Nat → Bool) : ¬ model.Admits truth := by
  rintro ⟨possible, _⟩
  rw [contradictory] at possible
  cases possible

theorem Represents.bijOn {model : Model Int} {network : Network Int}
    (represents : model.Represents network) (possible : model.contradiction = false) :
    Set.BijOn (fun truth : Fin model.atoms → Bool => model.valuesIn (assignmentOf truth))
      {truth | model.formula.satisfied (assignmentOf truth) = true}
      {values | network.Solution values} := by
  have admits : ∀ truth : Nat → Bool, model.formula.satisfied truth = true ↔ model.Admits truth :=
    fun truth => by rw [admits_iff, possible, and_iff_right rfl]
  refine ⟨fun truth satisfied => ?_, fun first satisfied second satisfied' same => ?_,
    fun values solution => ?_⟩
  · exact represents.sound _ ((admits _).mp satisfied)
  · exact assignmentOf_inj
      (represents.unique _ _ ((admits _).mp satisfied) ((admits _).mp satisfied') same)
  · obtain ⟨truth, admitted, rfl⟩ := represents.complete values solution
    have same := assignmentOf_restrict model.atoms truth
    refine ⟨_, (admits _).mpr ((represents.coherent.admits_congr same).mpr admitted), ?_⟩
    exact represents.coherent.valuesIn_congr same

/-- The literal of a value of a variable is true exactly if the variable has that value. -/
theorem Represents.exists_literal {model : Model Int} {network : Network Int}
    (represents : model.Represents network) {slot : Nat} {entry : Variable Int} {value : Int}
    (declared : network.declared[slot]? = some entry) (member : value ∈ entry.values) :
    ∃ atom, model.literal slot value = .ok atom ∧ 0 < atom ∧ atom ≤ model.atoms ∧
      ∀ truth, model.Admits truth →
        (truth atom = true ↔ (model.valuesIn truth)[slot]? = some value) := by
  have declared' : model.declared[slot]? = some entry := by
    rw [← Array.getElem?_toList, represents.declared, declared]
  obtain ⟨table, found, covers⟩ := represents.coherent.exists_covers declared'
  obtain ⟨atom, found'⟩ := LiteralTable.exists_atom? ((covers.mem_keys value).mpr member)
  have place := represents.coherent.atom_below found found'
  refine ⟨atom, ?_, place.1, place.2, fun truth admitted => ?_⟩
  · rw [literal, found]
    simp only [found']
    rfl
  · exact represents.coherent.atom_iff_getElem? admitted found found'

end Model

/-- Whatever calls built a model: if it records a contradiction, the network has no solution.
Otherwise the truth assignments to its propositional variables that make every clause true
correspond one to one to the solutions, and the literal of a value is true exactly if its variable
has that value. -/
theorem satisfying_bijOn_solutions (steps : List (BuildStep Int))
    (admitted : Network.empty.AdmitsAll steps) :
    ∃ model, (performAll steps).run .empty = .ok () model ∧
      (model.contradiction = true →
        ¬ ∃ values, (Network.empty.extendAll steps).Solution values) ∧
      (model.contradiction = false →
        Set.BijOn (fun truth : Fin model.atoms → Bool => model.valuesIn (assignmentOf truth))
          {truth | model.formula.satisfied (assignmentOf truth) = true}
          {values | (Network.empty.extendAll steps).Solution values} ∧
        ∀ (slot : Nat) (entry : Variable Int),
          (Network.empty.extendAll steps).declared[slot]? = some entry → ∀ value ∈ entry.values,
            ∃ atom, model.literal slot value = .ok atom ∧ 0 < atom ∧ atom ≤ model.atoms ∧
              ∀ truth : Fin model.atoms → Bool,
                model.formula.satisfied (assignmentOf truth) = true →
                  (assignmentOf truth atom = true ↔
                    (model.valuesIn (assignmentOf truth))[slot]? = some value)) := by
  obtain ⟨model, ran, represents⟩ :=
    Model.run_performAll Model.represents_empty Network.wellFormed_empty admitted
  refine ⟨model, ran, fun contradictory => ?_, fun possible => ⟨represents.bijOn possible, ?_⟩⟩
  · exact represents.not_solution (Model.not_admits_of_contradiction contradictory)
  · intro slot entry declared value member
    obtain ⟨atom, found, positive, inside, meaning⟩ := represents.exists_literal declared member
    exact ⟨atom, found, positive, inside, fun truth satisfied =>
      meaning _ (Model.admits_iff.mpr ⟨possible, satisfied⟩)⟩

/-- A ladder, a repeated value, a constant out of the domain and an implication in the condition of
another one. -/
def nestedImplication : List (BuildStep Int) :=
  [.declare ⟨"x", [4, 0, 2, 2, 3, 5]⟩, .declare ⟨"y", [2, 3, 7]⟩,
    .post (.implies (.implies (.equals 0 9) (.agree 0 1)) (.all [.agree 0 1, .always]))]

theorem nestedImplication_admitted : Network.empty.AdmitsAll nestedImplication := by
  refine ⟨trivial, trivial, ⟨rfl, ?_⟩, trivial⟩
  decide

theorem satisfying_bijOn_solutions_nestedImplication :
    ∃ model, (performAll nestedImplication).run .empty = .ok () model ∧
      ∃ truth : Fin model.atoms → Bool, model.formula.satisfied (assignmentOf truth) = true ∧
        model.valuesIn (assignmentOf truth) = [2, 2] := by
  obtain ⟨model, ran, impossible, exact'⟩ :=
    satisfying_bijOn_solutions nestedImplication nestedImplication_admitted
  have solution : (Network.empty.extendAll nestedImplication).Solution [2, 2] :=
    ⟨.cons (by decide) (.cons (by decide) .nil), by unfold Network.Satisfied; decide⟩
  cases contradiction : model.contradiction with
  | true => exact absurd ⟨_, solution⟩ (impossible contradiction)
  | false =>
    obtain ⟨truth, satisfied, values⟩ := (exact' contradiction).1.surjOn solution
    exact ⟨model, ran, truth, satisfied, values⟩

end HorizonPlanner.Cnf
