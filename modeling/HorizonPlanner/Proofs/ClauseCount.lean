/-
This file counts what compiling takes.  Declaring a variable takes a number of
propositional variables and clauses that depends on the size of its domain only.
A constraint takes clauses but no propositional variables if its constants are
from the domains and no condition is more than a comparison with a constant;
how many clauses is counted along the constraint, whatever the guards are under
which it is compiled.
-/

import Mathlib.Algebra.Ring.Nat
import HorizonPlanner.Proofs.Engines

namespace HorizonPlanner

/-! ### What a constraint takes -/

/-- The number of clauses that a constraint over some variables takes, if it takes no propositional
variables. -/
inductive Constraint.Takes (declared : List (Variable Int)) : Constraint Int → Nat → Prop
  | always : Takes declared .always 0
  | equals {slot : Nat} {constant : Int} {entry : Variable Int}
      (found : declared[slot]? = some entry) (member : constant ∈ entry.values) :
      Takes declared (.equals slot constant) 1
  | agree {left right : Nat} {entry entry' : Variable Int}
      (found : declared[left]? = some entry) (found' : declared[right]? = some entry')
      (same : entry.values = entry'.values) (distinct : entry.values.Nodup) :
      Takes declared (.agree left right) entry.values.length
  | none : Takes declared (.all []) 0
  | more {part : Constraint Int} {rest : List (Constraint Int)} {count others : Nat}
      (first : Takes declared part count) (later : Takes declared (.all rest) others) :
      Takes declared (.all (part :: rest)) (count + others)
  | implies {slot : Nat} {constant : Int} {entry : Variable Int} {consequence : Constraint Int}
      {count : Nat} (found : declared[slot]? = some entry) (member : constant ∈ entry.values)
      (later : Takes declared consequence count) :
      Takes declared (.implies (.equals slot constant) consequence) count

namespace Constraint

variable {declared : List (Variable Int)}

theorem Takes.append {first second : List (Constraint Int)} {count others : Nat}
    (takes : Takes declared (.all first) count) (takes' : Takes declared (.all second) others) :
    Takes declared (.all (first ++ second)) (count + others) := by
  induction first generalizing count with
  | nil =>
    cases takes
    rwa [Nat.zero_add]
  | cons part rest inductionHypothesis =>
    cases takes with
    | more here later =>
      rw [Nat.add_assoc]
      exact .more here (inductionHypothesis later)

theorem takes_flatMap {β : Type} {items : List β} {image : β → List (Constraint Int)}
    {count : β → Nat} (takes : ∀ item ∈ items, Takes declared (.all (image item)) (count item)) :
    Takes declared (.all (items.flatMap image)) (items.map count).sum := by
  induction items with
  | nil => exact .none
  | cons item rest inductionHypothesis =>
    obtain ⟨here, there⟩ := List.forall_mem_cons.mp takes
    rw [List.flatMap_cons, List.map_cons, List.sum_cons]
    exact here.append (inductionHypothesis there)

theorem takes_map {β : Type} {items : List β} {image : β → Constraint Int} {count : β → Nat}
    (takes : ∀ item ∈ items, Takes declared (image item) (count item)) :
    Takes declared (.all (items.map image)) (items.map count).sum := by
  induction items with
  | nil => exact .none
  | cons item rest inductionHypothesis =>
    obtain ⟨here, there⟩ := List.forall_mem_cons.mp takes
    exact .more here (inductionHypothesis there)

/-- What always holds takes nothing, so it may be left out. -/
theorem Takes.filter {parts : List (Constraint Int)} {count : Nat}
    (takes : Takes declared (.all parts) count) :
    Takes declared (.all (parts.filter fun part => !part.isAlways)) count := by
  induction parts generalizing count with
  | nil => exact takes
  | cons part rest inductionHypothesis =>
    cases takes with
    | more here later =>
      cases trivial : part.isAlways with
      | true =>
        cases here with
        | always =>
          rw [Nat.zero_add]
          exact inductionHypothesis later
        | _ => cases trivial
      | false =>
        rw [List.filter_cons_of_pos (by rw [trivial]; rfl)]
        exact .more here (inductionHypothesis later)

theorem Takes.conjunction {parts : List (Constraint Int)} {count : Nat}
    (takes : Takes declared (.all parts) count) :
    Takes declared (Constraint.conjunction parts) count := by
  have kept := takes.filter
  rw [Constraint.conjunction]
  split
  next none =>
    rw [none] at kept
    cases kept
    exact .always
  next part single =>
    rw [single] at kept
    cases kept with
    | more first later =>
      cases later
      exact first
  next => exact kept

end Constraint

namespace Cnf

/-! ### What a variable takes -/

/-- The number of propositional variables that a variable takes. -/
def choiceAtoms (values : Nat) : Nat := values + rungCount values

/-- The number of clauses that a variable takes; that one of its values is taken cannot be stated by
a clause if there is none. -/
def choiceClauses (values : Nat) : Nat := (if values = 0 then 0 else 1) + exclusionCount values

/-! ### The size of a table -/

theorem LiteralTable.Covers.length_eq {table : LiteralTable Int} {values : List Int}
    (covers : table.Covers values) (distinct : values.Nodup) : table.length = values.length := by
  have same : table.keys.Perm values :=
    (List.perm_ext_iff_of_nodup covers.keys_nodup distinct).mpr covers.mem_keys
  rw [← same.length_eq, LiteralTable.keys, List.length_map]

/-- Two variables with one domain agree if each value of the one implies the same of the other. -/
theorem length_agreementClauses {left right : LiteralTable Int} {values : List Int}
    (leftCovers : left.Covers values) (rightCovers : right.Covers values)
    (distinct : values.Nodup) : (agreementClauses left right).length = values.length := by
  have none : unmatched left right = [] := by
    rw [unmatched, List.map_eq_nil_iff, List.filter_eq_nil_iff]
    intro entry member missing
    have missing := LiteralTable.atom?_eq_none_iff.mp (Option.isNone_iff_eq_none.mp missing)
    rw [leftCovers.mem_keys, ← rightCovers.mem_keys] at missing
    exact missing (LiteralTable.key_mem member)
  rw [agreementClauses, none, matched, List.map_nil, List.append_nil, List.length_map,
    List.length_map, leftCovers.length_eq distinct]

namespace Model

/-! ### Steps that add clauses -/

/-- A step adds a number of clauses, and nothing else that another step would look at. -/
structure Gains (before after : Model Int) (count : Nat) : Prop where
  tables : after.tables = before.tables
  atoms : after.atoms = before.atoms
  posted : after.posted = before.posted
  size : after.clauses.size = before.clauses.size + count

/-- Every variable has a table for its domain. -/
def Tabled (model : Model Int) (declared : List (Variable Int)) : Prop :=
  ∀ (slot : Nat) entry, declared[slot]? = some entry →
    ∃ table, model.tables[slot]? = some table ∧ LiteralTable.Covers table entry.values

section

variable {before middle after model : Model Int} {count others : Nat}

theorem Gains.refl (model : Model Int) : model.Gains model 0 := ⟨rfl, rfl, rfl, rfl⟩

theorem Gains.trans (first : before.Gains middle count) (second : middle.Gains after others) :
    before.Gains after (count + others) where
  tables := second.tables.trans first.tables
  atoms := second.atoms.trans first.atoms
  posted := second.posted.trans first.posted
  size := by rw [second.size, first.size, Nat.add_assoc]

theorem Tabled.gains {declared : List (Variable Int)} (tabled : before.Tabled declared)
    (gains : before.Gains after count) : after.Tabled declared := by
  rw [Tabled, gains.tables]
  exact tabled

theorem Represents.tabled {network : Network Int} (represents : model.Represents network) :
    model.Tabled network.declared := by
  intro slot entry found
  rw [← represents.declared, Array.getElem?_toList] at found
  exact represents.coherent.exists_covers found

theorem run_emit_gains (model : Model Int) (clause : Clause) :
    ∃ after, (emit clause).run model = .ok () after ∧
      model.Gains after (if clause = [] then 0 else 1) := by
  cases clause with
  | nil => exact ⟨_, rfl, rfl, rfl, rfl, rfl⟩
  | cons literal rest => exact ⟨_, rfl, rfl, rfl, rfl, Array.size_push _⟩

theorem run_emitAll_gains (model : Model Int) {clauses : List Clause}
    (nonempty : ∀ clause ∈ clauses, clause ≠ []) :
    ∃ after, (emitAll clauses).run model = .ok () after ∧ model.Gains after clauses.length := by
  induction clauses generalizing model with
  | nil => exact ⟨model, rfl, .refl model⟩
  | cons clause rest inductionHypothesis =>
    obtain ⟨here, there⟩ := List.forall_mem_cons.mp nonempty
    obtain ⟨middle, ran, gains⟩ := run_emit_gains model clause
    obtain ⟨after, ran', gains'⟩ := inductionHypothesis middle there
    rw [if_neg here] at gains
    refine ⟨after, ?_, ?_⟩
    · rw [emitAll, run_bind_ok ran, ran']
    · rw [List.length_cons, Nat.add_comm]
      exact gains.trans gains'

/-- Compiling a constraint adds the clauses that it takes, under whatever guards. -/
theorem run_compile_gains {declared : List (Variable Int)} {constraint : Constraint Int}
    (takes : constraint.Takes declared count) (guards : List Literal)
    (tabled : model.Tabled declared) :
    ∃ after, (compile guards constraint).run model = .ok () after ∧ model.Gains after count := by
  induction takes generalizing guards model with
  | always => exact ⟨model, rfl, .refl model⟩
  | @equals slot constant entry found member =>
    obtain ⟨table, known, covers⟩ := tabled slot entry found
    obtain ⟨atom, sought⟩ := LiteralTable.exists_atom? ((covers.mem_keys constant).mpr member)
    obtain ⟨after, ran, gains⟩ := run_emit_gains model (guards ++ [.holds atom])
    rw [if_neg (List.append_ne_nil_of_right_ne_nil _ (List.cons_ne_nil _ _))] at gains
    refine ⟨after, ?_, gains⟩
    rw [compile, run_bind_ok (run_atomAt known constant), sought]
    exact ran
  | @agree left right entry entry' found found' same distinct =>
    obtain ⟨table, known, covers⟩ := tabled left entry found
    obtain ⟨table', known', covers'⟩ := tabled right entry' found'
    rw [← same] at covers'
    have nonempty : ∀ clause ∈ (agreementClauses table table').map (guards ++ ·), clause ≠ [] := by
      rw [List.forall_mem_map]
      exact fun clause member => List.append_ne_nil_of_right_ne_nil _
        (LiteralTable.agreementClauses_nonempty table table' clause member)
    obtain ⟨after, ran, gains⟩ := run_emitAll_gains model nonempty
    rw [List.length_map, length_agreementClauses covers covers' distinct] at gains
    refine ⟨after, ?_, gains⟩
    rw [compile, run_bind_ok (run_tableAt known), run_bind_ok (run_tableAt known'), ran]
  | none => exact ⟨model, rfl, .refl model⟩
  | more first later inductionHypothesis inductionHypothesis' =>
    obtain ⟨middle, ran, gains⟩ := inductionHypothesis guards tabled
    obtain ⟨after, ran', gains'⟩ := inductionHypothesis' guards (tabled.gains gains)
    refine ⟨after, ?_, gains.trans gains'⟩
    rw [compile] at ran' ⊢
    rw [compileParts, run_bind_ok ran, ran']
  | @implies slot constant entry consequence count found member later inductionHypothesis =>
    obtain ⟨table, known, covers⟩ := tabled slot entry found
    obtain ⟨atom, sought⟩ := LiteralTable.exists_atom? ((covers.mem_keys constant).mpr member)
    have premise : (reify (.equals slot constant)).run model = .ok (.holds atom) model := by
      rw [reify, run_bind_ok (run_atomAt known constant), sought]
      rfl
    rw [compile, run_bind_ok premise]
    exact inductionHypothesis _ tabled

end

/-! ### Declaring a variable -/

theorem run_declare_sizes (model : Model Int) {entry : Variable Int}
    (distinct : entry.values.Nodup) :
    ∃ after, (declare entry).run model = .ok () after ∧ after.posted = model.posted ∧
      after.atoms = model.atoms + choiceAtoms entry.values.length ∧
      after.clauses.size = model.clauses.size + choiceClauses entry.values.length := by
  let entered := { model with declared := model.declared.push entry }
  obtain ⟨table, filled, numbered, tabulates⟩ :=
    exists_extension entry.values entered LiteralTable.tabulates_nil fun _ _ => rfl
  rw [List.nil_append] at filled tabulates
  have covers : LiteralTable.Covers table entry.values := tabulates.covers (by
    rw [LiteralTable.atoms, numbered]
    exact List.nodup_range')
  have count : table.atoms.length = entry.values.length := by
    rw [LiteralTable.atoms, List.length_map, covers.length_eq distinct]
  let tabled := { entered with
    atoms := model.atoms + table.length, tables := model.tables.push table }
  obtain ⟨stated, emitted, gains⟩ := run_emit_gains tabled (table.atoms.map .holds)
  let after := { stated with
    atoms := stated.atoms + rungCount table.atoms.length
    clauses := stated.clauses ++ atMostOneClauses (stated.atoms + 1) table.atoms }
  have excluded : (excludeAll table.atoms).run stated = .ok () after := rfl
  have stating : table.atoms.map Literal.holds = [] ↔ entry.values.length = 0 := by
    rw [List.map_eq_nil_iff, ← List.length_eq_zero_iff, count]
  refine ⟨after, ?_, gains.posted, ?_, ?_⟩
  · rw [declare, EStateM.run_bind, EStateM.run_modify]
    refine (run_bind_ok filled).trans ?_
    rw [EStateM.run_bind, EStateM.run_modify]
    exact (run_bind_ok emitted).trans excluded
  · show stated.atoms + rungCount table.atoms.length = _
    rw [gains.atoms, count, choiceAtoms, ← Nat.add_assoc, ← covers.length_eq distinct]
  · show (stated.clauses ++ atMostOneClauses (stated.atoms + 1) table.atoms).size = _
    rw [← Array.length_toList, Array.toList_appendList, List.length_append, Array.length_toList,
      gains.size, length_atMostOneClauses, count, choiceClauses,
      Nat.add_assoc]
    simp only [stating]
    rfl

/-! ### The size of a model -/

/-- A model that represents a network has a number of propositional variables and clauses, and it
counted the constraints of the network. -/
structure Weighs (model : Model Int) (network : Network Int) (atoms clauses : Nat) : Prop where
  represents : model.Represents network
  posted_eq : model.posted = network.constraints.length
  atoms_eq : model.atoms = atoms
  size_eq : model.clauses.size = clauses

section

variable {model : Model Int} {network : Network Int} {atoms clauses : Nat}

theorem Weighs.declare (weighs : model.Weighs network atoms clauses)
    (wellFormed : network.WellFormed) {entry : Variable Int} (distinct : entry.values.Nodup) :
    ∃ after, (Cnf.declare entry).run model = .ok () after ∧
      after.Weighs (network.extend (.declare entry)) (atoms + choiceAtoms entry.values.length)
        (clauses + choiceClauses entry.values.length) := by
  have admitted : network.Admits (.declare entry) := trivial
  obtain ⟨after, ran, represents⟩ := run_perform weighs.represents wellFormed admitted
  obtain ⟨after', ran', posted_eq, atoms_eq, size_eq⟩ := run_declare_sizes model distinct
  cases ran'.symm.trans ran
  exact ⟨after, ran', represents, posted_eq.trans weighs.posted_eq,
    by rw [atoms_eq, weighs.atoms_eq], by rw [size_eq, weighs.size_eq]⟩

theorem Weighs.post (weighs : model.Weighs network atoms clauses)
    (wellFormed : network.WellFormed) {constraint : Constraint Int}
    (fits : constraint.Fits network.declared.length) {count : Nat}
    (takes : constraint.Takes network.declared count) :
    ∃ after, (Cnf.post constraint).run model = .ok () after ∧
      after.Weighs (network.extend (.post constraint)) atoms (clauses + count) := by
  have admitted : network.Admits (.post constraint) := fits
  obtain ⟨after, ran, represents⟩ := run_perform weighs.represents wellFormed admitted
  let counted := { model with posted := model.posted + 1 }
  have tabled : counted.Tabled network.declared := weighs.represents.tabled
  obtain ⟨after', ran', gains⟩ := run_compile_gains takes [] tabled
  cases ran'.symm.trans ran
  refine ⟨after, ran', represents, ?_, by rw [gains.atoms, ← weighs.atoms_eq],
    by rw [gains.size, ← weighs.size_eq]⟩
  rw [gains.posted, Network.extend, List.length_append, List.length_singleton, ← weighs.posted_eq]

end

end Model

end Cnf

/-! ### Loading an encoding -/

namespace EngineModel

variable {model : Cnf.Model Int} {network : Network Int} {atoms clauses : Nat}

theorem sequence_declare_weighs (name : String) (interruptible : Bool)
    (weighs : model.Weighs network atoms clauses) (wellFormed : network.WellFormed)
    {entries : List (Variable Int)} (distinct : ∀ entry ∈ entries, entry.values.Nodup) :
    ∃ after, (EngineModel.clausal name interruptible model).sequence declare entries =
        .ok (.clausal name interruptible after) ∧
      after.Weighs (network.extendAll (entries.map .declare))
        (atoms + (entries.map fun entry => Cnf.choiceAtoms entry.values.length).sum)
        (clauses + (entries.map fun entry => Cnf.choiceClauses entry.values.length).sum) := by
  induction entries generalizing model network atoms clauses with
  | nil => exact ⟨model, rfl, weighs⟩
  | cons entry rest inductionHypothesis =>
    obtain ⟨here, there⟩ := List.forall_mem_cons.mp distinct
    obtain ⟨middle, ran, weighs⟩ := weighs.declare wellFormed here
    obtain ⟨after, sequenced, weighs⟩ := inductionHypothesis weighs
      (Network.wellFormed_extend wellFormed trivial) there
    refine ⟨after, ?_, ?_⟩
    · simp only [sequence, declare, build, ran]
      exact sequenced
    · rw [List.map_cons, List.map_cons, List.map_cons, List.sum_cons, List.sum_cons,
        ← Nat.add_assoc, ← Nat.add_assoc]
      exact weighs

theorem sequence_post_weighs (name : String) (interruptible : Bool)
    (weighs : model.Weighs network atoms clauses) (wellFormed : network.WellFormed)
    {postings : List Posting}
    (fits : ∀ posting ∈ postings, posting.constraint.Fits network.declared.length) {count : Nat}
    (takes : Constraint.Takes network.declared (.all (postings.map Posting.constraint)) count) :
    ∃ after, (EngineModel.clausal name interruptible model).sequence
        (fun posting => post posting.constraint) postings =
        .ok (.clausal name interruptible after) ∧
      after.Weighs (network.extendAll (postings.map fun posting => .post posting.constraint)) atoms
        (clauses + count) := by
  induction postings generalizing model network clauses count with
  | nil =>
    cases takes
    exact ⟨model, rfl, weighs⟩
  | cons posting rest inductionHypothesis =>
    obtain ⟨here, there⟩ := List.forall_mem_cons.mp fits
    cases takes with
    | more first later =>
      obtain ⟨middle, ran, weighs⟩ := weighs.post wellFormed here first
      obtain ⟨after, sequenced, weighs⟩ := inductionHypothesis weighs
        (Network.wellFormed_extend wellFormed here) there later
      refine ⟨after, ?_, ?_⟩
      · simp only [sequence, post, build, ran]
        exact sequenced
      · rw [← Nat.add_assoc]
        exact weighs

end EngineModel

/-- What an encoding takes of an engine that compiles to clauses.  Its constraints take no
propositional variables beyond those of its variables. -/
theorem Encoding.load_weighs (encoding : Encoding) (name : String) (interruptible : Bool)
    (wellFormed : encoding.network.WellFormed)
    (distinct : ∀ entry ∈ encoding.declared, entry.values.Nodup) {count : Nat}
    (takes : Constraint.Takes encoding.declared (.all encoding.network.constraints) count) :
    ∃ declared model, (EngineModel.empty (.clausal name interruptible)).sequence
          EngineModel.declare encoding.declared = .ok (.clausal name interruptible declared) ∧
      encoding.load (.clausal name interruptible) = .ok (.clausal name interruptible model) ∧
      declared.atoms = model.atoms ∧
      model.Weighs encoding.network
        (encoding.declared.map fun entry => Cnf.choiceAtoms entry.values.length).sum
        ((encoding.declared.map fun entry => Cnf.choiceClauses entry.values.length).sum +
          count) := by
  have empty : (Cnf.Model.empty : Cnf.Model Int).Weighs .empty 0 0 :=
    ⟨Cnf.Model.represents_empty, rfl, rfl, rfl⟩
  obtain ⟨declared, declares, weighs⟩ := EngineModel.sequence_declare_weighs name interruptible
    empty Network.wellFormed_empty distinct
  rw [Network.extendAll_declare, Nat.zero_add, Nat.zero_add] at weighs
  have stated : (⟨encoding.declared, []⟩ : Network Int).WellFormed :=
    fun _ member => absurd member List.not_mem_nil
  obtain ⟨model, posts, weighs'⟩ := EngineModel.sequence_post_weighs name interruptible weighs
    stated (List.forall_mem_map.mp wellFormed) takes
  rw [← Function.comp_def, ← List.map_map, Network.extendAll_post] at weighs'
  refine ⟨declared, model, declares, ?_, weighs.atoms_eq.trans weighs'.atoms_eq.symm, weighs'⟩
  rw [load]
  exact bind_eq_ok_iff.mpr ⟨_, declares, posts⟩

end HorizonPlanner
