/-
This file proves that engines answer rightly.  Loaded with an encoding, each
engine holds the network that the encoding states, and without a time limit it
finds a solution or there is none.

A backend for propositional formulas is not part of this library.  What is
assumed of it is that it decides: it refutes a formula that has no model, and
otherwise lists literals that contradict nothing and meet every clause.  Trying
all truth assignments is one way to do so.
-/

import Mathlib.Data.List.Sublists
import HorizonPlanner.Encoding.Sizes
import HorizonPlanner.Proofs.BacktrackingSearch
import HorizonPlanner.Proofs.CompiledNetwork
import HorizonPlanner.Proofs.FixedHorizon

namespace HorizonPlanner

/-- An answer is right about a network: a solution, or that there is none. -/
def Network.Answers (network : Network Int) (answer : Answer Int) : Prop :=
  (answer.status = .satisfiable ∧ network.Solution answer.values) ∨
  (answer.status = .unsatisfiable ∧ ¬ ∃ values, network.Solution values)

namespace Cnf

/-! ### Backends that decide -/

/-- Every clause is over the propositional variables of the formula. -/
def Formula.Proper (formula : Formula) : Prop :=
  ∀ clause ∈ formula.clauses, Clause.Below formula.atoms clause

/-- A list of literals, given by their numbers, that does not contradict itself and meets every
clause of a formula. -/
structure Formula.Listed (formula : Formula) (literals : List Int) : Prop where
  consistent : ∀ atom : Nat, 0 < atom → (atom : Int) ∈ literals → -(atom : Int) ∉ literals
  meets : ∀ clause ∈ formula.clauses, ∃ literal ∈ clause, Literal.number literal ∈ literals

/-- A session decides a formula when it is first asked to. -/
def Session.Decides (session : Session) (formula : Formula) : Prop :=
  (session.answer 0 = .ok (some true) ∧
    ∃ literals, session.model = .ok (some literals) ∧ formula.Listed literals) ∨
  (session.answer 0 = .ok (some false) ∧ ∀ truth, formula.satisfied truth = false)

/-- A backend opens a session on every formula and decides it. -/
def Backend.Exact (backend : Backend) : Prop :=
  ∀ formula : Formula, formula.Proper →
    ∃ session, backend formula = .ok session ∧ session.Decides formula

/-- The truth assignment in which the listed propositional variables are true. -/
def truthOf (literals : List Int) (atom : Nat) : Bool :=
  0 < atom && literals.contains (atom : Int)

theorem Formula.Listed.satisfied {formula : Formula} {literals : List Int} (proper : formula.Proper)
    (listed : formula.Listed literals) : formula.satisfied (truthOf literals) = true := by
  rw [Formula.satisfied_iff]
  intro clause member
  obtain ⟨literal, among, found⟩ := listed.meets clause member
  obtain ⟨positive, _⟩ := proper clause member literal among
  refine List.any_eq_true.mpr ⟨literal, among, ?_⟩
  rw [Literal.number] at found
  rw [Literal.satisfied, truthOf, decide_eq_true positive, Bool.true_and]
  split at found
  next holds => simp [holds, found]
  next fails =>
    have unlisted : (literal.atom : Int) ∉ literals := fun both =>
      listed.consistent literal.atom positive both found
    simp [fails, unlisted]

/-! ### Solving a compiled model -/

theorem Model.Coherent.proper {model : Model Int} (coherent : model.Coherent) :
    model.formula.Proper := coherent.clauses_below

/-- Without a time limit, a compiled model is answered rightly if its backend decides. -/
theorem Model.Represents.solve_answers {model : Model Int} {network : Network Int}
    (represents : model.Represents network) {backend : Backend} (exact' : backend.Exact)
    (name : String) (interruptible : Bool) (clock : Clock) {limit : TimeLimit}
    (unlimited : limit.Absent) (readings : Nat) :
    ∃ answer, (model.solve name backend interruptible clock (.ok limit) readings).outcome =
      .ok answer ∧ network.Answers answer := by
  rw [Model.solve]
  cases contradiction : model.contradiction with
  | true =>
    exact ⟨model.zeros .unsatisfiable, rfl,
      Or.inr ⟨rfl, represents.not_solution (not_admits_of_contradiction contradiction)⟩⟩
  | false =>
    obtain ⟨session, opened, decides⟩ := exact' model.formula represents.coherent.proper
    have asked : inquire session interruptible clock limit readings =
        ⟨session.answer 0, [.solve], readings⟩ := by
      unfold inquire
      rw [unlimited (clock.reading readings)]
    simp only [opened, Model.consult, asked]
    rcases decides with ⟨answered, literals, modeled, listed⟩ | ⟨answered, refuted⟩
    · simp only [answered, Model.conclude, modeled]
      refine ⟨model.answerOf literals, rfl, Or.inl ⟨rfl, ?_⟩⟩
      exact represents.sound _ (Model.admits_iff.mpr
        ⟨contradiction, listed.satisfied represents.coherent.proper⟩)
    · simp only [answered, Model.conclude]
      refine ⟨model.zeros .unsatisfiable, rfl,
        Or.inr ⟨rfl, represents.not_solution fun truth admitted => ?_⟩⟩
      rw [Model.admits_iff, refuted truth] at admitted
      cases admitted.2

/-! ### Trying all truth assignments -/

/-- The numbers of the literals of a truth assignment in which some of the propositional variables
of a formula are true. -/
def literalsOf (atoms : Nat) (chosen : List Nat) : List Int :=
  (List.range' 1 atoms).map fun atom => if atom ∈ chosen then (atom : Int) else -(atom : Int)

/-- A backend that tries one truth assignment after another. -/
def exhaustive : Backend := fun formula =>
  match (List.range' 1 formula.atoms).sublists.find? fun chosen =>
      formula.satisfied fun atom => decide (atom ∈ chosen) with
  | some chosen => .ok ⟨fun _ => .ok (some true), .ok (some (literalsOf formula.atoms chosen))⟩
  | none => .ok ⟨fun _ => .ok (some false), .ok none⟩

theorem mem_range'_iff {atoms atom : Nat} :
    atom ∈ List.range' 1 atoms ↔ 0 < atom ∧ atom ≤ atoms := by
  rw [List.mem_range'_1]
  omega

theorem listed_literalsOf {formula : Formula} (proper : formula.Proper) {chosen : List Nat}
    (satisfied : formula.satisfied (fun atom => decide (atom ∈ chosen)) = true) :
    formula.Listed (literalsOf formula.atoms chosen) where
  consistent atom positive member opposite := by
    obtain ⟨first, inside, same⟩ := List.mem_map.mp member
    obtain ⟨second, _, same'⟩ := List.mem_map.mp opposite
    have place := (mem_range'_iff.mp inside).1
    split at same
    next chosenFirst =>
      split at same'
      next => omega
      next unchosen =>
        obtain rfl : first = second := by omega
        exact unchosen chosenFirst
    next => omega
  meets clause member := by
    obtain ⟨literal, among, true'⟩ :=
      List.any_eq_true.mp (Formula.satisfied_iff.mp satisfied clause member)
    refine ⟨literal, among, List.mem_map.mpr ⟨literal.atom, ?_, ?_⟩⟩
    · exact mem_range'_iff.mpr (proper clause member literal among)
    · rw [Literal.satisfied, beq_iff_eq] at true'
      rw [Literal.number, ← true']
      simp

theorem exhaustive_exact : exhaustive.Exact := by
  intro formula proper
  rw [exhaustive]
  split
  next chosen found =>
    have satisfied := List.find?_some found
    exact ⟨_, rfl, Or.inl ⟨rfl, _, rfl, listed_literalsOf proper satisfied⟩⟩
  next none =>
    refine ⟨_, rfl, Or.inr ⟨rfl, fun truth => ?_⟩⟩
    let chosen := (List.range' 1 formula.atoms).filter truth
    have tried := List.find?_eq_none.mp none chosen (List.mem_sublists.mpr List.filter_sublist)
    have same : SameUpTo formula.atoms (fun atom => decide (atom ∈ chosen)) truth := by
      intro atom positive inside
      rw [Bool.eq_iff_iff, decide_eq_true_eq, List.mem_filter, mem_range'_iff]
      exact and_iff_right ⟨positive, inside⟩
    refine Bool.eq_false_iff.mpr fun satisfied => tried (Formula.satisfied_iff.mpr ?_)
    intro clause member
    rw [Clause.satisfied_congr (proper clause member) same]
    exact Formula.satisfied_iff.mp satisfied clause member

end Cnf

/-! ### Loading an encoding -/

namespace EngineModel

/-- A model of an engine holds a network. -/
inductive Holds : EngineModel Int → Engine → Network Int → Prop where
  | backtracking {model : Backtracking.Model Int} {network : Network Int}
      (holds : model.Holds network) : Holds (.backtracking model) .backtracking network
  | clausal {name : String} {interruptible : Bool} {model : Cnf.Model Int} {network : Network Int}
      (represents : model.Represents network) :
      Holds (.clausal name interruptible model) (.clausal name interruptible) network

/-- One more call on a model. -/
def perform : BuildStep Int → EngineModel Int → Option Fault × EngineModel Int
  | .declare entry => declare entry
  | .post constraint => post constraint

variable {model : EngineModel Int} {engine : Engine} {network : Network Int}

theorem holds_empty (engine : Engine) : Holds (empty engine) engine .empty := by
  cases engine with
  | backtracking => exact .backtracking Backtracking.Model.holds_empty
  | clausal name interruptible => exact .clausal Cnf.Model.represents_empty

theorem holds_perform (holds : model.Holds engine network) (wellFormed : network.WellFormed)
    {step : BuildStep Int} (admitted : network.Admits step) :
    ∃ after, perform step model = (none, after) ∧ after.Holds engine (network.extend step) := by
  cases holds with
  | backtracking holds =>
    cases step with
    | declare entry =>
      exact ⟨_, rfl, .backtracking (Backtracking.Model.holds_declare holds wellFormed entry)⟩
    | post constraint =>
      exact ⟨_, rfl, .backtracking (Backtracking.Model.holds_post holds constraint)⟩
  | @clausal name interruptible model network represents =>
    obtain ⟨after, ran, represents⟩ := Cnf.Model.run_perform represents wellFormed admitted
    refine ⟨.clausal name interruptible after, ?_, .clausal represents⟩
    cases step with
    | declare entry =>
      have ran' : (Cnf.declare entry).run model = .ok () after := ran
      simp only [perform, declare, build, ran']
    | post constraint =>
      have ran' : (Cnf.post constraint).run model = .ok () after := ran
      simp only [perform, post, build, ran']

/-- No call fails that makes sense, and the model holds what was stated. -/
theorem sequence_holds {β : Type} (call : β → BuildStep Int) (items : List β)
    (holds : model.Holds engine network) (wellFormed : network.WellFormed)
    (admitted : network.AdmitsAll (items.map call)) :
    ∃ after, model.sequence (fun item => perform (call item)) items = .ok after ∧
      after.Holds engine (network.extendAll (items.map call)) := by
  induction items generalizing model network with
  | nil => exact ⟨model, rfl, holds⟩
  | cons item rest inductionHypothesis =>
    obtain ⟨middle, called, holds⟩ := holds_perform holds wellFormed admitted.1
    obtain ⟨after, sequenced, holds⟩ :=
      inductionHypothesis holds (Network.wellFormed_extend wellFormed admitted.1) admitted.2
    refine ⟨after, ?_, holds⟩
    rw [sequence, called]
    exact sequenced

end EngineModel

/-- An engine takes every encoding whose constraints are over its variables. -/
theorem Encoding.load_holds (encoding : Encoding) (engine : Engine)
    (wellFormed : encoding.network.WellFormed) :
    ∃ model, encoding.load engine = .ok model ∧ model.Holds engine encoding.network := by
  obtain ⟨declared, declares, holds⟩ := EngineModel.sequence_holds BuildStep.declare
    encoding.declared (EngineModel.holds_empty engine) Network.wellFormed_empty
    (Network.admitsAll_declare _ _)
  have declared_wellFormed := Network.wellFormed_extendAll Network.wellFormed_empty
    (Network.admitsAll_declare .empty encoding.declared)
  have admitted : (Network.empty.extendAll (encoding.declared.map .declare)).AdmitsAll
      (encoding.postings.map fun posting => .post posting.constraint) := by
    rw [Network.extendAll_declare, ← Function.comp_def, ← List.map_map]
    exact Network.admitsAll_post wellFormed
  obtain ⟨model, posts, holds⟩ := EngineModel.sequence_holds
    (fun posting : Posting => BuildStep.post posting.constraint) encoding.postings holds
    declared_wellFormed admitted
  refine ⟨model, ?_, ?_⟩
  · rw [load]
    exact bind_eq_ok_iff.mpr ⟨declared, declares, posts⟩
  · rw [Network.extendAll_declare, ← Function.comp_def, ← List.map_map,
      Network.extendAll_post] at holds
    exact holds

/-! ### Solving without a time limit -/

theorem Backtracking.AnswersFirst.answers {network : Network Int} {answer : Answer Int}
    (first : Backtracking.AnswersFirst network answer) : network.Answers answer := by
  rcases first with ⟨satisfiable, positions, solution, values, _⟩ | ⟨unsatisfiable, none, _⟩
  · refine Or.inl ⟨satisfiable, ?_⟩
    rw [values]
    exact ⟨Network.within_valuesAt solution.placed, solution.satisfied⟩
  · exact Or.inr ⟨unsatisfiable, none⟩

/-- Every engine answers rightly without a time limit; one that compiles to clauses if its backend
decides. -/
theorem EngineModel.Holds.solve_answers {model : EngineModel Int} {engine : Engine}
    {network : Network Int} (holds : model.Holds engine network) (wellFormed : network.WellFormed)
    {backend : Cnf.Backend} (exact' : engine = .backtracking ∨ backend.Exact) (clock : Clock)
    {stated : Value} {limit : TimeLimit} (read : TimeLimit.ofValue stated = .ok limit)
    (unlimited : limit.Absent) (readings : Nat) :
    ∃ answer, (model.solve backend clock stated readings).outcome = .ok answer ∧
      network.Answers answer := by
  cases holds with
  | backtracking holds =>
    obtain ⟨answer, solved, first⟩ := Backtracking.solve_answersFirst holds wellFormed clock
      (unlimited (clock.reading readings))
    refine ⟨answer, ?_, first.answers⟩
    simp only [EngineModel.solve, read]
    exact solved
  | @clausal name interruptible model network represents =>
    have decides := exact'.resolve_left fun impossible => nomatch impossible
    obtain ⟨answer, solved, right⟩ :=
      represents.solve_answers decides name interruptible clock unlimited readings
    refine ⟨answer, ?_, right⟩
    simp only [EngineModel.solve, read]
    exact solved

end HorizonPlanner
