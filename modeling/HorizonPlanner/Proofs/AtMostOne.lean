/-
This file proves that the clauses about several propositional variables say no
more and no less than that at most one of them is true.  Whatever the truth of
the variables of a model, the auxiliary variables can be given values that make
the clauses true exactly if no two of the excluded variables are true.

If none of them is true the rungs of a ladder are free to start anywhere, so the
values are not determined.  If one is true they are: the rungs below it must be
false, since it is true, and those from it on must be true.
-/

import HorizonPlanner.Proofs.ExactlyOne
import HorizonPlanner.Cnf.Model

namespace HorizonPlanner.Cnf

/-! ### How many are true -/

section

variable {truth extended : Nat → Bool} {bound free : Nat} {atoms : List Nat}

/-- No two of a list of propositional variables are true if at most one place in the list has a
true one. -/
theorem exclusive_iff_countP_le : Exclusive truth atoms ↔ atoms.countP truth ≤ 1 := by
  induction atoms with
  | nil => simp [Exclusive]
  | cons atom rest inductionHypothesis =>
    rw [exclusive_cons_iff, inductionHypothesis]
    cases here : truth atom with
    | true =>
      have none : (∀ other ∈ rest, truth other = false) ↔ rest.countP truth = 0 := by
        simp [List.countP_eq_zero]
      rw [List.countP_cons_of_pos here, none, forall_prop_of_true rfl]
      omega
    | false => simp [here]

theorem countP_congr_of_sameUpTo (inside : ∀ atom ∈ atoms, 0 < atom ∧ atom ≤ bound)
    (same : SameUpTo bound extended truth) : atoms.countP extended = atoms.countP truth :=
  List.countP_congr fun atom member => by
    rw [same atom (inside atom member).1 (inside atom member).2]

/-! ### The clauses -/

/-- Clauses that are true allow no two of the variables to be true, whatever the auxiliary variables
are. -/
theorem exclusive_of_atMostOneClauses
    (satisfied : ∀ clause ∈ atMostOneClauses free atoms, Clause.satisfied truth clause = true) :
    Exclusive truth atoms := by
  by_cases started : ∃ atom ∈ atoms, truth atom = true
  · exact ((atMostOneClauses_iff started).mp satisfied).1
  · exact List.pairwise_of_forall_mem_list fun atom member _ _ both =>
      started ⟨atom, member, both.1⟩

/-- If no two of the variables are true, auxiliary variables with the values that the list gives
them make the clauses true, even if no variable is true. -/
theorem atMostOneClauses_of_settled (exclusive : Exclusive truth atoms)
    (settled : Settled truth free atoms) :
    ∀ clause ∈ atMostOneClauses free atoms, Clause.satisfied truth clause = true := by
  rw [Settled, rungCount] at settled
  rw [atMostOneClauses]
  split
  next short => exact pairwiseClauses_iff.mpr exclusive
  next long =>
    rw [if_neg long] at settled
    rw [pairwiseLimit] at long
    exact ladderClauses_of_climbed (by omega) exclusive settled

/-! ### Truth assignments that are extended -/

/-- A truth assignment is extended by one that agrees with it on the propositional variables up to a
bound and makes some clauses true. -/
structure ExtendedBy (bound : Nat) (clauses : List Clause) (truth extended : Nat → Bool) :
    Prop where
  same : SameUpTo bound extended truth
  satisfied : ∀ clause ∈ clauses, Clause.satisfied extended clause = true

/-- Auxiliary variables for the clauses can be found exactly if at most one variable is true. -/
theorem exists_extendedBy_iff (inside : ∀ atom ∈ atoms, 0 < atom ∧ atom ≤ bound) :
    (∃ extended, ExtendedBy bound (atMostOneClauses (bound + 1) atoms) truth extended) ↔
      atoms.countP truth ≤ 1 := by
  constructor
  · rintro ⟨extended, same, satisfied⟩
    rw [← countP_congr_of_sameUpTo inside same, ← exclusive_iff_countP_le]
    exact exclusive_of_atMostOneClauses satisfied
  · intro few
    obtain ⟨settled, same, values⟩ := exists_settled truth fun atom member => (inside atom member).2
    rw [← countP_congr_of_sameUpTo inside same, ← exclusive_iff_countP_le] at few
    exact ⟨settled, same, atMostOneClauses_of_settled few values⟩

/-- If a variable is true, the auxiliary variables have the values that the list gives them. -/
theorem ExtendedBy.settled (extends' :
      ExtendedBy bound (atMostOneClauses (bound + 1) atoms) truth extended)
    (inside : ∀ atom ∈ atoms, 0 < atom ∧ atom ≤ bound) (started : 0 < atoms.countP truth) :
    Settled extended (bound + 1) atoms := by
  rw [← countP_congr_of_sameUpTo inside extends'.same, List.countP_pos_iff] at started
  exact ((atMostOneClauses_iff started).mp extends'.satisfied).2

end

/-! ### The step in building a model -/

variable {α : Type}

theorem run_excludeAll_eq (model : Model α) (atoms : List Nat) :
    (excludeAll atoms).run model = .ok () { model with
      atoms := model.atoms + rungCount atoms.length
      clauses := model.clauses ++ atMostOneClauses (model.atoms + 1) atoms } := rfl

/-- Excluding all but one of some propositional variables of a model adds clauses over these and new
auxiliary variables, and changes nothing else.  A truth assignment extends to the auxiliary
variables so that the clauses are true exactly if at most one of the variables is true, and if one
is then in one way.  Up to three variables take no auxiliary variable and a clause for each pair.
More of them take an auxiliary variable each, except the last, and three clauses for each of these,
less one. -/
theorem excludeAll_exact (model : Model α) (atoms : List Nat)
    (inside : ∀ atom ∈ atoms, 0 < atom ∧ atom ≤ model.atoms) :
    ∃ after, ∃ added : List Clause, (excludeAll atoms).run model = .ok () after ∧
      after = { model with atoms := after.atoms, clauses := model.clauses ++ added } ∧
      model.atoms ≤ after.atoms ∧ (∀ clause ∈ added, clause.Below after.atoms) ∧
      (∀ truth, (∃ extended, ExtendedBy model.atoms added truth extended) ↔
        atoms.countP truth ≤ 1) ∧
      (∀ truth, atoms.countP truth = 1 → ∀ first second,
        ExtendedBy model.atoms added truth first → ExtendedBy model.atoms added truth second →
          SameUpTo after.atoms first second) ∧
      (atoms.length ≤ 3 → after.atoms = model.atoms ∧
        added.length = atoms.length * (atoms.length - 1) / 2) ∧
      (4 ≤ atoms.length → after.atoms = model.atoms + (atoms.length - 1) ∧
        added.length = 3 * (atoms.length - 1) - 1) := by
  refine ⟨_, _, run_excludeAll_eq model atoms, rfl, Nat.le_add_right _ _,
    atMostOneClauses_below inside, fun truth => exists_extendedBy_iff inside,
    fun truth one first second extends' extends'' => ?_, fun short => ?_, fun long => ?_⟩
  · have started : 0 < atoms.countP truth := one ▸ Nat.one_pos
    exact (extends'.settled inside started).sameUpTo (extends''.settled inside started) inside
      (extends'.same.trans extends''.same.symm)
  · have rungs : rungCount atoms.length = 0 := if_pos short
    have clauses : exclusionCount atoms.length = atoms.length * (atoms.length - 1) / 2 :=
      if_pos short
    exact ⟨congrArg (model.atoms + ·) rungs, (length_atMostOneClauses _ atoms).trans clauses⟩
  · have several : ¬ atoms.length ≤ pairwiseLimit := Nat.not_le_of_lt long
    have rungs : rungCount atoms.length = atoms.length - 1 := if_neg several
    have clauses : exclusionCount atoms.length = 3 * (atoms.length - 1) - 1 := if_neg several
    exact ⟨congrArg (model.atoms + ·) rungs, (length_atMostOneClauses _ atoms).trans clauses⟩

/-- Five of the variables of a model, in some order.  One of them may be true, which sets the four
rungs; two may not. -/
theorem excludeAll_exact_fiveOfSeven :
    let model : Model Int := { Model.empty with atoms := 7 }
    ∃ after, ∃ added : List Clause, (excludeAll [6, 2, 7, 1, 4]).run model = .ok () after ∧
      after.atoms = 11 ∧ added.length = 11 ∧
      (∃ extended, ExtendedBy 7 added (fun atom => [3, 7].contains atom) extended ∧
        ∀ other, ExtendedBy 7 added (fun atom => [3, 7].contains atom) other →
          SameUpTo 11 other extended) ∧
      ¬ ∃ extended, ExtendedBy 7 added (fun atom => [6, 4].contains atom) extended := by
  intro model
  obtain ⟨after, added, ran, -, -, -, exists_iff, unique, -, many⟩ :=
    excludeAll_exact model [6, 2, 7, 1, 4] (by decide)
  obtain ⟨atoms, length⟩ := many (by decide)
  obtain ⟨extended, extends'⟩ := (exists_iff fun atom => [3, 7].contains atom).mpr (by decide)
  refine ⟨after, added, ran, atoms, length, ⟨extended, extends', fun other extends'' => ?_⟩,
    fun impossible => absurd ((exists_iff _).mp impossible) (by decide)⟩
  have same := unique _ (by decide) other extended extends'' extends'
  rwa [atoms] at same

end HorizonPlanner.Cnf
