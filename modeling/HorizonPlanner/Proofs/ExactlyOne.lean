/-
This file proves that the clauses of a variable pick exactly one of its
propositional variables.  The clause of all of them says that one is true, and
the ladder above them, or the pairs of a short list, that no two are.

The rungs of a ladder are only implied from below: a rung must be true when a
variable at or below it is.  That they are false otherwise is not stated by any
clause.  It follows because one of the variables is true, and every rung that is
true makes all variables above it false.  So the rungs are determined.
-/

import Mathlib.Data.List.Basic
import Mathlib.Data.List.Pairwise
import Mathlib.Data.Nat.Choose.Basic
import HorizonPlanner.Cnf.Ladder

namespace HorizonPlanner.Cnf

/-! ### Truth assignments -/

/-- Two truth assignments agree on the propositional variables up to a bound. -/
def SameUpTo (bound : Nat) (first second : Nat → Bool) : Prop :=
  ∀ atom, 0 < atom → atom ≤ bound → first atom = second atom

section

variable {bound : Nat} {first second third : Nat → Bool}

theorem SameUpTo.refl (bound : Nat) (truth : Nat → Bool) : SameUpTo bound truth truth :=
  fun _ _ _ => rfl

theorem SameUpTo.symm (same : SameUpTo bound first second) : SameUpTo bound second first :=
  fun atom positive inside => (same atom positive inside).symm

theorem SameUpTo.trans (same : SameUpTo bound first second) (same' : SameUpTo bound second third) :
    SameUpTo bound first third :=
  fun atom positive inside => (same atom positive inside).trans (same' atom positive inside)

theorem SameUpTo.mono {smaller : Nat} (same : SameUpTo bound first second)
    (order : smaller ≤ bound) : SameUpTo smaller first second :=
  fun atom positive inside => same atom positive (Nat.le_trans inside order)

end

/-! ### Literals and clauses -/

/-- A literal over the propositional variables up to a bound. -/
def Literal.Below (bound : Nat) (literal : Literal) : Prop :=
  0 < literal.atom ∧ literal.atom ≤ bound

/-- A clause over the propositional variables up to a bound. -/
def Clause.Below (bound : Nat) (clause : Clause) : Prop :=
  ∀ literal ∈ clause, literal.Below bound

section

variable {bound : Nat} {first second : Nat → Bool}

@[simp] theorem Literal.satisfied_holds (truth : Nat → Bool) (atom : Nat) :
    (Literal.holds atom).satisfied truth = truth atom := by
  rw [Literal.satisfied, Literal.holds, beq_true]

@[simp] theorem Literal.satisfied_fails (truth : Nat → Bool) (atom : Nat) :
    (Literal.fails atom).satisfied truth = !truth atom := by
  rw [Literal.satisfied, Literal.fails, beq_false]

@[simp] theorem Literal.satisfied_negate (truth : Nat → Bool) (literal : Literal) :
    literal.negate.satisfied truth = !literal.satisfied truth := by
  rw [Literal.satisfied, Literal.satisfied, Literal.negate]
  cases truth literal.atom <;> cases literal.positive <;> rfl

@[simp] theorem Clause.satisfied_nil (truth : Nat → Bool) : Clause.satisfied truth [] = false := rfl

@[simp] theorem Clause.satisfied_cons (truth : Nat → Bool) (literal : Literal) (rest : Clause) :
    Clause.satisfied truth (literal :: rest) =
      (literal.satisfied truth || Clause.satisfied truth rest) := rfl

@[simp] theorem Clause.satisfied_append (truth : Nat → Bool) (clause rest : Clause) :
    Clause.satisfied truth (clause ++ rest) =
      (Clause.satisfied truth clause || Clause.satisfied truth rest) := List.any_append

theorem Clause.satisfied_map_holds (truth : Nat → Bool) (atoms : List Nat) :
    Clause.satisfied truth (atoms.map .holds) = true ↔ ∃ atom ∈ atoms, truth atom = true := by
  simp [Clause.satisfied]

theorem Literal.satisfied_congr {literal : Literal} (below : literal.Below bound)
    (same : SameUpTo bound first second) : literal.satisfied first = literal.satisfied second := by
  rw [Literal.satisfied, Literal.satisfied, same literal.atom below.1 below.2]

theorem Clause.satisfied_congr {clause : Clause} (below : clause.Below bound)
    (same : SameUpTo bound first second) : clause.satisfied first = clause.satisfied second := by
  induction clause with
  | nil => rfl
  | cons literal rest inductionHypothesis =>
    obtain ⟨here, there⟩ := List.forall_mem_cons.mp below
    rw [Clause.satisfied_cons, Clause.satisfied_cons, Literal.satisfied_congr here same,
      inductionHypothesis there]

theorem Literal.Below.mono {larger : Nat} {literal : Literal} (below : literal.Below bound)
    (order : bound ≤ larger) : literal.Below larger :=
  ⟨below.1, Nat.le_trans below.2 order⟩

theorem Literal.Below.negate {literal : Literal} (below : literal.Below bound) :
    literal.negate.Below bound := below

theorem Clause.Below.mono {larger : Nat} {clause : Clause} (below : clause.Below bound)
    (order : bound ≤ larger) : clause.Below larger :=
  fun literal member => (below literal member).mono order

end

/-! ### Excluding pairs -/

/-- No two of a list of propositional variables are true. -/
def Exclusive (truth : Nat → Bool) (atoms : List Nat) : Prop :=
  atoms.Pairwise fun first second => ¬ (truth first = true ∧ truth second = true)

/-- A propositional variable is the true one of a list. -/
def Chosen (truth : Nat → Bool) (atoms : List Nat) (atom : Nat) : Prop :=
  atom ∈ atoms ∧ ∀ other ∈ atoms, truth other = true ↔ other = atom

theorem exclusive_cons_iff {truth : Nat → Bool} {atom : Nat} {rest : List Nat} :
    Exclusive truth (atom :: rest) ↔
      (truth atom = true → ∀ other ∈ rest, truth other = false) ∧ Exclusive truth rest := by
  rw [Exclusive, List.pairwise_cons, Exclusive]
  refine and_congr_left fun _ => ?_
  cases truth atom <;> simp

theorem exists_chosen_iff {truth : Nat → Bool} {atoms : List Nat} (nodup : atoms.Nodup) :
    (∃ atom, Chosen truth atoms atom) ↔
      (∃ atom ∈ atoms, truth atom = true) ∧ Exclusive truth atoms := by
  constructor
  · rintro ⟨atom, member, only⟩
    refine ⟨⟨atom, member, (only atom member).mpr rfl⟩, ?_⟩
    refine List.Pairwise.imp_of_mem (fun here there distinct both => distinct ?_) nodup
    rw [(only _ here).mp both.1, (only _ there).mp both.2]
  · rintro ⟨⟨atom, member, true'⟩, exclusive⟩
    refine ⟨atom, member, fun other member' => ⟨fun true'' => ?_, fun same => same ▸ true'⟩⟩
    have symmetric : Std.Symm fun first second => ¬ (truth first = true ∧ truth second = true) :=
      ⟨fun _ _ apart both => apart both.symm⟩
    refine Decidable.byContradiction fun distinct => ?_
    exact exclusive.forall member' member distinct ⟨true'', true'⟩

theorem pairwiseClauses_iff {truth : Nat → Bool} {atoms : List Nat} :
    (∀ clause ∈ pairwiseClauses atoms, Clause.satisfied truth clause = true) ↔
      Exclusive truth atoms := by
  induction atoms with
  | nil => exact ⟨fun _ => .nil, fun _ _ member => absurd member List.not_mem_nil⟩
  | cons atom rest inductionHypothesis =>
    rw [pairwiseClauses, List.forall_mem_append, inductionHypothesis, exclusive_cons_iff]
    refine and_congr_left fun _ => ?_
    cases truthAtom : truth atom <;> simp [truthAtom]

/-! ### Climbing a ladder -/

/-- The rungs from a propositional variable on have the values that the variables below them give
them, on top of what was reached before. -/
def Climbed (truth : Nat → Bool) (reached : Bool) (first count : Nat) (atoms : List Nat) : Prop :=
  ∀ rung < count, truth (first + rung) = (reached || (atoms.take (rung + 1)).any truth)

theorem climbed_succ_iff {truth : Nat → Bool} {reached : Bool} {first count atom : Nat}
    {rest : List Nat} :
    Climbed truth reached first (count + 1) (atom :: rest) ↔
      truth first = (reached || truth atom) ∧
        Climbed truth (reached || truth atom) (first + 1) count rest := by
  constructor
  · refine fun climbed => ⟨by simpa using climbed 0 (Nat.succ_pos _), fun rung inside => ?_⟩
    have higher := climbed (rung + 1) (Nat.succ_lt_succ inside)
    rw [List.take_succ_cons, List.any_cons, ← Bool.or_assoc] at higher
    rw [← higher, Nat.add_right_comm, Nat.add_assoc]
  · rintro ⟨here, higher⟩ rung inside
    cases rung with
    | zero => simpa using here
    | succ rung =>
      rw [List.take_succ_cons, List.any_cons, ← Bool.or_assoc,
        ← higher rung (Nat.lt_of_succ_lt_succ inside), Nat.add_right_comm, Nat.add_assoc]

theorem rungClauses_cons {below atom : Nat} {rest : List Nat} (nonempty : rest ≠ []) :
    rungClauses below (atom :: rest) =
      [[.fails atom, .holds (below + 1)], [.fails below, .holds (below + 1)],
        [.fails atom, .fails below]] ++ rungClauses (below + 1) rest := by
  obtain ⟨next, others, rfl⟩ := List.exists_cons_of_ne_nil nonempty
  rfl

theorem length_pred_cons {atom : Nat} {rest : List Nat} (nonempty : rest ≠ []) :
    (atom :: rest).length - 1 = rest.length - 1 + 1 := by
  rw [List.length_cons, Nat.add_sub_cancel, Nat.sub_add_cancel (List.length_pos_iff.mpr nonempty)]

/-- A rung that is implied by what is below it and rules out what is above it has the value of what
is below it, if something is true. -/
theorem rung_eq {truth : Nat → Bool} {reached rung : Bool} {above : List Nat}
    (started : reached = true ∨ ∃ atom ∈ above, truth atom = true)
    (implied : reached = true → rung = true)
    (excludes : rung = true → ∀ atom ∈ above, truth atom = false) : rung = reached := by
  cases lower : reached with
  | true => exact implied lower
  | false =>
    cases here : rung with
    | false => rfl
    | true =>
      rcases started with impossible | ⟨atom, member, there⟩
      · rw [← lower, impossible]
      · rw [excludes here atom member] at there
        cases there

theorem rungStep_iff {truth : Nat → Bool} {below rung atom : Nat} :
    (∀ clause ∈ [[.fails atom, .holds rung], [.fails below, .holds rung],
        [.fails atom, .fails below]], Clause.satisfied truth clause = true) ↔
      (truth atom = true → truth rung = true) ∧ (truth below = true → truth rung = true) ∧
        (truth below = true → truth atom = false) := by
  cases here : truth atom <;> cases lower : truth below <;> simp [here, lower]

/-- Rungs that have the values that the variables below them give them make the clauses above a rung
true, if no two of the variables are true and none is above a rung that is. -/
theorem rungClauses_of_climbed {truth : Nat → Bool} {below : Nat} {atoms : List Nat}
    (apart : truth below = true → ∀ atom ∈ atoms, truth atom = false)
    (exclusive : Exclusive truth atoms)
    (climbed : Climbed truth (truth below) (below + 1) (atoms.length - 1) atoms) :
    ∀ clause ∈ rungClauses below atoms, Clause.satisfied truth clause = true := by
  induction below, atoms using rungClauses.induct with
  | case1 below => exact fun _ member => absurd member List.not_mem_nil
  | case2 below last =>
    cases truthBelow : truth below with
    | true => simp [rungClauses, apart truthBelow]
    | false => simp [rungClauses, truthBelow]
  | case3 below atom rest nonempty rung inductionHypothesis =>
    rw [length_pred_cons nonempty, climbed_succ_iff] at climbed
    obtain ⟨value, climbed⟩ := climbed
    obtain ⟨alone, exclusive⟩ := exclusive_cons_iff.mp exclusive
    rw [← value] at climbed
    rw [rungClauses_cons nonempty, List.forall_mem_append, rungStep_iff]
    refine ⟨⟨fun here => ?_, fun lower => ?_, fun lower => apart lower atom List.mem_cons_self⟩,
      inductionHypothesis (fun reached => ?_) exclusive climbed⟩
    · rw [value, here, Bool.or_true]
    · rw [value, lower, Bool.true_or]
    · rw [value, Bool.or_eq_true] at reached
      exact reached.elim (fun lower => (List.forall_mem_cons.mp (apart lower)).2) alone

/-- Above a rung, provided that it or a variable above it is true, the clauses say that at most one
of them is and that the further rungs are true from the first true one on. -/
theorem rungClauses_iff {truth : Nat → Bool} {below : Nat} {atoms : List Nat}
    (started : truth below = true ∨ ∃ atom ∈ atoms, truth atom = true) :
    (∀ clause ∈ rungClauses below atoms, Clause.satisfied truth clause = true) ↔
      (truth below = true → ∀ atom ∈ atoms, truth atom = false) ∧ Exclusive truth atoms ∧
        Climbed truth (truth below) (below + 1) (atoms.length - 1) atoms := by
  refine ⟨fun satisfied => ?_, fun ⟨apart, exclusive, climbed⟩ =>
    rungClauses_of_climbed apart exclusive climbed⟩
  induction below, atoms using rungClauses.induct with
  | case1 below => simp [Exclusive, Climbed]
  | case2 below last =>
    cases truthBelow : truth below with
    | true => simpa [rungClauses, Exclusive, Climbed, truthBelow] using satisfied
    | false => simp [Exclusive, Climbed]
  | case3 below atom rest nonempty rung inductionHypothesis =>
    rw [List.exists_mem_cons_iff, ← or_assoc, ← Bool.or_eq_true] at started
    rw [rungClauses_cons nonempty, List.forall_mem_append, rungStep_iff] at satisfied
    rw [length_pred_cons nonempty, climbed_succ_iff, exclusive_cons_iff, List.forall_mem_cons]
    -- The clauses only push truth upwards; that a rung is true for a reason follows from `started`.
    obtain ⟨⟨fromAtom, fromBelow, apart⟩, above⟩ := satisfied
    have up : (truth below || truth atom) = true → truth rung = true :=
      fun reached => (Bool.or_eq_true _ _ ▸ reached).elim fromBelow fromAtom
    obtain ⟨none, exclusive, climbed⟩ := inductionHypothesis (started.imp_left up) above
    have value := rung_eq started up none
    exact ⟨fun lower => ⟨apart lower, none (fromBelow lower)⟩,
      ⟨fun here => none (fromAtom here), exclusive⟩, value, value ▸ climbed⟩

/-- Rungs that have the values that the variables below them give them make the clauses of a ladder
true, if no two of the variables are true. -/
theorem ladderClauses_of_climbed {truth : Nat → Bool} {first : Nat} {atoms : List Nat}
    (several : 1 < atoms.length) (exclusive : Exclusive truth atoms)
    (climbed : Climbed truth false first (atoms.length - 1) atoms) :
    ∀ clause ∈ ladderClauses first atoms, Clause.satisfied truth clause = true := by
  cases atoms with
  | nil => exact absurd several (Nat.not_lt_zero _)
  | cons atom rest =>
    have nonempty : rest ≠ [] := List.ne_nil_of_length_pos (Nat.lt_of_succ_lt_succ several)
    rw [length_pred_cons nonempty, climbed_succ_iff, Bool.false_or] at climbed
    obtain ⟨value, climbed⟩ := climbed
    obtain ⟨alone, exclusive⟩ := exclusive_cons_iff.mp exclusive
    rw [← value] at alone climbed
    rw [ladderClauses, List.forall_mem_cons]
    refine ⟨?_, rungClauses_of_climbed alone exclusive climbed⟩
    simp [value]

/-- Provided that one of several variables is true, the clauses of a ladder say that no other is,
and give each rung its value. -/
theorem ladderClauses_iff {truth : Nat → Bool} {first : Nat} {atoms : List Nat}
    (several : 1 < atoms.length) (started : ∃ atom ∈ atoms, truth atom = true) :
    (∀ clause ∈ ladderClauses first atoms, Clause.satisfied truth clause = true) ↔
      Exclusive truth atoms ∧ Climbed truth false first (atoms.length - 1) atoms := by
  refine ⟨fun satisfied => ?_, fun ⟨exclusive, climbed⟩ =>
    ladderClauses_of_climbed several exclusive climbed⟩
  cases atoms with
  | nil => exact absurd several (Nat.not_lt_zero _)
  | cons atom rest =>
    have nonempty : rest ≠ [] := List.ne_nil_of_length_pos (Nat.lt_of_succ_lt_succ several)
    rw [List.exists_mem_cons_iff] at started
    rw [ladderClauses, List.forall_mem_cons] at satisfied
    rw [length_pred_cons nonempty, climbed_succ_iff, exclusive_cons_iff, Bool.false_or]
    obtain ⟨step, above⟩ := satisfied
    have up : truth atom = true → truth first = true := fun here => by simpa [here] using step
    obtain ⟨none, exclusive, climbed⟩ := (rungClauses_iff (started.imp_left up)).mp above
    have value := rung_eq started up none
    exact ⟨⟨fun here => none (up here), exclusive⟩, value, value ▸ climbed⟩

/-! ### Exactly one -/

/-- The auxiliary variables of the statement that one of a list of propositional variables is true
have the values that the list gives them. -/
def Settled (truth : Nat → Bool) (free : Nat) (atoms : List Nat) : Prop :=
  Climbed truth false free (rungCount atoms.length) atoms

/-- Provided that one of some propositional variables is true, the clauses say that no other is, and
determine the auxiliary variables. -/
theorem atMostOneClauses_iff {truth : Nat → Bool} {free : Nat} {atoms : List Nat}
    (started : ∃ atom ∈ atoms, truth atom = true) :
    (∀ clause ∈ atMostOneClauses free atoms, Clause.satisfied truth clause = true) ↔
      Exclusive truth atoms ∧ Settled truth free atoms := by
  rw [Settled, atMostOneClauses, rungCount]
  split
  next short =>
    rw [pairwiseClauses_iff]
    exact ⟨fun exclusive => ⟨exclusive, fun _ impossible => absurd impossible (Nat.not_lt_zero _)⟩,
      And.left⟩
  next long =>
    rw [pairwiseLimit] at long
    exact ladderClauses_iff (by omega) started

/-- The clauses of a variable say that exactly one of its propositional variables is true, and
determine the auxiliary variables. -/
theorem exactlyOne_iff (truth : Nat → Bool) (free : Nat) {atoms : List Nat} (nodup : atoms.Nodup) :
    (Clause.satisfied truth (atoms.map .holds) = true ∧
      ∀ clause ∈ atMostOneClauses free atoms, Clause.satisfied truth clause = true) ↔
      (∃ atom, Chosen truth atoms atom) ∧ Settled truth free atoms := by
  rw [Clause.satisfied_map_holds, exists_chosen_iff nodup, and_assoc]
  exact and_congr_right fun started => atMostOneClauses_iff started

section

variable {bound : Nat} {atoms : List Nat}

theorem any_congr_of_mem {first second : Nat → Bool}
    (same : ∀ atom ∈ atoms, first atom = second atom) : atoms.any first = atoms.any second := by
  rw [Bool.eq_iff_iff, List.any_eq_true, List.any_eq_true]
  exact exists_congr fun atom => and_congr_right fun member => by rw [same atom member]

/-- The auxiliary variables can be given their values. -/
theorem exists_settled (truth : Nat → Bool) (inside : ∀ atom ∈ atoms, atom ≤ bound) :
    ∃ settled, SameUpTo bound settled truth ∧ Settled settled (bound + 1) atoms := by
  let settled := fun atom =>
    if atom ≤ bound then truth atom else (atoms.take (atom - bound)).any truth
  refine ⟨settled, fun atom _ old => if_pos old, fun rung _ => ?_⟩
  have new : ¬ bound + 1 + rung ≤ bound := by omega
  have place : bound + 1 + rung - bound = rung + 1 := by omega
  have same : ∀ atom ∈ atoms.take (rung + 1), settled atom = truth atom :=
    fun atom member => if_pos (inside atom (List.mem_of_mem_take member))
  show (if bound + 1 + rung ≤ bound then _ else _) = _
  rw [if_neg new, place, Bool.false_or, any_congr_of_mem same]

/-- The auxiliary variables have no other values. -/
theorem Settled.sameUpTo {first second : Nat → Bool} (settled : Settled first (bound + 1) atoms)
    (settled' : Settled second (bound + 1) atoms)
    (inside : ∀ atom ∈ atoms, 0 < atom ∧ atom ≤ bound) (same : SameUpTo bound first second) :
    SameUpTo (bound + rungCount atoms.length) first second := by
  intro atom positive within
  by_cases old : atom ≤ bound
  · exact same atom positive old
  · obtain ⟨rung, rfl⟩ := Nat.exists_eq_add_of_le (Nat.lt_of_not_le old)
    have agree : ∀ lower ∈ atoms.take (rung + 1), first lower = second lower := by
      intro lower member
      have place := inside lower (List.mem_of_mem_take member)
      exact same lower place.1 place.2
    rw [settled rung (by omega), settled' rung (by omega), any_congr_of_mem agree]

/-! ### The variables that occur -/

theorem pairwiseClauses_below (inside : ∀ atom ∈ atoms, 0 < atom ∧ atom ≤ bound) :
    ∀ clause ∈ pairwiseClauses atoms, clause.Below bound := by
  induction atoms with
  | nil => exact fun _ member => absurd member List.not_mem_nil
  | cons atom rest inductionHypothesis =>
    obtain ⟨here, there⟩ := List.forall_mem_cons.mp inside
    intro clause member
    rcases List.mem_append.mp member with member | member
    · obtain ⟨other, among, rfl⟩ := List.mem_map.mp member
      simpa [Clause.Below, Literal.Below, Literal.fails] using ⟨here, there other among⟩
    · exact inductionHypothesis there clause member

theorem rungClauses_below {below : Nat} (inside : ∀ atom ∈ atoms, 0 < atom ∧ atom ≤ bound)
    (positive : 0 < below) (room : below + (atoms.length - 1) ≤ bound) :
    ∀ clause ∈ rungClauses below atoms, clause.Below bound := by
  induction below, atoms using rungClauses.induct with
  | case1 below => exact fun _ member => absurd member List.not_mem_nil
  | case2 below last =>
    have here := inside last (List.mem_singleton_self last)
    simp [rungClauses, Clause.Below, Literal.Below, Literal.fails]
    omega
  | case3 below atom rest nonempty rung inductionHypothesis =>
    obtain ⟨here, there⟩ := List.forall_mem_cons.mp inside
    have further := List.length_pos_iff.mpr nonempty
    rw [List.length_cons] at room
    rw [rungClauses_cons nonempty, List.forall_mem_append]
    refine ⟨?_, inductionHypothesis there (Nat.succ_pos _) (by omega)⟩
    simp [Clause.Below, Literal.Below, Literal.fails, Literal.holds]
    omega

theorem atMostOneClauses_below (inside : ∀ atom ∈ atoms, 0 < atom ∧ atom ≤ bound) :
    ∀ clause ∈ atMostOneClauses (bound + 1) atoms,
      clause.Below (bound + rungCount atoms.length) := by
  have inside' : ∀ atom ∈ atoms, 0 < atom ∧ atom ≤ bound + rungCount atoms.length :=
    fun atom member => ⟨(inside atom member).1, Nat.le_add_right_of_le (inside atom member).2⟩
  rw [atMostOneClauses]
  split
  next short => exact pairwiseClauses_below inside'
  next long =>
    have count : rungCount atoms.length = atoms.length - 1 := if_neg long
    rw [pairwiseLimit] at long
    cases atoms with
    | nil => exact fun _ member => absurd member List.not_mem_nil
    | cons atom rest =>
      obtain ⟨here, there⟩ := List.forall_mem_cons.mp inside'
      rw [count] at here there ⊢
      rw [List.length_cons] at long here there ⊢
      refine List.forall_mem_cons.mpr ⟨?_, rungClauses_below there (Nat.succ_pos _) (by omega)⟩
      simp [Clause.Below, Literal.Below, Literal.fails, Literal.holds]
      omega

/-! ### The clauses that occur -/

theorem pairwiseClauses_nonempty (atoms : List Nat) :
    ∀ clause ∈ pairwiseClauses atoms, clause ≠ [] := by
  induction atoms with
  | nil => exact fun _ member => absurd member List.not_mem_nil
  | cons atom rest inductionHypothesis =>
    rw [pairwiseClauses, List.forall_mem_append, List.forall_mem_map]
    exact ⟨fun _ _ => List.cons_ne_nil _ _, inductionHypothesis⟩

theorem rungClauses_nonempty (below : Nat) (atoms : List Nat) :
    ∀ clause ∈ rungClauses below atoms, clause ≠ [] := by
  induction below, atoms using rungClauses.induct with
  | case1 below => exact fun _ member => absurd member List.not_mem_nil
  | case2 below last => simp [rungClauses]
  | case3 below atom rest nonempty rung inductionHypothesis =>
    rw [rungClauses_cons nonempty, List.forall_mem_append]
    exact ⟨by simp, inductionHypothesis⟩

theorem atMostOneClauses_nonempty (free : Nat) (atoms : List Nat) :
    ∀ clause ∈ atMostOneClauses free atoms, clause ≠ [] := by
  rw [atMostOneClauses]
  split
  · exact pairwiseClauses_nonempty atoms
  · cases atoms with
    | nil => exact fun _ member => absurd member List.not_mem_nil
    | cons atom rest =>
      exact List.forall_mem_cons.mpr ⟨List.cons_ne_nil _ _, rungClauses_nonempty free rest⟩

end

/-! ### The number of clauses -/

/-- The number of clauses that say that at most one of a number of propositional variables is
true. -/
def exclusionCount (count : Nat) : Nat :=
  if count ≤ pairwiseLimit then count * (count - 1) / 2 else 3 * (count - 1) - 1

theorem length_pairwiseClauses (atoms : List Nat) :
    (pairwiseClauses atoms).length = atoms.length * (atoms.length - 1) / 2 := by
  induction atoms with
  | nil => rfl
  | cons atom rest inductionHypothesis =>
    rw [pairwiseClauses, List.length_append, List.length_map, inductionHypothesis,
      List.length_cons, Nat.triangle_succ, Nat.add_comm]

theorem length_rungClauses (below : Nat) {atoms : List Nat} (nonempty : atoms ≠ []) :
    (rungClauses below atoms).length = 3 * (atoms.length - 1) + 1 := by
  induction below, atoms using rungClauses.induct with
  | case1 below => exact absurd rfl nonempty
  | case2 below last => rfl
  | case3 below atom rest further rung inductionHypothesis =>
    have positive := List.length_pos_of_ne_nil further
    rw [rungClauses_cons further, List.length_append, inductionHypothesis further]
    simp only [List.length_cons, List.length_nil]
    omega

theorem length_atMostOneClauses (free : Nat) (atoms : List Nat) :
    (atMostOneClauses free atoms).length = exclusionCount atoms.length := by
  rw [atMostOneClauses, exclusionCount]
  split
  next => exact length_pairwiseClauses atoms
  next several =>
    cases atoms with
    | nil => exact absurd (Nat.zero_le _) several
    | cons atom rest =>
      rw [List.length_cons, Nat.not_le, pairwiseLimit] at several
      have nonempty : rest ≠ [] := List.ne_nil_of_length_pos (by omega)
      rw [ladderClauses, List.length_cons, length_rungClauses free nonempty, List.length_cons]
      omega
end HorizonPlanner.Cnf
