/-
This file proves that a search does not depend on the order in which constraints
are stated.  Two constraints mirror each other if they mention the same
variables and have the same verdict under every partial assignment; so do two
conjunctions of the same parts.  Where each constraint of one network is mirrored
in the other, the networks have the same solutions, and backtracking tries the
same values in the same order and ends in the same way.
-/

import HorizonPlanner.Proofs.BacktrackingSearch

namespace HorizonPlanner

variable {α : Type}

namespace Constraint

/-! ### Conjunctions of the same parts -/

theorem mem_slotsOfParts_iff {parts : List (Constraint α)} {slot : Nat} :
    slot ∈ slotsOfParts parts ↔ ∃ part ∈ parts, slot ∈ part.slots := by
  induction parts with
  | nil => simp
  | cons part rest inductionHypothesis =>
    simp [inductionHypothesis]

theorem mem_slots_conjunction_iff {parts : List (Constraint α)} {slot : Nat} :
    slot ∈ (conjunction parts).slots ↔ ∃ part ∈ parts, slot ∈ part.slots := by
  have kept : (∃ part ∈ parts, slot ∈ part.slots) ↔
      ∃ part ∈ parts.filter (fun part => !part.isAlways), slot ∈ part.slots := by
    constructor
    · rintro ⟨part, member, mentioned⟩
      refine ⟨part, List.mem_filter.mpr ⟨member, ?_⟩, mentioned⟩
      cases part with
      | always => exact absurd mentioned List.not_mem_nil
      | _ => rfl
    · rintro ⟨part, member, mentioned⟩
      exact ⟨part, (List.mem_filter.mp member).1, mentioned⟩
  rw [kept, conjunction]
  split
  next none => simp [none]
  next part single => simp [single]
  next => rw [slots_all, mem_slotsOfParts_iff]

variable [Symbol α]

theorem joinedVerdict_left_comm (first second others : Option Bool) :
    joinedVerdict first (joinedVerdict second others) =
      joinedVerdict second (joinedVerdict first others) := by
  rcases first with _ | _ | _ <;> rcases second with _ | _ | _ <;>
    rcases others with _ | _ | _ <;> rfl

theorem exists_evaluateParts {parts : List (Constraint α)} {assignment : PartialAssignment α}
    (fits : ∀ part ∈ parts, part.Fits assignment.size) :
    ∃ verdict, evaluateParts assignment parts = .ok verdict :=
  evaluateParts_fits (fitsAll_of_forall fits)

/-- The order of the parts does not matter to the verdict on them. -/
theorem evaluateParts_perm {first second : List (Constraint α)} (perm : first.Perm second)
    {assignment : PartialAssignment α} (fits : ∀ part ∈ first, part.Fits assignment.size) :
    evaluateParts assignment first = evaluateParts assignment second := by
  induction perm with
  | nil => rfl
  | cons part _ inductionHypothesis =>
    rw [evaluateParts, evaluateParts, inductionHypothesis (List.forall_mem_cons.mp fits).2]
  | swap part other rest =>
    obtain ⟨there, here, fits⟩ := by simpa only [List.forall_mem_cons] using fits
    obtain ⟨verdict, evaluated⟩ := evaluate_fits here
    obtain ⟨verdict', evaluated'⟩ := evaluate_fits there
    obtain ⟨others, evaluated''⟩ := exists_evaluateParts fits
    rw [evaluateParts_cons evaluated' (evaluateParts_cons evaluated evaluated''),
      evaluateParts_cons evaluated (evaluateParts_cons evaluated' evaluated''),
      joinedVerdict_left_comm]
  | trans perm _ inductionHypothesis inductionHypothesis' =>
    rw [inductionHypothesis fits, inductionHypothesis' fun part member =>
      fits part (perm.mem_iff.mpr member)]

/-- Leaving out what always holds and the frame of a single part does not change the verdict on a
conjunction. -/
theorem evaluate_conjunction {parts : List (Constraint α)} {assignment : PartialAssignment α}
    (fits : ∀ part ∈ parts, part.Fits assignment.size) :
    evaluate assignment (conjunction parts) = evaluateParts assignment parts := by
  have kept : evaluateParts assignment (parts.filter fun part => !part.isAlways) =
      evaluateParts assignment parts := by
    induction parts with
    | nil => rfl
    | cons part rest inductionHypothesis =>
      obtain ⟨here, there⟩ := List.forall_mem_cons.mp fits
      obtain ⟨others, evaluated⟩ := exists_evaluateParts there
      cases trivial : part.isAlways with
      | true =>
        cases part with
        | always =>
          rw [List.filter_cons_of_neg (by rw [trivial]; exact Bool.false_ne_true),
            inductionHypothesis there, evaluateParts_cons rfl evaluated, evaluated]
          rcases others with _ | _ | _ <;> rfl
        | _ => cases trivial
      | false =>
        rw [List.filter_cons_of_pos (by rw [trivial]; rfl), evaluateParts, evaluateParts,
          inductionHypothesis there]
  rw [← kept, conjunction]
  split
  next none => rw [none]; rfl
  next part single =>
    have member : part ∈ parts := (List.mem_filter.mp (single ▸ List.mem_singleton_self part)).1
    obtain ⟨verdict, evaluated⟩ := evaluate_fits (fits part member)
    rw [single, evaluated, evaluateParts_cons evaluated rfl]
    rcases verdict with _ | _ | _ <;> rfl
  next => rw [evaluate]

/-! ### Constraints that mirror each other -/

/-- Two constraints mention the same slots and have the same verdict under every partial assignment
of a number of slots. -/
structure Mirrors (count : Nat) (first second : Constraint α) : Prop where
  slots : ∀ slot, slot ∈ first.slots ↔ slot ∈ second.slots
  evaluate_eq : ∀ assignment : PartialAssignment α, assignment.size = count →
    first.evaluate assignment = second.evaluate assignment

variable {count : Nat} {first second : Constraint α}

theorem Mirrors.refl (constraint : Constraint α) : Mirrors count constraint constraint :=
  ⟨fun _ => Iff.rfl, fun _ _ => rfl⟩

theorem Mirrors.implies (condition : Constraint α) (mirrors : Mirrors count first second) :
    Mirrors count (implies condition first) (implies condition second) where
  slots slot := by rw [Constraint.slots_implies, Constraint.slots_implies, List.mem_append,
    List.mem_append, mirrors.slots]
  evaluate_eq assignment size := by
    rw [evaluate, evaluate, mirrors.evaluate_eq assignment size]

theorem mirrors_conjunction {parts parts' : List (Constraint α)} (perm : parts.Perm parts')
    (fits : ∀ part ∈ parts, part.Fits count) :
    Mirrors count (conjunction parts) (conjunction parts') where
  slots slot := by
    rw [mem_slots_conjunction_iff, mem_slots_conjunction_iff]
    simp only [perm.mem_iff]
  evaluate_eq assignment size := by
    rw [← size] at fits
    rw [evaluate_conjunction fits, evaluate_conjunction fun part member =>
      fits part (perm.mem_iff.mpr member), evaluateParts_perm perm fits]

/-- Constraints that mirror each other are true together. -/
theorem Mirrors.holds_eq (mirrors : Mirrors count first second) (fits : first.Fits count)
    (fits' : second.Fits count) (total : Nat → α) : first.holds total = second.holds total := by
  have size : (PartialAssignment.complete count total).size = count := by
    simp [PartialAssignment.complete]
  have same := mirrors.evaluate_eq _ size
  rw [evaluate_bound first fits.supported fun slot mentioned =>
      PartialAssignment.complete_getElem? total (fits.bounded slot mentioned),
    evaluate_bound second fits'.supported fun slot mentioned =>
      PartialAssignment.complete_getElem? total (fits'.bounded slot mentioned)] at same
  exact Option.some.inj (Except.ok.inj same)

end Constraint

namespace Network

variable [Symbol α]

/-! ### Networks that mirror each other -/

/-- Two networks over the same variables, in which each constraint of the one is mirrored in the
other. -/
structure Mirrors (first second : Network α) : Prop where
  declared : first.declared = second.declared
  forth : ∀ constraint ∈ first.constraints, ∃ image ∈ second.constraints,
    Constraint.Mirrors first.declared.length constraint image
  back : ∀ constraint ∈ second.constraints, ∃ image ∈ first.constraints,
    Constraint.Mirrors first.declared.length constraint image

theorem Mirrors.refl (network : Network α) : network.Mirrors network :=
  ⟨rfl, fun constraint member => ⟨constraint, member, .refl constraint⟩,
    fun constraint member => ⟨constraint, member, .refl constraint⟩⟩

variable {first second : Network α}

theorem Mirrors.symm (mirrors : first.Mirrors second) : second.Mirrors first :=
  ⟨mirrors.declared.symm, mirrors.declared ▸ mirrors.back, mirrors.declared ▸ mirrors.forth⟩

theorem Mirrors.solution (mirrors : first.Mirrors second) (wellFormed : first.WellFormed)
    (wellFormed' : second.WellFormed) {values : List α} (solution : first.Solution values) :
    second.Solution values := by
  refine ⟨mirrors.declared ▸ solution.within, fun constraint member => ?_⟩
  obtain ⟨image, member', mirrors'⟩ := mirrors.back constraint member
  have fits := wellFormed' constraint member
  rw [← mirrors.declared] at fits
  rw [mirrors'.holds_eq fits (wellFormed image member')]
  exact solution.satisfied image member'

theorem Mirrors.solution_iff (mirrors : first.Mirrors second) (wellFormed : first.WellFormed)
    (wellFormed' : second.WellFormed) {values : List α} :
    first.Solution values ↔ second.Solution values :=
  ⟨mirrors.solution wellFormed wellFormed', mirrors.symm.solution wellFormed' wellFormed⟩

end Network

namespace Backtracking

/-! ### Searching networks that mirror each other -/

/-- Two runs end in the same way, after as many values were tried. -/
structure EndAlike (first second : Run α) : Prop where
  outcome : first.1 = second.1
  nodes : first.2.nodes = second.2.nodes

theorem tryValues_alike {visits visits' : α → Progress → Run α}
    (each : ∀ value {progress progress' : Progress}, progress.nodes = progress'.nodes →
      EndAlike (visits value progress) (visits' value progress'))
    (values : List α) {progress progress' : Progress} (same : progress.nodes = progress'.nodes) :
    EndAlike (tryValues none visits values progress) (tryValues none visits' values progress') := by
  induction values generalizing progress progress' with
  | nil => exact ⟨rfl, same⟩
  | cons value rest inductionHypothesis =>
    have counted : progress.count.nodes = progress'.count.nodes := congrArg (· + 1) same
    obtain ⟨outcome, nodes⟩ := each value counted
    simp only [tryValues, Progress.check, Bool.false_eq_true, if_false]
    generalize visits value progress.count = run at outcome nodes ⊢
    generalize visits' value progress'.count = run' at outcome nodes ⊢
    obtain ⟨ended, later⟩ := run
    obtain ⟨ended', later'⟩ := run'
    obtain rfl : ended = ended' := outcome
    cases ended with
    | error fault => exact ⟨rfl, nodes⟩
    | ok ending =>
      cases ending with
      | exhausted => exact inductionHypothesis nodes
      | found assignment => exact ⟨rfl, nodes⟩
      | expired => exact ⟨rfl, nodes⟩

section

variable {first second : Network Int}

/-- Some constraint of a network, among those that mention certain slots, is false exactly if one
that mirrors it is. -/
theorem forall_unrefuted_iff (mirrors : first.Mirrors second) {among : Constraint Int → Bool}
    (mentioning : ∀ here there : Constraint Int, (∀ slot, slot ∈ here.slots ↔ slot ∈ there.slots) →
      among here = among there) {assignment : PartialAssignment Int}
    (size : assignment.size = first.declared.length)
    (unrefuted : ∀ constraint ∈ first.constraints.filter among,
        constraint.evaluate assignment ≠ .ok (some false)) :
    ∀ constraint ∈ second.constraints.filter among,
        constraint.evaluate assignment ≠ .ok (some false) := by
  intro constraint member
  obtain ⟨member, looked⟩ := List.mem_filter.mp member
  obtain ⟨image, member', mirrors'⟩ := mirrors.back constraint member
  rw [mirrors'.evaluate_eq assignment size]
  refine unrefuted image (List.mem_filter.mpr ⟨member', ?_⟩)
  rw [← mentioning constraint image mirrors'.slots, looked]

theorem noneFalse_eq_of_mirrors (mirrors : first.Mirrors second) (wellFormed : first.WellFormed)
    (wellFormed' : second.WellFormed) {among : Constraint Int → Bool}
    (mentioning : ∀ here there : Constraint Int, (∀ slot, slot ∈ here.slots ↔ slot ∈ there.slots) →
      among here = among there) {assignment : PartialAssignment Int}
    (size : assignment.size = first.declared.length) :
    noneFalse assignment (first.constraints.filter among) =
      noneFalse assignment (second.constraints.filter among) := by
  have size' := size.trans (congrArg List.length mirrors.declared)
  obtain ⟨consistent, looked, meaning⟩ :=
    noneFalse_fits fun constraint (member : constraint ∈ first.constraints.filter among) => by
      rw [size]
      exact wellFormed constraint (List.mem_filter.mp member).1
  obtain ⟨consistent', looked', meaning'⟩ :=
    noneFalse_fits fun constraint (member : constraint ∈ second.constraints.filter among) => by
      rw [size']
      exact wellFormed' constraint (List.mem_filter.mp member).1
  have same : consistent = consistent' := by
    rw [Bool.eq_iff_iff, meaning, meaning']
    exact ⟨forall_unrefuted_iff mirrors mentioning size,
      forall_unrefuted_iff mirrors.symm mentioning size'⟩
  rw [looked, looked', same]

variable {model model' : Model Int}

theorem descend_alike (mirrors : first.Mirrors second) (wellFormed : first.WellFormed)
    (wellFormed' : second.WellFormed) (holds : model.Holds first) (holds' : model'.Holds second)
    (rest : List (Variable Int)) (slot : Nat) {assignment : PartialAssignment Int}
    (size : assignment.size = first.declared.length)
    (count : slot + rest.length = first.declared.length) {progress progress' : Progress}
    (same : progress.nodes = progress'.nodes) :
    EndAlike (descend model none rest slot assignment progress)
      (descend model' none rest slot assignment progress') := by
  induction rest generalizing slot assignment progress progress' with
  | nil => exact ⟨rfl, same⟩
  | cons entry rest inductionHypothesis =>
    rw [List.length_cons] at count
    rw [descend_cons, descend_cons]
    refine tryValues_alike (fun value progress progress' same => ?_) entry.values same
    have inside : slot < first.declared.length := by omega
    have bound : (assignment.setIfInBounds slot (some value)).size = first.declared.length := by
      rw [Array.size_setIfInBounds, size]
    have looked : noneFalse (assignment.setIfInBounds slot (some value)) (model.watched slot) =
        noneFalse (assignment.setIfInBounds slot (some value)) (model'.watched slot) := by
      rw [Model.watched_eq holds inside, Model.watched_eq holds' (mirrors.declared ▸ inside)]
      refine noneFalse_eq_of_mirrors mirrors wellFormed wellFormed' (fun here there mention => ?_)
        bound
      rw [Bool.eq_iff_iff, List.contains_iff_mem, List.contains_iff_mem, mention]
    simp only [visit, looked]
    cases noneFalse (assignment.setIfInBounds slot (some value)) (model'.watched slot) with
    | error fault => exact ⟨rfl, same⟩
    | ok consistent =>
      cases consistent with
      | false => exact ⟨rfl, same⟩
      | true => exact inductionHypothesis (slot + 1) bound (by omega) same

/-- Without a time limit, networks that mirror each other are solved alike, after as many values
were tried; the clock has no part in it. -/
theorem solve_alike (mirrors : first.Mirrors second) (wellFormed : first.WellFormed)
    (wellFormed' : second.WellFormed) (holds : model.Holds first) (holds' : model'.Holds second)
    (clock clock' : Clock) {limit : TimeLimit} (unlimited : limit.Absent)
    (readings readings' : Nat) :
    (model.solve clock limit readings).1 = (model'.solve clock' limit readings').1 ∧
      (model.solve clock limit readings).2.nodes =
        (model'.solve clock' limit readings').2.nodes := by
  have declared : model.declared = model'.declared := by
    rw [← Array.toList_inj, holds.declared, holds'.declared, mirrors.declared]
  have unbound : model.unbound = model'.unbound := by rw [Model.unbound, Model.unbound, declared]
  have size : model'.unbound.size = first.declared.length := by
    rw [Model.unbound, Array.size_replicate, ← Array.length_toList, holds'.declared,
      mirrors.declared]
  have closed : noneFalse model'.unbound model.closed = noneFalse model'.unbound model'.closed := by
    rw [Model.closed, Model.closed, holds.constraints, holds'.constraints]
    refine noneFalse_eq_of_mirrors mirrors wellFormed wellFormed' (fun here there mention => ?_)
      size
    rw [Bool.eq_iff_iff, List.isEmpty_iff, List.isEmpty_iff, List.eq_nil_iff_forall_not_mem,
      List.eq_nil_iff_forall_not_mem]
    simp only [mention]
  have zeros : model.zeros = model'.zeros := by
    funext status
    rw [Model.zeros, Model.zeros, declared]
  have answer : model.answer = model'.answer := by
    funext ending
    cases ending <;> simp only [Model.answer, zeros]
  have begun : (⟨0, readings⟩ : Progress).nodes = (⟨0, readings'⟩ : Progress).nodes := rfl
  have descends := descend_alike mirrors wellFormed wellFormed' holds holds' first.declared 0 size
    (Nat.zero_add _) begun
  rw [Model.solve, Model.solve, unlimited, unlimited]
  simp only [Model.search, unbound, closed, zeros, answer, holds.declared, holds'.declared,
    ← mirrors.declared]
  split
  next => exact ⟨rfl, rfl⟩
  next => exact ⟨rfl, rfl⟩
  next => exact ⟨congrArg (Except.map model'.answer) descends.outcome, descends.nodes⟩

end

end Backtracking

end HorizonPlanner
