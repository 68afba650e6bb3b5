/-
This file takes apart computations that may fail.  A computation in several
steps succeeds exactly if each of its steps does, and fails as the first of them
that fails.
-/

import Mathlib.Data.List.Forall2

namespace HorizonPlanner

variable {ε β γ : Type}

@[simp] theorem ok_bind (middle : β) (second : β → Except ε γ) :
    (Except.ok middle >>= second) = second middle := rfl

@[simp] theorem error_bind (fault : ε) (second : β → Except ε γ) :
    (Except.error fault >>= second) = Except.error fault := rfl

/-- A computation in two steps succeeds exactly if both of them do. -/
theorem bind_eq_ok_iff {first : Except ε β} {second : β → Except ε γ} {result : γ} :
    (first >>= second) = .ok result ↔
      ∃ middle, first = .ok middle ∧ second middle = .ok result := by
  cases first <;> simp

/-- It fails as its first step does, or as the second does after the first. -/
theorem bind_eq_error_iff {first : Except ε β} {second : β → Except ε γ} {fault : ε} :
    (first >>= second) = .error fault ↔
      first = .error fault ∨ ∃ middle, first = .ok middle ∧ second middle = .error fault := by
  cases first <;> simp

theorem map_eq_ok_iff {change : β → γ} {outcome : Except ε β} {result : γ} :
    outcome.map change = .ok result ↔ ∃ found, outcome = .ok found ∧ change found = result := by
  cases outcome <;> simp [Except.map]

theorem map_eq_error_iff {change : β → γ} {outcome : Except ε β} {fault : ε} :
    outcome.map change = .error fault ↔ outcome = .error fault := by
  cases outcome <;> simp [Except.map]

/-- Wording a failure otherwise makes no success of it. -/
theorem mapError_eq_ok_iff {wording : ε → γ} {outcome : Except ε β} {result : β} :
    outcome.mapError wording = .ok result ↔ outcome = .ok result := by
  cases outcome with
  | error reason => constructor <;> rintro ⟨⟩
  | ok found => constructor <;> (rintro ⟨⟩; rfl)

theorem mapError_eq_error_iff {wording : ε → γ} {outcome : Except ε β} {fault : γ} :
    outcome.mapError wording = .error fault ↔
      ∃ reason, outcome = .error reason ∧ wording reason = fault := by
  cases outcome with
  | error reason =>
    constructor
    · rintro ⟨⟩
      exact ⟨reason, rfl, rfl⟩
    · rintro ⟨_, ⟨⟩, rfl⟩
      rfl
  | ok found =>
    constructor
    · rintro ⟨⟩
    · rintro ⟨_, ⟨⟩, _⟩

/-- A step that succeeds on each item of a list succeeds on all of them in a row. -/
theorem exists_mapM_eq_ok {items : List β} {step : β → Except ε γ}
    (each : ∀ item ∈ items, ∃ result, step item = .ok result) :
    ∃ results, items.mapM step = .ok results := by
  induction items with
  | nil => exact ⟨[], rfl⟩
  | cons item rest inductionHypothesis =>
    obtain ⟨⟨result, here⟩, there⟩ := List.forall_mem_cons.mp each
    obtain ⟨results, others⟩ := inductionHypothesis there
    exact ⟨result :: results, by rw [List.mapM_cons, here, others]; rfl⟩

/-- Where a step fails on a list of items, it fails on one of them. -/
theorem exists_of_mapM_eq_error {items : List β} {step : β → Except ε γ} {fault : ε}
    (failed : items.mapM step = .error fault) : ∃ item ∈ items, step item = .error fault := by
  induction items with
  | nil => cases failed
  | cons item rest inductionHypothesis =>
    rw [List.mapM_cons, bind_eq_error_iff] at failed
    rcases failed with here | ⟨result, _, later⟩
    · exact ⟨item, List.mem_cons_self, here⟩
    · rcases bind_eq_error_iff.mp later with there | ⟨results, _, impossible⟩
      · obtain ⟨other, member, there⟩ := inductionHypothesis there
        exact ⟨other, List.mem_cons_of_mem _ member, there⟩
      · cases impossible

/-- Where a step fails along a list of items, it fails on one of them. -/
theorem exists_of_foldlM_eq_error {items : List β} {step : γ → β → Except ε γ} {start : γ}
    {fault : ε} (failed : items.foldlM step start = .error fault) :
    ∃ item ∈ items, ∃ middle, step middle item = .error fault := by
  induction items generalizing start with
  | nil => cases failed
  | cons item rest inductionHypothesis =>
    rw [List.foldlM_cons, bind_eq_error_iff] at failed
    rcases failed with here | ⟨middle, _, later⟩
    · exact ⟨item, List.mem_cons_self, start, here⟩
    · obtain ⟨other, member, there⟩ := inductionHypothesis later
      exact ⟨other, List.mem_cons_of_mem _ member, there⟩

/-! ### Results of one step on many items -/

/-- A step succeeds on a list of items exactly if it does on each of them, in their order. -/
theorem mapM_eq_ok_iff {items : List β} {step : β → Except ε γ} {results : List γ} :
    items.mapM step = .ok results ↔
      List.Forall₂ (fun item result => step item = .ok result) items results := by
  induction items generalizing results with
  | nil =>
    rw [List.forall₂_nil_left_iff]
    exact ⟨fun empty => (Except.ok.inj empty).symm, fun empty => empty ▸ rfl⟩
  | cons item rest inductionHypothesis =>
    rw [List.mapM_cons, bind_eq_ok_iff, List.forall₂_cons_left_iff]
    refine exists_congr fun result => ?_
    simp only [bind_eq_ok_iff, inductionHypothesis]
    constructor
    · rintro ⟨here, others, there, ⟨⟩⟩
      exact ⟨others, here, there, rfl⟩
    · rintro ⟨others, here, there, rfl⟩
      exact ⟨here, others, there, rfl⟩

section

variable {related : β → γ → Prop} {items : List β} {results : List γ}

theorem exists_right_of_mem (each : List.Forall₂ related items results) {item : β}
    (member : item ∈ items) : ∃ result ∈ results, related item result := by
  induction each with
  | nil => cases member
  | cons here _ inductionHypothesis =>
    rcases List.mem_cons.mp member with rfl | member
    · exact ⟨_, List.mem_cons_self, here⟩
    · obtain ⟨result, among, there⟩ := inductionHypothesis member
      exact ⟨result, List.mem_cons_of_mem _ among, there⟩

theorem exists_left_of_mem (each : List.Forall₂ related items results) {result : γ}
    (member : result ∈ results) : ∃ item ∈ items, related item result :=
  exists_right_of_mem each.flip member

theorem map_eq_map_of_forall₂ {δ : Type} {first : β → δ} {second : γ → δ}
    (each : List.Forall₂ (fun item result => first item = second result) items results) :
    items.map first = results.map second := by
  rw [← List.forall₂_eq_eq_eq, List.forall₂_map_left_iff, List.forall₂_map_right_iff]
  exact each

end

/-- A step that succeeds on a list of items has a result for each of them. -/
theorem exists_result_of_mem {items : List β} {step : β → Except ε γ} {results : List γ}
    (succeeded : items.mapM step = .ok results) {item : β} (member : item ∈ items) :
    ∃ result ∈ results, step item = .ok result :=
  exists_right_of_mem (mapM_eq_ok_iff.mp succeeded) member

/-- Each result of a step on a list of items is that of one of them. -/
theorem exists_of_mem_mapM {items : List β} {step : β → Except ε γ} {results : List γ}
    (succeeded : items.mapM step = .ok results) {result : γ} (member : result ∈ results) :
    ∃ item ∈ items, step item = .ok result :=
  exists_left_of_mem (mapM_eq_ok_iff.mp succeeded) member

end HorizonPlanner
