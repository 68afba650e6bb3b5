/-
This file proves what a constraint leaves behind when it is refused half way.
Compiling stops at the first part that no engine can make sense of.  What comes
before it was stated, so the model says the constraint up to that part.  A
condition, however, states nothing while it is turned into a literal: the names
that were taken for its parts may remain without a definition, or with one, and
either way every truth assignment that was admitted extends to them.
-/

import HorizonPlanner.Proofs.CompiledNetwork
import HorizonPlanner.Proofs.DocumentValue
import HorizonPlanner.Proofs.Numbering

namespace HorizonPlanner

/-! ### The part that is refused, and what comes before it -/

namespace Constraint

variable {α : Type}

mutual

/-- The first part, in reading order, that no engine can make sense of. -/
def unsupported? : Constraint α → Option Value
  | all parts => unsupportedAmong? parts
  | implies condition consequence => condition.unsupported?.or consequence.unsupported?
  | unsupported content => some content
  | always | equals _ _ | agree _ _ => none

/-- The first such part among the parts of a conjunction. -/
def unsupportedAmong? : List (Constraint α) → Option Value
  | [] => none
  | part :: rest => part.unsupported?.or (unsupportedAmong? rest)

end

mutual

/-- A constraint up to its first unsupported part.  That part always holds, a conjunction ends with
the part that contains it, and an implication with such a condition always holds. -/
def truncated : Constraint α → Constraint α
  | all parts => all (truncatedParts parts)
  | implies condition consequence =>
    if condition.supported then implies condition consequence.truncated else always
  | unsupported _ => always
  | always => always
  | equals slot constant => equals slot constant
  | agree left right => agree left right

/-- The parts of a conjunction up to the first one that contains an unsupported part. -/
def truncatedParts : List (Constraint α) → List (Constraint α)
  | [] => []
  | part :: rest => if part.supported then part :: truncatedParts rest else [part.truncated]

end

mutual

theorem unsupported?_eq_none_iff (constraint : Constraint α) :
    constraint.unsupported? = none ↔ constraint.supported = true := by
  cases constraint with
  | all parts => exact unsupportedAmong?_eq_none_iff parts
  | implies condition consequence =>
    rw [unsupported?, supported_implies, Option.or_eq_none_iff, Bool.and_eq_true,
      unsupported?_eq_none_iff condition, unsupported?_eq_none_iff consequence]
  | unsupported content => simp [unsupported?, supported]
  | _ => simp [unsupported?, supported]

theorem unsupportedAmong?_eq_none_iff (parts : List (Constraint α)) :
    unsupportedAmong? parts = none ↔ supportedAll parts = true := by
  cases parts with
  | nil => simp [unsupportedAmong?]
  | cons part rest =>
    rw [unsupportedAmong?, supportedAll_cons, Option.or_eq_none_iff, Bool.and_eq_true,
      unsupported?_eq_none_iff part, unsupportedAmong?_eq_none_iff rest]

end

theorem exists_unsupported?_iff {constraint : Constraint α} :
    (∃ content, constraint.unsupported? = some content) ↔ constraint.supported = false := by
  rw [← Option.ne_none_iff_exists', Ne, unsupported?_eq_none_iff, Bool.not_eq_true]

mutual

/-- A supported constraint is kept as it is. -/
theorem truncated_eq_self (constraint : Constraint α) (supported : constraint.supported = true) :
    constraint.truncated = constraint := by
  cases constraint with
  | all parts => rw [truncated, truncatedParts_eq_self parts supported]
  | implies condition consequence =>
    rw [supported_implies, Bool.and_eq_true] at supported
    rw [truncated, if_pos supported.1, truncated_eq_self consequence supported.2]
  | unsupported content => exact nomatch supported
  | _ => rfl

theorem truncatedParts_eq_self (parts : List (Constraint α))
    (supported : supportedAll parts = true) : truncatedParts parts = parts := by
  cases parts with
  | nil => rfl
  | cons part rest =>
    rw [supportedAll_cons, Bool.and_eq_true] at supported
    rw [truncatedParts, if_pos supported.1, truncatedParts_eq_self rest supported.2]

end

mutual

theorem slots_truncated_subset (constraint : Constraint α) :
    constraint.truncated.slots ⊆ constraint.slots := by
  cases constraint with
  | all parts =>
    rw [truncated, slots_all, slots_all]
    exact slotsOfParts_truncatedParts_subset parts
  | implies condition consequence =>
    rw [truncated]
    split
    next =>
      rw [slots_implies, slots_implies]
      exact List.append_subset.mpr ⟨List.subset_append_left _ _,
        List.Subset.trans (slots_truncated_subset consequence) (List.subset_append_right _ _)⟩
    next => exact List.nil_subset _
  | _ => exact fun _ member => member

theorem slotsOfParts_truncatedParts_subset (parts : List (Constraint α)) :
    slotsOfParts (truncatedParts parts) ⊆ slotsOfParts parts := by
  cases parts with
  | nil => exact fun _ member => member
  | cons part rest =>
    rw [truncatedParts]
    split
    next =>
      rw [slotsOfParts_cons, slotsOfParts_cons]
      exact List.append_subset.mpr ⟨List.subset_append_left _ _,
        List.Subset.trans (slotsOfParts_truncatedParts_subset rest) (List.subset_append_right _ _)⟩
    next =>
      rw [slotsOfParts_cons, slotsOfParts_cons, slotsOfParts_nil, List.append_nil]
      exact List.Subset.trans (slots_truncated_subset part) (List.subset_append_left _ _)

end

end Constraint

namespace Cnf

theorem run_bind_error {β γ : Type} {first : Build Int β} {second : β → Build Int γ}
    {model middle : Model Int} {fault : Fault} (ran : first.run model = .error fault middle) :
    (first >>= second).run model = .error fault middle := by
  rw [EStateM.run_bind, ran]

namespace Model

/-! ### Literals that do not come about -/

mutual

/-- Turning a constraint with an unsupported part into a literal stops there, and states nothing. -/
theorem run_reify_rejected (constraint : Constraint Int) {model : Model Int}
    (coherent : model.Coherent) (inside : ∀ slot ∈ constraint.slots, slot < model.declared.size)
    {content : Value} (rejected : constraint.unsupported? = some content) :
    ∃ after, (reify constraint).run model = .error (.unsupportedConstraint content) after ∧
      model.Conserves after fun _ => True := by
  have allocates := coherent.conserves_allocated
  cases constraint with
  | all parts =>
    rw [Constraint.slots_all] at inside
    obtain ⟨after, ran, conserves⟩ :=
      run_reifyParts_rejected parts coherent.allocated inside rejected
    refine ⟨after, ?_, allocates.prepend conserves fun _ _ _ => id⟩
    rw [reify, run_bind_ok (run_allocate model), run_bind_error ran]
  | implies condition consequence =>
    simp only [Constraint.slots_implies, List.forall_mem_append] at inside
    rcases Option.or_eq_some_iff.mp rejected with here | ⟨supported, there⟩
    · obtain ⟨after, ran, conserves⟩ :=
        run_reify_rejected condition coherent.allocated inside.1 here
      refine ⟨after, ?_, allocates.prepend conserves fun _ _ _ => id⟩
      rw [reify, run_bind_ok (run_allocate model), run_bind_error ran]
    · rw [Constraint.unsupported?_eq_none_iff] at supported
      obtain ⟨premise, middle, ran, refines, _⟩ :=
        run_reify condition coherent.allocated ⟨supported, inside.1⟩
      obtain ⟨after, ran', conserves⟩ := run_reify_rejected consequence refines.coherent
        (refines.declared ▸ inside.2) there
      refine ⟨after, ?_, allocates.prepend (refines.toConserves.prepend conserves fun _ _ _ => id)
        fun _ _ _ => id⟩
      rw [reify, run_bind_ok (run_allocate model), run_bind_ok ran, run_bind_error ran']
  | unsupported other =>
    cases rejected
    exact ⟨_, rfl, allocates⟩
  | _ => cases rejected

theorem run_reifyParts_rejected (parts : List (Constraint Int)) {model : Model Int}
    (coherent : model.Coherent)
    (inside : ∀ slot ∈ Constraint.slotsOfParts parts, slot < model.declared.size)
    {content : Value} (rejected : Constraint.unsupportedAmong? parts = some content) :
    ∃ after, (reifyParts parts).run model = .error (.unsupportedConstraint content) after ∧
      model.Conserves after fun _ => True := by
  cases parts with
  | nil => cases rejected
  | cons part rest =>
    simp only [Constraint.slotsOfParts, List.forall_mem_append] at inside
    rcases Option.or_eq_some_iff.mp rejected with here | ⟨supported, there⟩
    · obtain ⟨after, ran, conserves⟩ := run_reify_rejected part coherent inside.1 here
      exact ⟨after, by rw [reifyParts, run_bind_error ran], conserves⟩
    · rw [Constraint.unsupported?_eq_none_iff] at supported
      obtain ⟨literal, middle, ran, refines, _⟩ := run_reify part coherent ⟨supported, inside.1⟩
      obtain ⟨after, ran', conserves⟩ := run_reifyParts_rejected rest refines.coherent
        (refines.declared ▸ inside.2) there
      refine ⟨after, ?_, refines.toConserves.prepend conserves fun _ _ _ => id⟩
      rw [reifyParts, run_bind_ok ran, run_bind_error ran']

end

/-! ### Clauses of what comes before -/

mutual

/-- Compiling a constraint with an unsupported part stops there, and states the constraint up to
it. -/
theorem run_compile_rejected (constraint : Constraint Int) (guards : List Literal)
    {model : Model Int} (coherent : model.Coherent)
    (inside : ∀ slot ∈ constraint.slots, slot < model.declared.size)
    (below : Clause.Below model.atoms guards)
    {content : Value} (rejected : constraint.unsupported? = some content) :
    ∃ after, (compile guards constraint).run model = .error (.unsupportedConstraint content) after ∧
      model.Conserves after
        (model.Guarded guards fun assignment => constraint.truncated.holds assignment) := by
  cases constraint with
  | all parts =>
    rw [Constraint.slots_all] at inside
    obtain ⟨after, ran, conserves⟩ :=
      run_compileParts_rejected parts guards coherent inside below rejected
    refine ⟨after, ran, conserves.congr fun truth _ => ?_⟩
    rw [Guarded, Guarded, Constraint.truncated, Constraint.holds]
  | implies condition consequence =>
    simp only [Constraint.slots_implies, List.forall_mem_append] at inside
    rcases Option.or_eq_some_iff.mp rejected with here | ⟨supported, there⟩
    · obtain ⟨after, ran, conserves⟩ := run_reify_rejected condition coherent inside.1 here
      have unsupported := Constraint.exists_unsupported?_iff.mp ⟨_, here⟩
      refine ⟨after, by rw [compile, run_bind_error ran], conserves.congr fun truth _ => ?_⟩
      simp [Guarded, Constraint.truncated, unsupported, Constraint.holds]
    · rw [Constraint.unsupported?_eq_none_iff] at supported
      obtain ⟨premise, middle, ran, refines, name⟩ :=
        run_reify condition coherent ⟨supported, inside.1⟩
      have below' : Clause.Below middle.atoms (guards ++ [premise.negate]) :=
        List.forall_mem_append.mpr ⟨below.mono refines.atoms_le,
          List.forall_mem_singleton.mpr name.below.negate⟩
      obtain ⟨after, ran', conserves⟩ := run_compile_rejected consequence _ refines.coherent
        (refines.declared ▸ inside.2) below' there
      refine ⟨after, by rw [compile, run_bind_ok ran, ran'],
        refines.toConserves.prepend (conserves.congr fun truth admitted => ?_)
          fun truth extended same => Guarded.stable coherent below same⟩
      have value := name.satisfied_eq truth admitted
      rw [refines.decode_eq] at value
      simp [Guarded, Constraint.truncated, supported, Constraint.holds, refines.decode_eq, value,
        or_assoc]
  | unsupported other =>
    cases rejected
    refine ⟨model, rfl, (Refines.refl coherent).toConserves.congr fun truth _ => ?_⟩
    simp [Guarded, Constraint.truncated, Constraint.holds]
  | _ => cases rejected

theorem run_compileParts_rejected (parts : List (Constraint Int)) (guards : List Literal)
    {model : Model Int} (coherent : model.Coherent)
    (inside : ∀ slot ∈ Constraint.slotsOfParts parts, slot < model.declared.size)
    (below : Clause.Below model.atoms guards)
    {content : Value} (rejected : Constraint.unsupportedAmong? parts = some content) :
    ∃ after, (compileParts guards parts).run model =
        .error (.unsupportedConstraint content) after ∧
      model.Conserves after (model.Guarded guards fun assignment =>
        Constraint.holdsAll assignment (Constraint.truncatedParts parts)) := by
  cases parts with
  | nil => cases rejected
  | cons part rest =>
    simp only [Constraint.slotsOfParts, List.forall_mem_append] at inside
    rcases Option.or_eq_some_iff.mp rejected with here | ⟨supported, there⟩
    · obtain ⟨after, ran, conserves⟩ :=
        run_compile_rejected part guards coherent inside.1 below here
      have unsupported := Constraint.exists_unsupported?_iff.mp ⟨_, here⟩
      refine ⟨after, by rw [compileParts, run_bind_error ran], conserves.congr fun truth _ => ?_⟩
      simp [Guarded, Constraint.truncatedParts, unsupported, Constraint.holdsAll]
    · rw [Constraint.unsupported?_eq_none_iff] at supported
      obtain ⟨middle, ran, refines⟩ := run_compile part guards coherent ⟨supported, inside.1⟩ below
      obtain ⟨after, ran', conserves⟩ := run_compileParts_rejected rest guards refines.coherent
        (refines.declared ▸ inside.2) (below.mono refines.atoms_le) there
      rw [refines.guarded_eq] at conserves
      refine ⟨after, by rw [compileParts, run_bind_ok ran, ran'],
        (refines.toConserves.trans conserves fun truth extended same =>
          Guarded.stable coherent below same).congr fun truth _ => ?_⟩
      simp only [Guarded, Constraint.truncatedParts, if_pos supported, Constraint.holdsAll,
        Bool.and_eq_true, or_and_left]

end

/-! ### Posting -/

/-- A list of values is allowed if it is that of a truth assignment that the model admits. -/
def Allows (model : Model Int) (values : List Int) : Prop :=
  ∃ truth, model.Admits truth ∧ model.valuesIn truth = values

theorem Coherent.bounded {model : Model Int} (coherent : model.Coherent) : model.Bounded where
  tables table member entry among :=
    coherent.tables_below table member entry.2 (LiteralTable.atom_mem among)
  truth atom found :=
    have ⟨positive, inside, _⟩ := coherent.pinned atom found
    ⟨positive, inside⟩

/-- A step that states a constraint allows what was allowed and makes the constraint true. -/
theorem Conserves.allows_iff {before after : Model Int} {constraint : Constraint Int}
    (conserves : before.Conserves after fun truth =>
      constraint.holds (before.decode truth) = true)
    (coherent : before.Coherent) (inside : ∀ slot ∈ constraint.slots, slot < before.declared.size)
    (values : List Int) :
    after.Allows values ↔
      before.Allows values ∧ constraint.holds (Network.slotValue values) = true := by
  constructor
  · rintro ⟨truth, admitted, rfl⟩
    obtain ⟨admitted, holding⟩ := conserves.sound truth admitted
    rw [conserves.valuesIn_eq, holds_valuesIn inside]
    exact ⟨⟨truth, admitted, rfl⟩, holding⟩
  · rintro ⟨⟨truth, admitted, rfl⟩, holding⟩
    rw [holds_valuesIn inside] at holding
    obtain ⟨extended, same, admitted'⟩ := conserves.complete truth admitted holding
    refine ⟨extended, admitted', ?_⟩
    rw [conserves.valuesIn_eq, coherent.valuesIn_congr same]

section

variable {model : Model Int} {constraint : Constraint Int}

theorem run_post (model : Model Int) (constraint : Constraint Int) :
    (post constraint).run model =
      (compile [] constraint).run { model with posted := model.posted + 1 } := rfl

theorem Coherent.counted (coherent : model.Coherent) :
    Coherent { model with posted := model.posted + 1 } := { coherent with }

/-- Compiled without guards, a constraint is stated as it is, and counting it first states
nothing. -/
theorem Conserves.uncounted {after : Model Int}
    (conserves : Conserves { model with posted := model.posted + 1 } after
      (Guarded { model with posted := model.posted + 1 } [] fun assignment =>
        constraint.holds assignment)) :
    model.Conserves after fun truth => constraint.holds (model.decode truth) = true :=
  have stated := conserves.congr fun _ _ => or_iff_right Bool.false_ne_true
  { stated with }

/-- A supported constraint is posted. -/
theorem run_post_supported (coherent : model.Coherent)
    (inside : ∀ slot ∈ constraint.slots, slot < model.declared.size)
    (supported : constraint.supported = true) :
    (post constraint).run model = .ok () (model.after (.post constraint)) ∧
      model.Conserves (model.after (.post constraint))
        fun truth => constraint.truncated.holds (model.decode truth) = true := by
  obtain ⟨after, ran, refines⟩ := run_compile constraint [] coherent.counted ⟨supported, inside⟩
    fun _ member => absurd member List.not_mem_nil
  rw [← run_post] at ran
  rw [Model.after, ran, endOf, Constraint.truncated_eq_self constraint supported]
  exact ⟨rfl, refines.toConserves.uncounted⟩

/-- A constraint with an unsupported part is refused there. -/
theorem run_post_rejected (coherent : model.Coherent)
    (inside : ∀ slot ∈ constraint.slots, slot < model.declared.size) {content : Value}
    (rejected : constraint.unsupported? = some content) :
    (post constraint).run model =
        .error (.unsupportedConstraint content) (model.after (.post constraint)) ∧
      model.Conserves (model.after (.post constraint))
        fun truth => constraint.truncated.holds (model.decode truth) = true := by
  obtain ⟨after, ran, conserves⟩ := run_compile_rejected constraint [] coherent.counted inside
    (fun _ member => absurd member List.not_mem_nil) rejected
  rw [← run_post] at ran
  rw [Model.after, ran, endOf]
  exact ⟨rfl, conserves.uncounted⟩

/-- Posted or refused, a constraint is stated up to its first unsupported part. -/
theorem conserves_post (coherent : model.Coherent)
    (inside : ∀ slot ∈ constraint.slots, slot < model.declared.size) :
    model.Conserves (model.after (.post constraint))
      fun truth => constraint.truncated.holds (model.decode truth) = true := by
  cases found : constraint.unsupported? with
  | none =>
    exact (run_post_supported coherent inside (constraint.unsupported?_eq_none_iff.mp found)).2
  | some content => exact (run_post_rejected coherent inside found).2

/-- Posted or refused, a constraint is counted. -/
theorem posted_post (coherent : model.Coherent) (constraint : Constraint Int) :
    (model.after (.post constraint)).posted = model.posted + 1 :=
  (adds_post coherent.bounded constraint).posted

end

/-! ### Any sequence of calls -/

/-- What is posted is over the variables there are. -/
def InScope (count : Nat) : List (Use Int) → Prop
  | [] => True
  | .declare _ :: rest => InScope (count + 1) rest
  | .post constraint :: rest => (∀ slot ∈ constraint.slots, slot < count) ∧ InScope count rest
  | .solve :: rest => InScope count rest

/-- A model that some calls lead to, of which any may have been refused. -/
def Reachable (model : Model Int) : Prop :=
  ∃ uses, InScope 0 uses ∧ (empty : Model Int).afterAll uses = model

/-- The parts of a model fit together, even after constraints were refused half way. -/
theorem Coherent.useAll {model : Model Int} (coherent : model.Coherent) {uses : List (Use Int)}
    (inScope : InScope model.declared.size uses) : (model.afterAll uses).Coherent := by
  induction uses generalizing model with
  | nil => exact coherent
  | cons use rest inductionHypothesis =>
    cases use with
    | declare entry =>
      obtain ⟨after, table, top, ran, enters⟩ := run_declare entry model
      have reached : model.after (.declare entry) = after := by rw [Model.after, ran, endOf]
      refine inductionHypothesis (reached ▸ enters.coherent coherent) ?_
      rw [reached, enters.declared, Array.size_push]
      exact inScope
    | post constraint =>
      have conserves := conserves_post coherent inScope.1
      exact inductionHypothesis conserves.coherent (conserves.declared ▸ inScope.2)
    | solve => exact inductionHypothesis coherent inScope

theorem Reachable.coherent {model : Model Int} (reachable : model.Reachable) : model.Coherent := by
  obtain ⟨uses, inScope, rfl⟩ := reachable
  exact coherent_empty.useAll inScope

/-- What posting a constraint does to any model.  It is refused exactly if the constraint has an
unsupported part, as the first of these.  Either way it is counted once, and the values that the
model allows afterwards are those that it allowed before and that make the constraint true up to
its first unsupported part.  In particular turning such a constraint into a literal, as is done
with a condition, is given up without excluding anything. -/
theorem post_states_truncated {model : Model Int} (reachable : model.Reachable)
    {constraint : Constraint Int} (inside : ∀ slot ∈ constraint.slots, slot < model.declared.size) :
    (constraint.supported = true →
      (post constraint).run model = .ok () (model.after (.post constraint))) ∧
    (constraint.supported = false → ∃ content, constraint.unsupported? = some content ∧
      (post constraint).run model =
        .error (.unsupportedConstraint content) (model.after (.post constraint)) ∧
      (content.unwritable? = none → (Fault.unsupportedConstraint content).family = .kind)) ∧
    (model.after (.post constraint)).posted = model.posted + 1 ∧
    (∀ values, (model.after (.post constraint)).Allows values ↔
      model.Allows values ∧ constraint.truncated.holds (Network.slotValue values) = true) ∧
    (constraint.supported = false → ∃ fault left, (reify constraint).run model = .error fault left ∧
      (∀ truth, model.Admits truth →
        ∃ extended, SameUpTo model.atoms extended truth ∧ left.Admits extended) ∧
      ∀ values, left.Allows values ↔ model.Allows values) := by
  have coherent := reachable.coherent
  refine ⟨fun supported => (run_post_supported coherent inside supported).1, fun unsupported => ?_,
    posted_post coherent constraint, fun values => ?_, fun unsupported => ?_⟩
  · obtain ⟨content, rejected⟩ := Constraint.exists_unsupported?_iff.mpr unsupported
    refine ⟨content, rejected, (run_post_rejected coherent inside rejected).1, fun writable => ?_⟩
    exact Fault.family_of_writable (List.forall_mem_singleton.mpr writable)
  · exact (conserves_post coherent inside).allows_iff coherent
      (fun slot mentioned => inside slot (constraint.slots_truncated_subset mentioned)) values
  · obtain ⟨content, rejected⟩ := Constraint.exists_unsupported?_iff.mpr unsupported
    obtain ⟨left, ran, conserves⟩ := run_reify_rejected constraint coherent inside rejected
    refine ⟨_, left, ran, fun truth admitted => conserves.complete truth admitted trivial,
      fun values => ?_⟩
    have always : model.Conserves left
        fun truth => Constraint.always.holds (model.decode truth) = true :=
      conserves.congr fun truth _ => by simp [Constraint.holds]
    rw [always.allows_iff coherent (fun _ member => absurd member List.not_mem_nil),
      Constraint.holds, and_iff_left rfl]

/-- Two variables, and an implication that was refused after parts of its condition were named. -/
def interruptedUses : List (Use Int) :=
  [.declare ⟨"x", [1, 2]⟩, .declare ⟨"y", [2, 3]⟩,
    .post (.implies (.all [.agree 0 1, .unsupported (.integer 7)]) (.equals 1 3))]

/-- A conjunction that is refused in the consequence of its second part. -/
def interruptedConstraint : Constraint Int :=
  .all [.equals 1 2, .implies (.equals 0 2) (.all [.agree 0 1, .unsupported .none]), .equals 0 1]

theorem reachable_interruptedUses : ((empty : Model Int).afterAll interruptedUses).Reachable := by
  refine ⟨interruptedUses, ⟨?_, trivial⟩, rfl⟩
  decide

theorem post_states_truncated_interrupted :
    let model := (empty : Model Int).afterAll interruptedUses
    let after := model.after (.post interruptedConstraint)
    model.Reachable ∧ (∀ slot ∈ interruptedConstraint.slots, slot < model.declared.size) ∧
      (post interruptedConstraint).run model = .error (.unsupportedConstraint .none) after ∧
      after.posted = 2 ∧ after.Allows [2, 2] ∧ ¬ after.Allows [2, 3] := by
  have inside : ∀ slot ∈ interruptedConstraint.slots,
      slot < ((empty : Model Int).afterAll interruptedUses).declared.size := by decide
  obtain ⟨_, refused, counted, stated, _⟩ :=
    post_states_truncated reachable_interruptedUses inside
  obtain ⟨content, found, ran, _⟩ := refused rfl
  cases found
  refine ⟨reachable_interruptedUses, inside, ran, counted, (stated [2, 2]).mpr ⟨?_, by decide⟩,
    fun allowed => absurd ((stated [2, 3]).mp allowed).2 (by decide)⟩
  -- The name of the conjunction was never defined, so either truth value will do for it.
  refine ⟨fun atom => decide (atom = 2 ∨ atom = 3 ∨ atom = 6), ⟨rfl, ?_⟩, by decide⟩
  decide

end Model

end Cnf

end HorizonPlanner
