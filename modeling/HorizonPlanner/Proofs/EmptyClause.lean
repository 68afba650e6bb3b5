/-
This file proves that no call on a model looks at the record of an empty clause.
A call that is made when an empty clause was recorded does exactly what it would
have done otherwise, value by value and clause by clause, and the record stays.
So what is known of models without the record carries over to the others, and a
contradiction is never taken back.
-/

import HorizonPlanner.Proofs.Numbering

namespace HorizonPlanner.Cnf

variable {α β γ : Type}

/-! ### Steps that do not look at the record -/

namespace Model

/-- A model with the record of an empty clause. -/
def contradicted (model : Model α) : Model α := { model with contradiction := true }

/-- A model without the record of an empty clause, if it had one. -/
def pardoned (model : Model α) : Model α := { model with contradiction := false }

theorem contradicted_pardoned {model : Model α} (recorded : model.contradiction = true) :
    model.pardoned.contradicted = model := by
  rw [contradicted, pardoned, ← recorded]

theorem pardoned_eq_self {model : Model α} (clear : model.contradiction = false) :
    model.pardoned = model := by
  rw [pardoned, ← clear]

end Model

/-- The same result, with an empty clause recorded in the model that it leaves. -/
def recorded : EStateM.Result Fault (Model α) β → EStateM.Result Fault (Model α) β
  | .ok value after => .ok value after.contradicted
  | .error fault after => .error fault after.contradicted

/-- A step that does the same whether or not an empty clause was recorded. -/
def Oblivious (step : Build α β) : Prop :=
  ∀ model, step.run model.contradicted = recorded (step.run model)

theorem Oblivious.bind {first : Build α β} {second : β → Build α γ} (here : Oblivious first)
    (there : ∀ value, Oblivious (second value)) : Oblivious (first >>= second) := by
  intro model
  rw [EStateM.run_bind, EStateM.run_bind, here model]
  cases first.run model with
  | ok value middle => exact there value middle
  | error fault middle => rfl

theorem oblivious_pure (value : β) : Oblivious (pure value : Build α β) := fun _ => rfl

theorem oblivious_throw (fault : Fault) : Oblivious (throw fault : Build α β) := fun _ => rfl

/-! ### The steps of a compilation -/

theorem oblivious_addClause (clause : Clause) : Oblivious (addClause clause : Build α Unit) :=
  fun _ => rfl

theorem oblivious_addClauses (clauses : List Clause) :
    Oblivious (addClauses clauses : Build α Unit) := fun _ => rfl

theorem oblivious_emit (clause : Clause) : Oblivious (emit clause : Build α Unit) := by
  cases clause with
  | nil => exact fun _ => rfl
  | cons literal rest => exact oblivious_addClause (literal :: rest)

theorem oblivious_emitAll (clauses : List Clause) :
    Oblivious (emitAll clauses : Build α Unit) := by
  induction clauses with
  | nil => exact oblivious_pure ()
  | cons clause rest inductionHypothesis =>
    rw [emitAll]
    exact (oblivious_emit clause).bind fun _ => inductionHypothesis

theorem oblivious_allocate : Oblivious (allocate : Build α Nat) := fun _ => rfl

theorem oblivious_excludeAll (atoms : List Nat) : Oblivious (excludeAll atoms : Build α Unit) :=
  fun _ => rfl

theorem oblivious_always : Oblivious (always : Build α Literal) := by
  intro model
  have same : model.contradicted.truth = model.truth := rfl
  rw [always, EStateM.run_bind, EStateM.run_bind, EStateM.run_get, EStateM.run_get]
  simp only [same]
  cases model.truth <;> rfl

theorem oblivious_tableAt (slot : Nat) : Oblivious (tableAt slot : Build α (LiteralTable α)) := by
  intro model
  have same : model.contradicted.tables = model.tables := rfl
  rw [tableAt, EStateM.run_bind, EStateM.run_bind, EStateM.run_get, EStateM.run_get]
  simp only [same]
  cases model.tables[slot]? <;> rfl

section

variable [Symbol α]

theorem oblivious_atomAt (slot : Nat) (value : α) :
    Oblivious (atomAt slot value : Build α (Option Nat)) := by
  refine (oblivious_tableAt slot).bind fun table => ?_
  cases Symbol.unhashable? value with
  | none => exact oblivious_pure _
  | some obstacle => exact oblivious_throw _

theorem oblivious_allocateTable (table : LiteralTable α) (values : List α) :
    Oblivious (allocateTable table values) := by
  induction values generalizing table with
  | nil => exact oblivious_pure table
  | cons value rest inductionHypothesis =>
    rw [allocateTable]
    cases Symbol.unhashable? value with
    | some obstacle => exact oblivious_throw _
    | none =>
      cases table.atom? value with
      | some atom => exact inductionHypothesis table
      | none => exact oblivious_allocate.bind fun atom => inductionHypothesis _

theorem oblivious_declare (entry : Variable α) : Oblivious (declare entry) := by
  have enter : Oblivious (modify fun model : Model α =>
      { model with declared := model.declared.push entry } : Build α Unit) := fun _ => rfl
  refine enter.bind fun _ => (oblivious_allocateTable [] entry.values).bind fun table => ?_
  have store : Oblivious (modify fun model : Model α =>
      { model with tables := model.tables.push table } : Build α Unit) := fun _ => rfl
  exact store.bind fun _ => (oblivious_emit _).bind fun _ => oblivious_excludeAll _

mutual

theorem oblivious_reify (constraint : Constraint α) : Oblivious (reify constraint) := by
  cases constraint with
  | always => exact oblivious_always
  | equals slot constant =>
    refine (oblivious_atomAt slot constant).bind fun atom => ?_
    cases atom with
    | some atom => exact oblivious_pure _
    | none => exact oblivious_always.bind fun _ => oblivious_pure _
  | agree left right =>
    refine oblivious_allocate.bind fun name => (oblivious_tableAt left).bind fun _ => ?_
    exact (oblivious_tableAt right).bind fun _ =>
      (oblivious_addClauses _).bind fun _ => oblivious_pure _
  | all parts =>
    refine oblivious_allocate.bind fun name => (oblivious_reifyParts parts).bind fun _ => ?_
    exact (oblivious_addClauses _).bind fun _ =>
      (oblivious_addClause _).bind fun _ => oblivious_pure _
  | implies condition consequence =>
    refine oblivious_allocate.bind fun name => (oblivious_reify condition).bind fun _ => ?_
    refine (oblivious_reify consequence).bind fun _ => (oblivious_addClause _).bind fun _ => ?_
    exact (oblivious_addClause _).bind fun _ =>
      (oblivious_addClause _).bind fun _ => oblivious_pure _
  | unsupported content => exact oblivious_allocate.bind fun _ => oblivious_throw _

theorem oblivious_reifyParts (parts : List (Constraint α)) : Oblivious (reifyParts parts) := by
  cases parts with
  | nil => exact oblivious_pure []
  | cons part rest =>
    exact (oblivious_reify part).bind fun _ =>
      (oblivious_reifyParts rest).bind fun _ => oblivious_pure _

end

mutual

theorem oblivious_compile (guards : List Literal) (constraint : Constraint α) :
    Oblivious (compile guards constraint) := by
  cases constraint with
  | always => exact oblivious_pure ()
  | equals slot constant =>
    refine (oblivious_atomAt slot constant).bind fun atom => ?_
    cases atom with
    | some atom => exact oblivious_emit _
    | none => exact oblivious_emit _
  | agree left right =>
    exact (oblivious_tableAt left).bind fun _ => (oblivious_tableAt right).bind fun _ =>
      oblivious_emitAll _
  | all parts => exact oblivious_compileParts guards parts
  | implies condition consequence =>
    exact (oblivious_reify condition).bind fun _ => oblivious_compile _ consequence
  | unsupported content => exact oblivious_throw _

theorem oblivious_compileParts (guards : List Literal) (parts : List (Constraint α)) :
    Oblivious (compileParts guards parts) := by
  cases parts with
  | nil => exact oblivious_pure ()
  | cons part rest =>
    exact (oblivious_compile guards part).bind fun _ => oblivious_compileParts guards rest

end

theorem oblivious_post (constraint : Constraint α) : Oblivious (post constraint) := by
  have count : Oblivious (modify fun model : Model α =>
      { model with posted := model.posted + 1 } : Build α Unit) := fun _ => rfl
  exact count.bind fun _ => oblivious_compile [] constraint

end

/-! ### A contradiction stays -/

namespace Model

section

variable {model after : Model α} {step : Build α β}

/-- A step that succeeds leaves the record of an empty clause. -/
theorem contradiction_of_ok (oblivious : Oblivious step) (recorded : model.contradiction = true)
    {value : β} (ran : step.run model = .ok value after) : after.contradiction = true := by
  have same := oblivious model.pardoned
  rw [contradicted_pardoned recorded, ran] at same
  cases plain : step.run model.pardoned with
  | ok other middle =>
    rw [plain] at same
    cases same
    rfl
  | error fault middle =>
    rw [plain] at same
    cases same

/-- A step that succeeds on a model without the record of an empty clause does the same on the
model with it. -/
theorem run_of_pardoned (oblivious : Oblivious step) {value : β}
    (ran : step.run model.pardoned = .ok value after) :
    ∃ final, step.run model = .ok value final ∧ final.pardoned = after.pardoned ∧
      (model.contradiction = true → final.contradiction = true) ∧
      (model.contradiction = false → final = after) := by
  cases record : model.contradiction with
  | false =>
    rw [pardoned_eq_self record] at ran
    exact ⟨after, ran, rfl, fun impossible => absurd impossible Bool.false_ne_true, fun _ => rfl⟩
  | true =>
    have same := oblivious model.pardoned
    rw [contradicted_pardoned record, ran] at same
    exact ⟨after.contradicted, same, rfl, fun _ => rfl, fun impossible => nomatch impossible⟩

end

end Model

end HorizonPlanner.Cnf
