/-
This file compiles constraints to clauses.  Each variable gets one propositional
variable for each of its values, of which exactly one is true.  A posted
constraint is compiled under guards, so that the clauses say "some guard holds
or the constraint does"; the condition of an implication is turned into a
literal, and the literal's negation becomes a further guard.

A step that fails keeps what it did before it failed, as the state of the
computation shows.
-/

import HorizonPlanner.Constraint
import HorizonPlanner.Cnf.Ladder

namespace HorizonPlanner.Cnf

variable {α : Type}

/-! ### Models -/

/-- The propositional variables that stand for the values of one variable. -/
abbrev LiteralTable (α : Type) := List (α × Nat)

/-- A set of variables and constraints compiled to clauses.  `truth` is a propositional variable
that is true, once one was needed, and `contradiction` records an empty clause, which is not among
the clauses. -/
structure Model (α : Type) where
  declared : Array (Variable α)
  tables : Array (LiteralTable α)
  atoms : Nat
  clauses : Array Clause
  truth : Option Nat
  contradiction : Bool
  posted : Nat

namespace Model

/-- The model without variables and constraints. -/
def empty : Model α := ⟨#[], #[], 0, #[], none, false, 0⟩

/-- The formula of a model's clauses. -/
def formula (model : Model α) : Formula := ⟨model.atoms, model.clauses⟩

end Model

/-- A step in building a model. -/
abbrev Build (α β : Type) := EStateM Fault (Model α) β

/-! ### Clauses -/

/-- Adds a clause as it is. -/
def addClause (clause : Clause) : Build α Unit :=
  modify fun model => { model with clauses := model.clauses.push clause }

/-- Adds clauses as they are. -/
def addClauses (clauses : List Clause) : Build α Unit :=
  modify fun model => { model with clauses := model.clauses ++ clauses }

/-- Adds a clause, an empty one as a contradiction. -/
def emit (clause : Clause) : Build α Unit :=
  if clause.isEmpty then modify fun model => { model with contradiction := true }
  else addClause clause

/-- Adds clauses one after another, empty ones as contradictions. -/
def emitAll : List Clause → Build α Unit
  | [] => pure ()
  | clause :: rest => do
    emit clause
    emitAll rest

/-- The next free propositional variable. -/
def allocate : Build α Nat :=
  modifyGet fun model => (model.atoms + 1, { model with atoms := model.atoms + 1 })

/-- The literal that is always true; its clause is added when it is first asked for. -/
def always : Build α Literal := do
  match (← get).truth with
  | some atom => pure (.holds atom)
  | none =>
    let atom ← allocate
    modify fun model => { model with truth := some atom }
    addClause [.holds atom]
    pure (.holds atom)

/-- States that at most one of a list of propositional variables is true. -/
def excludeAll (atoms : List Nat) : Build α Unit := do
  let free := (← get).atoms + 1
  modify fun model => { model with atoms := model.atoms + rungCount atoms.length }
  addClauses (atMostOneClauses free atoms)

/-! ### Variables -/

section

variable [Symbol α]

/-- The propositional variable that a table has for a value. -/
def LiteralTable.atom? (table : LiteralTable α) (value : α) : Option Nat :=
  (table.find? fun entry => Symbol.same entry.1 value).map Prod.snd

/-- A table with a propositional variable for each value of a list, values that are the same having
one in common. -/
def allocateTable (table : LiteralTable α) : List α → Build α (LiteralTable α)
  | [] => pure table
  | value :: rest =>
    match Symbol.unhashable? value, table.atom? value with
    | some obstacle, _ => throw (.obstructed obstacle)
    | none, some _ => allocateTable table rest
    | none, none => do
      let atom ← allocate
      allocateTable (table ++ [(value, atom)]) rest

/-- Adds a variable.  The variable itself is entered first, so it stays even if one of its values
is refused. -/
def declare (entry : Variable α) : Build α Unit := do
  modify fun model => { model with declared := model.declared.push entry }
  let table ← allocateTable [] entry.values
  modify fun model => { model with tables := model.tables.push table }
  let atoms := table.map Prod.snd
  emit (atoms.map .holds)
  excludeAll atoms

/-- The table of a slot. -/
def tableAt (slot : Nat) : Build α (LiteralTable α) := do
  match (← get).tables[slot]? with
  | some table => pure table
  | none => throw .listPosition

/-- The propositional variable of a value of a slot, if the domain has the value.  What cannot be a
key is refused. -/
def atomAt (slot : Nat) (value : α) : Build α (Option Nat) := do
  let table ← tableAt slot
  match Symbol.unhashable? value with
  | some obstacle => throw (.obstructed obstacle)
  | none => pure (table.atom? value)

/-! ### Agreement of two variables -/

/-- For each value of the left table its propositional variable and that of the same value on the
right, if there is one. -/
def matched (left right : LiteralTable α) : List (Nat × Option Nat) :=
  left.map fun (value, atom) => (atom, right.atom? value)

/-- The propositional variables of the values that only the right table has. -/
def unmatched (left right : LiteralTable α) : List Nat :=
  (right.filter fun (value, _) => (left.atom? value).isNone).map Prod.snd

/-- The clauses, without guards, that two variables have the same value. -/
def agreementClauses (left right : LiteralTable α) : List Clause :=
  (matched left right).map (fun (atom, partner) => match partner with
    | some partner => [.fails atom, .holds partner]
    | none => [.fails atom]) ++
  (unmatched left right).map fun atom => [.fails atom]

/-- The clauses that a literal is true exactly when two variables have the same value. -/
def agreementDefinition (name : Nat) (left right : LiteralTable α) : List Clause :=
  (matched left right).flatMap (fun (atom, partner) => match partner with
    | some partner =>
      [[.fails name, .fails atom, .holds partner], [.holds name, .fails atom, .fails partner]]
    | none => [[.fails name, .fails atom]]) ++
  (unmatched left right).map fun atom => [.fails name, .fails atom]

/-! ### Constraints as literals -/

mutual

/-- A literal that is true exactly when a constraint holds.  An auxiliary variable is allocated
before the parts of the constraint are looked at. -/
def reify : Constraint α → Build α Literal
  | .always => always
  | .equals slot constant => do
    match ← atomAt slot constant with
    | some atom => pure (.holds atom)
    | none => do pure (← always).negate
  | .agree left right => do
    let name ← allocate
    let leftTable ← tableAt left
    let rightTable ← tableAt right
    addClauses (agreementDefinition name leftTable rightTable)
    pure (.holds name)
  | .all parts => do
    let name ← allocate
    let literals ← reifyParts parts
    addClauses (literals.map fun literal => [.fails name, literal])
    addClause (.holds name :: literals.map Literal.negate)
    pure (.holds name)
  | .implies condition consequence => do
    let name ← allocate
    let premise ← reify condition
    let conclusion ← reify consequence
    addClause [.fails name, premise.negate, conclusion]
    addClause [.holds name, premise]
    addClause [.holds name, conclusion.negate]
    pure (.holds name)
  | .unsupported content => do
    let _ ← allocate
    throw (.unsupportedConstraint content)

/-- The literals of the parts of a conjunction. -/
def reifyParts : List (Constraint α) → Build α (List Literal)
  | [] => pure []
  | part :: rest => do
    let literal ← reify part
    let literals ← reifyParts rest
    pure (literal :: literals)

end

/-! ### Constraints as clauses -/

mutual

/-- Adds clauses that say "some guard holds or the constraint does". -/
def compile (guards : List Literal) : Constraint α → Build α Unit
  | .always => pure ()
  | .equals slot constant => do
    match ← atomAt slot constant with
    | some atom => emit (guards ++ [.holds atom])
    | none => emit guards
  | .agree left right => do
    let leftTable ← tableAt left
    let rightTable ← tableAt right
    emitAll ((agreementClauses leftTable rightTable).map (guards ++ ·))
  | .all parts => compileParts guards parts
  | .implies condition consequence => do
    let premise ← reify condition
    compile (guards ++ [premise.negate]) consequence
  | .unsupported content => throw (.unsupportedConstraint content)

/-- Adds the clauses of the parts of a conjunction. -/
def compileParts (guards : List Literal) : List (Constraint α) → Build α Unit
  | [] => pure ()
  | part :: rest => do
    compile guards part
    compileParts guards rest

end

/-- Posts a constraint.  It is counted even if it is refused. -/
def post (constraint : Constraint α) : Build α Unit := do
  modify fun model => { model with posted := model.posted + 1 }
  compile [] constraint

/-! ### Looking at a model -/

/-- The propositional variable that is true exactly when a slot has a value. -/
def Model.literal (model : Model α) (slot : Nat) (value : α) : Except Fault Nat :=
  match model.tables[slot]? with
  | none => .error .listPosition
  | some table => match Symbol.unhashable? value, table.atom? value with
    | some obstacle, _ => .error (.obstructed obstacle)
    | none, some atom => .ok atom
    | none, none => .error (.missingKey (Symbol.value value))

/-- The value of a slot in a model of the clauses: the first of its values whose propositional
variable is true, and zero if none is. -/
def LiteralTable.valueIn (table : LiteralTable α) (isTrue : Nat → Bool) : α :=
  ((table.find? fun entry => isTrue entry.2).map Prod.fst).getD Symbol.zero

/-- The values of all slots in a model of the clauses. -/
def Model.valuesIn (model : Model α) (isTrue : Nat → Bool) : List α :=
  (List.range model.declared.size).map fun slot =>
    LiteralTable.valueIn (model.tables.getD slot []) isTrue

end

end HorizonPlanner.Cnf
