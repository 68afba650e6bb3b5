/-
This file states propositional formulas in clausal form.  Propositional
variables are numbered from one; a formula knows how many there are, whether or
not each of them occurs.
-/

namespace HorizonPlanner.Cnf

/-! ### Literals and clauses -/

/-- A propositional variable or its negation. -/
structure Literal where
  atom : Nat
  positive : Bool
  deriving DecidableEq, Repr, Inhabited

namespace Literal

/-- The literal that a propositional variable is true. -/
def holds (atom : Nat) : Literal := ⟨atom, true⟩

/-- The literal that a propositional variable is false. -/
def fails (atom : Nat) : Literal := ⟨atom, false⟩

/-- The opposite literal. -/
def negate (literal : Literal) : Literal := { literal with positive := !literal.positive }

/-- The number of a literal: that of its variable, with a minus if it is negated. -/
def number (literal : Literal) : Int := if literal.positive then literal.atom else -literal.atom

/-- The literal with a number. -/
def ofNumber (number : Int) : Literal := ⟨number.natAbs, 0 < number⟩

/-- Whether a literal is true under a truth assignment. -/
def satisfied (truth : Nat → Bool) (literal : Literal) : Bool :=
  truth literal.atom == literal.positive

end Literal

/-- A disjunction of literals. -/
abbrev Clause := List Literal

/-- Whether a clause is true under a truth assignment. -/
def Clause.satisfied (truth : Nat → Bool) (clause : Clause) : Bool :=
  clause.any (Literal.satisfied truth)

/-! ### Formulas -/

/-- A conjunction of clauses over the propositional variables from one to `atoms`. -/
structure Formula where
  atoms : Nat
  clauses : Array Clause
  deriving Inhabited

/-- Whether a formula is true under a truth assignment. -/
def Formula.satisfied (truth : Nat → Bool) (formula : Formula) : Bool :=
  formula.clauses.all (Clause.satisfied truth)

end HorizonPlanner.Cnf
