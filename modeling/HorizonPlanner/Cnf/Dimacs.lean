/-
This file writes formulas in the DIMACS exchange format: a header with the
number of variables and of clauses, then one line of literal numbers for each
clause, ended by a zero.
-/

import HorizonPlanner.Cnf.Formula

namespace HorizonPlanner.Cnf

/-- The line of a clause. -/
def Clause.dimacs (clause : Clause) : String :=
  " ".intercalate (clause.map fun literal => toString literal.number) ++ " 0"

/-- The header line of a formula. -/
def Formula.header (formula : Formula) : String :=
  s!"p cnf {formula.atoms} {formula.clauses.size}"

/-- The text of a formula. -/
def Formula.dimacs (formula : Formula) : String :=
  "\n".intercalate (formula.header :: formula.clauses.toList.map Clause.dimacs) ++ "\n"

end HorizonPlanner.Cnf
