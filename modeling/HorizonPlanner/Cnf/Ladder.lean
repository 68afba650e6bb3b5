/-
This file states that at most one of several propositional variables is true.
Up to three of them are excluded pair by pair.  For more, a ladder of auxiliary
variables climbs along the list: a rung is true when a variable at or below it
is, and a variable is false when the rung below it is true.
-/

import HorizonPlanner.Cnf.Formula

namespace HorizonPlanner.Cnf

/-! ### Pairs -/

/-- The clauses that exclude each pair of a list of propositional variables. -/
def pairwiseClauses : List Nat → List Clause
  | [] => []
  | atom :: rest =>
    rest.map (fun other => [.fails atom, .fails other]) ++ pairwiseClauses rest

/-! ### The ladder -/

/-- The clauses of the ladder above a rung.  Each further rung is the next propositional variable;
the last variable of the list needs none of its own. -/
def rungClauses (below : Nat) : List Nat → List Clause
  | [] => []
  | [last] => [[.fails last, .fails below]]
  | atom :: rest =>
    let rung := below + 1
    [.fails atom, .holds rung] :: [.fails below, .holds rung] :: [.fails atom, .fails below] ::
      rungClauses rung rest

/-- The clauses of a ladder whose first rung is a given propositional variable. -/
def ladderClauses (first : Nat) : List Nat → List Clause
  | [] => []
  | atom :: rest => [.fails atom, .holds first] :: rungClauses first rest

/-! ### At most one -/

/-- The number of propositional variables up to which pairs are excluded one by one. -/
def pairwiseLimit : Nat := 3

/-- The number of auxiliary variables that the statement about a number of variables takes. -/
def rungCount (count : Nat) : Nat := if count ≤ pairwiseLimit then 0 else count - 1

/-- The clauses that at most one of a list of propositional variables is true, given the first
auxiliary variable that is free. -/
def atMostOneClauses (free : Nat) (atoms : List Nat) : List Clause :=
  if atoms.length ≤ pairwiseLimit then pairwiseClauses atoms else ladderClauses free atoms

end HorizonPlanner.Cnf
