/-
This file names the ways a search can end.
-/

import HorizonPlanner.Fault
import HorizonPlanner.Value.Sameness

namespace HorizonPlanner

/-- How a search ended.  A code without a name of its own may come from an engine that is not one
of this library's; it decides nothing. -/
inductive Status where
  | unsatisfiable
  | satisfiable
  | timeout
  | failure
  | other (code : Value)
  deriving DecidableEq, Repr, Inhabited

namespace Status

/-- The statuses that have a name. -/
def named : List Status := [unsatisfiable, satisfiable, timeout, failure]

/-- The code of a status. -/
def code : Status → Value
  | unsatisfiable => .integer 0
  | satisfiable => .integer 1
  | timeout => .integer 2
  | failure => .integer 3
  | other code => code

/-- The status with a code. -/
def ofCode (code : Value) : Status :=
  (named.find? fun status => status.code.same code).getD (other code)

/-- The name of a status, which has to have one. -/
def name : Status → Except Fault String
  | unsatisfiable => .ok "unsat"
  | satisfiable => .ok "sat"
  | timeout => .ok "timeout"
  | failure => .ok "failure"
  | other code => match code.unhashable? with
    | some obstacle => .error (.obstructed obstacle)
    | none => .error (.missingKey code)

end Status

/-- What an engine answers: how the search ended, and a value for each variable.  Unless the
constraints were satisfied the values are all zero. -/
structure Answer (α : Type) where
  status : Status
  values : List α
  deriving Inhabited

end HorizonPlanner
