/-
This file gathers the engines under one interface: variables are declared,
constraints posted, and a solution is asked for.  One engine backtracks over the
variables themselves; the others compile to clauses and differ in the backend
that their name stands for.
-/

import HorizonPlanner.Backtracking
import HorizonPlanner.Cnf.Backend
import HorizonPlanner.Cnf.Dimacs
import HorizonPlanner.Text.LetterCase

namespace HorizonPlanner

/-! ### Engines -/

/-- An engine.  A clausal engine has a name of its own and may have a backend that can be
interrupted. -/
inductive Engine where
  | backtracking
  | clausal (name : String) (interruptible : Bool)
  deriving DecidableEq, Repr

namespace Engine

/-- The name of the backtracking engine. -/
def backtrackingName : String := "backtrack"

/-- The clausal engine that an empty name stands for. -/
def defaultName : String := "cadical"

/-- The clausal engines, and whether their backend can be interrupted. -/
def clausalEngines : List (String × Bool) :=
  [("cadical", false), ("cd195", false), ("glucose", true), ("g42", true), ("maple", true),
    ("mcb", true)]

/-- The names of all engines. -/
def names : List String := backtrackingName :: clausalEngines.map Prod.fst

/-- The engine with a name, in capital or small letters. -/
def ofName (name : String) : Except Fault Engine :=
  let name := Text.lowercase name
  if name == backtrackingName then .ok .backtracking
  else
    let name := if name == "" then defaultName else name
    match clausalEngines.find? (·.1 == name) with
    | some (name, interruptible) => .ok (.clausal name interruptible)
    | none => .error (.unknownEngine name)

/-- The engine that a value names.  What counts as nothing names the default one. -/
def ofValue (stated : Value) : Except Fault Engine :=
  if stated.isTruthy then
    match stated with
    | .text content => ofName content.shown
    | other => .error (.notSmallLetters other.kind)
  else ofName ""

/-- The name of an engine. -/
def name : Engine → String
  | backtracking => backtrackingName
  | clausal name _ => name

end Engine

/-- An engine as it is asked for, by name and with a time limit for each search, both as they were
stated. -/
structure EngineChoice where
  name : Value
  limit : Value

/-! ### Models -/

/-- The model that an engine works on. -/
inductive EngineModel (α : Type) where
  | backtracking (model : Backtracking.Model α)
  | clausal (name : String) (interruptible : Bool) (model : Cnf.Model α)

/-- What came of solving a model.  The number of tried values is known of the backtracking engine,
if it began to search, and the requests made to a backend of the others. -/
structure EngineReport (α : Type) where
  outcome : Except Fault (Answer α)
  nodes : Option Nat
  calls : List Cnf.Call
  readings : Nat

namespace EngineModel

variable {α : Type}

/-- The empty model of an engine. -/
def empty : Engine → EngineModel α
  | .backtracking => .backtracking .empty
  | .clausal name interruptible => .clausal name interruptible .empty

/-- The variables of a model. -/
def declared : EngineModel α → Array (Variable α)
  | .backtracking model => model.declared
  | .clausal _ _ model => model.declared

/-- The number of constraints that were posted to a model. -/
def posted : EngineModel α → Nat
  | .backtracking model => model.constraints.size
  | .clausal _ _ model => model.posted

variable [Symbol α]

/-- Takes a step in building a compiled model and keeps the state it ends in. -/
def build (name : String) (interruptible : Bool) (step : Cnf.Build α Unit) (model : Cnf.Model α) :
    Option Fault × EngineModel α :=
  match step.run model with
  | .ok _ model => (none, .clausal name interruptible model)
  | .error fault model => (some fault, .clausal name interruptible model)

/-- Declares a variable, and says what went wrong if something did. -/
def declare (entry : Variable α) : EngineModel α → Option Fault × EngineModel α
  | .backtracking model => (none, .backtracking (model.declare entry))
  | .clausal name interruptible model => build name interruptible (Cnf.declare entry) model

/-- Posts a constraint, and says what went wrong if something did. -/
def post (constraint : Constraint α) : EngineModel α → Option Fault × EngineModel α
  | .backtracking model => (none, .backtracking (model.post constraint))
  | .clausal name interruptible model => build name interruptible (Cnf.post constraint) model

/-- Solves a model under the time limit that a value states.  A backtracking search does not begin
under an unfit one, or where it can have no deadline. -/
def solve (backend : Cnf.Backend) (clock : Clock) (limit : Value) (readings : Nat) :
    EngineModel α → EngineReport α
  | .backtracking model => match TimeLimit.ofValue limit with
    | .error fault => ⟨.error fault, none, [], readings⟩
    | .ok limit =>
      let (outcome, progress) := model.solve clock limit readings
      let begun := (limit.deadline? (clock.reading readings)).toOption
      ⟨outcome, begun.map fun _ => progress.nodes, [], progress.readings⟩
  | .clausal name interruptible model =>
    let report := model.solve name backend interruptible clock (TimeLimit.ofValue limit) readings
    ⟨report.outcome, none, report.calls, report.readings⟩

/-- The clauses of a model in the exchange format, for engines that compile to clauses. -/
def dimacs : EngineModel α → Except Fault String
  | .backtracking _ => .error (.noClauses "to_dimacs")
  | .clausal _ _ model => .ok model.formula.dimacs

/-- The propositional variable that stands for a value of a slot, for engines that compile to
clauses. -/
def literal (slot : Nat) (value : α) : EngineModel α → Except Fault Nat
  | .backtracking _ => .error (.noClauses "literal")
  | .clausal _ _ model => model.literal slot value

end EngineModel

end HorizonPlanner
