/-
This file counts the variables and constraints of an encoding, and writes the
counts for a reader, with a comma after every three digits.
-/

import HorizonPlanner.Encoding
import HorizonPlanner.Engine
import HorizonPlanner.Value.Grouped
import HorizonPlanner.Value.Sum

namespace HorizonPlanner

/-! ### Counts -/

/-- The size of one horizon's encoding: its variables, its constraints by what they are for, and the
propositional variables and clauses of an engine that compiles to clauses.  Counts that are stated
from outside may be any values. -/
structure EncodingSizes (α : Type) where
  horizon : Value
  declared : α
  initial : α
  goal : α
  precondition : α
  effect : α
  frame : α
  atoms : Option α
  clauses : Option α
  deriving DecidableEq, Repr

namespace EncodingSizes

/-- The number of constraints. -/
def constraints (sizes : EncodingSizes Nat) : Nat :=
  sizes.initial + sizes.goal + sizes.precondition + sizes.effect + sizes.frame

/-- Counts as values. -/
def asValues (sizes : EncodingSizes Nat) : EncodingSizes Value where
  horizon := sizes.horizon
  declared := .integer sizes.declared
  initial := .integer sizes.initial
  goal := .integer sizes.goal
  precondition := .integer sizes.precondition
  effect := .integer sizes.effect
  frame := .integer sizes.frame
  atoms := sizes.atoms.map fun count => .integer count
  clauses := sizes.clauses.map fun count => .integer count

/-- The sum of the counts of constraints. -/
def total (sizes : EncodingSizes Value) : Except Fault Value := do
  let facts ← sizes.initial.add sizes.goal
  let premises ← facts.add sizes.precondition
  let consequences ← premises.add sizes.effect
  consequences.add sizes.frame

/-! ### Counts by name -/

/-- The names of the counts, in the order in which they are listed. -/
def names : List String :=
  ["horizon", "vars", "init", "goal", "precond", "effect", "frame", "sat_vars", "sat_clauses"]

/-- The counts in the order of their names, and the total. -/
def listed (sizes : EncodingSizes Value) : Except Fault (List Value) := do
  let total ← sizes.total
  .ok [sizes.horizon, sizes.declared, sizes.initial, sizes.goal, sizes.precondition, sizes.effect,
    sizes.frame, sizes.atoms.getD .none, sizes.clauses.getD .none, total]

/-- The counts by name, and the total. -/
def fields (sizes : EncodingSizes Value) : Except Fault (List (String × Value)) := do
  let counts ← sizes.listed
  .ok ((names ++ ["total"]).zip counts)

/-- A count that may be missing; nothing is no count. -/
def countOf (stated : Option Value) : Option Value := stated.filter (· != .none)

/-- The sizes with given counts.  A name that is not one of the counts' is refused, the horizon must
be there, and other counts that are left out are zero or missing. -/
def ofFields (stated : List (String × Value)) : Except Fault (EncodingSizes Value) :=
  let count (name : String) : Value := (stated.lookup name).getD (.integer 0)
  match stated.find? fun (name, _) => !names.contains name, stated.lookup "horizon" with
  | some (name, _), _ => .error (.unknownCount name)
  | none, none => .error .missingHorizon
  | none, some horizon =>
    .ok
      { horizon
        declared := count "vars"
        initial := count "init"
        goal := count "goal"
        precondition := count "precond"
        effect := count "effect"
        frame := count "frame"
        atoms := countOf (stated.lookup "sat_vars")
        clauses := countOf (stated.lookup "sat_clauses") }

end EncodingSizes

/-! ### Counting an encoding -/

/-- The number of an encoding's constraints that are for one purpose. -/
def Encoding.count (encoding : Encoding) (role : AxiomRole) : Nat :=
  (encoding.postings.filter (·.role == role)).length

/-- The size of an encoding by itself. -/
def Encoding.sizes (encoding : Encoding) : EncodingSizes Nat where
  horizon := encoding.horizon
  declared := encoding.declared.length
  initial := encoding.count .initial
  goal := encoding.count .goal
  precondition := encoding.count .precondition
  effect := encoding.count .effect
  frame := encoding.count .frame
  atoms := none
  clauses := none

/-! ### Loading an encoding into an engine -/

/-- Takes steps on a model one after another, up to the first that fails. -/
def EngineModel.sequence {α β : Type} (step : β → EngineModel α → Option Fault × EngineModel α)
    (model : EngineModel α) : List β → Except Fault (EngineModel α)
  | [] => .ok model
  | item :: rest => match step item model with
    | (none, model) => model.sequence step rest
    | (some fault, _) => .error fault

/-- The model of an engine that holds an encoding. -/
def Encoding.load (encoding : Encoding) (engine : Engine) : Except Fault (EngineModel Int) := do
  let model ← (EngineModel.empty engine).sequence EngineModel.declare encoding.declared
  model.sequence (fun posting => EngineModel.post posting.constraint) encoding.postings

/-- The sizes of an encoding that was loaded into a model. -/
def Encoding.sizesIn (encoding : Encoding) : EngineModel Int → EncodingSizes Nat
  | .backtracking _ => encoding.sizes
  | .clausal _ _ model =>
    { encoding.sizes with atoms := some model.atoms, clauses := some model.clauses.size }

/-- The sizes of one horizon of a problem. -/
def Problem.sizesAt (problem : Problem) (choice : EngineChoice) (horizon : Nat) :
    Except Fault (EncodingSizes Nat) := do
  let engine ← Engine.ofValue choice.name
  let encoding := problem.encode horizon
  let model ← encoding.load engine
  .ok (encoding.sizesIn model)

/-- The sizes of a number of horizons, from one on. -/
def Problem.sizesFrom (problem : Problem) (choice : EngineChoice) (horizon : Nat) :
    Nat → Except Fault (List (EncodingSizes Nat))
  | 0 => .ok []
  | remaining + 1 => do
    let sizes ← problem.sizesAt choice horizon
    let others ← problem.sizesFrom choice (horizon + 1) remaining
    .ok (sizes :: others)

/-- The sizes of every horizon below the bound of a problem. -/
def Problem.horizonSizes (problem : Problem) (choice : EngineChoice) :
    Except Fault (List (EncodingSizes Nat)) :=
  problem.sizesFrom choice 0 problem.bound.steps

/-! ### Text -/

/-- The lines of one horizon. -/
def EncodingSizes.lines (sizes : EncodingSizes Value) : Except Fault (List String) := do
  Fault.checkDisplayable sizes.horizon
  let declared ← sizes.declared.grouped
  let total ← (← sizes.total).grouped
  let initial ← sizes.initial.grouped
  let goal ← sizes.goal.grouped
  let precondition ← sizes.precondition.grouped
  let effect ← sizes.effect.grouped
  let frame ← sizes.frame.grouped
  let shown := [s!"Horizon t: {sizes.horizon.display}", s!"  Vars: {declared}",
    s!"  Total Constraints: {total}",
    s!"  Init: {initial}  Goal: {goal}  Precond: {precondition}  Effect: {effect}  Frame: {frame}"]
  match sizes.clauses with
  | none => .ok shown
  | some clauses =>
    let atoms ← (sizes.atoms.getD .none).grouped
    let clauses ← clauses.grouped
    .ok (shown ++ [s!"  CNF: {atoms} vars, {clauses} clauses"])

/-- The text of the sizes of several horizons. -/
def sizesText (sizes : List (EncodingSizes Value)) : Except Fault String := do
  let lines ← sizes.mapM EncodingSizes.lines
  .ok ("\n".intercalate lines.flatten)

end HorizonPlanner
