/-
This file searches for a shortest plan.  Horizons are tried in increasing order;
each is encoded and solved afresh, so the first one that can be satisfied gives
a plan that no shorter one can replace.  A horizon that runs out of time ends
the search without an answer.
-/

import HorizonPlanner.Encoding.Sizes
import HorizonPlanner.Problem.Diagnostics
import HorizonPlanner.Simulation

namespace HorizonPlanner

/-! ### One horizon -/

/-- What came of one horizon. -/
structure HorizonReport where
  answer : Answer Int
  sizes : EncodingSizes Nat
  nodes : Option Nat
  readings : Nat

/-- Solves a horizon, given the number of readings of the clock taken so far. -/
abbrev HorizonSolver := (horizon readings : Nat) → Except Fault HorizonReport

/-- Solves an encoding with an engine, under the time limit that a value states. -/
def Encoding.solve (encoding : Encoding) (engine : Engine) (backend : Cnf.Backend) (clock : Clock)
    (limit : Value) (readings : Nat) : Except Fault HorizonReport := do
  let model ← encoding.load engine
  let report := model.solve backend clock limit readings
  let answer ← report.outcome
  .ok ⟨answer, encoding.sizesIn model, report.nodes, report.readings⟩

/-- Encodes a horizon of a problem for the chosen engine and solves it. -/
def Problem.solveHorizon (problem : Problem) (choice : EngineChoice) (backend : Cnf.Backend)
    (clock : Clock) : HorizonSolver := fun horizon readings => do
  let engine ← Engine.ofValue choice.name
  (problem.encode horizon).solve engine backend clock choice.limit readings

/-- Encodes the horizon that a value states for the chosen engine and solves it. -/
def Problem.solveStated (problem : Problem) (choice : EngineChoice) (backend : Cnf.Backend)
    (clock : Clock) (stated : Value) : Except Fault HorizonReport := do
  let engine ← Engine.ofValue choice.name
  let encoding ← problem.encodeStated stated
  encoding.solve engine backend clock choice.limit 0

/-- Answers each horizon with a status given beforehand, and zeros. -/
def Problem.scriptedHorizon (problem : Problem) (script : List Status) : HorizonSolver :=
  fun horizon readings =>
    let encoding := problem.encode horizon
    match script[horizon]? with
    | none => .error .listPosition
    | some .failure => .error (.engineFailed horizon)
    | some status =>
      .ok ⟨⟨status, List.replicate encoding.declared.length 0⟩, encoding.sizes, none, readings⟩

/-! ### Warnings -/

/-- What a search warns of. -/
inductive SearchWarning where
  | diagnostic (diagnostic : Diagnostic)
  | undecided (horizon : Nat) (limit : Value)

/-- The text of a warning. -/
def SearchWarning.message : SearchWarning → String
  | .diagnostic found => found.message
  | .undecided horizon limit =>
    s!"Horizon {horizon} not decided within {limit.display}s; giving up"

/-- The line of a warning in the log. -/
def SearchWarning.record (warning : SearchWarning) : String :=
  "WARNING csp_planner.planner: " ++ warning.message

/-! ### The search -/

/-- A plan that was found: its actions as positions among the problem's, and the states it goes
through. -/
structure FoundPlan where
  horizon : Nat
  choices : List Nat
  states : List Problem.LayerState

/-- What came of a search: the sizes of the horizons that were tried, and all that was warned of. -/
structure SearchReport where
  found : Option FoundPlan
  status : Status
  sizes : List (EncodingSizes Nat)
  warnings : List SearchWarning

namespace SearchReport

/-- The horizon of the plan, if one was found. -/
def horizon? (report : SearchReport) : Option Nat := report.found.map FoundPlan.horizon

/-- A report with warnings that came before its own. -/
def warnedBefore (warnings : List SearchWarning) (report : SearchReport) : SearchReport :=
  { report with warnings := warnings ++ report.warnings }

end SearchReport

/-- Tries horizons from one on, at most a given number of them, after the statuses and sizes of
those tried before. -/
def Problem.searchFrom (problem : Problem) (limit : Value) (solve : HorizonSolver)
    (horizon readings : Nat) (status : Status) (sizes : List (EncodingSizes Nat)) :
    Nat → Except Fault SearchReport
  | 0 => .ok ⟨none, status, sizes, []⟩
  | remaining + 1 => do
    let report ← solve horizon readings
    let sizes := sizes ++ [report.sizes]
    match report.answer.status with
    | .satisfiable =>
      let choices ← problem.decodePlan horizon report.answer.values
      let states ← problem.decodeStates horizon report.answer.values
      .ok ⟨some ⟨horizon, choices, states⟩, .satisfiable, sizes, []⟩
    | .timeout => .ok ⟨none, .timeout, sizes, [.undecided horizon limit]⟩
    | status => problem.searchFrom limit solve (horizon + 1) report.readings status sizes remaining

/-- The warnings that come before a search: the diagnostics of the problem. -/
def Problem.warnings (problem : Problem) : List SearchWarning :=
  problem.diagnostics.map SearchWarning.diagnostic

/-- Warns of the diagnostics of a problem and searches the horizons below its bound.  The clock is
read once before the first of them. -/
def Problem.search (problem : Problem) (limit : Value) (solve : HorizonSolver) :
    Except Fault SearchReport :=
  (problem.searchFrom limit solve 0 1 .unsatisfiable [] problem.bound.steps).map
    (SearchReport.warnedBefore problem.warnings)

/-- The actions at positions among the problem's. -/
def Problem.actionsAt (problem : Problem) (choices : List Nat) : List Action :=
  choices.filterMap (problem.actions[·]?)

end HorizonPlanner
