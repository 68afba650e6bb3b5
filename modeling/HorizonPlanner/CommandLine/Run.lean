/-
This file runs the commands.  Solving reads a problem, searches for a plan,
prints it and checks it by simulation; sizes encodes every horizon, prints the
counts and plots them.
-/

import HorizonPlanner.CommandLine.Arguments
import HorizonPlanner.CommandLine.Interaction
import HorizonPlanner.CommandLine.Path
import HorizonPlanner.Document.Problem
import HorizonPlanner.Search

namespace HorizonPlanner.CommandLine

/-! ### Endings -/

/-- How a command ends: with an exit code, with a text in place of one, refused by the parser of
the command line, or stopped by a fault that is nobody's input. -/
inductive Ending where
  | code (code : Nat)
  | message (text : String)
  | rejected (rejection : Rejection)
  | stopped (fault : Fault)

/-- Whether a fault is one of the files or documents that a command was given, and so is reported
and not passed on. -/
def isReported (fault : Fault) : Bool :=
  match fault.family with
  | .value | .domain | .stranger | .bytes | .file _ => true
  | _ => false

/-! ### Parts of the commands -/

/-- A plotter draws the sizes of encodings under a title, or says why it cannot. -/
abbrev Plotter := (title : String) → Except Fault Unit

/-- What commands work with: the settings, the clock, the backend of the clausal engines, and the
plotter. -/
structure Workshop where
  settings : Settings
  clock : Clock
  backend : Cnf.Backend
  plotter : Plotter

/-- The engine that a request chooses. -/
def CommonRequest.choice (request : CommonRequest) : EngineChoice :=
  ⟨request.engine, request.seconds⟩

/-- The number of levels that parts of a document can be nested in while a command is under way,
which takes two of them. -/
def documentLevels : Nat := Document.nestingLimit - 2

/-- The problem that a request works on. -/
def loadRequested (workshop : Workshop) (request : CommonRequest) : Step Problem := do
  let bytes ← Step.read request.path
  let problem ← Step.ofExcept
    (Document.loadProblem documentLevels workshop.settings.bound request.path bytes)
  match request.bound with
  | none => pure problem
  | some bound => Step.ofExcept (problem.withBound bound)

/-- Prints the diagnostics of a problem. -/
def printDiagnostics (problem : Problem) : Step Unit := do
  let diagnostics := problem.diagnostics
  if diagnostics.isEmpty then Step.printLine "Problem is consistent."
  else diagnostics.forM fun diagnostic => Step.printLine s!"warning: {diagnostic.message}"

/-- Writes the clauses of a horizon to a file, which the chosen engine must have. -/
def writeClauses (problem : Problem) (request : CommonRequest) (horizon : Nat) (path : String) :
    Step (Option Ending) := do
  let engine ← Step.ofExcept (Engine.ofValue request.engine)
  let model ← Step.ofExcept ((problem.encode horizon).load engine)
  match model.dimacs with
  | .error _ =>
    pure (some (.message s!"--dimacs needs a SAT solver, not '{request.engine.display}'"))
  | .ok text => do
    Step.write path (.text text)
    Step.printLine s!"Wrote CNF for horizon {horizon} to {path}"
    pure none

/-- A number in at least two columns. -/
def inTwoColumns (number : Nat) : String :=
  let digits := toString number
  if digits.length < 2 then " " ++ digits else digits

/-- Prints the actions of a plan, numbered from one. -/
def printPlan (actions : List Action) : Step Unit :=
  actions.zipIdx.forM fun (action, index) => do
    let title ← Step.ofExcept action.title
    Step.printLine s!"{inTwoColumns (index + 1)}. {title}"

/-- Checks a plan by simulation. -/
def verifyPlan (problem : Problem) (actions : List Action) : Step Ending := do
  let outcome := Simulation.run problem actions
  let report ← Step.ofExcept outcome.report
  if outcome.succeeded then pure (.code 0)
  else do
    Step.complain s!"Plan failed verification: {report}\n"
    pure (.code 2)

/-- Searches for a plan and gives the warnings of the search, also of one that fails. -/
def searchFor (workshop : Workshop) (problem : Problem) (choice : EngineChoice) :
    Step SearchReport := do
  let searched :=
    problem.search choice.limit (problem.solveHorizon choice workshop.backend workshop.clock)
  let warnings := match searched with
    | .ok report => report.warnings
    | .error _ => problem.warnings
  Step.warnAll (warnings.map SearchWarning.record)
  Step.ofExcept searched

/-! ### The commands -/

/-- Finds a plan. -/
def runSolve (workshop : Workshop) (request : CommonRequest) (dimacs : Value) (validate : Bool) :
    Step Ending := do
  let problem ← loadRequested workshop request
  if validate then printDiagnostics problem
  let report ← searchFor workshop problem request.choice
  let refused ← match report.horizon?, dimacs.isTruthy with
    | some horizon, true => writeClauses problem request horizon dimacs.display
    | _, _ => pure none
  match refused, report.found with
  | some ending, _ => pure ending
  | none, none => do
    if report.status == .timeout then
      Step.printLine s!"No plan found within {request.seconds.display}s per horizon."
    else Step.printLine s!"No plan found up to horizon {problem.bound.steps - 1}."
    pure (.code 1)
  | none, some plan => do
    let actions := problem.actionsAt plan.choices
    Step.printLine s!"\nFound plan of length {plan.horizon}:"
    printPlan actions
    verifyPlan problem actions

/-- The path that a value spells, which has to be a text. -/
def pathOf : Value → Except Fault String
  | .text content => .ok content.shown
  | value => .error (.notPath value.kind)

/-- The title of the plot of a problem's sizes. -/
def plotTitle (name : String) : String := s!"Encoding size vs horizon ({name})"

/-- Prints and plots the sizes of encodings. -/
def runSizes (workshop : Workshop) (request : CommonRequest) (folder : Value) : Step Ending := do
  let problem ← loadRequested workshop request
  let sizes ← Step.ofExcept (problem.horizonSizes request.choice)
  let text ← Step.ofExcept (sizesText (sizes.map EncodingSizes.asValues))
  Step.printLine text
  let folder ← Step.ofExcept (pathOf folder)
  Step.makeFolder folder
  let name := Path.stem (Path.fileName request.path)
  let path := Path.join folder s!"{name}_stats.png"
  Step.ofExcept (workshop.plotter (plotTitle name))
  Step.write path .picture
  Step.printLine s!"[OK] plot saved to {path}"
  pure (.code 0)

/-- Runs the command of a request. -/
def Request.run (workshop : Workshop) (request : Request) : Step Ending :=
  match request.command with
  | .solve dimacs validate => runSolve workshop request.common dimacs validate
  | .sizes folder => runSizes workshop request.common folder

/-- Runs a command line under an environment.  Faults of the input are reported in one line. -/
def run (environment : Environment) (clock : Clock) (backend : Cnf.Backend) (plotter : Plotter)
    (words : List String) : Interaction Ending := do
  let (settings, warnings) := Settings.read environment
  let _ ← (Step.warnAll (warnings.map SettingWarning.record)).run
  match Request.read settings words with
  | .error rejection => pure (.rejected rejection)
  | .ok request =>
    match ← (request.run ⟨settings, clock, backend, plotter⟩).run with
    | .ok ending => pure ending
    | .error fault =>
      if isReported fault then do
        let _ ← (Step.complain s!"error: {fault.message}\n").run
        pure (.code 2)
      else pure (.stopped fault)

end HorizonPlanner.CommandLine
