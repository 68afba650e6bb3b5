/-
This file is the program: it runs the interaction of a command line on the
standard streams and on the file system.
-/

import HorizonPlanner.CommandLine.Run
import HorizonPlanner.Cnf.ConflictSearch
import HorizonPlanner.Plot.Title

namespace HorizonPlanner.CommandLine

/-! ### Files -/

/-- The fault that a failed operation on a file amounts to, if it is one of those that are
reported. -/
def fileFault? : IO.Error → Option FileFault
  | .noFileOrDirectory .. => some .missing
  | .alreadyExists .. => some .exists
  | .inappropriateType _ 21 _ => some .isDirectory
  | .inappropriateType .. => some .notDirectory
  | .invalidArgument _ 36 _ => some .nameTooLong
  | .resourceExhausted _ 28 _ => some .noSpace
  | _ => none

/-- Attempts an operation on the file at a path. -/
def attempt {β : Type} (path : String) (operation : IO β) : IO (Except Fault β) := do
  try
    return .ok (← operation)
  catch failure =>
    match fileFault? failure with
    | some cause => return .error (.file cause path)
    | none => throw failure

/-- What there is at a path of the file system.  Opening it for changes, which changes nothing yet,
tells a file from a folder. -/
def kindOf (path : String) : IO PathKind := do
  match ← attempt path (IO.FS.Handle.mk path .readWrite) with
  | .ok _ => return .file
  | .error (.file .isDirectory _) => return .folder
  | .error _ => return .nothing

/-- Writes a content to the file at a path.  A picture is left blank. -/
def writeContent (path : String) : Content → IO Unit
  | .text content => IO.FS.writeFile path content
  | .picture => IO.FS.writeBinFile path ByteArray.empty

/-! ### Running interactions -/

/-- The levels of messages above that of a warning. -/
def levelsAboveWarning : List String := ["ERROR", "CRITICAL", "FATAL"]

/-- Whether warnings are to be shown at a level of messages. -/
def showsWarnings (level : String) : Bool := !levelsAboveWarning.contains level.toUpper

/-- Runs an interaction on the standard streams and the file system. -/
def Interaction.perform {β : Type} (warned : Bool) : Interaction β → IO β
  | .done result => return result
  | .print text next => do
    IO.print text
    next.perform warned
  | .complain text next => do
    IO.eprint text
    next.perform warned
  | .warn record next => do
    if warned then IO.eprintln record
    next.perform warned
  | .read path next => do
    let content ← attempt path (IO.FS.readBinFile path)
    (next (content.map fun bytes => bytes.toList.map UInt8.toNat)).perform warned
  | .write path content next => do
    (next (← attempt path (writeContent path content))).perform warned
  | .look path next => do
    (next (← kindOf path)).perform warned
  | .makeFolder path next => do
    (next (← attempt path (IO.FS.createDir path))).perform warned

/-- The text that names the commands and their options. -/
def usage : String :=
  s!"usage: {programName} [-h] [--debug] \x7bsolve,stats\x7d ...\n\n"
    ++ "solve: find a plan for the problem in a file.\n"
    ++ "stats: print and plot the size of the encoding of each horizon.\n\n"
    ++ "  --solver NAME      one of " ++ ", ".intercalate Engine.names ++ "\n"
    ++ "  --max-steps N      override the bound on the horizon\n"
    ++ "  --maxtime SECONDS  limit the time for each horizon; zero is no limit\n"
    ++ "  --dimacs FILE      write the clauses of the winning horizon (solve)\n"
    ++ "  --validate         report inconsistencies first (solve)\n"
    ++ "  --outdir FOLDER    the folder for plots (stats)\n"

/-- Reports an ending and gives the exit code of the program. -/
def Ending.finish : Ending → IO UInt32
  | .code number => return number.toUInt32
  | .message text => do
    IO.eprintln text
    return 1
  | .rejected ⟨_, .help⟩ => do
    IO.print usage
    return 0
  | .rejected rejection => do
    IO.eprintln rejection.line
    return 2
  | .stopped fault => do
    IO.eprintln s!"internal error: {fault.message}"
    return 1

/-- The environment variables that settle something, as far as they are set. -/
def currentEnvironment : IO Environment :=
  Settings.names.filterMapM fun name => do
    return (← IO.getEnv name).map fun text => (name, text)

end HorizonPlanner.CommandLine

open HorizonPlanner HorizonPlanner.CommandLine in
/-- Runs the command line. -/
def main (words : List String) : IO UInt32 := do
  let environment ← currentEnvironment
  let (settings, _) := Settings.read environment
  let interaction :=
    run environment (.paced 999999) Cnf.ConflictSearch.backend Plot.drawTitled words
  (← interaction.perform (showsWarnings settings.logLevel)).finish
