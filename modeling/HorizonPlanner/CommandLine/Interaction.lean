/-
This file describes what a command does, apart from doing it.  An interaction is
a tree: it prints, warns, reads and writes, each time followed by what it does
next, until it ends.  The same tree is run on files kept in memory or on the
file system.
-/

import HorizonPlanner.CommandLine.Path
import HorizonPlanner.Fault

namespace HorizonPlanner.CommandLine

/-! ### Interactions -/

/-- What is written to a file: a text, or a picture of the size of encodings. -/
inductive Content where
  | text (content : String)
  | picture
  deriving DecidableEq, Repr

/-- What there is at a path. -/
inductive PathKind where
  | nothing
  | file
  | folder
  deriving DecidableEq, Repr

/-- What a command does, and the result it ends with. -/
inductive Interaction (β : Type) where
  | done (result : β)
  | print (text : String) (next : Interaction β)
  | complain (text : String) (next : Interaction β)
  | warn (record : String) (next : Interaction β)
  | read (path : String) (next : Except Fault (List Nat) → Interaction β)
  | write (path : String) (content : Content) (next : Except Fault Unit → Interaction β)
  | look (path : String) (next : PathKind → Interaction β)
  | makeFolder (path : String) (next : Except Fault Unit → Interaction β)

namespace Interaction

variable {β γ : Type}

/-- One interaction and then another that depends on its result. -/
def andThen (interaction : Interaction β) (continuation : β → Interaction γ) : Interaction γ :=
  match interaction with
  | done result => continuation result
  | print text next => print text (next.andThen continuation)
  | complain text next => complain text (next.andThen continuation)
  | warn record next => warn record (next.andThen continuation)
  | read path next => read path fun bytes => (next bytes).andThen continuation
  | write path content next => write path content fun result => (next result).andThen continuation
  | look path next => look path fun kind => (next kind).andThen continuation
  | makeFolder path next => makeFolder path fun result => (next result).andThen continuation

instance : Monad Interaction where
  pure := done
  bind := andThen

end Interaction

/-- A part of a command, which a fault may cut short. -/
abbrev Step (β : Type) := ExceptT Fault Interaction β

namespace Step

/-- Prints a text. -/
def print (text : String) : Step Unit := ExceptT.lift (.print text (.done ()))

/-- Prints a line. -/
def printLine (line : String) : Step Unit := print (line ++ "\n")

/-- Prints a text among the messages. -/
def complain (text : String) : Step Unit := ExceptT.lift (.complain text (.done ()))

/-- Puts records into the log. -/
def warnAll : List String → Step Unit
  | [] => pure ()
  | record :: rest => do
    ExceptT.lift (.warn record (.done ()))
    warnAll rest

/-- The bytes of a file. -/
def read (path : String) : Step (List Nat) := ExceptT.mk (.read path .done)

/-- Writes a file. -/
def write (path : String) (content : Content) : Step Unit :=
  ExceptT.mk (.write path content .done)

/-- What there is at a path. -/
def look (path : String) : Step PathKind := ExceptT.lift (.look path .done)

/-- Makes one folder. -/
def makeOne (path : String) : Step Unit := ExceptT.mk (.makeFolder path .done)

/-- The result of a computation, whose fault cuts the step short. -/
def ofExcept {β : Type} (result : Except Fault β) : Step β := ExceptT.mk (.done result)

/-! ### Making folders -/

/-- A step without the fault that something exists already. -/
def passOverExisting (step : Step Unit) : Step Unit :=
  tryCatch step fun fault => match fault with
    | .file .exists _ => pure ()
    | fault => throw fault

/-- Whether there is nothing at a path. -/
def isMissing (path : List Char) : Step Bool := do
  let kind ← look (String.ofList path)
  return kind == .nothing

/-- Makes a folder and those above it that are not there, at most a given number of them.  One that
is there already is fine. -/
def makeAtMost (path : List Char) : Nat → Step Unit
  | 0 => throw .foldersTooDeep
  | levels + 1 => do
    let (above, name) := Path.parent path
    let wanted ← if above.isEmpty || name.isEmpty then pure false else isMissing above
    if wanted then passOverExisting (makeAtMost above levels)
    if wanted && name == ['.'] then pure ()
    else tryCatch (makeOne (String.ofList path)) fun fault => do
      let kind ← look (String.ofList path)
      if kind == .folder then pure () else throw fault

/-- The number of folders that can be made one above the other. -/
def folderLimit : Nat := 991

/-- Makes a folder with all folders above it, as far as they are not there. -/
def makeFolder (path : String) : Step Unit := makeAtMost path.toList folderLimit

end Step

end HorizonPlanner.CommandLine
