/-
This file says what the planner's command line asks for: a command, the problem
file it works on, the engine with its limits, and what each command wants
besides.
-/

import HorizonPlanner.CommandLine.Options
import HorizonPlanner.Settings

namespace HorizonPlanner.CommandLine

/-! ### Requests -/

/-- What both commands take: the problem file, the engine with its time limit, and a bound that
overrides the problem's. -/
structure CommonRequest where
  path : String
  engine : Value
  bound : Option Value
  seconds : Value

/-- A command with what it takes.  Solving may write the clauses of the winning horizon to a file,
unless the file counts as nothing, and may validate the problem first; sizes are plotted into a
folder. -/
inductive Command where
  | solve (dimacs : Value) (validate : Bool)
  | sizes (folder : Value)

/-- A request made on the command line. -/
structure Request where
  debug : Bool
  common : CommonRequest
  command : Command

/-! ### Options -/

/-- The option that asks for help. -/
def helpOption : OptionForm := ⟨["-h", "--help"], false⟩

/-- The option for detailed messages. -/
def debugOption : OptionForm := ⟨["--debug"], false⟩

/-- The option for the engine. -/
def engineOption : OptionForm := ⟨["--solver"], true⟩

/-- The option for the bound. -/
def boundOption : OptionForm := ⟨["--max-steps"], true⟩

/-- The option for the time limit of each horizon. -/
def secondsOption : OptionForm := ⟨["--maxtime"], true⟩

/-- The option for the file of clauses. -/
def dimacsOption : OptionForm := ⟨["--dimacs"], true⟩

/-- The option for validation. -/
def validateOption : OptionForm := ⟨["--validate"], false⟩

/-- The option for the folder of plots. -/
def folderOption : OptionForm := ⟨["--outdir"], true⟩

/-- The options that both commands take. -/
def commonOptions : List OptionForm := [helpOption, engineOption, boundOption, secondsOption]

/-- The name of the program. -/
def programName : String := "csp-planner"

/-- The names of the commands. -/
def commandNames : List String := ["solve", "stats"]

/-! ### One command -/

/-- What was read of a command's line so far.  The path is empty until it was read. -/
structure CommandDraft where
  path : String
  engine : Value
  bound : Option Value
  seconds : Value
  dimacs : Value
  validate : Bool
  folder : Value

/-- The draft before anything was read: what the settings say. -/
def CommandDraft.initial (settings : Settings) : CommandDraft :=
  { path := ""
    engine := .text settings.engine
    bound := none
    seconds := settings.seconds
    dimacs := .none
    validate := false
    folder := .text "plots" }

/-- A number that an option asks for. -/
def numberFor (program : String) (option : OptionForm) (kind : NumberKind) (text : String) :
    Except Rejection Value :=
  match kind.read? text with
  | some number => .ok number
  | none => .error ⟨program, .argument option.name (.invalidValue kind.name text)⟩

/-- A choice that an option asks for. -/
def choiceFor (program name : String) (choices : List String) (text : String) :
    Except Rejection String :=
  if choices.contains text then .ok text
  else .error ⟨program, .argument name (.invalidChoice text choices)⟩

/-- The value that an option makes of a text. -/
def valueFor (program : String) (option : OptionForm) (text : String) : Except Rejection Value :=
  if option == engineOption then
    (choiceFor program option.name Engine.names text).map fun name => .text name
  else if option == boundOption then numberFor program option .whole text
  else if option == secondsOption then numberFor program option .decimal text
  else .ok (.text text)

/-- The value of an option that was given none: the empty list. -/
def noValue : Value := .sequence []

/-- Takes what was met on a command's line into its draft. -/
def CommandDraft.take (program : String) (draft : CommandDraft) :
    Occurrence → Except Rejection CommandDraft
  | .argument values => .ok { draft with path := values.headD "" }
  | .flag option =>
    if option == helpOption then .error ⟨program, .help⟩ else .ok { draft with validate := true }
  | .valued option text? => do
    let value ← match text? with
      | some text => valueFor program option text
      | none => .ok noValue
    if option == engineOption then .ok { draft with engine := value }
    else if option == boundOption then .ok { draft with bound := some value }
    else if option == secondsOption then .ok { draft with seconds := value }
    else if option == dimacsOption then .ok { draft with dimacs := value }
    else .ok { draft with folder := value }

/-- What the parser of a command accepts. -/
def commandForm (name : String) : ParserForm where
  program := s!"{programName} {name}"
  options := commonOptions ++
    (if name == "solve" then [dimacsOption, validateOption] else [folderOption])
  argument := ⟨"problem", false⟩

/-- The command that a draft amounts to. -/
def CommandDraft.command (draft : CommandDraft) (name : String) : CommonRequest × Command :=
  (⟨draft.path, draft.engine, draft.bound, draft.seconds⟩,
    if name == "solve" then .solve draft.dimacs draft.validate else .sizes draft.folder)

/-- Reads the line of a command, and the words in it that were not recognized. -/
def readCommand (settings : Settings) (name : String) (words : List String) :
    Except Rejection ((CommonRequest × Command) × List String) := do
  let form := commandForm name
  let (draft, unrecognized) ←
    form.read (CommandDraft.take form.program) (CommandDraft.initial settings) words
  .ok (draft.command name, unrecognized)

/-! ### The whole line -/

/-- What was read of the whole line so far. -/
structure RequestDraft where
  debug : Bool
  command : Option (CommonRequest × Command)
  unrecognized : List String

/-- What the parser of the whole line accepts. -/
def requestForm : ParserForm := ⟨programName, [helpOption, debugOption], ⟨"command", true⟩⟩

/-- Takes what was met on the whole line into its draft. -/
def RequestDraft.take (settings : Settings) (draft : RequestDraft) :
    Occurrence → Except Rejection RequestDraft
  | .flag option =>
    if option == helpOption then .error ⟨programName, .help⟩ else .ok { draft with debug := true }
  | .valued .. => .ok draft
  | .argument values => do
    let name ← choiceFor programName "command" commandNames (values.headD "")
    let (command, unrecognized) ← readCommand settings name values.tail
    .ok { draft with command := some command, unrecognized }

/-- The request that a command line makes under given settings. -/
def Request.read (settings : Settings) (words : List String) : Except Rejection Request := do
  let (draft, unrecognized) ←
    requestForm.read (RequestDraft.take settings) ⟨false, none, []⟩ words
  let unrecognized := unrecognized ++ draft.unrecognized
  match draft.command with
  | none => .error ⟨programName, .missing "command"⟩
  | some (common, command) =>
    if unrecognized.isEmpty then .ok ⟨draft.debug, common, command⟩
    else .error ⟨programName, .unrecognized unrecognized⟩

end HorizonPlanner.CommandLine
