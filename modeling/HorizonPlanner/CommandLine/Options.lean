/-
This file takes command lines apart.  A command line is a row of options, some
with a value, and of arguments, one of which the parser at hand asks for.  Long
options may be shortened as long as they stay unique, a value may follow its
option after an equals sign, and after two dashes everything is an argument.
-/

import HorizonPlanner.Text.Character
import HorizonPlanner.Text.Quoted

namespace HorizonPlanner.CommandLine

/-! ### What a parser accepts -/

/-- An option with all its spellings. -/
structure OptionForm where
  spellings : List String
  takesValue : Bool
  deriving DecidableEq, Repr

/-- The one argument that a parser asks for.  It may reach to the end of the command line. -/
structure ArgumentForm where
  name : String
  toTheEnd : Bool

/-- What a parser accepts, under the name of the program that it is for. -/
structure ParserForm where
  program : String
  options : List OptionForm
  argument : ArgumentForm

/-- Something met on a command line.  An option has no value where two dashes were written in the
place of one. -/
inductive Occurrence where
  | flag (option : OptionForm)
  | valued (option : OptionForm) (value : Option String)
  | argument (values : List String)

/-! ### What is wrong with a command line -/

/-- What is wrong with one argument. -/
inductive ArgumentFault where
  | expectedValue
  | ignoredValue (value : String)
  | invalidValue (kind value : String)
  | invalidChoice (value : String) (choices : List String)

/-- Why a command line is not accepted; asking for help ends the reading as well. -/
inductive UsageFault where
  | ambiguous (option : String) (candidates : List String)
  | argument (name : String) (fault : ArgumentFault)
  | missing (name : String)
  | unrecognized (arguments : List String)
  | help

/-- A fault and the name of the program whose parser found it. -/
structure Rejection where
  program : String
  fault : UsageFault

/-- The wording of a fault of one argument. -/
def ArgumentFault.message : ArgumentFault → String
  | expectedValue => "expected one argument"
  | ignoredValue value => s!"ignored explicit argument {Text.quoted value}"
  | invalidValue kind value => s!"invalid {kind} value: {Text.quoted value}"
  | invalidChoice value choices =>
    s!"invalid choice: {Text.quoted value} (choose from "
      ++ ", ".intercalate (choices.map Text.quoted) ++ ")"

/-- The wording of a fault. -/
def UsageFault.message : UsageFault → String
  | ambiguous option candidates =>
    s!"ambiguous option: {option} could match " ++ ", ".intercalate candidates
  | argument name fault => s!"argument {name}: {fault.message}"
  | missing name => s!"the following arguments are required: {name}"
  | unrecognized arguments => "unrecognized arguments: " ++ " ".intercalate arguments
  | help => ""

/-- The line that reports a rejection. -/
def Rejection.line (rejection : Rejection) : String :=
  s!"{rejection.program}: error: {rejection.fault.message}"

/-! ### Telling options from arguments -/

/-- What a word of a command line is. -/
inductive WordClass where
  | argument
  | separator
  | known (option : OptionForm) (spelling : String) (attached : Option (List Char))
  | unknown

/-- Whether a word is an option rather than an argument. -/
def WordClass.isOption : WordClass → Bool
  | known .. => true
  | unknown => true
  | _ => false

namespace ParserForm

variable (form : ParserForm)

/-- The options by their spellings. -/
def bySpelling : List (String × OptionForm) :=
  form.options.flatMap fun option => option.spellings.map fun spelling => (spelling, option)

/-- The option with a spelling. -/
def option? (spelling : List Char) : Option (String × OptionForm) :=
  form.bySpelling.find? fun entry => entry.1.toList == spelling

/-- The parts of a word before and after its first equals sign, if it has one. -/
def splitAtSign (word : List Char) : List Char × Option (List Char) :=
  match word.dropWhile (· != '=') with
  | [] => (word, none)
  | _ :: value => (word.takeWhile (· != '='), some value)

/-- The options that a word may be short for, each with the value that is attached to it in the same
word: after an equals sign, or right behind a single letter. -/
def candidates (word : List Char) : List (String × OptionForm × Option (List Char)) :=
  match word with
  | '-' :: '-' :: _ =>
    let (start, attached) := splitAtSign word
    (form.bySpelling.filter fun entry => start.isPrefixOf entry.1.toList).map
      fun (spelling, option) => (spelling, option, attached)
  | dash :: letter :: rest =>
    form.bySpelling.filterMap fun (spelling, option) =>
      if spelling.toList == [dash, letter] then some (spelling, option, some rest)
      else if word.isPrefixOf spelling.toList then some (spelling, option, none)
      else none
  | _ => []

/-- A text without the line end that may be its last character. -/
def withoutLineEnd (text : List Char) : List Char :=
  if text.getLast? == some '\n' then text.dropLast else text

/-- Whether a word is a negative number, which makes it an argument.  A line end may follow it. -/
def isNegativeNumber (word : List Char) : Bool :=
  let isDigit := fun character => (Text.digitValue? character).isSome
  match withoutLineEnd word with
  | '-' :: digits =>
    let fraction := digits.dropWhile isDigit
    (!digits.isEmpty && fraction.isEmpty) ||
      (match fraction with
        | '.' :: places => !places.isEmpty && places.all isDigit
        | _ => false)
  | _ => false

/-- What a word is. -/
def classify (word : List Char) : Except UsageFault WordClass :=
  match word with
  | [] => .ok .argument
  | [_] => .ok .argument
  | first :: _ =>
    if first != '-' then .ok .argument
    else
      let (start, attached) := splitAtSign word
      match form.option? word, form.option? start with
      | some (spelling, option), _ => .ok (.known option spelling none)
      | none, some (spelling, option) => .ok (.known option spelling attached)
      | none, none => match form.candidates word with
        | [] =>
          if isNegativeNumber word || word.contains ' ' then .ok .argument else .ok .unknown
        | [(spelling, option, attached)] => .ok (.known option spelling attached)
        | several => .error (.ambiguous (String.ofList word) (several.map Prod.fst))

/-- The words of a command line and what they are.  All words after two dashes are arguments. -/
def classifyAll : List String → Except UsageFault (List (String × WordClass))
  | [] => .ok []
  | word :: rest =>
    if word == "--" then .ok ((word, .separator) :: rest.map fun word => (word, .argument))
    else do
      let found ← form.classify word.toList
      let others ← classifyAll rest
      .ok ((word, found) :: others)

end ParserForm

/-! ### Reading a command line -/

/-- The name of an option in a report. -/
def OptionForm.name (option : OptionForm) : String := "/".intercalate option.spellings

/-- The flags that a single-letter flag and the letters attached to it stand for.  Each letter has
to be that of a flag. -/
def ParserForm.cluster (form : ParserForm) (option : OptionForm) :
    List Char → Except UsageFault (List OptionForm)
  | [] => .ok [option]
  | letter :: rest => match form.option? ['-', letter] with
    | none => .error (.argument option.name (.ignoredValue (String.ofList (letter :: rest))))
    | some (_, next) => (form.cluster next rest).map (option :: ·)

/-- The flags that a flag with an attached value stands for.  Only a single-letter flag can have
one, and not an empty one. -/
def ParserForm.flagsOf (form : ParserForm) (option : OptionForm) (spelling : String)
    (attached : List Char) : Except UsageFault (List OptionForm) :=
  if spelling.startsWith "--" || attached.isEmpty then
    .error (.argument option.name (.ignoredValue (String.ofList attached)))
  else form.cluster option attached

/-- The value of an option that is attached to it; two dashes are none. -/
def attachedValue (attached : List Char) : Option String :=
  if attached == ['-', '-'] then none else some (String.ofList attached)

/-- The number of words that an argument takes from the front of a command line, if it can be taken
there.  Two dashes may come before it and after it. -/
def ArgumentForm.wordCount? (argument : ArgumentForm) (words : List (String × WordClass)) :
    Option Nat :=
  let (before, words) := match words with
    | (_, .separator) :: rest => (1, rest)
    | _ => (0, words)
  match words with
  | (_, .argument) :: rest =>
    if argument.toTheEnd then some (before + 1 + rest.length)
    else match rest with
      | (_, .separator) :: _ => some (before + 2)
      | _ => some (before + 1)
  | _ => none

/-- The values of an argument: its words, without two dashes unless it reaches to the end. -/
def ArgumentForm.values (argument : ArgumentForm) (words : List String) : List String :=
  if argument.toTheEnd then words else words.erase "--"

/-- A reading under way: the state built so far, whether the argument is still to come, and the
words that were not recognized. -/
structure ReadingState (σ : Type) where
  state : σ
  argumentPending : Bool
  unrecognized : List String

section

variable {σ : Type} (form : ParserForm) (take : σ → Occurrence → Except Rejection σ)

/-- Reports a fault under the name of the parser's program. -/
def ParserForm.reject {β : Type} (fault : UsageFault) : Except Rejection β :=
  .error ⟨form.program, fault⟩

/-- Takes the argument from the front of a command line, if it is still to come and can be taken
there.  Gives the number of words taken. -/
def takeArgument (reading : ReadingState σ) (words : List (String × WordClass)) :
    Except Rejection (ReadingState σ × Nat) :=
  match reading.argumentPending, form.argument.wordCount? words with
  | true, some count => do
    let values := form.argument.values ((words.take count).map Prod.fst)
    let state ← take reading.state (.argument values)
    .ok ({ reading with state, argumentPending := false }, count)
  | _, _ => .ok (reading, 0)

/-- Takes an option from the front of a command line.  Gives the number of further words taken. -/
def takeOption (reading : ReadingState σ) (word : String) (found : WordClass)
    (rest : List (String × WordClass)) : Except Rejection (ReadingState σ × Nat) :=
  match found with
  | .known option spelling attached =>
    match option.takesValue, attached with
    | true, some attached => do
      let state ← take reading.state (.valued option (attachedValue attached))
      .ok ({ reading with state }, 0)
    | true, none => match rest with
      | (value, .argument) :: _ => do
        let state ← take reading.state (.valued option (some value))
        .ok ({ reading with state }, 1)
      | _ => form.reject (.argument option.name .expectedValue)
    | false, none => do
      let state ← take reading.state (.flag option)
      .ok ({ reading with state }, 0)
    | false, some attached => match form.flagsOf option spelling attached with
      | .error fault => form.reject fault
      | .ok options => do
        let state ← options.foldlM (fun state option => take state (.flag option)) reading.state
        .ok ({ reading with state }, 0)
  | _ => .ok ({ reading with unrecognized := reading.unrecognized ++ [word] }, 0)

/-- Reads the words of a command line, at most a given number of times taking something from its
front.  Words before an option that no argument takes are not recognized. -/
def readWords (reading : ReadingState σ) (words : List (String × WordClass)) :
    Nat → Except Rejection (ReadingState σ)
  | 0 => .ok reading
  | rounds + 1 => do
    if words.any (·.2.isOption) then
      match words with
      | (word, found) :: rest =>
        if found.isOption then
          let (reading, count) ← takeOption form take reading word found rest
          readWords reading (rest.drop count) rounds
        else
          let (reading, count) ← takeArgument form take reading words
          if count == 0 then
            let passed := (words.takeWhile fun entry => !entry.2.isOption).map Prod.fst
            readWords { reading with unrecognized := reading.unrecognized ++ passed }
              (words.drop passed.length) rounds
          else readWords reading (words.drop count) rounds
      | [] => .ok reading
    else
      let (reading, count) ← takeArgument form take reading words
      .ok { reading with
        unrecognized := reading.unrecognized ++ (words.drop count).map Prod.fst }

/-- Reads a command line from an initial state.  Gives the final state and the words that were not
recognized. -/
def ParserForm.read (initial : σ) (commandLine : List String) :
    Except Rejection (σ × List String) := do
  let words ← (form.classifyAll commandLine).mapError (⟨form.program, ·⟩)
  let reading ← readWords form take ⟨initial, true, []⟩ words (2 * words.length + 1)
  if reading.argumentPending then form.reject (.missing form.argument.name)
  else .ok (reading.state, reading.unrecognized)

end

end HorizonPlanner.CommandLine
