/-
This file lists everything that can go wrong, by cause, and gives each cause its
wording and its family.  A cause carries the values its message shows and
nothing else.
-/

import HorizonPlanner.Value.Text
import HorizonPlanner.Text.Excerpt

namespace HorizonPlanner

/-! ### Causes -/

/-- Why the operating system refused a file. -/
inductive FileFault where
  | missing
  | exists
  | notDirectory
  | isDirectory
  | nameTooLong
  | noSpace
  deriving DecidableEq, Repr

/-- Why a JSON text is not a document. -/
inductive SyntaxFault where
  | value
  | propertyName
  | colon
  | comma
  | extraData
  | unterminatedText
  | controlCharacter
  | escapeLetter
  | escapeNumber
  | byteOrderMark
  deriving DecidableEq, Repr

/-- Why bytes are not UTF-8. -/
inductive ByteFault where
  | start
  | continuation
  | ended
  deriving DecidableEq, Repr

/-- The parts of a document that can be nested in each other. -/
inductive NestedPart where
  | array
  | object
  deriving DecidableEq, Repr

/-- The slots that the members of every enumeration have. -/
inductive MemberSlot where
  | attributes
  | references
  deriving DecidableEq, Repr

/-- The families that faults fall into. -/
inductive Fault.Family where
  /-- A value of a kind that the operation has no use for. -/
  | kind
  /-- A value of a fit kind that is no good. -/
  | value
  /-- A value that the domain of its variable does not hold. -/
  | domain
  /-- A state variable that the problem does not have. -/
  | stranger
  /-- A position that nothing is at. -/
  | position
  /-- A key that nothing is under. -/
  | key
  /-- A number too large for its format. -/
  | overflow
  /-- An operation that an object does not have. -/
  | operation
  /-- An engine that gave up. -/
  | engine
  /-- Bytes that are no text. -/
  | bytes
  /-- Something nested too deeply. -/
  | depth
  /-- A file that the operating system refused. -/
  | file (cause : FileFault)
  deriving DecidableEq, Repr

/-- What went wrong. -/
inductive Fault where
  -- values put to a use they are not fit for
  | obstructed (obstacle : Obstacle)
  | notIterable (kind : String)
  | notTuplePosition (kind : String)
  | notListPosition (kind : String)
  | tuplePosition
  | listPosition
  | hugePosition (kind : String)
  | missingKey (key : Value)
  | nameNotText (kind : String)
  | notSmallLetters (kind : String)
  | notPath (kind : String)
  -- numbers
  | notNumber (kind : String)
  | notCount (kind : String)
  | notOrdered (kind : String)
  | malformedNumber (content : Text.Passage)
  | numberTooLong (digits : Nat)
  | numberTooLarge
  | infiniteNumber
  | undefinedNumber
  | notAdded (first second : String)
  | notJoined (first second : String)
  | notGrouped (kind : String)
  | textNotGrouped
  -- enumerations, state variables and facts
  | repeatedLabel (label : String) (content : Value)
  | reservedLabel (label : String)
  | invalidLabels (labels : List String)
  | nullInName
  | ignoredTooLate (labels : List String)
  | memberOrder (labels : List String) (stated : List Value)
  | contentNotSet
  | longNameNotText (kind : String)
  | scopeNotCell (kind : String)
  | slotNotText (kind : String)
  | slotNotIdentifier
  | slotsUnsupported
  | slotThere (slot : MemberSlot)
  | slotTaken (label : String)
  | unhashableDomainValue (value name : Value)
  | duplicateDomainValue (value name : Value)
  | emptyDomain (name : Value)
  | outsideDomain (value name : Value)
  -- problems and encodings
  | bound (stated : Value)
  | repeatedVariable
  | foreignFact (role fact : String)
  | missingHorizon
  | unknownCount (name : String)
  -- engines
  | unknownEngine (name : String)
  | unsupportedConstraint (content : Value)
  | noClauses (operation : String)
  | backendFailed (engine reason : String)
  | engineFailed (horizon : Nat)
  -- documents and files
  | documentShape
  | variablesShape
  | domainShape (name : Value)
  | actionShape (index : Nat)
  | factsShape (place : String)
  | undeclaredVariable (place : String) (name : Value)
  | documentFact (place : String) (value name : Value)
  | syntaxFault (path : String) (cause : SyntaxFault) (line column position : Nat)
  | nestedTooDeep (part : NestedPart)
  | undecodable (cause : ByteFault) (byte position count : Nat)
  | file (cause : FileFault) (path : String)
  | nullInPath
  | foldersTooDeep
  | undrawn (family : Fault.Family) (reason : String)
  deriving DecidableEq, Repr

namespace Fault

/-! ### Families -/

/-- The family of an obstacle. -/
def obstacleFamily : Obstacle → Family
  | .unhashable _ | .notCallable _ => .kind
  | .noWriter _ => .operation
  | .tooManyDigits => .value

/-- The family of a fault whose message can be written. -/
def writableFamily : Fault → Family
  | obstructed obstacle => obstacleFamily obstacle
  | notIterable _ | notTuplePosition _ | notListPosition _ | nameNotText _
  | notPath _ | notNumber _ | notCount _ | notOrdered _ | notAdded .. | notJoined ..
  | notGrouped _ | repeatedLabel .. | memberOrder .. | contentNotSet | longNameNotText _
  | scopeNotCell _ | slotNotText _ | slotNotIdentifier | slotsUnsupported | slotThere _
  | missingHorizon | unknownCount _
  | unsupportedConstraint _ => .kind
  | outsideDomain .. => .domain
  | foreignFact .. => .stranger
  | tuplePosition | listPosition | hugePosition _ => .position
  | missingKey _ => .key
  | numberTooLarge | infiniteNumber => .overflow
  | notSmallLetters _ | noClauses _ => .operation
  | backendFailed .. | engineFailed _ => .engine
  | undecodable .. => .bytes
  | nestedTooDeep _ | foldersTooDeep => .depth
  | file cause _ => .file cause
  | malformedNumber _ | numberTooLong _ | undefinedNumber | textNotGrouped
  | reservedLabel _ | invalidLabels _ | nullInName | ignoredTooLate _ | slotTaken _
  | unhashableDomainValue ..
  | duplicateDomainValue .. | emptyDomain _ | bound _ | repeatedVariable | unknownEngine _
  | documentShape | variablesShape | domainShape _ | actionShape _ | factsShape _
  | undeclaredVariable .. | documentFact .. | syntaxFault .. | nullInPath => .value
  | undrawn family _ => family

/-- The values that the message of a fault shows in their rendered form. -/
def rendered : Fault → List Value
  | missingKey key => [key]
  | unhashableDomainValue value name | duplicateDomainValue value name | outsideDomain value name
  | documentFact _ value name => [value, name]
  | emptyDomain name => [name]
  | bound stated => [stated]
  | unsupportedConstraint content => [content]
  | _ => []

/-- What keeps the message of a fault from being written. -/
def obstacle? (fault : Fault) : Option Obstacle := Value.unwritableItem? fault.rendered

/-- The family of a fault.  One whose message cannot be written is that failure instead. -/
def family (fault : Fault) : Family :=
  match fault.obstacle? with
  | some obstacle => obstacleFamily obstacle
  | none => fault.writableFamily

/-! ### Wording -/

/-- The name of a kind as most messages show it. -/
def kindText (kind : String) : String := Text.firstBytes 200 kind

/-- The name of a kind as messages about two operands show it. -/
def operandText (kind : String) : String := Text.firstBytes 100 kind

/-- How a message refers to a state variable. -/
def variableLabel (name : Value) : String :=
  if name.isTruthy then s!"state variable {name.render}" else "state variable"

/-- The wording of a fault in the syntax of a document. -/
def syntaxMessage : SyntaxFault → String
  | .value => "Expecting value"
  | .propertyName => "Expecting property name enclosed in double quotes"
  | .colon => "Expecting ':' delimiter"
  | .comma => "Expecting ',' delimiter"
  | .extraData => "Extra data"
  | .unterminatedText => "Unterminated string starting at"
  | .controlCharacter => "Invalid control character at"
  | .escapeLetter => "Invalid \\escape"
  | .escapeNumber => "Invalid \\uXXXX escape"
  | .byteOrderMark => "Unexpected UTF-8 BOM (decode using utf-8-sig)"

/-- The wording of a fault in the bytes of a document. -/
def byteMessage : ByteFault → String
  | .start => "invalid start byte"
  | .continuation => "invalid continuation byte"
  | .ended => "unexpected end of data"

/-- The number and the wording of a refused file. -/
def fileMessage : FileFault → String
  | .missing => "[Errno 2] No such file or directory"
  | .exists => "[Errno 17] File exists"
  | .notDirectory => "[Errno 20] Not a directory"
  | .isDirectory => "[Errno 21] Is a directory"
  | .nameTooLong => "[Errno 36] File name too long"
  | .noSpace => "[Errno 28] No space left on device"

/-- The names of the parts that can be nested. -/
def nestedName : NestedPart → String
  | .array => "array"
  | .object => "object"

/-- What a message says about a whole number with too many digits. -/
def digitLimitText : String := "Exceeds the limit (4300 digits) for integer string conversion"

/-- What a message advises about a whole number with too many digits. -/
def digitLimitAdvice : String := "; use sys.set_int_max_str_digits() to increase the limit"

/-- The wording of a fact outside a domain. -/
def outsideMessage (value name : Value) : String :=
  s!"Value {value.render} is not in the domain of {variableLabel name}"

/-- The wording of an obstacle. -/
def obstacleMessage : Obstacle → String
  | .unhashable kind => s!"unhashable type: '{kindText kind}'"
  | .notCallable kind => s!"'{kindText kind}' object is not callable"
  | .noWriter kind => s!"'{kindText kind}' object has no attribute '_value_repr_'"
  | .tooManyDigits => digitLimitText ++ digitLimitAdvice

/-- The name of a slot and why it cannot be asked for. -/
def slotMessage : MemberSlot → String
  | .attributes => "__dict__ slot disallowed: we already got one"
  | .references =>
    "__weakref__ slot disallowed: either we already got one, or __itemsize__ != 0"

/-- The message of a fault whose values can be written. -/
def wording : Fault → String
  | obstructed obstacle => obstacleMessage obstacle
  | notIterable kind => s!"'{kindText kind}' object is not iterable"
  | notTuplePosition kind => s!"tuple indices must be integers or slices, not {kindText kind}"
  | notListPosition kind => s!"list indices must be integers or slices, not {kindText kind}"
  | tuplePosition => "tuple index out of range"
  | listPosition => "list index out of range"
  | hugePosition kind => s!"cannot fit '{kindText kind}' into an index-sized integer"
  | missingKey key => key.render
  | nameNotText kind => s!"__str__ returned non-string (type {kindText kind})"
  | notSmallLetters kind => s!"'{Text.firstBytes 50 kind}' object has no attribute 'lower'"
  | notPath kind => s!"expected str, bytes or os.PathLike object, not {kindText kind}"
  | notNumber kind =>
    "int() argument must be a string, a bytes-like object or a real number, not "
      ++ s!"'{kindText kind}'"
  | notCount kind => s!"'{kindText kind}' object cannot be interpreted as an integer"
  | notOrdered kind => s!"'>' not supported between instances of '{operandText kind}' and 'int'"
  | malformedNumber content =>
    s!"invalid literal for int() with base 10: {Text.firstCharacters 200 content.quoted}"
  | numberTooLong digits => s!"{digitLimitText}: value has {digits} digits{digitLimitAdvice}"
  | numberTooLarge => "int too large to convert to float"
  | infiniteNumber => "cannot convert float infinity to integer"
  | undefinedNumber => "cannot convert float NaN to integer"
  | notAdded first second =>
    s!"unsupported operand type(s) for +: '{operandText first}' and '{operandText second}'"
  | notJoined first second =>
    s!"can only concatenate {first} (not \"{kindText second}\") to {first}"
  | notGrouped kind => s!"unsupported format string passed to {kindText kind}.__format__"
  | textNotGrouped => "Cannot specify ',' with 's'."
  | repeatedLabel label content => s!"{Text.quoted label} already defined as {content.render}"
  | reservedLabel label =>
    s!"_sunder_ names, such as {Text.quoted label}, are reserved for future Enum use"
  | invalidLabels labels =>
    "invalid enum member name(s) " ++ ",".intercalate (labels.map Text.quoted)
  | nullInName => "type name must not contain null characters"
  | ignoredTooLate labels =>
    "_ignore_ cannot specify already set names: "
      ++ "\x7b" ++ ", ".intercalate (labels.map Text.quoted) ++ "\x7d"
  | memberOrder labels stated =>
    "member order does not match _order_:\n  "
      ++ Value.renderList (labels.map fun (label : String) => .text label)
      ++ "\n  " ++ Value.renderList stated
  | contentNotSet => "_value_ not set in __new__, unable to create it"
  | longNameNotText kind => s!"type __qualname__ must be a str, not {kindText kind}"
  | scopeNotCell kind => s!"__classcell__ must be a nonlocal cell, not <class '{kind}'>"
  | slotNotText kind => s!"__slots__ items must be strings, not '{kindText kind}'"
  | slotNotIdentifier => "__slots__ must be identifiers"
  | slotsUnsupported => "nonempty __slots__ not supported for subtype of 'IntEnum'"
  | slotThere slot => slotMessage slot
  | slotTaken label => s!"{Text.quoted label} in __slots__ conflicts with class variable"
  | unhashableDomainValue value name =>
    s!"Unhashable value {value.render} in domain of {variableLabel name}"
  | duplicateDomainValue value name =>
    s!"Duplicate value {value.render} in domain of {variableLabel name}"
  | emptyDomain name => s!"Empty domain for {variableLabel name}"
  | outsideDomain value name => outsideMessage value name
  | bound stated => s!"max_steps must be a positive integer, got {stated.render}"
  | repeatedVariable => "A state variable is listed more than once"
  | foreignFact role fact =>
    s!"{role} {fact} refers to a state variable that is not part of this problem"
  | missingHorizon => "EncodingStats.__init__() missing 1 required positional argument: 'horizon'"
  | unknownCount name => s!"EncodingStats.__init__() got an unexpected keyword argument '{name}'"
  | unknownEngine name => s!"Unknown solver '{name}'"
  | unsupportedConstraint content => s!"Unsupported constraint: {content.render}"
  | noClauses operation => s!"'BacktrackingModel' object has no attribute '{operation}'"
  | backendFailed engine reason => s!"SAT solver '{engine}' failed: {reason}"
  | engineFailed horizon => s!"Solver engine failed at horizon {horizon}"
  | documentShape => "Problem document must be a JSON object"
  | variablesShape => "'variables' must be a non-empty object of name -> values"
  | domainShape name => s!"variables.{name.display}: expected a list of values"
  | actionShape index => s!"actions[{index}]: expected an object"
  | factsShape place => s!"{place}: expected an object mapping variables to values"
  | undeclaredVariable place name => s!"{place}: unknown state variable '{name.display}'"
  | documentFact place value name => s!"{place}: {outsideMessage value name}"
  | syntaxFault path cause line column position =>
    s!"{path}: invalid JSON: {syntaxMessage cause}: line {line} column {column} (char {position})"
  | nestedTooDeep part =>
    s!"maximum recursion depth exceeded while decoding a JSON {nestedName part} "
      ++ "from a unicode string"
  | undecodable cause byte position count =>
    if count == 1 then
      s!"'utf-8' codec can't decode byte 0x{Text.hexadecimal 2 byte} in position {position}: "
        ++ byteMessage cause
    else
      s!"'utf-8' codec can't decode bytes in position {position}-{position + count - 1}: "
        ++ byteMessage cause
  | file .noSpace _ => fileMessage .noSpace
  | file cause path => s!"{fileMessage cause}: {Text.quoted path}"
  | nullInPath => "embedded null byte"
  | foldersTooDeep => "maximum recursion depth exceeded"
  | undrawn _ reason => reason

/-- The message of a fault.  If it shows a value that cannot be written, that failure has its
place. -/
def message (fault : Fault) : String :=
  match fault.obstacle? with
  | some obstacle => obstacleMessage obstacle
  | none => fault.wording

/-- Checks that the rendered form of some values can be written. -/
def checkWritable (values : List Value) : Except Fault Unit :=
  match Value.unwritableItem? values with
  | some obstacle => .error (.obstructed obstacle)
  | none => .ok ()

/-- Checks that the displayed form of a value can be written. -/
def checkDisplayable (value : Value) : Except Fault Unit :=
  match value.undisplayable? with
  | some obstacle => .error (.obstructed obstacle)
  | none => .ok ()

end Fault

end HorizonPlanner
