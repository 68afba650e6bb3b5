/-
This file reads JSON texts into values.  The names of the undefined and of the
infinite numbers are accepted besides, whole numbers may have any size, and a
key that is repeated in an object keeps its first place and takes its last
value.  Arrays and objects can be nested up to a number of levels.  A fault is
located by the text that remains at its place.
-/

import HorizonPlanner.Value.Sameness
import HorizonPlanner.Number.Reading
import HorizonPlanner.Document.Utf8

namespace HorizonPlanner.Document

/-! ### Faults -/

/-- Why reading stopped: a fault of syntax with the text that remains at its place, a whole number
with too many digits, or a part that is nested too deeply. -/
inductive ReadFault where
  | misplaced (cause : SyntaxFault) (text : List Char)
  | tooLong (digits : Nat)
  | tooDeep (part : NestedPart)

/-- The result of reading something from the front of a text, and the rest of the text. -/
abbrev Reading (β : Type) := Except ReadFault (β × List Char)

/-- A fault at the front of a text. -/
def faultAt {β : Type} (cause : SyntaxFault) (text : List Char) : Reading β :=
  .error (.misplaced cause text)

/-! ### Blanks -/

/-- Whether a character may stand between the parts of a document. -/
def isSeparator (character : Char) : Bool :=
  character == ' ' || character == '\t' || character == '\n' || character == '\r'

/-- A text without the blanks at its front. -/
def skipSeparators (text : List Char) : List Char := text.dropWhile isSeparator

/-! ### Texts between double quotes -/

/-- The value of a hexadecimal digit. -/
def hexadecimalDigit? (character : Char) : Option Nat :=
  if '0' ≤ character && character ≤ '9' then some (character.toNat - '0'.toNat)
  else if 'a' ≤ character && character ≤ 'f' then some (character.toNat - 'a'.toNat + 10)
  else if 'A' ≤ character && character ≤ 'F' then some (character.toNat - 'A'.toNat + 10)
  else none

/-- The number of four hexadecimal digits. -/
def fourDigits? : List Char → Option (Nat × List Char)
  | first :: second :: third :: fourth :: rest => do
    let first ← hexadecimalDigit? first
    let second ← hexadecimalDigit? second
    let third ← hexadecimalDigit? third
    let fourth ← hexadecimalDigit? fourth
    some (((first * 16 + second) * 16 + third) * 16 + fourth, rest)
  | _ => none

/-- Whether a number is the first half of a surrogate pair. -/
def isHighSurrogate (code : Nat) : Bool := 0xd800 ≤ code && code ≤ 0xdbff

/-- Whether a number is the second half of a surrogate pair. -/
def isLowSurrogate (code : Nat) : Bool := 0xdc00 ≤ code && code ≤ 0xdfff

/-- The number of the character that the two halves of a surrogate pair make. -/
def joinSurrogates (high low : Nat) : Nat := 0x10000 + (high - 0xd800) * 0x400 + (low - 0xdc00)

/-- The number of an escape of four digits, after which the text must not be over. -/
def escapedNumber? (text : List Char) : Option (Nat × List Char) :=
  (fourDigits? text).filter fun (_, rest) => !rest.isEmpty

/-- The code point of an escape by number, given the text from the letter of the escape on.  Two
escapes can make a surrogate pair, and half of one may stand alone; the second half is looked for
only if the text goes on after it.  A fault is located at the letter. -/
def numberEscape (text : List Char) : Reading Text.CodePoint :=
  match escapedNumber? (text.drop 1) with
  | none => faultAt .escapeNumber text
  | some (code, rest) =>
    let alone : Reading Text.CodePoint := .ok (.ofNumber code, rest)
    match rest with
    | '\\' :: 'u' :: digits =>
      if isHighSurrogate code && !(digits.drop 4).isEmpty then
        match fourDigits? digits with
        | none => faultAt .escapeNumber ('u' :: digits)
        | some (low, after) =>
          if isLowSurrogate low then .ok (.ofNumber (joinSurrogates code low), after) else alone
      else alone
    | _ => alone

/-- The character that a letter stands for after a backslash. -/
def letterEscape? : Char → Option Char
  | '"' => some '"'
  | '\\' => some '\\'
  | '/' => some '/'
  | 'b' => some '\x08'
  | 'f' => some '\x0c'
  | 'n' => some '\n'
  | 'r' => some '\r'
  | 't' => some '\t'
  | _ => none

/-- Reads a text up to its closing quote.  `opened` is the text from the opening quote on, and the
amount of fuel bounds the number of characters read. -/
def textBody (opened : List Char) (read : List Text.CodePoint) :
    Nat → List Char → Reading Text.Passage
  | 0, _ => faultAt .unterminatedText opened
  | _, [] => faultAt .unterminatedText opened
  | fuel + 1, character :: rest =>
    if character == '"' then .ok (⟨read.reverse⟩, rest)
    else if character == '\\' then
      match rest with
      | [] => faultAt .unterminatedText opened
      | letter :: after =>
        if letter == 'u' then
          match numberEscape rest with
          | .ok (point, after) => textBody opened (point :: read) fuel after
          | .error fault => .error fault
        else match letterEscape? letter with
          | some character => textBody opened (.whole character :: read) fuel after
          | none => faultAt .escapeLetter (character :: rest)
    else if character.toNat < 0x20 then faultAt .controlCharacter (character :: rest)
    else textBody opened (.whole character :: read) fuel rest

/-- Reads a text, given what follows its opening quote. -/
def textAfterQuote (fuel : Nat) (text : List Char) : Reading Text.Passage :=
  textBody ('"' :: text) [] fuel text

/-! ### Numbers -/

/-- The decimal digits at the front of a text. -/
def digitsAtFront (text : List Char) : List Nat × List Char :=
  ((text.takeWhile Char.isDigit).map fun digit => digit.toNat - '0'.toNat,
    text.dropWhile Char.isDigit)

/-- The whole part of a number: a zero, or digits that do not start with one. -/
def wholePart? : List Char → Option (List Nat × List Char)
  | '0' :: rest => some ([0], rest)
  | text => match digitsAtFront text with
    | ([], _) => none
    | found => some found

/-- The fraction of a number, if a point and a digit are at the front of a text. -/
def fractionPart? : List Char → Option (List Nat × List Char)
  | '.' :: rest => match digitsAtFront rest with
    | ([], _) => none
    | found => some found
  | _ => none

/-- The exponent of a number, if there is one with a digit at the front of a text. -/
def exponentPart? : List Char → Option (Int × List Char)
  | mark :: rest =>
    if mark == 'e' || mark == 'E' then
      let (negative, rest) := Number.signFrom rest
      match digitsAtFront rest with
      | ([], _) => none
      | (digits, rest) => some (Binary64.signed negative (Number.ofDigits digits), rest)
    else none
  | [] => none

/-- Reads a number.  One with a fraction or an exponent has double precision. -/
def numberAtFront (text : List Char) : Reading Value :=
  let (negative, unsigned) := match text with
    | '-' :: rest => (true, rest)
    | _ => (false, text)
  match wholePart? unsigned with
  | none => faultAt .value text
  | some (whole, afterWhole) =>
    let fraction := fractionPart? afterWhole
    let afterFraction := (fraction.map Prod.snd).getD afterWhole
    let exponent := exponentPart? afterFraction
    let rest := (exponent.map Prod.snd).getD afterFraction
    match fraction, exponent with
    | none, none => match Number.wholeOfDigits negative whole with
      | .ok number => .ok (.integer number, rest)
      | .error _ => .error (.tooLong whole.length)
    | _, _ =>
      let places := (fraction.map Prod.fst).getD []
      let power := (exponent.map Prod.fst).getD 0 - (places.length : Int)
      .ok (.binary (Binary64.ofDecimal negative (Number.ofDigits (whole ++ places)) power), rest)

/-! ### Values -/

/-- The words that stand for a value. -/
def words : List (String × Value) :=
  [("null", .none), ("true", .boolean true), ("false", .boolean false),
    ("NaN", .binary .undefinedResult), ("Infinity", .binary (.infinite false)),
    ("-Infinity", .binary (.infinite true))]

/-- The text after a word, if the word is at its front. -/
def afterWord? : List Char → List Char → Option (List Char)
  | [], text => some text
  | letter :: letters, character :: rest =>
    if letter == character then afterWord? letters rest else none
  | _ :: _, [] => none

/-- Reads a word or a number. -/
def plainValue (text : List Char) : Reading Value :=
  match words.findSome? fun (word, value) =>
      (afterWord? word.toList text).map fun rest => (value, rest) with
  | some found => .ok found
  | none => numberAtFront text

mutual

/-- Reads a value in which parts can be nested up to a number of levels.  The amount of fuel bounds
the depth of the calls, each of which takes at most two for a character. -/
def valueAtFront (levels : Nat) : Nat → List Char → Reading Value
  | 0, text => faultAt .value text
  | _, [] => faultAt .value []
  | fuel + 1, character :: rest =>
    if character == '"' then
      (textAfterQuote fuel rest).map fun (content, rest) => (.text content, rest)
    else if character == '[' then
      if levels == 0 then .error (.tooDeep .array)
      else match skipSeparators rest with
        | ']' :: rest => .ok (.sequence [], rest)
        | inner => (itemsAtFront (levels - 1) fuel [] inner).map fun (items, rest) =>
            (.sequence items, rest)
    else if character == '\x7b' then
      if levels == 0 then .error (.tooDeep .object)
      else match skipSeparators rest with
        | '\x7d' :: rest => .ok (.mapping [], rest)
        | inner => (entriesAtFront (levels - 1) fuel [] inner).map fun (entries, rest) =>
            (Value.mappingOf entries, rest)
    else plainValue (character :: rest)

/-- Reads the items of a list up to its closing bracket. -/
def itemsAtFront (levels : Nat) : Nat → List Value → List Char → Reading (List Value)
  | 0, _, text => faultAt .value text
  | fuel + 1, items, text =>
    match valueAtFront levels fuel text with
    | .error fault => .error fault
    | .ok (item, rest) =>
      let items := item :: items
      match skipSeparators rest with
      | ']' :: rest => .ok (items.reverse, rest)
      | ',' :: rest => itemsAtFront levels fuel items (skipSeparators rest)
      | rest => faultAt .comma rest

/-- Reads the entries of an object up to its closing brace. -/
def entriesAtFront (levels : Nat) :
    Nat → List (Value × Value) → List Char → Reading (List (Value × Value))
  | 0, _, text => faultAt .value text
  | fuel + 1, entries, text =>
    match text with
    | '"' :: rest => match textAfterQuote fuel rest with
      | .error fault => .error fault
      | .ok (key, rest) => match skipSeparators rest with
        | ':' :: rest => match valueAtFront levels fuel (skipSeparators rest) with
          | .error fault => .error fault
          | .ok (value, rest) =>
            let entries := (.text key, value) :: entries
            match skipSeparators rest with
            | '\x7d' :: rest => .ok (entries.reverse, rest)
            | ',' :: rest => entriesAtFront levels fuel entries (skipSeparators rest)
            | rest => faultAt .comma rest
        | rest => faultAt .colon rest
    | _ => faultAt .propertyName text

end

/-! ### Documents -/

/-- Reads a whole text as one value in which parts can be nested up to a number of levels. -/
def readValue (levels : Nat) (text : List Char) : Except ReadFault Value :=
  match text with
  | '\ufeff' :: _ => .error (.misplaced .byteOrderMark text)
  | _ => match valueAtFront levels (2 * text.length + 2) (skipSeparators text) with
    | .error fault => .error fault
    | .ok (value, rest) => match skipSeparators rest with
      | [] => .ok value
      | rest => .error (.misplaced .extraData rest)

/-- The fault that a reader of a file reports: the line and the column, both from one, and the
position in the text. -/
def locate (path : String) (text : List Char) : ReadFault → Fault
  | .tooLong digits => .numberTooLong digits
  | .tooDeep part => .nestedTooDeep part
  | .misplaced cause remaining =>
    let position := text.length - remaining.length
    let before := text.take position
    let line := before.count '\n' + 1
    let column := (before.reverse.takeWhile (· != '\n')).length + 1
    .syntaxFault path cause line column position

/-- The number of levels that parts of a document can be nested in where nothing else is under
way. -/
def nestingLimit : Nat := 988

/-- The value in the bytes of a file, with parts nested up to a number of levels. -/
def readBytes (levels : Nat) (path : String) (bytes : List Nat) : Except Fault Value := do
  let text := plainLineEnds (← decodeUtf8 bytes)
  (readValue levels text).mapError (locate path text)

end HorizonPlanner.Document
