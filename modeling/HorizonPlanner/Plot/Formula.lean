/-
This file reads formulas.  A formula is a row of tokens: symbols, spaces, fonts,
groups between braces, commands with their parts, and scripts below and above
all of these.  Nothing is made of a formula here; it is only read to find out
what is wrong with it, if anything is.

A reading takes the characters that are left and gives those that are left then.
It is absent where another kind of token may still fit, and refused where none
can.  The amount of fuel bounds how deeply readings call each other, and is
never used up when it is ten times the number of characters.
-/

import HorizonPlanner.Plot.FormulaFault
import HorizonPlanner.Plot.FormulaWord

namespace HorizonPlanner.Plot

/-! ### Readings -/

/-- Where a reading stopped: the number of characters left, and the cause. -/
structure Stop where
  remaining : Nat
  cause : FormulaCause
  deriving Repr

/-- Why a whole formula is refused.  A misread part is told by the number of characters left; a
fault found after a part was read is nowhere. -/
inductive Refusal where
  | misread (firmness : Firmness) (cause : FormulaCause) (remaining : Option Nat)
  | failed (fault : FormulaFault)
  deriving Repr

/-- What comes of reading a part. -/
inductive Reading (β : Type) where
  | read (result : β) (rest : List Char)
  | absent (stop : Stop)
  | refused (refusal : Refusal)

/-- A refusal of a part that had to follow what was read before. -/
def Refusal.settle : Refusal → Refusal
  | .misread _ cause remaining => .misread .settled cause remaining
  | refusal => refusal

/-- A refusal inside a part with a name, which takes the place of the cause unless the refusal is
settled. -/
def Refusal.within (part : String) : Refusal → Refusal
  | .misread .firm _ remaining => .misread .firm (.expected part) remaining
  | refusal => refusal

namespace Reading

/-- A reading followed by another. -/
def andThen {β γ : Type} (reading : Reading β) (next : β → List Char → Reading γ) : Reading γ :=
  match reading with
  | .read result rest => next result rest
  | .absent stop => .absent stop
  | .refused refusal => .refused refusal

/-- A reading of a part with a name. -/
def within {β : Type} (part : String) : Reading β → Reading β
  | .absent stop => .absent { stop with cause := .expected part }
  | .refused refusal => .refused (refusal.within part)
  | reading => reading

/-- A reading of a part that has to follow what was read before. -/
def settle {β : Type} : Reading β → Reading β
  | .absent stop => .refused (.misread .settled stop.cause (some stop.remaining))
  | .refused refusal => .refused refusal.settle
  | reading => reading

end Reading

/-- What a token amounts to: nothing, a single character, or a box. -/
inductive Piece where
  | nothing
  | character
  | box
  deriving DecidableEq, Repr

/-! ### Single characters and words -/

/-- The characters left behind blanks. -/
def skipBlanks (text : List Char) : List Char := text.dropWhile (· == ' ')

/-- The characters left behind a spelling, if the text starts with it. -/
def behind? (spelling : String) (text : List Char) : Option (List Char) :=
  if spelling.toList.isPrefixOf text then some (text.drop spelling.length) else none

/-- The characters left behind the first of some spellings that the text starts with. -/
def behindFirst? (spellings : List String) (text : List Char) : Option (List Char) :=
  spellings.findSome? (behind? · text)

/-- The word at the front of a text, behind a backslash, and the characters left. -/
def word? : List Char → Option (String × List Char)
  | '\\' :: rest => match rest.takeWhile Char.isAlpha with
    | [] => none
    | word => some (String.ofList word, rest.drop word.length)
  | _ => none

/-- The characters left behind one of some words. -/
def behindWord? (words : List String) (text : List Char) : Option (List Char) :=
  match word? text with
  | some (word, rest) => if words.contains word then some rest else none
  | none => none

/-- The characters left behind what puts an accent on the next part. -/
def behindAccent? (text : List Char) : Option (List Char) :=
  match behindWord? accentWords text, text with
  | some rest, _ => some rest
  | none, '\\' :: mark :: rest => if accentMarks.contains mark then some rest else none
  | none, _ => none

/-- The characters outside letters and digits that stand for themselves. -/
def plainMarks : List Char := " +-*/<>=:,.;!?&'@()[]|".toList

/-- The characters that stand for themselves with space around them. -/
def spacedMarks : List Char := "+-*<>=:,.;!".toList

/-- The characters that stand for themselves behind a backslash. -/
def escapedMarks : List Char := "%$\x7b\x7d[]_|".toList

/-- The symbol at the front of a text, and the characters left. -/
def symbol? (text : List Char) : Option (Piece × List Char) :=
  match behindWord? symbolWords text, text with
  | some rest, _ => some (.character, rest)
  | none, '\\' :: mark :: rest =>
    if escapedMarks.contains mark then some (.character, rest)
    else if mark == '#' && !(rest.head?.any Char.isAlpha) then some (.character, rest)
    else none
  | none, mark :: rest =>
    if spacedMarks.contains mark then some (.box, rest)
    else if mark.isAlphanum || plainMarks.contains mark ||
        (0x80 ≤ mark.toNat && mark.toNat ≤ 0x1ffff) then some (.character, rest)
    else none
  | none, [] => none

/-- A spelling that has to be at the front of a text, behind blanks. -/
def literal (spelling : String) (text : List Char) : Reading Unit :=
  let text := skipBlanks text
  match behind? spelling text with
  | some rest => .read () rest
  | none => .absent ⟨text.length, .expected (Text.quoted spelling)⟩

/-- The opening brace. -/
def openBrace : List Char → Reading Unit := literal "\x7b"

/-- The closing brace. -/
def closeBrace : List Char → Reading Unit := literal "\x7d"

/-- The beginning of a group: a brace, perhaps behind a word for the font in it. -/
def openGroup (text : List Char) : Reading Unit :=
  let text := skipBlanks text
  match (behind? "\\math" text).bind fun rest => behindFirst? fontWords (skipBlanks rest) with
  | some rest => openBrace rest
  | none => openBrace text

/-- Whether a text begins a group. -/
def opensGroup (text : List Char) : Bool :=
  match openGroup text with
  | .read .. => true
  | _ => false

/-- A number with decimals, behind blanks. -/
def decimal (text : List Char) : Reading Unit :=
  let text := skipBlanks text
  let unsigned := match text with
    | '-' :: rest | '+' :: rest => rest
    | _ => text
  let whole := unsigned.takeWhile Char.isDigit
  match unsigned.drop whole.length, whole with
  | '.' :: rest, _ :: _ => .read () (rest.dropWhile Char.isDigit)
  | '.' :: digit :: rest, [] =>
    if digit.isDigit then .read () (rest.dropWhile Char.isDigit)
    else .absent ⟨text.length, .expected "float_literal"⟩
  | rest, _ :: _ => .read () rest
  | _, [] => .absent ⟨text.length, .expected "float_literal"⟩

/-- One of the spellings of a delimiter, behind blanks, which has to be there. -/
def delimiter (text : List Char) : Reading Unit :=
  let text := skipBlanks text
  match behindFirst? delimiters text with
  | some rest => .read () rest
  | none =>
    .refused (.misread .settled (.expected "a delimiter") (some text.length))

/-- The characters left behind one of some spellings, which need not be there. -/
def optionally (spellings : List String) (text : List Char) : List Char :=
  (behindFirst? spellings (skipBlanks text)).getD text

/-- The characters left behind the mark that closes a quotation, in which a backslash keeps the next
character from closing it. -/
def behindQuotation? (mark : Char) : List Char → Option (List Char)
  | [] => none
  | '\\' :: _ :: rest => behindQuotation? mark rest
  | first :: rest =>
    if first == mark then some rest
    else if first == '\r' || first == '\\' then none
    else behindQuotation? mark rest

/-- A text between braces, behind blanks. -/
def bracedText (text : List Char) : Reading Unit :=
  (openBrace text).andThen fun _ rest => match behindQuotation? '\x7d' rest with
    | some rest => .read () rest
    | none => .absent ⟨text.length, .expected "a text"⟩

/-- The parts of a command, which have to follow its name; `form` shows them. -/
def partsOf (form : String) (text : List Char) (parts : Reading Unit) : Reading Piece :=
  match parts with
  | .read _ rest => .read .box rest
  | .absent _ =>
    .refused (.misread .settled (.expected form) (some (skipBlanks text).length))
  | .refused refusal => .refused refusal.settle

/-! ### Scripts -/

/-- The scripts behind a part: the mark of each and what it amounts to. -/
abbrev Scripts := List (Char × Piece)

/-- The names of scripts. -/
def scriptName (mark : Char) : String := if mark == '_' then "subscript" else "superscript"

/-- The first mark of a script that was there before, given the marks before these scripts. -/
def repeatedMark? (before : List Char) : Scripts → Option Char
  | [] => none
  | script :: rest =>
    if before.contains script.1 then some script.1
    else repeatedMark? (script.1 :: before) rest

/-- Scripts and primes together.  No script can be there twice, and primes join a superscript only
if it is a box. -/
def joinScripts (scripts : Scripts) (text : List Char) : Reading Piece :=
  let (primes, rest) := (skipBlanks text).span (· == '\'')
  match repeatedMark? [] scripts, scripts.lookup '^' with
  | some mark, _ => .refused (.misread .firm (.doubledScript (scriptName mark)) none)
  | none, some .character =>
    if primes.isEmpty then .read .box rest else .refused (.failed .scriptClosed)
  | none, _ => .read .box rest

/-! ### Tokens -/

/-- The kinds of parts that can carry scripts. -/
def partKinds : String :=
  "\x7baccent | symbol | function | operatorname | group | frac | dfrac | binom | genfrac"
    ++ " | overset | underset | sqrt | overline | text | boldsymbol | substack\x7d"

mutual

/-- Reads one token. -/
def readToken : Nat → List Char → Reading Piece
  | 0, text => .absent ⟨text.length, .expected "a token"⟩
  | fuel + 1, text =>
    let text := skipBlanks text
    match readSimple fuel text with
    | .absent stop => match readDelimited fuel text with
      | .absent _ =>
        if stop.remaining == 0 && opensGroup text then
          .refused (.misread .firm (.expected "'\x7d'") (some 0))
        else match word? text with
          | some (word, _) =>
            .refused (.misread .firm (.unknownSymbol ("\\" ++ word)) (some text.length))
          | none => .absent stop
      | reading => reading
    | reading => reading

/-- Reads tokens as long as there are any, and counts them. -/
def readTokens : Nat → Nat → List Char → Reading Nat
  | 0, count, text => .read count text
  | fuel + 1, count, text => match readToken fuel text with
    | .read _ rest => readTokens fuel (count + 1) rest
    | .absent _ => .read count text
    | .refused refusal => .refused refusal

/-- Reads a space, a font, or a part with its scripts. -/
def readSimple : Nat → List Char → Reading Piece
  | 0, text => .absent ⟨text.length, .expected "a token"⟩
  | fuel + 1, text =>
    let text := skipBlanks text
    match behindFirst? spaces text, behind? "\\hspace" text, behindWord? fontWords text with
    | some rest, _, _ => .read .box rest
    | none, some rest, _ => partsOf "\\hspace\x7bspace\x7d" rest
        ((openBrace rest).andThen fun _ rest => (decimal rest).andThen fun _ rest =>
          closeBrace rest)
    | none, none, some rest => .read .nothing rest
    | none, none, none => readScripted fuel text

/-- Reads a part with the scripts and primes behind it; the part may be missing if there are
any. -/
def readScripted : Nat → List Char → Reading Piece
  | 0, text => .absent ⟨text.length, .expected "a part"⟩
  | fuel + 1, text =>
    let text := skipBlanks text
    let part := readPart fuel text
    let behind := match part with
      | .read _ rest => rest
      | _ => text
    match part with
    | .refused refusal => .refused refusal
    | _ => match readScripts fuel [] behind with
      | .refused refusal => .refused refusal
      | .read (first :: others) rest => joinScripts (first :: others) rest
      | _ => match text, part with
        | '\'' :: rest, _ => .read .box (rest.dropWhile (· == '\''))
        | _, .read piece rest =>
          let (primes, rest') := (skipBlanks rest).span (· == '\'')
          .read (if primes.isEmpty then piece else .box) rest'
        | _, reading => reading

/-- Reads scripts as long as there are any. -/
def readScripts : Nat → Scripts → List Char → Reading Scripts
  | 0, scripts, text => .read scripts text
  | fuel + 1, scripts, text => match skipBlanks text with
    | mark :: rest =>
      if mark == '_' || mark == '^' then
        (readPart fuel rest).settle.andThen fun piece rest =>
          readScripts fuel (scripts ++ [(mark, piece)]) rest
      else .read scripts text
    | [] => .read scripts text

/-- Reads a part that can carry scripts. -/
def readPart : Nat → List Char → Reading Piece
  | 0, text => .absent ⟨text.length, .expected "a part"⟩
  | fuel + 1, text =>
    let inner := skipBlanks text
    match behindAccent? inner, symbol? text, behindWord? functionWords inner with
    | some rest, _, _ =>
      ((readPart fuel (skipBlanks rest)).within "named_placeable").settle.andThen
        fun _ rest => .read .box rest
    | none, some (piece, rest), _ => .read piece rest
    | none, none, some rest => .read .box rest
    | none, none, none => match readCommand fuel inner with
      | some reading => reading
      | none => match readGroup fuel inner with
        | .absent stop =>
          if stop.remaining == text.length then .absent { stop with cause := .expected partKinds }
          else .absent stop
        | reading => reading

/-- Reads a group. -/
def readGroup : Nat → List Char → Reading Piece
  | 0, text => .absent ⟨text.length, .expected "a group"⟩
  | fuel + 1, text =>
    (openGroup text).andThen fun _ rest => (readTokens fuel 0 rest).andThen fun _ rest =>
      ((closeBrace rest).within "end_group").andThen fun _ rest => .read .box rest

/-- Reads the tokens of a part of a command, which stand between braces; there have to be at least
so many. -/
def readBraced : Nat → (part : String) → (least : Nat) → List Char → Reading Unit
  | 0, _, _, text => .absent ⟨text.length, .expected "a group"⟩
  | fuel + 1, part, least, text =>
    ((openBrace text).andThen fun _ rest => (readTokens fuel 0 rest).andThen fun count rest =>
      if count < least then .absent ⟨rest.length, .expected "a token"⟩
      else closeBrace rest).within part

/-- Reads two parts of a command, one after the other. -/
def readPair : Nat → (part : String) → (least : Nat) → List Char → Reading Unit
  | 0, _, _, text => .absent ⟨text.length, .expected "a group"⟩
  | fuel + 1, part, least, text =>
    (readBraced fuel part least text).andThen fun _ rest => readBraced fuel part least rest

/-- Reads simple tokens between braces. -/
def readBracedSimple : Nat → List Char → Reading Unit
  | 0, text => .absent ⟨text.length, .expected "a group"⟩
  | fuel + 1, text =>
    (openBrace text).andThen fun _ rest => (readSimples fuel rest).andThen fun _ rest =>
      closeBrace rest

/-- Reads simple tokens as long as there are any. -/
def readSimples : Nat → List Char → Reading Unit
  | 0, text => .read () text
  | fuel + 1, text => match readSimple fuel text with
    | .read _ rest => readSimples fuel rest
    | .absent _ => .read () text
    | .refused refusal => .refused refusal

/-- Reads a command with its parts, if the text starts with the name of one. -/
def readCommand : Nat → List Char → Option (Reading Piece)
  | 0, _ => none
  | fuel + 1, text =>
    let fraction (name : String) : Option (Reading Piece) := (behind? name text).map fun rest =>
      partsOf (name ++ "\x7bnum\x7d\x7bden\x7d") rest (readPair fuel "required_group" 1 rest)
    let stacked (name : String) : Option (Reading Piece) := (behind? name text).map fun rest =>
      partsOf (name ++ "\x7bannotation\x7d\x7bbody\x7d") rest
        (readPair fuel "optional_group" 0 rest)
    let simple (name part : String) : Option (Reading Piece) :=
      (behind? name text).map fun rest =>
        partsOf (name ++ part) rest (readBracedSimple fuel rest)
    (simple "\\operatorname" "\x7bname\x7d") <|>
    (fraction "\\frac") <|> (fraction "\\dfrac") <|> (fraction "\\binom") <|>
    ((behind? "\\genfrac" text).map fun rest =>
      partsOf
        ("\\genfrac\x7bldelim\x7d\x7brdelim\x7d\x7brulesize\x7d\x7bstyle\x7d"
          ++ "\x7bnum\x7d\x7bden\x7d")
        rest (readRuled fuel rest)) <|>
    (stacked "\\overset") <|> (stacked "\\underset") <|>
    ((behind? "\\sqrt" text).map fun rest =>
      partsOf "\\sqrt\x7bvalue\x7d" rest (readRoot fuel rest)) <|>
    ((behind? "\\overline" text).map fun rest =>
      partsOf "\\overline\x7bbody\x7d" rest (readBraced fuel "required_group" 1 rest)) <|>
    ((behind? "\\text" text).map fun rest => partsOf "\\text" rest (bracedText rest)) <|>
    (simple "\\boldsymbol" "\x7bvalue\x7d") <|>
    ((behind? "\\substack" text).map fun rest =>
      match readStack fuel rest with
      | .read 0 _ => .refused (.failed .noParts)
      | reading =>
        partsOf "\\substack\x7bparts\x7d" rest (reading.andThen fun _ rest => .read () rest))

/-- Reads the parts of a fraction that tells its delimiters, the width of its rule and its style
before them. -/
def readRuled : Nat → List Char → Reading Unit
  | 0, text => .absent ⟨text.length, .expected "a group"⟩
  | fuel + 1, text =>
    let optional (spellings : List String) (text : List Char) : Reading Unit :=
      (openBrace text).andThen fun _ rest => closeBrace (optionally spellings rest)
    (optional delimiters text).andThen fun _ rest =>
    (optional delimiters rest).andThen fun _ rest =>
    (openBrace rest).andThen fun _ rest => (decimal rest).andThen fun _ rest =>
    (closeBrace rest).andThen fun _ rest =>
    (optional ["0", "1", "2", "3"] rest).andThen fun _ rest =>
      readPair fuel "required_group" 1 rest

/-- Reads the parts of a root, the first of which may be missing. -/
def readRoot : Nat → List Char → Reading Unit
  | 0, text => .absent ⟨text.length, .expected "a group"⟩
  | fuel + 1, text =>
    let degree := (literal "[" text).andThen fun _ rest =>
      (readDegree fuel 0 rest).andThen fun count rest =>
        if count == 0 then .absent ⟨rest.length, .expected "a token"⟩ else literal "]" rest
    match degree with
    | .read _ rest => readBraced fuel "required_group" 1 rest
    | .absent _ => readBraced fuel "required_group" 1 text
    | .refused refusal => .refused refusal

/-- Reads tokens up to a closing bracket, and counts them. -/
def readDegree : Nat → Nat → List Char → Reading Nat
  | 0, count, text => .read count text
  | fuel + 1, count, text =>
    if (skipBlanks text).head? == some ']' then .read count text
    else match readToken fuel text with
      | .read _ rest => readDegree fuel (count + 1) rest
      | .absent _ => .read count text
      | .refused refusal => .refused refusal

/-- Reads rows between braces, and counts them. -/
def readStack : Nat → List Char → Reading Nat
  | 0, text => .absent ⟨text.length, .expected "a group"⟩
  | fuel + 1, text =>
    ((openBrace text).andThen fun _ rest => (readRows fuel 0 rest).andThen fun count rest =>
      (closeBrace rest).andThen fun _ rest => .read count rest).within "nested \x7b\x7d expression"

/-- Reads rows as long as there are any: quotations, rows between braces, or tokens before a double
backslash. -/
def readRows : Nat → Nat → List Char → Reading Nat
  | 0, count, text => .read count text
  | fuel + 1, count, text =>
    let text := skipBlanks text
    let quotation := match text with
      | '"' :: rest => behindQuotation? '"' rest
      | '\'' :: rest => behindQuotation? '\'' rest
      | _ => none
    match quotation with
    | some rest => readRows fuel (count + 1) rest
    | none => match readStack fuel text with
      | .read _ rest => readRows fuel (count + 1) rest
      | .refused refusal => .refused refusal
      | .absent _ => match readTokens fuel 0 text with
        | .read (_ + 1) rest => readRows fuel (count + 1) (behindBreaks fuel rest)
        | .refused refusal => .refused refusal
        | _ => .read count text

/-- The characters left behind double backslashes. -/
def behindBreaks : Nat → List Char → List Char
  | 0, text => text
  | fuel + 1, text => match behind? "\\\\" (skipBlanks text) with
    | some rest => behindBreaks fuel rest
    | none => text

/-- Reads tokens between delimiters.  If there are delimiters in the middle, there has to be
something besides. -/
def readDelimited : Nat → List Char → Reading Piece
  | 0, text => .absent ⟨text.length, .expected "a part"⟩
  | fuel + 1, text =>
    (literal "\\left" text).andThen fun _ rest => (delimiter rest).andThen fun _ rest =>
      (readMiddle fuel [] rest).settle.andThen fun pieces rest =>
        (literal "\\right" rest).settle.andThen fun _ rest =>
          (delimiter rest).andThen fun _ rest =>
            if pieces.all (·.isNone) && !pieces.isEmpty then .refused (.failed .noParts)
            else .read .box rest

/-- Reads what is between delimiters: pieces, and more delimiters. -/
def readMiddle : Nat → List (Option Piece) → List Char → Reading (List (Option Piece))
  | 0, pieces, text => .read pieces text
  | fuel + 1, pieces, text =>
    let piece := match readSimple fuel text with
      | .absent _ => match readDelimited fuel text with
        | .absent _ => (literal "\\middle" text).andThen fun _ rest =>
            (delimiter rest).andThen fun _ rest => .read none rest
        | reading => reading.andThen fun piece rest => .read (some piece) rest
      | reading => reading.andThen fun piece rest => .read (some piece) rest
    match piece with
    | .read (some .nothing) rest => readMiddle fuel pieces rest
    | .read piece rest => readMiddle fuel (pieces ++ [piece]) rest
    | .absent _ => .read pieces text
    | .refused refusal => .refused refusal

end

/-! ### Whole formulas -/

/-- Reads a whole formula: one token at least, and nothing behind the last. -/
def readFormula (text : List Char) : Reading Unit :=
  (readTokens (10 * (text.length + 2)) 0 text).andThen fun count rest =>
    match count, skipBlanks rest with
    | _ + 1, [] => .read () []
    | _, rest => .absent ⟨rest.length, .expected "end of text"⟩

/-- The fault that a refusal of a formula amounts to. -/
def Refusal.fault (text : String) : Refusal → FormulaFault
  | .misread firmness cause (some remaining) =>
    .misread firmness cause text (text.length - remaining)
  | .misread firmness cause none => .misread firmness cause "" 0
  | .failed fault => fault

end HorizonPlanner.Plot
