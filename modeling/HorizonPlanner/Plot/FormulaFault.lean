/-
This file lists what can be wrong with a formula, by cause, and gives each cause
its wording.  The wording shows the text, points at a position in it with a
caret, and ends with what was found there.
-/

import HorizonPlanner.Text.Character
import HorizonPlanner.Text.Quoted

namespace HorizonPlanner.Plot

/-! ### Causes -/

/-- How firmly a text was refused.  Of a loose refusal no more is known than that no reading of
the text goes on from the position; a firm one comes from a part that can be nothing else, and a
settled one from a part whose beginning left no other reading. -/
inductive Firmness where
  | loose
  | firm
  | settled
  deriving DecidableEq, Repr

/-- Why a part of a formula was refused. -/
inductive FormulaCause where
  | expected (part : String)
  | unknownSymbol (name : String)
  | doubledScript (script : String)
  deriving DecidableEq, Repr

/-- What is wrong with a formula.  A misread text is shown with the position of the fault; a script
that is there twice is found once the text was read, so the text shown is empty. -/
inductive FormulaFault where
  | misread (firmness : Firmness) (cause : FormulaCause) (text : String) (position : Nat)
  | noParts
  | scriptClosed
  deriving DecidableEq, Repr

/-! ### Wording -/

/-- The ranges of letters and digits that make up a word. -/
def wordRanges : Array (Nat × Nat) := #[
  (0x30, 0x39), (0x41, 0x5a), (0x61, 0x7a), (0xaa, 0xaa), (0xb2, 0xb3), (0xb5, 0xb5), (0xb9, 0xba),
  (0xc0, 0xd6), (0xd8, 0xf6), (0xf8, 0x24f), (0x370, 0x374), (0x376, 0x377), (0x37a, 0x37d),
  (0x37f, 0x37f), (0x386, 0x386), (0x388, 0x38a), (0x38c, 0x38c), (0x38e, 0x3a1), (0x3a3, 0x3e1),
  (0x3f0, 0x3f5), (0x3f7, 0x481), (0x48a, 0x52f), (0x1c80, 0x1c88), (0x1d26, 0x1d2b),
  (0x1d5e, 0x1d5e), (0x1d60, 0x1d60), (0x1d66, 0x1d6a), (0x1d78, 0x1d78), (0x1f00, 0x1f15),
  (0x1f18, 0x1f1d), (0x1f20, 0x1f45), (0x1f48, 0x1f4d), (0x1f50, 0x1f57), (0x1f59, 0x1f59),
  (0x1f5b, 0x1f5b), (0x1f5d, 0x1f5d), (0x1f5f, 0x1f7d), (0x1f80, 0x1fb4), (0x1fb6, 0x1fbc),
  (0x1fbe, 0x1fbe), (0x1fc2, 0x1fc4), (0x1fc6, 0x1fcc), (0x1fd0, 0x1fd3), (0x1fd6, 0x1fdb),
  (0x1fe0, 0x1fec), (0x1ff2, 0x1ff4), (0x1ff6, 0x1ffc), (0xa640, 0xa66e), (0xa67f, 0xa69d),
  (0xab65, 0xab65)]

/-- The largest number of characters of a word that is shown. -/
def wordLimit : Nat := 16

/-- The word at the front of a text, or else its first character. -/
def wordAtFront (text : List Char) : String :=
  match (text.takeWhile (Text.isWithin wordRanges)).take wordLimit with
  | [] => String.ofList (text.take 1)
  | word => String.ofList word

/-- What the wording says was found at a position of a text.  Each pair of backslashes is shown as
one. -/
def foundText (text : String) (position : Nat) : String :=
  match text.toList.drop position with
  | [] => if text == "" then "" else ", found end of text"
  | rest => s!", found {Text.quoted (wordAtFront rest)}".replace "\\\\" "\\"

/-- The name of a firmness. -/
def Firmness.name : Firmness → String
  | .loose => "ParseException"
  | .firm => "ParseFatalException"
  | .settled => "ParseSyntaxException"

/-- The wording of a cause. -/
def FormulaCause.message : FormulaCause → String
  | .expected part => s!"Expected {part}"
  | .unknownSymbol name => s!"Unknown symbol: {name}"
  | .doubledScript script => s!"Double {script}"

/-- The wording of what is wrong with a formula. -/
def FormulaFault.message : FormulaFault → String
  | .misread firmness cause text position =>
    let caret := String.ofList (List.replicate position ' ') ++ "^"
    s!"\n{text}\n{caret}\n{firmness.name}: {cause.message}{foundText text position}"
      ++ s!"  (at char {position}), (line:1, col:{position + 1})"
  | .noParts => "max() arg is an empty sequence"
  | .scriptClosed => "'Char' object has no attribute 'children'"

end HorizonPlanner.Plot
