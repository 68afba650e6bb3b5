/-
This file says what can be wrong with the title of a plot.  A line of a title
with an even number of dollar signs, those behind a backslash apart, holds
formulas between them; every other line is shown as it is.  The plotter that the
program is run with draws nothing but looks at the title; commands take any other
plotter as well.
-/

import HorizonPlanner.Fault
import HorizonPlanner.Plot.Formula

namespace HorizonPlanner.Plot

/-! ### Lines -/

/-- The number of dollar signs in a line that do not stand behind a backslash. -/
def dollarCount : List Char → Nat
  | [] => 0
  | '\\' :: '$' :: rest => dollarCount rest
  | first :: rest => dollarCount rest + if first == '$' then 1 else 0

/-- Whether a line holds formulas. -/
def holdsFormulas (line : List Char) : Bool :=
  let count := dollarCount line
  count != 0 && count % 2 == 0

/-- The number of columns from one stop of the tabulator to the next. -/
def tabWidth : Nat := 8

/-- A line in which tabulators are filled up with blanks, given the column it starts in. -/
def withoutTabs (column : Nat) : List Char → List Char
  | [] => []
  | '\t' :: rest =>
    let width := tabWidth - column % tabWidth
    List.replicate width ' ' ++ withoutTabs (column + width) rest
  | '\r' :: rest => '\r' :: withoutTabs 0 rest
  | first :: rest => first :: withoutTabs (column + 1) rest

/-! ### Formulas in a line -/

/-- The characters left behind those that stand outside of formulas. -/
def behindPlain : List Char → List Char
  | [] => []
  | '\\' :: '$' :: rest => behindPlain rest
  | '$' :: rest => '$' :: rest
  | _ :: rest => behindPlain rest

/-- The text of the formula at the front of a line, without the dollar signs around it, and the
characters left. -/
def formula? : List Char → Option (List Char × List Char)
  | '$' :: rest => (behindQuotation? '$' rest).map fun behind =>
    (rest.take (rest.length - behind.length - 1), behind)
  | _ => none

/-- What is wrong with the formulas in the characters left of a line.  Where no formula can be read
the line has to end. -/
def remainingFault? (line : List Char) : Nat → List Char → Option FormulaFault
  | 0, _ => none
  | fuel + 1, text =>
    let rest := behindPlain text
    let misplaced := FormulaFault.misread .loose (.expected "end of text") (String.ofList line)
      (line.length - rest.length)
    match rest with
    | [] => none
    | _ => match formula? rest with
      | none => some misplaced
      | some (formula, behind) => match readFormula formula with
        | .read .. => remainingFault? line fuel behind
        | .absent _ => some misplaced
        | .refused refusal => some (refusal.fault (String.ofList formula))

/-- What is wrong with a line of a title. -/
def lineFault? (line : List Char) : Option FormulaFault :=
  if holdsFormulas line then
    let line := withoutTabs 0 line
    remainingFault? line (line.length + 1) line
  else none

/-! ### Titles -/

/-- What is wrong with a title: the fault of its first line that has one. -/
def titleFault? (title : String) : Option FormulaFault :=
  (title.splitToList (· == '\n')).findSome? fun line => lineFault? line.toList

/-- The family of what is wrong with a formula. -/
def FormulaFault.family : FormulaFault → Fault.Family
  | .scriptClosed => .operation
  | .misread .. | .noParts => .value

/-- Draws whatever has a title that can be read. -/
def drawTitled (title : String) : Except Fault Unit :=
  match titleFault? title with
  | some fault => .error (.undrawn fault.family fault.message)
  | none => .ok ()

end HorizonPlanner.Plot
