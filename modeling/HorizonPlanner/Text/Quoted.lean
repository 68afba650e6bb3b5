/-
This file writes a text between quotation marks, on one line and in visible
characters only, the way every diagnostic and error message shows a text.
-/

import HorizonPlanner.Text.Passage
import HorizonPlanner.Text.Printable

namespace HorizonPlanner.Text

/-! ### One character between the marks -/

/-- The lower-case hexadecimal digits of a number, padded with zeros to a width. -/
def hexadecimal (width number : Nat) : String :=
  let digits := Nat.toDigits 16 number
  String.ofList (List.replicate (width - digits.length) '0' ++ digits)

/-- One character as it stands between quotation marks.  The mark itself and the backslash are
escaped, line ends and tabs have their letter, and what cannot be shown is written by its number
in the shortest of three widths. -/
def quotedCharacter (mark character : Char) : String :=
  let code := character.toNat
  if character == mark || character == '\\' then String.ofList ['\\', character]
  else if character == '\n' then "\\n"
  else if character == '\r' then "\\r"
  else if character == '\t' then "\\t"
  else if isPrintable character then String.singleton character
  else if code < 0x100 then "\\x" ++ hexadecimal 2 code
  else if code < 0x10000 then "\\u" ++ hexadecimal 4 code
  else "\\U" ++ hexadecimal 8 code

/-- One code point as it stands between quotation marks; half of a surrogate pair is written by its
number. -/
def quotedPoint (mark : Char) : CodePoint → String
  | .whole character => quotedCharacter mark character
  | .half place => "\\u" ++ hexadecimal 4 (CodePoint.firstHalf + place)

/-! ### The whole text -/

/-- The mark a passage is put between: the single one, unless the passage holds it and not the
double one. -/
def quotationMark (passage : Passage) : Char :=
  if passage.points.contains (.whole '\'') && !passage.points.contains (.whole '"') then '"'
  else '\''

/-- A passage between quotation marks. -/
def Passage.quoted (passage : Passage) : String :=
  let mark := quotationMark passage
  String.singleton mark ++ String.join (passage.points.map (quotedPoint mark)) ++
    String.singleton mark

/-- A text between quotation marks. -/
def quoted (content : String) : String := (Passage.ofString content).quoted

end HorizonPlanner.Text
