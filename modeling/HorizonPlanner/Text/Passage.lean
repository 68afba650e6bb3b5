/-
This file holds texts as documents may spell them.  A document can name half of
a surrogate pair by itself, for which there is no character, so a passage is a
row of code points: characters and halves that stand alone.
-/

namespace HorizonPlanner.Text

/-! ### Code points -/

/-- A code point: a character, or half of a surrogate pair, given by its place among the halves. -/
inductive CodePoint where
  | whole (character : Char)
  | half (place : Fin 2048)
  deriving DecidableEq, Repr

namespace CodePoint

instance : Inhabited CodePoint := ⟨.whole default⟩

/-- The number of the first half of a surrogate pair. -/
def firstHalf : Nat := 0xd800

/-- The number of a code point. -/
def number : CodePoint → Nat
  | .whole character => character.toNat
  | .half place => firstHalf + place

/-- The code point with a number; a number past the last character has the code point zero. -/
def ofNumber (number : Nat) : CodePoint :=
  if within : firstHalf ≤ number ∧ number - firstHalf < 2048 then
    .half ⟨number - firstHalf, within.2⟩
  else .whole (Char.ofNat number)

/-- The character that shows a code point; one that stands for others shows a half. -/
def shown : CodePoint → Char
  | .whole character => character
  | .half _ => '\ufffd'

end CodePoint

/-! ### Passages -/

/-- A row of code points. -/
structure Passage where
  points : List CodePoint
  deriving DecidableEq, Repr, Inhabited

namespace Passage

/-- The passage of a text. -/
def ofString (content : String) : Passage := ⟨content.toList.map .whole⟩

instance : Coe String Passage := ⟨ofString⟩

/-- The text that shows a passage. -/
def shown (passage : Passage) : String := String.ofList (passage.points.map CodePoint.shown)

instance : Append Passage := ⟨fun first second => ⟨first.points ++ second.points⟩⟩

/-- Whether a passage has no code points. -/
def isEmpty (passage : Passage) : Bool := passage.points.isEmpty

end Passage

end HorizonPlanner.Text
