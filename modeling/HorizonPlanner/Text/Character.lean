/-
This file holds the two classes of characters that reading a number depends on:
blanks, and the decimal digits of every script.
-/

namespace HorizonPlanner.Text

/-! ### Ranges -/

/-- Whether a character lies in one of some ranges of code points, given by first and last. -/
def isWithin (ranges : Array (Nat × Nat)) (character : Char) : Bool :=
  ranges.any fun (first, last) => first ≤ character.toNat && character.toNat ≤ last

/-! ### Blanks -/

/-- The code points at either end of a text that do not count as content. -/
def blankRanges : Array (Nat × Nat) := #[
  (0x9, 0xd), (0x1c, 0x20), (0x85, 0x85), (0xa0, 0xa0), (0x1680, 0x1680), (0x2000, 0x200a),
  (0x2028, 0x2029), (0x202f, 0x202f), (0x205f, 0x205f), (0x3000, 0x3000)]

/-- Whether a character is white space. -/
def isBlank (character : Char) : Bool := isWithin blankRanges character

/-- Whether a character may surround a number.  The four information separators are white space
but do not surround numbers. -/
def isNumberMargin (character : Char) : Bool :=
  isBlank character && !(0x1c ≤ character.toNat && character.toNat ≤ 0x1f)

/-- Whether a text has no content. -/
def isBlankText (content : String) : Bool := content.toList.all isBlank

/-! ### Decimal digits -/

/-- The zeros of the decimal systems; the nine digits that follow each are its one to nine. -/
def digitZeros : Array Nat := #[
  0x30, 0x660, 0x6f0, 0x7c0, 0x966, 0x9e6, 0xa66, 0xae6, 0xb66, 0xbe6, 0xc66, 0xce6, 0xd66, 0xde6,
  0xe50, 0xed0, 0xf20, 0x1040, 0x1090, 0x17e0, 0x1810, 0x1946, 0x19d0, 0x1a80, 0x1a90, 0x1b50,
  0x1bb0, 0x1c40, 0x1c50, 0xa620, 0xa8d0, 0xa900, 0xa9d0, 0xa9f0, 0xaa50, 0xabf0, 0xff10, 0x104a0,
  0x10d30, 0x11066, 0x110f0, 0x11136, 0x111d0, 0x112f0, 0x11450, 0x114d0, 0x11650, 0x116c0, 0x11730,
  0x118e0, 0x11950, 0x11c50, 0x11d50, 0x11da0, 0x16a60, 0x16ac0, 0x16b50, 0x1d7ce, 0x1d7d8, 0x1d7e2,
  0x1d7ec, 0x1d7f6, 0x1e140, 0x1e2f0, 0x1e950, 0x1fbf0]

/-- The value of a decimal digit of any script. -/
def digitValue? (character : Char) : Option Nat :=
  (digitZeros.find? fun start => start ≤ character.toNat && character.toNat ≤ start + 9).map
    (character.toNat - ·)

end HorizonPlanner.Text
