/-
This file decodes UTF-8.  Bytes that are not UTF-8 are reported with their
position: a byte that starts no character, a character that is not continued, or
one that the bytes end in the middle of.
-/

import HorizonPlanner.Fault

namespace HorizonPlanner.Document

/-! ### Characters of several bytes -/

/-- How a character that starts with a given byte goes on: the bits that the byte contributes, the
range of the next byte, and the number of bytes after that one. -/
structure Lead where
  bits : Nat
  low : Nat
  high : Nat
  further : Nat

/-- The lead of a byte above the single-byte characters, if it starts a character.  After four of
the bytes the next one has a narrower range, which leaves out overlong forms, surrogates and
numbers past the last character. -/
def lead? (byte : Nat) : Option Lead :=
  if byte < 0xc2 then none
  else if byte < 0xe0 then some ⟨byte - 0xc0, 0x80, 0xbf, 0⟩
  else if byte < 0xf0 then
    some ⟨byte - 0xe0, if byte == 0xe0 then 0xa0 else 0x80, if byte == 0xed then 0x9f else 0xbf, 1⟩
  else if byte < 0xf5 then
    some ⟨byte - 0xf0, if byte == 0xf0 then 0x90 else 0x80, if byte == 0xf4 then 0x8f else 0xbf, 2⟩
  else none

/-- What came of reading the rest of a character: its code point and the bytes after it, or the
cause and the number of bytes at fault. -/
inductive Continuation where
  | complete (code : Nat) (rest : List Nat)
  | broken (cause : ByteFault) (count : Nat)

/-- Reads the last bytes of a character, `taken` of whose bytes were read before. -/
def continueFrom (code taken : Nat) : Nat → List Nat → Continuation
  | 0, bytes => .complete code bytes
  | _ + 1, [] => .broken .ended taken
  | further + 1, byte :: rest =>
    if 0x80 ≤ byte && byte ≤ 0xbf then
      continueFrom (code * 64 + (byte - 0x80)) (taken + 1) further rest
    else .broken .continuation taken

/-- Reads what follows the first byte of a character. -/
def Lead.continue (lead : Lead) : List Nat → Continuation
  | [] => .broken .ended 1
  | byte :: rest =>
    if lead.low ≤ byte && byte ≤ lead.high then
      continueFrom (lead.bits * 64 + (byte - 0x80)) 2 lead.further rest
    else .broken .continuation 1

/-! ### Texts -/

/-- Decodes bytes that start at a position, at most a given number of characters of them. -/
def decodeFrom (position : Nat) (decoded : List Char) : Nat → List Nat → Except Fault (List Char)
  | _, [] => .ok decoded.reverse
  | 0, _ => .ok decoded.reverse
  | fuel + 1, byte :: rest =>
    if byte < 0x80 then decodeFrom (position + 1) (Char.ofNat byte :: decoded) fuel rest
    else match lead? byte with
      | none => .error (.undecodable .start byte position 1)
      | some lead => match lead.continue rest with
        | .complete code remaining =>
          decodeFrom (position + 2 + lead.further) (Char.ofNat code :: decoded) fuel remaining
        | .broken cause count => .error (.undecodable cause byte position count)

/-- The characters that bytes encode.  There are never more characters than bytes. -/
def decodeUtf8 (bytes : List Nat) : Except Fault (List Char) :=
  decodeFrom 0 [] bytes.length bytes

/-- A text with every kind of line end turned into the plain one. -/
def plainLineEnds : List Char → List Char
  | '\r' :: '\n' :: rest => '\n' :: plainLineEnds rest
  | '\r' :: rest => '\n' :: plainLineEnds rest
  | character :: rest => character :: plainLineEnds rest
  | [] => []

end HorizonPlanner.Document
