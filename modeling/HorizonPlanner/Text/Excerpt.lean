/-
This file cuts texts off where messages have no more room for them.  Some rooms
are counted in characters and others in the bytes of UTF-8.
-/

namespace HorizonPlanner.Text

/-- A text up to a number of characters. -/
def firstCharacters (count : Nat) (content : String) : String :=
  String.ofList (content.toList.take count)

/-- Characters up to a number of bytes.  A character that the bytes end in the middle of is shown as
one that could not be read. -/
def charactersWithin : Nat → List Char → List Char
  | _, [] => []
  | bytes, character :: rest =>
    if bytes == 0 then []
    else if character.utf8Size ≤ bytes then
      character :: charactersWithin (bytes - character.utf8Size) rest
    else ['\ufffd']

/-- A text up to a number of bytes. -/
def firstBytes (bytes : Nat) (content : String) : String :=
  String.ofList (charactersWithin bytes content.toList)

end HorizonPlanner.Text
