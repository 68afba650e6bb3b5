/-
This file holds the values that a planning problem talks about.  Domains, names
and documents may hold any of them, so the type is dynamic: nothing, truth
values, whole numbers, double-precision numbers, texts, lists, tuples, mappings
and members of an enumeration.

Two notions of equality live side by side.  Structural equality (`=`) is
decidable here; it tells `1` from `true` and is what makes a state variable
itself and no other.  Sameness of values is in `HorizonPlanner.Value.Sameness`.
-/

import HorizonPlanner.Number.Reading
import HorizonPlanner.Text.Passage

namespace HorizonPlanner

/-- Why an operation on a value cannot be carried out. -/
inductive Obstacle where
  /-- Values of this kind cannot be members of a set. -/
  | unhashable (kind : String)
  /-- A value of this kind stands in place of the operation. -/
  | notCallable (kind : String)
  /-- A value of this kind stands in place of the enumeration that would write its member. -/
  | noWriter (kind : String)
  /-- A whole number has more digits than can be written. -/
  | tooManyDigits
  deriving DecidableEq, Repr

/-- What the members of an enumeration have in common: whether they count as whole numbers, what
keeps them from being written, and what keeps them from being members of a set. -/
structure Traits where
  integral : Bool
  unwritable : Option Obstacle
  unhashable : Option Obstacle
  deriving DecidableEq, Repr, Inhabited

/-- A value.  A member of an enumeration carries the key and the name of its enumeration, its own
label, what it has in common with the other members, and the content behind the label. -/
inductive Value where
  | none
  | boolean (truth : Bool)
  | integer (number : Int)
  | binary (number : Binary64)
  | text (content : Text.Passage)
  | sequence (items : List Value)
  | tuple (items : List Value)
  | mapping (entries : List (Value × Value))
  | member (owner : Nat) (ownerName : String) (label : String) (traits : Traits) (content : Value)
  deriving Repr, Inhabited

namespace Value

/-! ### Structural equality -/

mutual

/-- Whether two values are built in the same way from the same parts. -/
def identical : Value → Value → Bool
  | .none, .none => true
  | .boolean first, .boolean second => first == second
  | .integer first, .integer second => first == second
  | .binary first, .binary second => first == second
  | .text first, .text second => first == second
  | .sequence first, .sequence second => identicalItems first second
  | .tuple first, .tuple second => identicalItems first second
  | .mapping first, .mapping second => identicalEntries first second
  | .member owner ownerName label traits content,
    .member owner' ownerName' label' traits' content' =>
    owner == owner' && ownerName == ownerName' && label == label' && traits == traits' &&
      identical content content'
  | _, _ => false

/-- Structural equality of lists of values. -/
def identicalItems : List Value → List Value → Bool
  | [], [] => true
  | first :: rest, first' :: rest' => identical first first' && identicalItems rest rest'
  | _, _ => false

/-- Structural equality of the entries of mappings. -/
def identicalEntries : List (Value × Value) → List (Value × Value) → Bool
  | [], [] => true
  | (key, value) :: rest, (key', value') :: rest' =>
    identical key key' && identical value value' && identicalEntries rest rest'
  | _, _ => false

end

mutual

theorem identical_iff (first second : Value) : identical first second = true ↔ first = second := by
  cases first <;> cases second <;>
    simp [identical, identicalItems_iff, identicalEntries_iff, identical_iff, and_assoc]

theorem identicalItems_iff (first second : List Value) :
    identicalItems first second = true ↔ first = second := by
  cases first <;> cases second <;> simp [identicalItems, identicalItems_iff, identical_iff]

theorem identicalEntries_iff (first second : List (Value × Value)) :
    identicalEntries first second = true ↔ first = second := by
  match first, second with
  | [], [] => simp [identicalEntries]
  | [], _ :: _ => simp [identicalEntries]
  | _ :: _, [] => simp [identicalEntries]
  | (key, value) :: rest, (key', value') :: rest' =>
    simp [identicalEntries, identicalEntries_iff, identical_iff]

end

instance : DecidableEq Value := fun first second =>
  decidable_of_iff _ (identical_iff first second)

/-! ### Kinds -/

/-- The name of the kind a value belongs to; the kind of a member is its enumeration. -/
def kind : Value → String
  | .none => "NoneType"
  | .boolean _ => "bool"
  | .integer _ => "int"
  | .binary _ => "float"
  | .text _ => "str"
  | .sequence _ => "list"
  | .tuple _ => "tuple"
  | .mapping _ => "dict"
  | .member _ ownerName _ _ _ => ownerName

/-! ### Obstacles -/

mutual

/-- What keeps a value from being a member of a set.  Lists and mappings cannot be, nor can a tuple
that holds one. -/
def unhashable? : Value → Option Obstacle
  | .sequence _ => some (.unhashable "list")
  | .mapping _ => some (.unhashable "dict")
  | .tuple items => unhashableItem? items
  | .member _ _ _ traits _ => traits.unhashable
  | _ => Option.none

/-- What keeps the first item that cannot be a member of a set from being one. -/
def unhashableItem? : List Value → Option Obstacle
  | [] => Option.none
  | item :: rest => (unhashable? item).or (unhashableItem? rest)

end

/-- What keeps a whole number from being written. -/
def tooLong? (number : Int) : Option Obstacle :=
  if Number.digitLimit < Binary64.digitCount number.natAbs then some .tooManyDigits else Option.none

mutual

/-- What keeps a value from being written, which takes writing all of its parts. -/
def unwritable? : Value → Option Obstacle
  | .integer number => tooLong? number
  | .sequence items | .tuple items => unwritableItem? items
  | .mapping entries => unwritablePair? entries
  | .member _ _ _ traits content => traits.unwritable.or (unwritable? content)
  | _ => Option.none

/-- What keeps the first item that cannot be written from it. -/
def unwritableItem? : List Value → Option Obstacle
  | [] => Option.none
  | item :: rest => (unwritable? item).or (unwritableItem? rest)

/-- What keeps the first entry that cannot be written from it. -/
def unwritablePair? : List (Value × Value) → Option Obstacle
  | [] => Option.none
  | (key, value) :: rest =>
    ((unwritable? key).or (unwritable? value)).or (unwritablePair? rest)

end

/-! ### Views -/

/-- Whether a value counts as something.  Nothing, false, the zeros and whatever is empty do
not. -/
def isTruthy : Value → Bool
  | .none => false
  | .boolean truth => truth
  | .integer number => number != 0
  | .binary number => !number.isZero
  | .text content => !content.isEmpty
  | .sequence items => !items.isEmpty
  | .tuple items => !items.isEmpty
  | .mapping entries => !entries.isEmpty
  | .member _ _ _ ⟨true, _, _⟩ (.integer number) => number != 0
  | .member .. => true

/-- The values met when a value is walked through: items, code points or keys. -/
def items? : Value → Option (List Value)
  | .sequence items => some items
  | .tuple items => some items
  | .text content => some (content.points.map fun point => .text ⟨[point]⟩)
  | .mapping entries => some (entries.map Prod.fst)
  | _ => Option.none

/-- The whole number that a value is, a truth value not being one. -/
def wholeNumber? : Value → Option Int
  | .integer number => some number
  | .member _ _ _ ⟨true, _, _⟩ (.integer number) => some number
  | _ => Option.none

/-- The whole number that a value gives as a position, a truth value counting as zero or one. -/
def position? : Value → Option Int
  | .boolean truth => some (if truth then 1 else 0)
  | value => value.wholeNumber?

end Value

end HorizonPlanner
