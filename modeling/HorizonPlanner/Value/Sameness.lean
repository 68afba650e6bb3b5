/-
This file says when two values are the same.  Whole numbers, truth values,
numbers of double precision and members that count as numbers are compared as
numbers, exactly; lists and tuples item by item; mappings without regard to the
order of their entries.  Every value is sent to one representative, and two
values are the same when their representatives are equal, so sameness is an
equivalence by construction.
-/

import HorizonPlanner.Value.Code

namespace HorizonPlanner.Value

/-! ### Representatives -/

/-- The representative of a number of double precision: the whole number it is equal to, if any. -/
def binaryRepresentative (number : Binary64) : Value :=
  match number.wholeNumber? with
  | some whole => .integer whole
  | Option.none => .binary number

mutual

/-- The representative of a value. -/
def representative : Value → Value
  | .boolean truth => .integer (if truth then 1 else 0)
  | .binary number => binaryRepresentative number
  | .sequence items => .sequence (representatives items)
  | .tuple items => .tuple (representatives items)
  | .mapping entries => .mapping
      ((entryRepresentatives entries).mergeSort fun first second =>
        first.1.code ≤ second.1.code)
  | .member _ _ _ ⟨true, _, _⟩ (.integer number) => .integer number
  | value => value

/-- The representatives of the items of a list. -/
def representatives : List Value → List Value
  | [] => []
  | item :: rest => representative item :: representatives rest

/-- The representatives of the entries of a mapping. -/
def entryRepresentatives : List (Value × Value) → List (Value × Value)
  | [] => []
  | (key, value) :: rest =>
    (representative key, representative value) :: entryRepresentatives rest

end

/-! ### Sameness -/

/-- Whether two values are the same member of a set.  An undefined number is the same as itself,
which is to say as one with its identity, and as no other. -/
def same (first second : Value) : Bool := first.representative == second.representative

/-- Whether a value is an undefined number. -/
def isUndefined : Value → Bool
  | .binary (.undefined _) => true
  | _ => false

/-- Whether two values compare equal.  This is sameness, except that an undefined number compares
equal to nothing; inside a list or a tuple it is still the same as itself. -/
def equal (first second : Value) : Bool := first.same second && !first.isUndefined

theorem same_self (value : Value) : value.same value = true := by simp [same]

theorem same_symm {first second : Value} (agree : first.same second = true) :
    second.same first = true := by
  simp only [same, beq_iff_eq] at agree ⊢
  exact agree.symm

theorem same_trans {first second third : Value} (agree : first.same second = true)
    (agree' : second.same third = true) : first.same third = true := by
  simp only [same, beq_iff_eq] at agree agree' ⊢
  exact agree.trans agree'

/-! ### Mappings -/

/-- The value a mapping has for a key. -/
def lookup? (key : Value) (entries : List (Value × Value)) : Option Value :=
  (entries.find? fun entry => entry.1.same key).map Prod.snd

/-- The entries with one more.  A key that is already there keeps its place and its spelling and
takes the new value. -/
def insertEntry (entries : List (Value × Value)) (key value : Value) : List (Value × Value) :=
  if entries.any fun entry => entry.1.same key then
    entries.map fun entry => if entry.1.same key then (entry.1, value) else entry
  else entries ++ [(key, value)]

/-- The mapping that a list of entries makes, entered one after another. -/
def mappingOf (entries : List (Value × Value)) : Value :=
  .mapping (entries.foldl (fun entered entry => insertEntry entered entry.1 entry.2) [])

end HorizonPlanner.Value
