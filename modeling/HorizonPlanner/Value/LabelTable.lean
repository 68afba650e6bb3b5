/-
This file reads the labels of an enumeration's declaration.  Most labels name
members.  A label that stands between underscores settles something about the
enumeration instead: the order of its members, the labels that are to be
ignored, or an operation on its members.  Contents are plain data, so an
operation that is settled by a label cannot be carried out any more.
-/

import HorizonPlanner.Fault
import HorizonPlanner.Text.Character

namespace HorizonPlanner

/-- The labels of a declaration as they were entered one after another: the content of each, the
labels that name members, and those that are to be ignored. -/
structure LabelTable where
  contents : List (String × Value)
  named : List String
  ignored : List String
  deriving Inhabited

namespace LabelTable

/-! ### Kinds of labels -/

/-- Whether a text starts with a number of underscores and no more. -/
def startsWithUnderscores (count : Nat) (text : List Char) : Bool :=
  (text.takeWhile (· == '_')).length == count

/-- Whether a text stands between a number of underscores on either side. -/
def isFramed (count : Nat) (text : List Char) : Bool :=
  2 * count < text.length && startsWithUnderscores count text &&
    startsWithUnderscores count text.reverse

/-- Whether a label is kept for enumerations themselves: it stands between single underscores. -/
def isReserved (label : String) : Bool := isFramed 1 label.toList

/-- Whether a label settles an operation: it stands between double underscores. -/
def isOperation (label : String) : Bool := isFramed 2 label.toList

/-- Whether a label belongs to the enumeration with a name and to no other: an underscore, the name
and two underscores come before it, and it does not end in two. -/
def isPrivate (name label : String) : Bool :=
  let front := '_' :: name.toList ++ ['_', '_']
  front.isPrefixOf label.toList && front.length < label.length &&
    !(['_', '_'].isPrefixOf label.toList.reverse)

/-- The label that states the order of the members. -/
def orderLabel : String := "_order_"

/-- The label that lists the labels to be ignored. -/
def ignoreLabel : String := "_ignore_"

/-- The reserved labels that a declaration may have. -/
def settledLabels : List String :=
  [orderLabel, ignoreLabel, "_generate_next_value_", "_numeric_repr_", "_missing_",
    "_iter_member_", "_iter_member_by_value_", "_iter_member_by_def_"]

/-- The labels that no enumeration can have. -/
def impossibleLabels : List String := ["", "mro"]

/-! ### Reading labels -/

/-- The words of a text, which commas and blanks set apart. -/
def wordsOf (content : String) : List String :=
  (content.splitToList fun character => character == ',' || Text.isBlank character).filter
    (· != "")

/-- Labels as values. -/
def valuesOf (labels : List String) : List Value := labels.map fun (label : String) => .text label

/-- The items of a list of labels, which may also be stated as the words of a text. -/
def listedLabels : Value → Except Fault (List Value)
  | .text content => .ok (valuesOf (wordsOf content.shown))
  | stated => match stated.items? with
    | some items => .ok items
    | none => .error (.notIterable stated.kind)

/-- The texts among some values. -/
def textsAmong (values : List Value) : List String :=
  values.filterMap fun value => match value with
    | .text content => some content.shown
    | _ => none

/-- Enters the content of a label.  A label that is there already takes the new one. -/
def put (table : LabelTable) (label : String) (content : Value) : LabelTable :=
  if table.contents.any (·.1 == label) then
    { table with
      contents := table.contents.map fun entry =>
        if entry.1 == label then (label, content) else entry }
  else { table with contents := table.contents ++ [(label, content)] }

/-- Takes a list of labels to be ignored from now on, none of which may name a member already. -/
def ignore (table : LabelTable) (stated : Value) : Except Fault LabelTable := do
  let items ← listedLabels stated
  match Value.unhashableItem? items with
  | some obstacle => .error (.obstructed obstacle)
  | none =>
    let ignored := textsAmong items
    match table.named.filter (ignored.contains ·) with
    | [] => .ok { table.put ignoreLabel stated with ignored }
    | late => .error (.ignoredTooLate late)

/-- Enters a label that names a member, unless it is to be ignored. -/
def enterMember (table : LabelTable) (label : String) (content : Value) :
    Except Fault LabelTable :=
  let isIgnored := table.ignored.contains label && !table.named.contains label
  match table.contents.lookup label, isIgnored with
  | some known, false => .error (.repeatedLabel label known)
  | _, true => .ok (table.put label content)
  | none, false => .ok { table.put label content with named := table.named ++ [label] }

/-- Enters a label of the enumeration with a name. -/
def enter (name : String) (table : LabelTable) (label : String) (content : Value) :
    Except Fault LabelTable :=
  if isPrivate name label then .ok (table.put label content)
  else if isReserved label then
    if label == ignoreLabel then table.ignore content
    else if settledLabels.contains label then .ok (table.put label content)
    else .error (.reservedLabel label)
  else if isOperation label then
    .ok (table.put (if label == "__order__" then orderLabel else label) content)
  else table.enterMember label content

/-- The table of all labels of a declaration.  The first label that is refused is reported, then
those that are impossible. -/
def ofLabels (name : String) (labels : List (String × Value)) : Except Fault LabelTable := do
  let table ← labels.foldlM (fun table (label, content) => table.enter name label content)
    ⟨[], [], []⟩
  match impossibleLabels.filter (table.named.contains ·) with
  | [] => .ok table
  | impossible => .error (.invalidLabels impossible)

/-! ### Looking at a table -/

/-- The contents of the labels that are not ignored. -/
def kept (table : LabelTable) : List (String × Value) :=
  table.contents.filter fun entry => !table.ignored.contains entry.1

/-- The content of a label that is not ignored. -/
def content? (table : LabelTable) (label : String) : Option Value := table.kept.lookup label

/-- The labels that name members, with their contents as they are stated. -/
def members (table : LabelTable) : List (String × Value) :=
  table.named.filterMap fun label => (table.content? label).map fun content => (label, content)

/-! ### Operations -/

/-- An operation can be carried out if no label settles it. -/
def checkOperation (table : LabelTable) (label : String) : Except Fault Unit :=
  match table.content? label with
  | some content => .error (.obstructed (.notCallable content.kind))
  | none => .ok ()

/-- What keeps the members of the enumeration with a name from being members of a set.  A new way
of comparing them does, too. -/
def hashObstacle? (table : LabelTable) (name : String) : Option Obstacle :=
  match table.content? "__hash__" with
  | some .none => some (.unhashable name)
  | some content => some (.notCallable content.kind)
  | none => (table.content? "__eq__").map fun _ => .unhashable name

/-- What keeps the members from being written. -/
def writeObstacle? (table : LabelTable) : Option Obstacle :=
  match table.content? "__repr__", table.content? "__class__" with
  | some content, _ => some (.notCallable content.kind)
  | none, some content => some (.noWriter content.kind)
  | none, none => none

/-- What the members of the enumeration with a name have in common. -/
def traits (table : LabelTable) (name : String) (integral : Bool) : Traits :=
  ⟨integral, table.writeObstacle?, table.hashObstacle? name⟩

/-! ### Slots -/

/-- Whether a text can name a slot: letters, digits and underscores, of which a digit is not the
first.  A character outside the first block counts as a letter. -/
def isIdentifier (content : String) : Bool :=
  let isPart (character : Char) :=
    character.isAlphanum || character == '_' || 0x80 ≤ character.toNat
  match content.toList with
  | [] => false
  | first :: rest => isPart first && !first.isDigit && rest.all isPart

/-- The labels that every enumeration has without being told. -/
def givenLabels : List String :=
  ["__module__", "_generate_next_value_", "_new_member_", "_use_args_", "_member_names_",
    "_member_map_", "_value2member_map_", "_unhashable_values_", "_member_type_", "_value_repr_",
    "_boundary_", "_flag_mask_", "_singles_mask_", "_all_bits_", "_inverted_"]

/-- The name of a slot that is asked for. -/
def slotName : Value → Except Fault String
  | .text content =>
    if !isIdentifier content.shown then .error .slotNotIdentifier
    else if content.shown == "__dict__" then .error (.slotThere .attributes)
    else if content.shown == "__weakref__" then .error (.slotThere .references)
    else .ok content.shown
  | stated => .error (.slotNotText stated.kind)

/-- Checks the slots that are asked for.  Members that count as whole numbers can have none, and a
slot cannot share its name with a label. -/
def checkSlots (table : LabelTable) (integral : Bool) : Except Fault Unit :=
  match table.content? "__slots__" with
  | none => .ok ()
  | some stated => do
    let slots ← match stated with
      | .text _ => .ok [stated]
      | _ => listedLabels stated
    if integral && !slots.isEmpty then .error .slotsUnsupported
    else
      let names ← slots.mapM slotName
      let taken := givenLabels ++ (table.kept.map Prod.fst).filter (· != orderLabel)
      match names.find? (taken.contains ·) with
      | some label => .error (.slotTaken label)
      | none => .ok ()

/-! ### Checks before and after the members are made -/

/-- Checks what the labels say about the enumeration as a whole: its long name has to be a text,
and there is no scope to state. -/
def checkWhole (table : LabelTable) : Except Fault Unit :=
  match table.content? "__qualname__", table.content? "__classcell__" with
  | some (.text _), none | none, none => .ok ()
  | some (.text _), some content | none, some content => .error (.scopeNotCell content.kind)
  | some content, _ => .error (.longNameNotText content.kind)

/-- Checks the stated order of the members, given their labels and the labels that are other names
of members, which do not count. -/
def checkOrder (table : LabelTable) (labels aliases : List String) : Except Fault Unit :=
  match table.content? orderLabel with
  | none => .ok ()
  | some stated => do
    let items ← if stated.isTruthy then listedLabels stated else .ok []
    match Value.unhashableItem? items with
    | some obstacle => .error (.obstructed obstacle)
    | none =>
      let counted := items.filter fun item => !(valuesOf aliases).contains item
      if items.isEmpty || counted == valuesOf labels then .ok ()
      else .error (.memberOrder labels counted)

end LabelTable

end HorizonPlanner
