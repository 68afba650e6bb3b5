/-
This file declares enumerations.  A label whose content is the same as an
earlier one's is another name for the earlier member.
-/

import HorizonPlanner.Value.Sameness
import HorizonPlanner.Value.Conversion
import HorizonPlanner.Value.LabelTable

namespace HorizonPlanner

/-- An enumeration.  The key tells it from others of the same name, and `bindings` gives every
label, those that repeat an earlier member included, the member it stands for. -/
structure Enumeration where
  key : Nat
  name : String
  bindings : List (String × Value)
  deriving Inhabited

namespace Enumeration

/-! ### Declaration -/

/-- The content behind the label of a member. -/
def contentOf : Value → Value
  | .member _ _ _ _ content => content
  | value => value

/-- The content that a member has for the stated one: the members of an enumeration that counts as
numbers hold whole numbers. -/
def convert (integral : Bool) (stated : Value) : Except Fault Value :=
  if integral then stated.toWhole.map .integer else .ok stated

/-- Makes the content of a member out of the stated one, which takes some operations. -/
def makeContent (table : LabelTable) (integral : Bool) (stated : Value) : Except Fault Value := do
  if table.content? "__new__" != some .none then table.checkOperation "__new__"
  let content ← convert integral stated
  table.checkOperation "__getattribute__"
  table.checkOperation "__getattr__"
  if integral && (table.content? "__setattr__").isSome then .error .contentNotSet
  else
    table.checkOperation "__setattr__"
    table.checkOperation "__init__"
    .ok content

/-- Bindings with one more label. -/
def bind (key : Nat) (name : String) (traits : Traits) (bindings : List (String × Value))
    (label : String) (content : Value) : List (String × Value) :=
  let member := match bindings.find? fun binding => (contentOf binding.2).same content with
    | some binding => binding.2
    | none => .member key name label traits content
  bindings ++ [(label, member)]

/-- Whether a label is the one that its member carries. -/
def isOwnLabel : String × Value → Bool
  | (label, .member _ _ ownLabel _ _) => label == ownLabel
  | _ => false

/-- The enumeration with given labels and contents, entered one after another. -/
def declare (key : Nat) (name : String) (integral : Bool) (labels : List (String × Value)) :
    Except Fault Enumeration := do
  let table ← LabelTable.ofLabels name labels
  table.checkSlots integral
  if name.contains '\x00' then .error .nullInName
  else
    table.checkWhole
    let bindings ← table.members.foldlM (fun bindings (label, stated) => do
      let content ← makeContent table integral stated
      .ok (bind key name (table.traits name integral) bindings label content)) []
    let (own, others) := bindings.partition isOwnLabel
    table.checkOrder (own.map Prod.fst) (others.map Prod.fst)
    .ok ⟨key, name, bindings⟩

/-! ### Members -/

/-- The member a label stands for. -/
def member? (enumeration : Enumeration) (label : String) : Option Value :=
  (enumeration.bindings.find? (·.1 == label)).map Prod.snd

/-- The members in the order of their declaration, each once. -/
def members (enumeration : Enumeration) : List Value :=
  (enumeration.bindings.filter isOwnLabel).map Prod.snd

/-- Whether a value is a member of the enumeration with a key. -/
def owns (key : Nat) : Value → Bool
  | .member owner _ _ _ _ => owner == key
  | _ => false

end Enumeration

end HorizonPlanner
