/-
This file writes values.  The rendered form shows how a value is built, with
texts between quotation marks; the displayed form of a text is the text itself.
Both are given for every value; whether a value can be written at all is said by
its obstacles.
-/

import HorizonPlanner.Value
import HorizonPlanner.Number.Shortest
import HorizonPlanner.Text.Quoted

namespace HorizonPlanner.Value

open Text

mutual

/-- The rendered form of a value. -/
def render : Value → String
  | .none => "None"
  | .boolean truth => if truth then "True" else "False"
  | .integer number => toString number
  | .binary number => number.render
  | .text content => content.quoted
  | .sequence items => "[" ++ ", ".intercalate (renderItems items) ++ "]"
  | .tuple items => match renderItems items with
    | [item] => "(" ++ item ++ ",)"
    | items => "(" ++ ", ".intercalate items ++ ")"
  | .mapping entries => "\x7b" ++ ", ".intercalate (renderEntries entries) ++ "\x7d"
  | .member _ ownerName label _ content =>
    "<" ++ ownerName ++ "." ++ label ++ ": " ++ render content ++ ">"

/-- The rendered forms of the items of a list. -/
def renderItems : List Value → List String
  | [] => []
  | item :: rest => render item :: renderItems rest

/-- The rendered forms of the entries of a mapping. -/
def renderEntries : List (Value × Value) → List String
  | [] => []
  | (key, value) :: rest => (render key ++ ": " ++ render value) :: renderEntries rest

end

/-- The rendered form of a list of values. -/
def renderList (items : List Value) : String := render (.sequence items)

/-- The displayed form of a value: a text without its quotation marks, a member with its
enumeration, and a member that counts as a whole number as that number. -/
def display : Value → String
  | .text content => content.shown
  | .member _ _ _ ⟨true, _, _⟩ content => render content
  | .member _ ownerName label ⟨false, _, _⟩ _ => ownerName ++ "." ++ label
  | value => render value

/-- What keeps the displayed form of a value from being written. -/
def undisplayable? : Value → Option Obstacle
  | .text _ => Option.none
  | .member _ _ _ ⟨true, _, _⟩ content => content.unwritable?
  | .member .. => Option.none
  | value => value.unwritable?

/-- The label of a value in a fact: the label of a member, and the displayed form of all else. -/
def factLabel : Value → String
  | .member _ _ label _ _ => label
  | value => value.display

end HorizonPlanner.Value
