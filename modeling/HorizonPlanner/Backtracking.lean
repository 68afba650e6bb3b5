/-
This file solves constraints by chronological backtracking.  Variables are
bound in the order of their declaration and values tried in the order of their
domains, so the first solution found is the one whose positions come first in
lexicographic order.  After each binding the constraints that mention the
variable are evaluated against the bindings so far; a false one rejects it.

The search is a recursion over the variables that are still to be bound.  It
counts the values it tries, and under a time limit it reads the clock before
each of them and once more when a variable has none left.
-/

import HorizonPlanner.Constraint.Evaluation
import HorizonPlanner.Clock
import HorizonPlanner.Status

namespace HorizonPlanner.Backtracking

variable {α : Type}

/-! ### Models -/

/-- A set of variables and constraints.  For each slot, `watchers` lists the constraints that
mention it, each once, in the order in which they were posted. -/
structure Model (α : Type) where
  declared : Array (Variable α)
  constraints : Array (Constraint α)
  watchers : Array (Array Nat)

namespace Model

/-- The model without variables and constraints. -/
def empty : Model α := ⟨#[], #[], #[]⟩

/-- A model with one more variable. -/
def declare (model : Model α) (entry : Variable α) : Model α :=
  { model with declared := model.declared.push entry, watchers := model.watchers.push #[] }

/-- A model with one more constraint. -/
def post (model : Model α) (constraint : Constraint α) : Model α :=
  let position := model.constraints.size
  { model with
    constraints := model.constraints.push constraint
    watchers := constraint.slots.eraseDups.foldl
      (fun watchers slot => watchers.modify slot (·.push position)) model.watchers }

/-- The constraints that mention a slot. -/
def watched (model : Model α) (slot : Nat) : List (Constraint α) :=
  ((model.watchers.getD slot #[]).filterMap (model.constraints[·]?)).toList

end Model

/-! ### The clock and the count -/

/-- A clock and the time a search has to be over. -/
structure Timer where
  clock : Clock
  deadline : Binary64

/-- How many values have been tried, and how many readings of the clock have been taken. -/
structure Progress where
  nodes : Nat
  readings : Nat
  deriving DecidableEq, Repr

/-- Reads the clock of a timer, if there is one, and says whether the deadline has passed. -/
def Progress.check (progress : Progress) : Option Timer → Bool × Progress
  | none => (false, progress)
  | some timer =>
    (timer.deadline < timer.clock.reading progress.readings,
      { progress with readings := progress.readings + 1 })

/-- Counts one more value as tried. -/
def Progress.count (progress : Progress) : Progress := { progress with nodes := progress.nodes + 1 }

/-! ### The search -/

/-- How the search below a partial assignment ends. -/
inductive Ending (α : Type) where
  | exhausted
  | found (assignment : PartialAssignment α)
  | expired

/-- The end of a search, or the fault that stopped it, and how far it went. -/
abbrev Run (α : Type) := Except Fault (Ending α) × Progress

/-- Tries values one after another until a visit to one of them ends otherwise than exhausted. -/
def tryValues (timer : Option Timer) (visit : α → Progress → Run α) : List α → Progress → Run α
  | [], progress =>
    let (late, progress) := progress.check timer
    (.ok (if late then .expired else .exhausted), progress)
  | value :: rest, progress =>
    let (late, progress) := progress.check timer
    if late then (.ok .expired, progress)
    else match visit value progress.count with
      | (.ok .exhausted, progress) => tryValues timer visit rest progress
      | stopped => stopped

variable [Symbol α]

/-- Whether no constraint of a list is false under a partial assignment. -/
def noneFalse (assignment : PartialAssignment α) : List (Constraint α) → Except Fault Bool
  | [] => .ok true
  | constraint :: rest => do
    let verdict ← constraint.evaluate assignment
    if verdict == some false then .ok false else noneFalse assignment rest

/-- Binds the variables from a slot on, given an assignment that binds those before it. -/
def descend (model : Model α) (timer : Option Timer) :
    List (Variable α) → Nat → PartialAssignment α → Progress → Run α
  | [], _, assignment, progress => (.ok (.found assignment), progress)
  | entry :: rest, slot, assignment, progress =>
    tryValues timer (fun value progress =>
      let assignment := assignment.setIfInBounds slot (Symbol.binding value)
      match noneFalse assignment (model.watched slot) with
      | .error fault => (.error fault, progress)
      | .ok false => (.ok .exhausted, progress)
      | .ok true => descend model timer rest (slot + 1) assignment progress) entry.values progress

/-! ### Solving -/

/-- The assignment that binds no slot. -/
def Model.unbound (model : Model α) : PartialAssignment α :=
  Array.replicate model.declared.size none

/-- The answer of a search that satisfied nothing. -/
def Model.zeros (model : Model α) (status : Status) : Answer α :=
  ⟨status, List.replicate model.declared.size Symbol.zero⟩

/-- The constraints that mention no slot; they are decided before the search begins. -/
def Model.closed (model : Model α) : List (Constraint α) :=
  model.constraints.toList.filter (·.slots.isEmpty)

/-- The answer that the end of a search amounts to. -/
def Model.answer (model : Model α) : Ending α → Answer α
  | .exhausted => model.zeros .unsatisfiable
  | .expired => model.zeros .timeout
  | .found assignment => ⟨.satisfiable, assignment.toList.map (·.getD Symbol.blank)⟩

/-- Searches for the first solution of a model, which may be timed. -/
def Model.search (model : Model α) (timer : Option Timer) (progress : Progress) :
    Except Fault (Answer α) × Progress :=
  match noneFalse model.unbound model.closed with
  | .error fault => (.error fault, progress)
  | .ok false => (.ok (model.zeros .unsatisfiable), progress)
  | .ok true =>
    let (ending, progress) := descend model timer model.declared.toList 0 model.unbound progress
    (ending.map model.answer, progress)

/-- Solves a model.  Under a time limit the clock is read first for the deadline, and nothing is
tried if there can be none; `readings` is the number of readings taken before. -/
def Model.solve (model : Model α) (clock : Clock) (limit : TimeLimit) (readings : Nat) :
    Except Fault (Answer α) × Progress :=
  match limit.deadline? (clock.reading readings) with
  | .error fault => (.error fault, ⟨0, readings + 1⟩)
  | .ok none => model.search none ⟨0, readings⟩
  | .ok (some deadline) => model.search (some ⟨clock, deadline⟩) ⟨0, readings + 1⟩

end HorizonPlanner.Backtracking
