/-
This file describes a search as one loop.  The loop stands at a variable, given
the positions chosen for the variables before it, and turns to the next position
in the domain: it tries the value there and goes down to the next variable or
stays at this one, or it has none left and retreats to the variable before.

The search itself is a recursion along the variables that are left.  That it runs
this loop is proved where its course is followed.
-/

import Mathlib.Data.List.Basic
import HorizonPlanner.Backtracking

namespace HorizonPlanner.Backtracking

/-! ### Rounds -/

/-- Where the loop stands.  The variable it is at is the first one without a chosen position, and
it may still be bound to the value that was tried last. -/
structure Cursor where
  assignment : PartialAssignment Int
  chosen : List Nat
  position : Nat

/-- What one round of the loop does: it tries positions for the variables up to the current one, or
it retreats from that variable. -/
inductive Round where
  | tries (positions : List Nat)
  | retreats
  deriving DecidableEq, Repr

/-- The positions that a round tries. -/
def Round.tried? : Round → Option (List Nat)
  | tries positions => some positions
  | retreats => none

/-- The positions that some rounds try, in order. -/
def triedIn (rounds : List Round) : List (List Nat) := rounds.filterMap Round.tried?

@[simp] theorem triedIn_nil : triedIn [] = [] := rfl

@[simp] theorem triedIn_cons_tries (positions : List Nat) (rounds : List Round) :
    triedIn (.tries positions :: rounds) = positions :: triedIn rounds := rfl

@[simp] theorem triedIn_cons_retreats (rounds : List Round) :
    triedIn (.retreats :: rounds) = triedIn rounds := rfl

@[simp] theorem triedIn_append (rounds more : List Round) :
    triedIn (rounds ++ more) = triedIn rounds ++ triedIn more := List.filterMap_append

/-! ### The loop -/

/-- What the loop turns to: one more round after which it goes on, or its last rounds. -/
inductive Turn where
  | onward (round : Round) (next : Cursor)
  | ends (rounds : List Round) (outcome : Except Fault (Ending Int))

namespace Model

variable {model : Model Int}

/-- One turn of the loop.  It is over when no variable is left, when a constraint cannot be
evaluated, and when the first variable has no positions left. -/
def turn (model : Model Int) (cursor : Cursor) : Turn :=
  match model.declared[cursor.chosen.length]? with
  | none => .ends [] (.ok (.found cursor.assignment))
  | some entry => match entry.values[cursor.position]? with
    | some value =>
      let assignment := cursor.assignment.setIfInBounds cursor.chosen.length (some value)
      let tried := cursor.chosen ++ [cursor.position]
      match noneFalse assignment (model.watched cursor.chosen.length) with
      | .error fault => .ends [.tries tried] (.error fault)
      | .ok true => .onward (.tries tried) ⟨assignment, tried, 0⟩
      | .ok false => .onward (.tries tried) ⟨assignment, cursor.chosen, cursor.position + 1⟩
    | none =>
      let assignment := cursor.assignment.setIfInBounds cursor.chosen.length none
      match cursor.chosen.getLast? with
      | none => .ends [.retreats] (.ok .exhausted)
      | some last => .onward .retreats ⟨assignment, cursor.chosen.dropLast, last + 1⟩

/-- The loop runs from a cursor to its end in some rounds. -/
inductive Loops (model : Model Int) :
    Cursor → List Round → Except Fault (Ending Int) → Prop
  | ends {cursor : Cursor} {rounds : List Round} {outcome : Except Fault (Ending Int)}
      (turned : model.turn cursor = .ends rounds outcome) : Loops model cursor rounds outcome
  | onward {cursor next : Cursor} {round : Round} {rounds : List Round}
      {outcome : Except Fault (Ending Int)} (turned : model.turn cursor = .onward round next)
      (later : Loops model next rounds outcome) : Loops model cursor (round :: rounds) outcome

/-- Where the loop starts. -/
def start (model : Model Int) : Cursor := ⟨model.unbound, [], 0⟩

/-- The loop runs in one way. -/
theorem Loops.unique {cursor : Cursor} {rounds rounds' : List Round}
    {outcome outcome' : Except Fault (Ending Int)} (first : model.Loops cursor rounds outcome)
    (second : model.Loops cursor rounds' outcome') : rounds' = rounds ∧ outcome' = outcome := by
  induction first generalizing rounds' with
  | ends turned =>
    cases second with
    | ends turned' =>
      rw [turned] at turned'
      cases turned'
      exact ⟨rfl, rfl⟩
    | onward turned' later =>
      rw [turned] at turned'
      cases turned'
  | onward turned later inductionHypothesis =>
    cases second with
    | ends turned' =>
      rw [turned] at turned'
      cases turned'
    | onward turned' later' =>
      rw [turned] at turned'
      cases turned'
      obtain ⟨rfl, rfl⟩ := inductionHypothesis later'
      exact ⟨rfl, rfl⟩

/-! ### The ways to turn -/

section

variable {assignment : PartialAssignment Int} {chosen : List Nat} {position : Nat}
  {entry : Variable Int} {value : Int}

theorem turn_complete (full : model.declared[chosen.length]? = none) :
    model.turn ⟨assignment, chosen, position⟩ = .ends [] (.ok (.found assignment)) := by
  simp only [turn, full]

theorem turn_error (declared : model.declared[chosen.length]? = some entry)
    (found : entry.values[position]? = some value) {fault : Fault}
    (looked : noneFalse (assignment.setIfInBounds chosen.length (some value))
      (model.watched chosen.length) = .error fault) :
    model.turn ⟨assignment, chosen, position⟩ =
      .ends [.tries (chosen ++ [position])] (.error fault) := by
  simp only [turn, declared, found, looked]

theorem turn_descend (declared : model.declared[chosen.length]? = some entry)
    (found : entry.values[position]? = some value)
    (looked : noneFalse (assignment.setIfInBounds chosen.length (some value))
      (model.watched chosen.length) = .ok true) :
    model.turn ⟨assignment, chosen, position⟩ = .onward (.tries (chosen ++ [position]))
      ⟨assignment.setIfInBounds chosen.length (some value), chosen ++ [position], 0⟩ := by
  simp only [turn, declared, found, looked]

theorem turn_reject (declared : model.declared[chosen.length]? = some entry)
    (found : entry.values[position]? = some value)
    (looked : noneFalse (assignment.setIfInBounds chosen.length (some value))
      (model.watched chosen.length) = .ok false) :
    model.turn ⟨assignment, chosen, position⟩ = .onward (.tries (chosen ++ [position]))
      ⟨assignment.setIfInBounds chosen.length (some value), chosen, position + 1⟩ := by
  simp only [turn, declared, found, looked]

theorem turn_exhausted (declared : model.declared[0]? = some entry)
    (missing : entry.values[position]? = none) :
    model.turn ⟨assignment, [], position⟩ = .ends [.retreats] (.ok .exhausted) := by
  simp only [turn, List.length_nil, declared, missing, List.getLast?_nil]

theorem turn_retreat {last : Nat}
    (declared : model.declared[(chosen ++ [last]).length]? = some entry)
    (missing : entry.values[position]? = none) :
    model.turn ⟨assignment, chosen ++ [last], position⟩ = .onward .retreats
      ⟨assignment.setIfInBounds (chosen ++ [last]).length none, chosen, last + 1⟩ := by
  simp only [turn, declared, missing, List.getLast?_concat, List.dropLast_concat]

end

/-! ### Retreating -/

/-- How the loop goes on once no position is left for a variable: with the next position for the
variable before it, if there is one. -/
def Resumes (model : Model Int) (assignment : PartialAssignment Int) (chosen : List Nat)
    (rounds : List Round) (outcome : Except Fault (Ending Int)) : Prop :=
  match chosen.getLast? with
  | none => rounds = [] ∧ outcome = .ok .exhausted
  | some last => model.Loops ⟨assignment, chosen.dropLast, last + 1⟩ rounds outcome

theorem resumes_concat_iff {assignment : PartialAssignment Int} {chosen : List Nat} {last : Nat}
    {rounds : List Round} {outcome : Except Fault (Ending Int)} :
    model.Resumes assignment (chosen ++ [last]) rounds outcome ↔
      model.Loops ⟨assignment, chosen, last + 1⟩ rounds outcome := by
  simp only [Resumes, List.getLast?_concat, List.dropLast_concat]

/-- One round is spent on noticing that no position is left. -/
theorem Resumes.loops {assignment : PartialAssignment Int} {chosen : List Nat} {position : Nat}
    {entry : Variable Int} {rounds : List Round} {outcome : Except Fault (Ending Int)}
    (resumes : model.Resumes (assignment.setIfInBounds chosen.length none) chosen rounds outcome)
    (declared : model.declared[chosen.length]? = some entry)
    (missing : entry.values[position]? = none) :
    model.Loops ⟨assignment, chosen, position⟩ (.retreats :: rounds) outcome := by
  rcases List.eq_nil_or_concat' chosen with rfl | ⟨earlier, last, rfl⟩
  · obtain ⟨rfl, rfl⟩ := resumes
    exact .ends (turn_exhausted declared missing)
  · exact .onward (turn_retreat declared missing) (resumes_concat_iff.mp resumes)

end Model

end HorizonPlanner.Backtracking
