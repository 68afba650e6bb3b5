/-
This file models the passing of time as an engine sees it: a clock is read again
and again, and each reading is at least as late as the one before.  A search
with a time limit reads the clock once for its deadline and compares later
readings with it.  Readings and deadlines have double precision: the seconds of
a limit are turned into such a number, and added to a reading they are rounded.
-/

import HorizonPlanner.Number.Order
import HorizonPlanner.Value.Sum

namespace HorizonPlanner

/-! ### Clocks -/

/-- The readings of a clock, in the order in which they are taken.  They never go back.  From some
reading on they are infinite, so that every wait comes to an end, also one for an infinite deadline;
how many finite readings there are before is left open. -/
structure Clock where
  reading : Nat → Binary64
  monotone : ∀ count, reading count ≤ reading (count + 1)
  started : .infinite true < reading 0
  ended : ∃ lifetime, ∀ count, lifetime ≤ count → reading count = .infinite false

namespace Clock

/-- The clock with given readings for a lifetime and infinite ones after it. -/
def lasting (lifetime : Nat) (reading : Nat → Binary64)
    (monotone : ∀ count, reading count ≤ reading (count + 1))
    (started : .infinite true < reading 0) : Clock where
  reading count := if count < lifetime then reading count else .infinite false
  monotone count := by
    by_cases later : count + 1 < lifetime
    · rw [if_pos (Nat.lt_of_succ_lt later), if_pos later]
      exact monotone count
    · rw [if_neg later]
      split
      next => exact Binary64.le_infinite_of_le (monotone count)
      next => rfl
  started := by
    split
    next => exact started
    next => rfl
  ended := ⟨lifetime, fun _ after => if_neg (Nat.not_lt.mpr after)⟩

/-- A whole number of seconds as a reading.  It is a number of the format as long as it is below the
full precision. -/
def wholeReading (seconds : Nat) : Binary64 := .finite false seconds 0

theorem wholeReading_le {seconds seconds' : Nat} (order : seconds ≤ seconds') :
    wholeReading seconds ≤ wholeReading seconds' := by
  refine Binary64.le_iff.mpr ⟨_, _, rfl, rfl, decide_eq_false (Rat.not_lt.mpr ?_)⟩
  exact Rat.intCast_le_intCast.mpr (Int.ofNat_le.mpr order)

/-- The clock that counts its own readings from zero, as far as double precision goes. -/
def counting : Clock :=
  lasting (Binary64.powerOfTwo Binary64.precision) wholeReading
    (fun count => wholeReading_le (Nat.le_succ count)) rfl

/-- The clock that takes a second for a number of readings, one more than the pace. -/
def paced (pace : Nat) : Clock :=
  lasting (Binary64.powerOfTwo Binary64.precision) (fun count => wholeReading (count / (pace + 1)))
    (fun count => wholeReading_le (Nat.div_le_div_right (Nat.le_succ count)))
    (by rw [Nat.zero_div]; rfl)

end Clock

/-! ### Time limits -/

/-- The seconds a search may take. -/
inductive TimeLimit where
  | whole (seconds : Int)
  | binary (seconds : Binary64)
  deriving DecidableEq, Repr

namespace TimeLimit

/-- No limit. -/
def unlimited : TimeLimit := .whole 0

/-- The time limit that a value states, which has to be a number. -/
def ofValue : Value → Except Fault TimeLimit
  | .binary seconds => .ok (.binary seconds)
  | value => match value.position? with
    | some seconds => .ok (.whole seconds)
    | none => .error (.notOrdered value.kind)

/-- Where the seconds of a limit are on the number line, unless they are undefined. -/
def extent? : TimeLimit → Option Extent
  | .whole seconds => some (.rational seconds)
  | .binary seconds => seconds.extent?

/-- Whether a limit states a positive number of seconds, which only then limits a search. -/
def isPositive (limit : TimeLimit) : Bool :=
  match limit.extent? with
  | some extent => .rational 0 < extent
  | none => false

/-- The seconds of a limit with double precision, for which they must not be too many. -/
def inBinary : TimeLimit → Except Fault Binary64
  | .whole seconds => Value.binaryOfWhole seconds
  | .binary seconds => .ok seconds

/-- The deadline of a search that starts at a time, if the search is limited. -/
def deadline? (limit : TimeLimit) (start : Binary64) : Except Fault (Option Binary64) :=
  if limit.isPositive then limit.inBinary.map fun seconds => some (start.add seconds)
  else .ok none

end TimeLimit

end HorizonPlanner
