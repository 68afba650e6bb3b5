/-
This file solves compiled models through a backend for propositional formulas.
A backend is described by what it answers: opening a session may fail, each
request to solve may decide, give up or fail, and a model can be asked for.  The
requests made are recorded, so that the order in which a backend is used can be
stated and checked.

Under a time limit a backend that cannot be interrupted works in slices of a
fixed number of conflicts, and the clock is read after each slice that decides
nothing.
-/

import HorizonPlanner.Cnf.Model
import HorizonPlanner.Clock
import HorizonPlanner.Status

namespace HorizonPlanner.Cnf

/-! ### Backends -/

/-- An open session with a backend.  `answer` gives the answers to the requests to solve, counted
from zero: decided, or nothing if the backend gave up.  `model` lists the literals of a model.  A
text in the place of an answer is the reason of a failure. -/
structure Session where
  answer : Nat → Except String (Option Bool)
  model : Except String (Option (List Int))

/-- A backend opens a session on a formula, or says why it cannot. -/
abbrev Backend := Formula → Except String Session

/-- A request to a backend. -/
inductive Call where
  | solve
  | limitedSolve
  | budget (conflicts : Nat)
  | model
  | delete
  deriving DecidableEq, Repr

/-- The text of a request. -/
def Call.text : Call → String
  | .solve => "solve"
  | .limitedSolve => "solve_limited"
  | .budget conflicts => s!"conf_budget {conflicts}"
  | .model => "get_model"
  | .delete => "delete"

/-! ### Slices -/

/-- The number of conflicts after which a slice ends. -/
def conflictBudget : Nat := 2000

/-- What came of asking a session to decide: its answer, the requests made, and the number of
readings of the clock taken so far. -/
structure Inquiry where
  answer : Except String (Option Bool)
  calls : List Call
  readings : Nat

/-- The requests of one slice. -/
def sliceCalls : List Call := [.budget conflictBudget, .limitedSolve]

/-- Asks for slice after slice until one decides or fails, or the clock is not before the deadline
any more after one that did neither. -/
def inquireInSlices (session : Session) (clock : Clock) (deadline : Binary64)
    (slice readings : Nat) : Inquiry :=
  match session.answer slice with
  | .error reason => ⟨.error reason, sliceCalls, readings⟩
  | .ok (some decided) => ⟨.ok (some decided), sliceCalls, readings⟩
  | .ok none =>
    if clock.reading readings < deadline then
      let later := inquireInSlices session clock deadline (slice + 1) (readings + 1)
      { later with calls := sliceCalls ++ later.calls }
    else ⟨.ok none, sliceCalls, readings + 1⟩
termination_by Classical.choose clock.ended - readings
decreasing_by
  have ahead : readings < Classical.choose clock.ended := by
    apply Nat.lt_of_not_le
    intro behind
    have early : clock.reading readings < deadline := by assumption
    rw [Classical.choose_spec clock.ended readings behind] at early
    exact Binary64.not_infinite_lt deadline early
  omega

/-- Asks a session to decide.  Without a time limit it is asked once, and one that can be
interrupted is asked once in any case.  Otherwise it takes a deadline to ask it, and there may be
none for the limit. -/
def inquire (session : Session) (interruptible : Bool) (clock : Clock) (limit : TimeLimit)
    (readings : Nat) : Inquiry :=
  match limit.deadline? (clock.reading readings), interruptible with
  | .ok none, _ => ⟨session.answer 0, [.solve], readings⟩
  | _, true => ⟨session.answer 0, [.limitedSolve], readings⟩
  | .error fault, false => ⟨.error fault.message, [], readings + 1⟩
  | .ok (some deadline), false => inquireInSlices session clock deadline 0 (readings + 1)

/-! ### Solving -/

variable {α : Type} [Symbol α]

/-- What came of solving a model: the answer or the fault, the requests made to the backend, and
the number of readings of the clock taken so far. -/
structure Report (α : Type) where
  outcome : Except Fault (Answer α)
  calls : List Call
  readings : Nat

/-- The answer of a search that satisfied nothing. -/
def Model.zeros (model : Model α) (status : Status) : Answer α :=
  ⟨status, List.replicate model.declared.size Symbol.zero⟩

/-- The answer that a list of literals amounts to; only the positive ones count. -/
def Model.answerOf (model : Model α) (literals : List Int) : Answer α :=
  ⟨.satisfiable, model.valuesIn fun atom => 0 < atom && literals.contains (atom : Int)⟩

/-- The answer of a session that was asked to decide, and the requests that it takes to find it. -/
def Model.conclude (model : Model α) (session : Session) :
    Except String (Option Bool) → Except String (Answer α) × List Call
  | .error reason => (.error reason, [])
  | .ok (some true) =>
    (session.model.map fun literals => model.answerOf (literals.getD []), [.model])
  | .ok (some false) => (.ok (model.zeros .unsatisfiable), [])
  | .ok none => (.ok (model.zeros .timeout), [])

/-- What comes of a session that was opened: an unfit time limit is found out before anything is
asked.  The session is closed last, whatever happened in between. -/
def Model.consult (model : Model α) (session : Session) (interruptible : Bool) (clock : Clock)
    (limit : Except Fault TimeLimit) (readings : Nat) :
    Except String (Answer α) × List Call × Nat :=
  match limit with
  | .error fault => (.error fault.message, [.delete], readings)
  | .ok limit =>
    let inquiry := inquire session interruptible clock limit readings
    let (answer, calls) := model.conclude session inquiry.answer
    (answer, inquiry.calls ++ calls ++ [.delete], inquiry.readings)

/-- Solves a model through a backend.  A contradiction needs no backend, and a failure of the
backend is reported under the name of the engine. -/
def Model.solve (model : Model α) (engine : String) (backend : Backend) (interruptible : Bool)
    (clock : Clock) (limit : Except Fault TimeLimit) (readings : Nat) : Report α :=
  if model.contradiction then ⟨.ok (model.zeros .unsatisfiable), [], readings⟩
  else match backend model.formula with
    | .error reason => ⟨.error (.backendFailed engine reason), [], readings⟩
    | .ok session =>
      let (answer, calls, readings) := model.consult session interruptible clock limit readings
      ⟨answer.mapError (.backendFailed engine), calls, readings⟩

end HorizonPlanner.Cnf
