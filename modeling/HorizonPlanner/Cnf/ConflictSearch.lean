/-
This file decides propositional formulas by conflict-driven search.  Decisions
are propagated through clauses that have one literal left; a conflict is traced
back to a clause that excludes it, which is learnt, and the search goes back to
the latest decision at which that clause has one literal left.

Literals are coded as numbers: twice the propositional variable, and one more if
it is negated.
-/

import HorizonPlanner.Cnf.Backend

namespace HorizonPlanner.Cnf.ConflictSearch

/-! ### Coded literals -/

/-- The code of a literal. -/
def codeOf (literal : Literal) : Nat := 2 * literal.atom + (if literal.positive then 0 else 1)

/-- The number of the literal with a code. -/
def numberOf (code : Nat) : Int := (⟨code / 2, code % 2 == 0⟩ : Literal).number

/-- The code of the opposite literal. -/
def opposite (code : Nat) : Nat := if code % 2 == 0 then code + 1 else code - 1

/-! ### States -/

/-- The state of a search.  A clause watches the literals at its first two places, and `watchers`
lists the clauses that watch a literal.  The trail holds the true literals in the order in which
they became true; `levels` marks how long it was before each decision, and the literals from
`pending` on have not been propagated yet. -/
structure State where
  clauses : Array (Array Nat)
  watchers : Array (Array Nat)
  values : Array (Option Bool)
  depths : Array Nat
  reasons : Array (Option Nat)
  urgency : Array Nat
  trail : Array Nat
  levels : Array Nat
  pending : Nat
  conflicts : Nat

namespace State

/-- The state without clauses, over a number of propositional variables. -/
def initial (atoms : Nat) : State where
  clauses := #[]
  watchers := Array.replicate (2 * atoms + 2) #[]
  values := Array.replicate (atoms + 1) none
  depths := Array.replicate (atoms + 1) 0
  reasons := Array.replicate (atoms + 1) none
  urgency := Array.replicate (atoms + 1) 0
  trail := #[]
  levels := #[]
  pending := 0
  conflicts := 0

/-- The value of a coded literal. -/
def valueOf (state : State) (code : Nat) : Option Bool :=
  (state.values.getD (code / 2) none).map (· == (code % 2 == 0))

/-- Makes a literal true, on account of a clause or by decision. -/
def assign (state : State) (code : Nat) (reason : Option Nat) : State :=
  let depth := state.levels.size
  { state with
    values := state.values.setIfInBounds (code / 2) (some (code % 2 == 0))
    depths := state.depths.setIfInBounds (code / 2) depth
    reasons := state.reasons.setIfInBounds (code / 2) reason
    trail := state.trail.push code }

/-- Adds a clause with at least two literals and watches the first two. -/
def attach (state : State) (clause : Array Nat) : State :=
  let position := state.clauses.size
  { state with
    clauses := state.clauses.push clause
    watchers := (state.watchers.modify (clause.getD 0 0) (·.push position)).modify
      (clause.getD 1 0) (·.push position) }

/-! ### Propagation -/

/-- The place, from a given one on, of a literal of a clause that is not false. -/
def openPlace? (state : State) (clause : Array Nat) (start : Nat) : Option Nat :=
  (List.range' start (clause.size - start)).find? fun place =>
    state.valueOf (clause.getD place 0) != some false

/-- Visits a clause that watches a literal that became false: another literal is watched in its
place, or the other watched literal is made true, or there is a conflict.  Says whether the clause
still watches the false literal, and whether there is a conflict. -/
def visit (state : State) (position falseCode : Nat) : State × Bool × Bool :=
  let clause := state.clauses.getD position #[]
  let clause := if clause.getD 0 0 == falseCode then clause.swapIfInBounds 0 1 else clause
  let first := clause.getD 0 0
  if state.valueOf first == some true then
    ({ state with clauses := state.clauses.setIfInBounds position clause }, true, false)
  else match state.openPlace? clause 2 with
    | some place =>
      let clause := clause.swapIfInBounds 1 place
      ({ state with
          clauses := state.clauses.setIfInBounds position clause
          watchers := state.watchers.modify (clause.getD 1 0) (·.push position) }, false, false)
    | none =>
      let state := { state with clauses := state.clauses.setIfInBounds position clause }
      match state.valueOf first with
      | some _ => (state, true, true)
      | none => (state.assign first (some position), true, false)

/-- Visits the clauses that watch a literal that became false, up to the first conflict.  Gives the
clauses that go on watching it, and the clause in conflict. -/
def visitAll (falseCode : Nat) (state : State) (kept : Array Nat) :
    List Nat → State × Array Nat × Option Nat
  | [] => (state, kept, none)
  | position :: rest =>
    let (state, keeps, conflict) := state.visit position falseCode
    let kept := if keeps then kept.push position else kept
    if conflict then (state, kept ++ rest, some position)
    else visitAll falseCode state kept rest

/-- Propagates pending literals, at most a given number of them, up to the first conflict. -/
def propagate (state : State) : Nat → State × Option Nat
  | 0 => (state, none)
  | rounds + 1 =>
    if state.trail.size ≤ state.pending then (state, none)
    else
      let falseCode := opposite (state.trail.getD state.pending 0)
      let visited := (state.watchers.getD falseCode #[]).toList
      let state := { state with
        pending := state.pending + 1
        watchers := state.watchers.setIfInBounds falseCode #[] }
      let (state, kept, conflict) := visitAll falseCode state #[] visited
      let state := { state with
        watchers := state.watchers.modify falseCode (kept ++ ·) }
      match conflict with
      | some position => (state, some position)
      | none => state.propagate rounds

/-! ### Learning from conflicts -/

/-- The work of tracing a conflict back: the propositional variables met so far, how many of them
belong to the current level and are still to be explained, and the literals of earlier levels. -/
structure Trace where
  met : Array Bool
  unexplained : Nat
  learnt : Array Nat

/-- Meets the literals of a clause, all of which are false but for the one it made true. -/
def meetClause (state : State) (trace : Trace) (clause : Array Nat) (except : Option Nat) : Trace :=
  clause.foldl (fun trace code =>
    let atom := code / 2
    let depth := state.depths.getD atom 0
    if some code == except || trace.met.getD atom true || depth == 0 then trace
    else
      let trace := { trace with met := trace.met.setIfInBounds atom true }
      if depth == state.levels.size then { trace with unexplained := trace.unexplained + 1 }
      else { trace with learnt := trace.learnt.push code }) trace

/-- Goes back along the trail, explaining the literals of the current level that were met, until
one is left.  Gives that literal and the literals of earlier levels. -/
def explain (state : State) (trace : Trace) : List Nat → Nat × Trace
  | [] => (0, trace)
  | code :: earlier =>
    if !trace.met.getD (code / 2) false then explain state trace earlier
    else if trace.unexplained ≤ 1 then (code, trace)
    else
      let clause := match state.reasons.getD (code / 2) none with
        | some position => state.clauses.getD position #[]
        | none => #[]
      let trace := { trace with unexplained := trace.unexplained - 1 }
      explain state (state.meetClause trace clause (some code)) earlier

/-- The clause learnt from a conflict.  Its first literal is the one that the conflict turns on, its
second the latest of the others; and the level of that one is the level to go back to. -/
def learn (state : State) (position : Nat) : Array Nat × Nat × Trace :=
  let fresh : Trace := ⟨Array.replicate state.values.size false, 0, #[]⟩
  let trace := state.meetClause fresh (state.clauses.getD position #[]) none
  let (pivot, trace) := state.explain trace state.trail.toList.reverse
  let depthOf := fun code => state.depths.getD (code / 2) 0
  let level := trace.learnt.foldl (fun level code => max level (depthOf code)) 0
  let latest := (trace.learnt.findIdx? fun code => depthOf code == level).getD 0
  (#[opposite pivot] ++ trace.learnt.swapIfInBounds 0 latest, level, trace)

/-- Takes back every decision above a level. -/
def backtrack (state : State) (level : Nat) : State :=
  match state.levels[level]? with
  | none => state
  | some length =>
    { state with
      values := (state.trail.toList.drop length).foldl
        (fun values code => values.setIfInBounds (code / 2) none) state.values
      trail := state.trail.take length
      levels := state.levels.take level
      pending := length }

/-- Makes the propositional variables met in a conflict the first to be decided next. -/
def prefer (state : State) (trace : Trace) : State :=
  { state with
    conflicts := state.conflicts + 1
    urgency := (List.range trace.met.size).foldl (fun urgency atom =>
      if trace.met.getD atom false then urgency.setIfInBounds atom (state.conflicts + 1)
      else urgency) state.urgency }

/-- Learns from a conflict and goes back. -/
def resolve (state : State) (position : Nat) : State :=
  let (clause, level, trace) := state.learn position
  let state := (state.prefer trace).backtrack level
  let pivot := clause.getD 0 0
  if clause.size ≤ 1 then state.assign pivot none
  else (state.attach clause).assign pivot (some state.clauses.size)

/-! ### Decisions -/

/-- The open propositional variable that was met in the latest conflict, the first one of
several. -/
def nextAtom? (state : State) : Option Nat :=
  (List.range state.values.size).foldl (fun chosen atom =>
    if atom == 0 || (state.values.getD atom none).isSome then chosen
    else match chosen with
      | none => some atom
      | some other =>
        if state.urgency.getD other 0 < state.urgency.getD atom 0 then some atom else chosen) none

/-- Decides that a propositional variable is true. -/
def decide (state : State) (atom : Nat) : State :=
  { state with levels := state.levels.push state.trail.size }.assign (2 * atom) none

/-! ### The search -/

/-- Enters a clause.  One with a single literal makes it true at once; the answer is nothing if it
was false. -/
def enter (state : State) (clause : Clause) : Option State :=
  match (clause.map codeOf).eraseDups with
  | [] => none
  | [code] => match state.valueOf code with
    | some true => some state
    | some false => none
    | none => some (state.assign code none)
  | codes => some (state.attach codes.toArray)

/-- Propagates, learns and decides by turns, at most a given number of times.  The answer is the
trail of a model, or that there is none, or nothing. -/
def run (state : State) : Nat → Option (Option (Array Nat))
  | 0 => none
  | rounds + 1 =>
    match state.propagate (state.values.size + 1) with
    | (state, some position) =>
      if state.levels.isEmpty then some none else run (state.resolve position) rounds
    | (state, none) =>
      match state.nextAtom? with
      | none => some (some state.trail)
      | some atom => run (state.decide atom) rounds

end State

/-- The number of conflicts and decisions after which a search gives up. -/
def effort : Nat := Nat.pow 2 40

/-- The answer of a search: the literals that are true in a model, or that there is no model, or
nothing if the search gave up. -/
def search (formula : Formula) : Option (Option (List Int)) :=
  match formula.clauses.foldlM State.enter (State.initial formula.atoms) with
  | none => some none
  | some state => (state.run effort).map fun model => model.map fun trail =>
    trail.toList.map numberOf

/-- The backend that decides by conflict-driven search. -/
def backend : Backend := fun formula =>
  let result := search formula
  .ok
    { answer := fun _ => .ok (result.map Option.isSome)
      model := .ok (result.getD none) }

end HorizonPlanner.Cnf.ConflictSearch
