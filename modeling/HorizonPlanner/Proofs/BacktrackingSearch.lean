/-
This file proves that backtracking finds the first solution.  A search that is
not limited in time always decides: it finds the solution whose positions in the
domains come first in lexicographic order, or there is none.

The invariant of the search is that no constraint is false under the values
bound so far.  A step that binds one more variable looks only at the constraints
that mention it, which is enough, since no other verdict changes; and it gives a
value up only when a constraint is false, which no completion can mend.
-/

import HorizonPlanner.Proofs.Evaluation
import HorizonPlanner.Proofs.Watching

namespace HorizonPlanner

/-- A time limit that limits nothing, whenever the search starts. -/
def TimeLimit.Absent (limit : TimeLimit) : Prop := ∀ start, limit.deadline? start = .ok none

theorem TimeLimit.unlimited_absent : TimeLimit.unlimited.Absent := fun _ => rfl

namespace Backtracking

/-! ### Assignments that bind the first variables -/

/-- The partial assignment over a number of slots that binds the first ones to given values. -/
def bindFirst (count : Nat) (bound : List Int) : PartialAssignment Int :=
  (bound.map some ++ List.replicate (count - bound.length) none).toArray

section

variable {count : Nat} {bound : List Int}

theorem size_bindFirst (fits : bound.length ≤ count) : (bindFirst count bound).size = count := by
  simp only [bindFirst, List.size_toArray, List.length_append, List.length_map,
    List.length_replicate]
  omega

theorem bindFirst_getElem? {slot : Nat} (inside : slot < bound.length) :
    (bindFirst count bound)[slot]? = some (some (Network.slotValue bound slot)) := by
  rw [bindFirst, List.getElem?_toArray, List.getElem?_append_left (by simpa using inside),
    List.getElem?_map, List.getElem?_eq_getElem inside, Network.slotValue,
    List.getD_eq_getElem _ _ inside]
  rfl

theorem bindFirst_getElem?_open {slot : Nat} (outside : bound.length ≤ slot)
    {value : Option Int} (found : (bindFirst count bound)[slot]? = some value) : value = none := by
  rw [bindFirst, List.getElem?_toArray, List.getElem?_append_right (by simpa using outside),
    List.getElem?_replicate] at found
  split at found
  · exact (Option.some.inj found).symm
  · cases found

theorem bindFirst_push (room : bound.length < count) (value : Int) :
    (bindFirst count bound).setIfInBounds bound.length (some value) =
      bindFirst count (bound ++ [value]) := by
  obtain ⟨free, remaining⟩ : ∃ free, count - bound.length = free + 1 :=
    ⟨count - bound.length - 1, by omega⟩
  have fewer : count - (bound ++ [value]).length = free := by
    rw [List.length_append, List.length_singleton]
    omega
  rw [bindFirst, bindFirst, remaining, fewer, List.setIfInBounds_toArray, List.replicate_succ,
    List.set_append_right _ _ (by simp)]
  simp

end

/-! ### The invariant of the search -/

/-- No constraint is false under values for the first variables. -/
def Unrefuted (network : Network Int) (bound : List Int) : Prop :=
  ∀ constraint ∈ network.constraints,
    constraint.evaluate (bindFirst network.declared.length bound) ≠ .ok (some false)

section

variable {network : Network Int} {bound : List Int}

/-- Values under which some constraint is false cannot be completed to a solution. -/
theorem unrefuted_of_satisfied (wellFormed : network.WellFormed) {others : List Int}
    (fits : bound.length ≤ network.declared.length)
    (satisfied : network.Satisfied (bound ++ others)) : Unrefuted network bound := by
  intro constraint member refuted
  have false' : constraint.holds (Network.slotValue (bound ++ others)) = false := by
    refine Constraint.holds_of_refuted ?_ (fun slot value found => ?_) refuted
    · rw [size_bindFirst fits]
      exact wellFormed constraint member
    · by_cases inside : slot < bound.length
      · rw [bindFirst_getElem? inside] at found
        rw [← Option.some.inj (Option.some.inj found), Network.slotValue, Network.slotValue,
          List.getD_append _ _ _ _ inside]
      · cases bindFirst_getElem?_open (Nat.le_of_not_lt inside) found
  rw [satisfied constraint member] at false'
  cases false'

/-- Values for all variables under which no constraint is false are a solution. -/
theorem satisfied_of_unrefuted (wellFormed : network.WellFormed)
    (full : bound.length = network.declared.length) (unrefuted : Unrefuted network bound) :
    network.Satisfied bound := by
  intro constraint member
  have fits := wellFormed constraint member
  have verdict : constraint.evaluate (bindFirst network.declared.length bound) =
      .ok (some (constraint.holds (Network.slotValue bound))) :=
    Constraint.evaluate_bound constraint fits.supported fun slot mentioned =>
      bindFirst_getElem? (full ▸ fits.bounded slot mentioned)
  cases truth : constraint.holds (Network.slotValue bound) with
  | true => rfl
  | false => exact absurd (truth ▸ verdict) (unrefuted constraint member)

theorem unrefuted_nil (wellFormed : network.WellFormed) : Unrefuted network [] := by
  intro constraint member refuted
  have fits : constraint.Fits (bindFirst network.declared.length []).size := by
    rw [size_bindFirst (Nat.zero_le _)]
    exact wellFormed constraint member
  obtain ⟨verdict, evaluated, undecided⟩ := Constraint.evaluate_unbound constraint fits
    fun slot value found => bindFirst_getElem?_open (Nat.zero_le _) found
  rw [refuted] at evaluated
  exact undecided (Except.ok.inj evaluated).symm

/-- Binding one more variable changes the verdicts on the constraints that mention it only. -/
theorem unrefuted_push_iff (room : bound.length < network.declared.length)
    (unrefuted : Unrefuted network bound) (value : Int) :
    Unrefuted network (bound ++ [value]) ↔
      ∀ constraint ∈ network.constraints.filter (·.slots.contains bound.length),
        constraint.evaluate (bindFirst network.declared.length (bound ++ [value])) ≠
          .ok (some false) := by
  constructor
  · exact fun holding constraint member => holding constraint (List.mem_filter.mp member).1
  · intro holding constraint member
    by_cases mentioned : bound.length ∈ constraint.slots
    · exact holding constraint (List.mem_filter.mpr ⟨member, List.contains_iff_mem.mpr mentioned⟩)
    · have same : constraint.evaluate (bindFirst network.declared.length (bound ++ [value])) =
          constraint.evaluate (bindFirst network.declared.length bound) := by
        rw [← bindFirst_push room]
        refine Constraint.evaluate_congr constraint fun slot mentions => ?_
        have other : bound.length ≠ slot := fun same => mentioned (same ▸ mentions)
        rw [Array.getElem?_setIfInBounds_ne other]
      rw [same]
      exact unrefuted constraint member

end

/-! ### One step of the search -/

/-- Supported constraints are looked through to the first that is false. -/
theorem noneFalse_fits {assignment : PartialAssignment Int} {constraints : List (Constraint Int)}
    (fits : ∀ constraint ∈ constraints, constraint.Fits assignment.size) :
    ∃ consistent, noneFalse assignment constraints = .ok consistent ∧
      (consistent = true ↔
        ∀ constraint ∈ constraints, constraint.evaluate assignment ≠ .ok (some false)) := by
  induction constraints with
  | nil => exact ⟨true, rfl, by simp⟩
  | cons constraint rest inductionHypothesis =>
    obtain ⟨verdict, evaluated⟩ := Constraint.evaluate_fits (fits constraint List.mem_cons_self)
    obtain ⟨consistent, looked, meaning⟩ :=
      inductionHypothesis fun other member => fits other (List.mem_cons_of_mem _ member)
    rw [noneFalse, evaluated, ok_bind, List.forall_mem_cons, evaluated, ← meaning]
    by_cases refuted : verdict = some false
    · subst refuted
      exact ⟨false, rfl, by simp⟩
    · exact ⟨consistent, by simpa [refuted] using looked, by simp [refuted]⟩

/-- The constraints that mention the next variable decide whether one more value refutes any. -/
theorem noneFalse_watched {model : Model Int} {network : Network Int} (holds : model.Holds network)
    (wellFormed : network.WellFormed) {bound : List Int}
    (room : bound.length < network.declared.length) (unrefuted : Unrefuted network bound)
    (value : Int) :
    ∃ consistent, noneFalse (bindFirst network.declared.length (bound ++ [value]))
        (model.watched bound.length) = .ok consistent ∧
      (consistent = true ↔ Unrefuted network (bound ++ [value])) := by
  have pushed : (bound ++ [value]).length ≤ network.declared.length := by
    rw [List.length_append, List.length_singleton]
    omega
  obtain ⟨consistent, looked, meaning⟩ := noneFalse_fits
    fun constraint (member : constraint ∈
      network.constraints.filter (·.slots.contains bound.length)) => by
        rw [size_bindFirst pushed]
        exact wellFormed constraint (List.mem_filter.mp member).1
  rw [← unrefuted_push_iff room unrefuted value] at meaning
  rw [Model.watched_eq holds room]
  exact ⟨consistent, looked, meaning⟩

theorem tryValues_next {visits : Int → Progress → Run Int} {value : Int} {progress later : Progress}
    (came : visits value progress.count = (.ok .exhausted, later)) (rest : List Int) :
    tryValues none visits (value :: rest) progress = tryValues none visits rest later := by
  simp [tryValues, Progress.check, came]

theorem tryValues_stop {visits : Int → Progress → Run Int} {value : Int} {progress later : Progress}
    {ending : Ending Int} (came : visits value progress.count = (.ok ending, later))
    (stopped : ending ≠ .exhausted) (rest : List Int) :
    tryValues none visits (value :: rest) progress = (.ok ending, later) := by
  cases ending with
  | exhausted => exact absurd rfl stopped
  | found assignment => simp [tryValues, Progress.check, came]
  | expired => simp [tryValues, Progress.check, came]

/-- Values that are tried without a time limit are visited up to the first visit that does not end
exhausted. -/
theorem tryValues_first {visits : Int → Progress → Run Int} {Visited : Int → Ending Int → Prop}
    (visited : ∀ value progress, ∃ ending later,
      visits value progress = (.ok ending, later) ∧ Visited value ending)
    (values : List Int) (progress : Progress) :
    ∃ ending later, tryValues none visits values progress = (.ok ending, later) ∧
      ((ending = .exhausted ∧ ∀ value ∈ values, Visited value .exhausted) ∨
        ∃ (position : Nat) (value : Int), values[position]? = some value ∧
          Visited value ending ∧ ending ≠ .exhausted ∧
          ∀ earlier < position, ∀ other : Int, values[earlier]? = some other →
            Visited other .exhausted) := by
  induction values generalizing progress with
  | nil => exact ⟨.exhausted, progress, rfl, Or.inl ⟨rfl, by simp⟩⟩
  | cons value rest inductionHypothesis =>
    obtain ⟨ending, later, came, outcome⟩ := visited value progress.count
    by_cases through : ending = .exhausted
    · subst through
      obtain ⟨last, latest, tried, cases'⟩ := inductionHypothesis later
      refine ⟨last, latest, ?_, ?_⟩
      · rw [tryValues_next came]
        exact tried
      · rcases cases' with ⟨exhausted, all⟩ | ⟨position, found, at', outcome', stopped, before⟩
        · exact Or.inl ⟨exhausted, List.forall_mem_cons.mpr ⟨outcome, all⟩⟩
        · refine Or.inr ⟨position + 1, found, at', outcome', stopped, fun earlier order other => ?_⟩
          cases earlier with
          | zero =>
            intro same
            rw [← Option.some.inj same]
            exact outcome
          | succ earlier => exact before earlier (Nat.lt_of_succ_lt_succ order) other
    · exact ⟨ending, later, tryValues_stop came through rest,
        Or.inr ⟨0, value, rfl, outcome, through, by simp⟩⟩

/-! ### The search below a partial assignment -/

/-- Positions for the remaining variables complete values for the first ones to a solution. -/
structure Completes (network : Network Int) (bound : List Int) (rest : List (Variable Int))
    (positions : List Nat) : Prop where
  placed : Network.Placed rest positions
  satisfied : network.Satisfied (bound ++ Network.valuesAt rest positions)

/-- What the end of a search says about the ways to complete the values bound so far. -/
def EndsWith (network : Network Int) (bound : List Int) (rest : List (Variable Int)) :
    Ending Int → Prop
  | .exhausted => ∀ positions, ¬ Completes network bound rest positions
  | .found assignment => ∃ positions, Completes network bound rest positions ∧
      (∀ other, Completes network bound rest other → ¬ List.Lex (· < ·) other positions) ∧
      assignment = bindFirst network.declared.length (bound ++ Network.valuesAt rest positions)
  | .expired => False

theorem completes_cons_iff {network : Network Int} {bound : List Int} {entry : Variable Int}
    {rest : List (Variable Int)} {positions : List Nat} :
    Completes network bound (entry :: rest) positions ↔
      ∃ position others value, positions = position :: others ∧
        entry.values[position]? = some value ∧
          Completes network (bound ++ [value]) rest others := by
  constructor
  · rintro ⟨placed, satisfied⟩
    cases placed with
    | @cons _ position _ others inside placed =>
      refine ⟨position, others, entry.values[position], rfl, List.getElem?_eq_getElem inside,
        placed, ?_⟩
      rwa [Network.valuesAt, List.zipWith_cons_cons, List.getD_eq_getElem _ _ inside,
        List.append_cons] at satisfied
  · rintro ⟨position, others, value, rfl, found, placed, satisfied⟩
    obtain ⟨inside, rfl⟩ := List.getElem?_eq_some_iff.mp found
    refine ⟨.cons inside placed, ?_⟩
    rwa [Network.valuesAt, List.zipWith_cons_cons, List.getD_eq_getElem _ _ inside,
      List.append_cons]

/-- Trying the values of a variable one after another, and searching below each of them, decides
the search below them all. -/
theorem endsWith_cons {network : Network Int} {bound : List Int} {entry : Variable Int}
    {rest : List (Variable Int)} {ending : Ending Int}
    (tried : (ending = .exhausted ∧
        ∀ value ∈ entry.values, EndsWith network (bound ++ [value]) rest .exhausted) ∨
      ∃ (position : Nat) (value : Int), entry.values[position]? = some value ∧
        EndsWith network (bound ++ [value]) rest ending ∧ ending ≠ .exhausted ∧
        ∀ earlier < position, ∀ other : Int, entry.values[earlier]? = some other →
          EndsWith network (bound ++ [other]) rest .exhausted) :
    EndsWith network bound (entry :: rest) ending := by
  rcases tried with ⟨rfl, all⟩ | ⟨position, value, at', below, stopped, before⟩
  · intro positions completes
    obtain ⟨_, others, value, _, found, completes⟩ := completes_cons_iff.mp completes
    exact all value (List.mem_of_getElem? found) others completes
  · cases ending with
    | exhausted => exact absurd rfl stopped
    | expired => exact below.elim
    | found assignment =>
      obtain ⟨positions, completes, least, rfl⟩ := below
      refine ⟨position :: positions,
        completes_cons_iff.mpr ⟨_, _, value, rfl, at', completes⟩, fun other completes' => ?_, ?_⟩
      · obtain ⟨first, others, value', rfl, at'', completes'⟩ := completes_cons_iff.mp completes'
        rw [List.cons_lex_cons_iff]
        rintro (smaller | ⟨rfl, smaller⟩)
        · exact before first smaller value' at'' others completes'
        · rw [at', Option.some.injEq] at at''
          subst at''
          exact least others completes' smaller
      · obtain ⟨inside, rfl⟩ := List.getElem?_eq_some_iff.mp at'
        rw [List.append_assoc, Network.valuesAt, Network.valuesAt, List.zipWith_cons_cons,
          List.getD_eq_getElem _ _ inside, List.singleton_append]

/-- The search below a value that was tried: it is given up at once if a constraint that mentions
its variable is false. -/
def visit (model : Model Int) (timer : Option Timer) (rest : List (Variable Int)) (slot : Nat)
    (assignment : PartialAssignment Int) (value : Int) (progress : Progress) : Run Int :=
  let assignment := assignment.setIfInBounds slot (some value)
  match noneFalse assignment (model.watched slot) with
  | .error fault => (.error fault, progress)
  | .ok false => (.ok .exhausted, progress)
  | .ok true => descend model timer rest (slot + 1) assignment progress

theorem descend_cons (model : Model Int) (timer : Option Timer) (entry : Variable Int)
    (rest : List (Variable Int)) (slot : Nat) (assignment : PartialAssignment Int)
    (progress : Progress) :
    descend model timer (entry :: rest) slot assignment progress =
      tryValues timer (visit model timer rest slot assignment) entry.values progress := rfl

theorem visit_endsWith {model : Model Int} {network : Network Int} (holds : model.Holds network)
    (wellFormed : network.WellFormed) {rest : List (Variable Int)} {bound : List Int}
    (room : bound.length < network.declared.length) (unrefuted : Unrefuted network bound)
    (value : Int) (progress : Progress)
    (below : Unrefuted network (bound ++ [value]) → ∃ ending later,
      descend model none rest (bound ++ [value]).length
        (bindFirst network.declared.length (bound ++ [value])) progress = (.ok ending, later) ∧
          EndsWith network (bound ++ [value]) rest ending) :
    ∃ ending later,
      visit model none rest bound.length (bindFirst network.declared.length bound) value progress =
        (.ok ending, later) ∧ EndsWith network (bound ++ [value]) rest ending := by
  have pushed : (bound ++ [value]).length ≤ network.declared.length := by
    rw [List.length_append, List.length_singleton]
    omega
  obtain ⟨consistent, looked, meaning⟩ := noneFalse_watched holds wellFormed room unrefuted value
  simp only [visit, bindFirst_push room, looked]
  cases consistent with
  | false =>
    refine ⟨.exhausted, progress, rfl, fun positions completes => Bool.false_ne_true ?_⟩
    exact meaning.mpr (unrefuted_of_satisfied wellFormed pushed completes.satisfied)
  | true =>
    rw [List.length_append, List.length_singleton] at below
    exact below (meaning.mp rfl)

/-- The search below values that refute nothing decides how they can be completed. -/
theorem descend_endsWith {model : Model Int} {network : Network Int} (holds : model.Holds network)
    (wellFormed : network.WellFormed) (rest : List (Variable Int)) (bound : List Int)
    (count : bound.length + rest.length = network.declared.length)
    (unrefuted : Unrefuted network bound) (progress : Progress) :
    ∃ ending later,
      descend model none rest bound.length (bindFirst network.declared.length bound) progress =
        (.ok ending, later) ∧ EndsWith network bound rest ending := by
  -- A variable that is left becomes bound, and `visit` carries over that nothing is refuted.
  induction rest generalizing bound progress with
  | nil =>
    refine ⟨_, progress, rfl, [], ⟨.nil, ?_⟩, fun other _ => List.not_lex_nil, ?_⟩
    · rw [Network.valuesAt, List.zipWith_nil_left, List.append_nil]
      exact satisfied_of_unrefuted wellFormed count unrefuted
    · rw [Network.valuesAt, List.zipWith_nil_left, List.append_nil]
  | cons entry rest inductionHypothesis =>
    rw [List.length_cons] at count
    rw [descend_cons]
    obtain ⟨ending, later, tried, outcome⟩ := tryValues_first
      (fun value progress => visit_endsWith holds wellFormed (by omega) unrefuted value progress
        fun extended => inductionHypothesis (bound ++ [value])
          (by rw [List.length_append, List.length_singleton]; omega) extended progress)
      entry.values progress
    exact ⟨ending, later, tried, endsWith_cons outcome⟩

/-! ### Solving without a time limit -/

/-- The answer of a search that decided: the values at the first positions that solve the network,
or that nothing solves it, with zeros. -/
def AnswersFirst (network : Network Int) (answer : Answer Int) : Prop :=
  (answer.status = .satisfiable ∧ ∃ positions, network.PlacedSolution positions ∧
    answer.values = Network.valuesAt network.declared positions ∧
    ∀ other, network.PlacedSolution other → ¬ List.Lex (· < ·) other positions) ∨
  (answer.status = .unsatisfiable ∧ (¬ ∃ values, network.Solution values) ∧
    answer.values = List.replicate network.declared.length 0)

theorem completes_nil_iff {network : Network Int} {positions : List Nat} :
    Completes network [] network.declared positions ↔ network.PlacedSolution positions :=
  ⟨fun ⟨placed, satisfied⟩ => ⟨placed, satisfied⟩, fun ⟨placed, satisfied⟩ => ⟨placed, satisfied⟩⟩

/-- Values for all variables are what a search that found them answers. -/
theorem answer_found (model : Model Int) {network : Network Int} {values : List Int}
    (full : values.length = network.declared.length) :
    model.answer (.found (bindFirst network.declared.length values)) = ⟨.satisfiable, values⟩ := by
  rw [Model.answer, bindFirst, full, Nat.sub_self, List.replicate_zero, List.append_nil,
    List.map_map]
  exact congrArg _ (List.map_id values)

theorem answersFirst_of_endsWith {model : Model Int} {network : Network Int}
    (holds : model.Holds network) {ending : Ending Int}
    (ends : EndsWith network [] network.declared ending) :
    AnswersFirst network (model.answer ending) := by
  cases ending with
  | expired => exact ends.elim
  | exhausted =>
    refine Or.inr ⟨rfl, ?_, ?_⟩
    · rw [← Network.exists_placedSolution_iff]
      exact fun ⟨positions, solution⟩ => ends positions (completes_nil_iff.mpr solution)
    · rw [Model.answer, Model.zeros, holds.size_eq]
      rfl
  | found assignment =>
    obtain ⟨positions, completes, least, rfl⟩ := ends
    rw [List.nil_append,
      answer_found model (Network.within_valuesAt completes.placed).length_eq.symm]
    exact Or.inl ⟨rfl, positions, completes_nil_iff.mp completes, rfl, fun other solution =>
      least other (completes_nil_iff.mpr solution)⟩

theorem Model.unbound_eq {model : Model Int} {network : Network Int}
    (holds : model.Holds network) : model.unbound = bindFirst network.declared.length [] := by
  rw [Model.unbound, holds.size_eq, bindFirst, List.map_nil,
    List.nil_append, List.length_nil, Nat.sub_zero, List.toArray_replicate]

/-- No constraint is false before the search begins. -/
theorem noneFalse_closed {model : Model Int} {network : Network Int} (holds : model.Holds network)
    (wellFormed : network.WellFormed) : noneFalse model.unbound model.closed = .ok true := by
  have posted : ∀ constraint ∈ model.closed, constraint ∈ network.constraints := by
    intro constraint member
    rw [Model.closed, holds.constraints] at member
    exact (List.mem_filter.mp member).1
  have fits : ∀ constraint ∈ model.closed,
      constraint.Fits (bindFirst network.declared.length []).size := by
    intro constraint member
    rw [size_bindFirst (Nat.zero_le _)]
    exact wellFormed constraint (posted constraint member)
  obtain ⟨consistent, looked, meaning⟩ := noneFalse_fits fits
  have nothing : consistent = true :=
    meaning.mpr fun constraint member =>
      unrefuted_nil wellFormed constraint (posted constraint member)
  rw [Model.unbound_eq holds, looked, nothing]

/-- A search that is not limited in time decides the network that its model holds. -/
theorem solve_answersFirst {model : Model Int} {network : Network Int} (holds : model.Holds network)
    (wellFormed : network.WellFormed) (clock : Clock) {limit : TimeLimit} {readings : Nat}
    (free : limit.deadline? (clock.reading readings) = .ok none) :
    ∃ answer, (model.solve clock limit readings).1 = .ok answer ∧ AnswersFirst network answer := by
  obtain ⟨ending, later, searched, ends⟩ := descend_endsWith holds wellFormed network.declared []
    (Nat.zero_add _) (unrefuted_nil wellFormed) ⟨0, readings⟩
  refine ⟨model.answer ending, ?_, answersFirst_of_endsWith holds ends⟩
  rw [List.length_nil, ← Model.unbound_eq holds, ← holds.declared] at searched
  rw [Model.solve, free]
  simp only [Model.search, noneFalse_closed holds wellFormed, searched]
  rfl

/-- A model that was built by any calls, solved without a time limit, is found satisfiable exactly
if some values from the domains make every posted constraint true.  The values found are then those
whose positions, taken in the order of declaration, come first in lexicographic order; otherwise
all values are zero. -/
theorem solve_least_positions (steps : List (BuildStep Int))
    (admitted : Network.empty.AdmitsAll steps) (clock : Clock) (limit : TimeLimit) (readings : Nat)
    (free : limit.deadline? (clock.reading readings) = .ok none) :
    ∃ answer, ((Model.empty.performAll steps).solve clock limit readings).1 = .ok answer ∧
      (answer.status = .satisfiable ↔ ∃ values, (Network.empty.extendAll steps).Solution values) ∧
      (answer.status = .satisfiable → ∃ positions,
        (Network.empty.extendAll steps).PlacedSolution positions ∧
        answer.values = Network.valuesAt (Network.empty.extendAll steps).declared positions ∧
        ∀ other, (Network.empty.extendAll steps).PlacedSolution other →
          ¬ List.Lex (· < ·) other positions) ∧
      (answer.status ≠ .satisfiable → answer.status = .unsatisfiable ∧
        answer.values = List.replicate (Network.empty.extendAll steps).declared.length 0) := by
  have wellFormed := Network.wellFormed_extendAll Network.wellFormed_empty admitted
  have holds := Model.holds_performAll Model.holds_empty Network.wellFormed_empty admitted
  obtain ⟨answer, solved, outcome⟩ := solve_answersFirst holds wellFormed clock free
  refine ⟨answer, solved, ?_⟩
  rcases outcome with
    ⟨satisfiable, positions, solution, values, least⟩ | ⟨unsatisfiable, none, zeros⟩
  · refine ⟨⟨fun _ => ?_, fun _ => satisfiable⟩, fun _ => ⟨positions, solution, values, least⟩,
      fun other => absurd satisfiable other⟩
    exact (Network.exists_placedSolution_iff _).mp ⟨positions, solution⟩
  · have other : answer.status ≠ .satisfiable := by
      rw [unsatisfiable]
      exact fun impossible => nomatch impossible
    exact ⟨⟨fun same => absurd same other, fun found => absurd found none⟩,
      fun same => absurd same other, fun _ => ⟨unsatisfiable, zeros⟩⟩

/-- Two variables whose domains repeat a value, and an implication between them. -/
def repeatedValues : List (BuildStep Int) :=
  [.declare ⟨"x", [2, 1, 2]⟩, .declare ⟨"y", [1, 2]⟩,
    .post (.implies (.equals 0 2) (.all [.agree 0 1, .always]))]

theorem repeatedValues_admitted : Network.empty.AdmitsAll repeatedValues := by
  refine ⟨trivial, trivial, ⟨rfl, ?_⟩, trivial⟩
  decide

theorem solve_least_positions_repeatedValues :
    ∃ answer,
      ((Model.empty.performAll repeatedValues).solve .counting .unlimited 0).1 = .ok answer ∧
        answer.status = .satisfiable ∧ answer.values = [2, 2] := by
  obtain ⟨answer, solved, decided, least, _⟩ :=
    solve_least_positions repeatedValues repeatedValues_admitted .counting .unlimited 0 rfl
  have solution : (Network.empty.extendAll repeatedValues).PlacedSolution [0, 1] :=
    ⟨.cons (by decide) (.cons (by decide) .nil), by unfold Network.Satisfied; decide⟩
  have satisfiable := decided.mpr ((Network.exists_placedSolution_iff _).mp ⟨_, solution⟩)
  obtain ⟨positions, ⟨placed, satisfied⟩, values, first⟩ := least satisfiable
  refine ⟨answer, solved, satisfiable, ?_⟩
  have order := first _ solution
  cases placed with
  | @cons _ left _ _ leftInside placed =>
    cases placed with
    | @cons _ right _ _ rightInside placed =>
      cases placed
      have least : ¬ (0 < left ∨ 0 = left ∧ 1 < right) := by
        simpa [List.cons_lex_cons_iff] using order
      have possible : right = 0 ∨ right = 1 := by
        have inside : right < 2 := rightInside
        omega
      obtain rfl : left = 0 := by omega
      rcases possible with rfl | rfl
      · exact absurd satisfied (by unfold Network.Satisfied; decide)
      · exact values

end Backtracking

end HorizonPlanner
