/-
This file counts the work of a search that is not limited in time.  What it
tries are positions for the first variables, and they come in the order in which
a tree is walked depth first: positions come before what goes on from them, and
otherwise the smaller position first.  It tries exactly those whose proper
beginnings make no constraint false, up to the solution if there is one.

The loop is followed turn by turn.  What it tries from a cursor on is what is
left of these positions from the next ones on; each turn takes the next ones out,
with all that goes on from them if they are rejected.
-/

import Mathlib.Data.List.Lex
import HorizonPlanner.Proofs.LivePositions
import HorizonPlanner.Proofs.Truncation

namespace HorizonPlanner

/-! ### The order of a depth-first walk -/

section

variable {first second third : List Nat}

theorem lex_trans (before : List.Lex (· < ·) first second)
    (before' : List.Lex (· < ·) second third) : List.Lex (· < ·) first third :=
  List.lex_trans (fun smaller smaller' => Nat.lt_trans smaller smaller') before before'

theorem lex_irrefl (positions : List Nat) : ¬ List.Lex (· < ·) positions positions :=
  List.lex_irrefl Nat.lt_irrefl positions

theorem lex_concat (positions : List Nat) (position : Nat) :
    List.Lex (· < ·) positions (positions ++ [position]) := by
  simpa using List.Lex.append_left (· < ·) (List.Lex.nil (a := position) (l := [])) positions

/-- Positions come next after those that they go on from with the first position. -/
theorem lex_concat_zero_iff :
    List.Lex (· < ·) first (second ++ [0]) ↔ first = second ∨ List.Lex (· < ·) first second := by
  induction second generalizing first with
  | nil => cases first <;> simp [List.cons_lex_cons_iff]
  | cons position rest inductionHypothesis =>
    cases first with
    | nil => simp
    | cons position' rest' =>
      simp only [List.cons_append, List.cons_lex_cons_iff, inductionHypothesis, List.cons.injEq]
      tauto

/-- What comes before the next position of a variable comes before this one, or goes on from it. -/
theorem lex_concat_succ_iff {position : Nat} :
    List.Lex (· < ·) first (second ++ [position + 1]) ↔
      List.Lex (· < ·) first (second ++ [position]) ∨
        ∃ rest, first = second ++ position :: rest := by
  induction second generalizing first with
  | nil =>
    cases first with
    | nil => simp
    | cons other rest =>
      simp only [List.nil_append, List.cons_lex_cons_iff, List.not_lex_nil, and_false, or_false,
        List.cons.injEq, exists_and_left, exists_eq', and_true]
      omega
  | cons other rest inductionHypothesis =>
    cases first with
    | nil => simp
    | cons other' rest' =>
      simp only [List.cons_append, List.cons_lex_cons_iff, inductionHypothesis, List.cons.injEq,
        exists_and_left]
      tauto

end

namespace Backtracking

section

variable {network : Network Int}

/-! ### The invariant of the loop -/

/-- Where the loop stands: positions are chosen for the first variables and bind them, they make no
constraint false, and of the other variables only the next one may be bound. -/
structure Stands (network : Network Int) (assignment : PartialAssignment Int)
    (chosen : List Nat) : Prop where
  placed : Network.Placed (network.declared.take chosen.length) chosen
  unrefuted : Unrefuted network (Network.valuesAt network.declared chosen)
  bound : ∃ left, assignment = (bindFirst network.declared.length
    (Network.valuesAt network.declared chosen)).setIfInBounds chosen.length left

/-- What a turn does at a cursor where the loop stands. -/
inductive Turns (network : Network Int) : Cursor → Turn → Prop
  | completes {assignment : PartialAssignment Int} {chosen : List Nat} {position : Nat}
      (placed : Network.Placed network.declared chosen)
      (unrefuted : Unrefuted network (Network.valuesAt network.declared chosen)) :
      Turns network ⟨assignment, chosen, position⟩ (.ends [] (.ok (.found
        (bindFirst network.declared.length (Network.valuesAt network.declared chosen)))))
  | descends {assignment next : PartialAssignment Int} {chosen : List Nat} {position : Nat}
      (live : Live network (chosen ++ [position]))
      (stands : Stands network next (chosen ++ [position])) :
      Turns network ⟨assignment, chosen, position⟩
        (.onward (.tries (chosen ++ [position])) ⟨next, chosen ++ [position], 0⟩)
  | rejects {assignment next : PartialAssignment Int} {chosen : List Nat} {position : Nat}
      (live : Live network (chosen ++ [position]))
      (refuted : ¬ Unrefuted network (Network.valuesAt network.declared (chosen ++ [position])))
      (stands : Stands network next chosen) :
      Turns network ⟨assignment, chosen, position⟩
        (.onward (.tries (chosen ++ [position])) ⟨next, chosen, position + 1⟩)
  | exhausts {assignment : PartialAssignment Int} {position : Nat}
      (missing : ∀ other rest, Live network (other :: rest) → other < position) :
      Turns network ⟨assignment, [], position⟩ (.ends [.retreats] (.ok .exhausted))
  | retreats {assignment next : PartialAssignment Int} {chosen : List Nat} {last position : Nat}
      (room : chosen.length < network.declared.length)
      (missing : ∀ other rest, Live network (chosen ++ [last] ++ other :: rest) → other < position)
      (stands : Stands network next chosen) :
      Turns network ⟨assignment, chosen ++ [last], position⟩
        (.onward .retreats ⟨next, chosen, last + 1⟩)

theorem bindFirst_clean {count slot : Nat} {bound : List Int} (outside : bound.length ≤ slot) :
    (bindFirst count bound).setIfInBounds slot none = bindFirst count bound := by
  apply Array.ext_getElem?
  intro other
  rw [Array.getElem?_setIfInBounds]
  split
  next same =>
    subst same
    split
    next inside =>
      have found := Array.getElem?_eq_getElem inside
      rw [found, bindFirst_getElem?_open outside found]
    next outside => exact (Array.getElem?_eq_none (Nat.le_of_not_lt outside)).symm
  next => rfl

theorem stands_unbound {model : Model Int} (holds : model.Holds network)
    (wellFormed : network.WellFormed) : Stands network model.unbound [] where
  placed := .nil
  unrefuted := by
    rw [Network.valuesAt, List.zipWith_nil_right]
    exact unrefuted_nil wellFormed
  bound := by
    refine ⟨none, ?_⟩
    rw [Model.unbound_eq holds, Network.valuesAt, List.zipWith_nil_right]
    exact (bindFirst_clean (Nat.le_refl 0)).symm

section

variable {assignment : PartialAssignment Int} {chosen : List Nat} {entry : Variable Int}

/-- Trying a position binds the next variable, whatever it was bound to. -/
theorem Stands.bind (stands : Stands network assignment chosen) {position : Nat} {value : Int}
    (here : network.declared[chosen.length]? = some entry)
    (found : entry.values[position]? = some value) :
    assignment.setIfInBounds chosen.length (some value) =
      bindFirst network.declared.length
        (Network.valuesAt network.declared (chosen ++ [position])) := by
  obtain ⟨left, rfl⟩ := stands.bound
  have room := (List.getElem?_eq_some_iff.mp here).choose
  have length := Network.length_valuesAt (Nat.le_of_lt room)
  rw [Network.valuesAt_concat here found, ← bindFirst_push (length.symm ▸ room), length,
    Array.setIfInBounds_setIfInBounds]

theorem Stands.live (stands : Stands network assignment chosen) {position : Nat} {value : Int}
    (here : network.declared[chosen.length]? = some entry)
    (found : entry.values[position]? = some value) : Live network (chosen ++ [position]) where
  nonempty := List.append_ne_nil_of_right_ne_nil _ (List.cons_ne_nil _ _)
  placed := (Network.placed_take_concat_iff here).mpr
    ⟨stands.placed, (List.getElem?_eq_some_iff.mp found).choose⟩
  unrefuted _ begins other :=
    unrefuted_of_prefix stands.unrefuted (Network.length_le_of_placed stands.placed)
      ((List.prefix_concat_iff.mp begins).resolve_left other)

/-- Retreating unbinds the next variable; the one before it keeps its value until the next turn. -/
theorem Stands.retreat {last : Nat} (stands : Stands network assignment (chosen ++ [last])) :
    Stands network (assignment.setIfInBounds (chosen ++ [last]).length none) chosen := by
  have inside := Network.length_le_of_placed stands.placed
  have length := Network.length_valuesAt inside
  have room : chosen.length < network.declared.length := by
    rw [List.length_append, List.length_singleton] at inside
    exact inside
  have here := List.getElem?_eq_getElem room
  obtain ⟨placed, bounded⟩ := (Network.placed_take_concat_iff here).mp stands.placed
  refine ⟨placed, unrefuted_of_prefix stands.unrefuted inside (List.prefix_append _ _),
    some network.declared[chosen.length].values[last], ?_⟩
  obtain ⟨left, rfl⟩ := stands.bound
  have before := Network.length_valuesAt (Nat.le_of_lt room)
  rw [Array.setIfInBounds_setIfInBounds, bindFirst_clean length.le,
    Network.valuesAt_concat here (List.getElem?_eq_getElem bounded),
    ← bindFirst_push (before.symm ▸ room), before]

end

end

section

variable {model : Model Int} {network : Network Int} {assignment : PartialAssignment Int}
  {chosen : List Nat}

/-- Every turn keeps the invariant, or it is the last one. -/
theorem Stands.turns (holds : model.Holds network) (wellFormed : network.WellFormed)
    (stands : Stands network assignment chosen) (position : Nat) :
    Turns network ⟨assignment, chosen, position⟩ (model.turn ⟨assignment, chosen, position⟩) := by
  have inside : chosen.length ≤ network.declared.length :=
    Network.length_le_of_placed stands.placed
  have length := Network.length_valuesAt inside
  cases here : network.declared[chosen.length]? with
  | none =>
    have full : network.declared.length ≤ chosen.length := List.getElem?_eq_none_iff.mp here
    have placed := stands.placed
    rw [List.take_of_length_le full] at placed
    obtain ⟨left, rfl⟩ := stands.bound
    rw [Model.turn_complete (by rw [holds.getElem?_eq, here]), Array.setIfInBounds_eq_of_size_le ?_]
    · exact .completes placed stands.unrefuted
    · rw [size_bindFirst (length.symm ▸ inside)]
      exact full
  | some entry =>
    have here' := (holds.getElem?_eq chosen.length).trans here
    have room : chosen.length < network.declared.length :=
      (List.getElem?_eq_some_iff.mp here).choose
    cases found : entry.values[position]? with
    | some value =>
      have live := stands.live here found
      have binds := stands.bind here found
      obtain ⟨consistent, looked, meaning⟩ := noneFalse_watched holds wellFormed
        (length.symm ▸ room) stands.unrefuted value
      rw [← Network.valuesAt_concat here found] at looked meaning
      rw [length, ← binds] at looked
      cases consistent with
      | true =>
        rw [Model.turn_descend here' found looked, binds]
        refine .descends live ⟨live.placed, meaning.mp rfl, none, ?_⟩
        rw [bindFirst_clean (Network.length_valuesAt live.length_le).le]
      | false =>
        rw [Model.turn_reject here' found looked]
        refine .rejects live (fun unrefuted => Bool.false_ne_true (meaning.mpr unrefuted))
          ⟨stands.placed, stands.unrefuted, some value, ?_⟩
        obtain ⟨left, rfl⟩ := stands.bound
        rw [Array.setIfInBounds_setIfInBounds]
    | none =>
      have missing : ∀ other rest, Live network (chosen ++ other :: rest) → other < position :=
        fun other rest live => Nat.lt_of_lt_of_le (Network.lt_of_placed live.placed here)
          (List.getElem?_eq_none_iff.mp found)
      rcases List.eq_nil_or_concat' chosen with rfl | ⟨earlier, last, rfl⟩
      · rw [Model.turn_exhausted here' found]
        exact .exhausts missing
      · rw [List.length_append, List.length_singleton] at room
        rw [Model.turn_retreat here' found]
        exact .retreats (Nat.lt_of_succ_lt room) missing stands.retreat

end

/-! ### What is tried -/

/-- What is tried from the next positions on: the live positions that do not come before them, up to
the solution if there is one.  The solution does not come before what the loop has reached. -/
structure Works (network : Network Int) (chosen : List Nat) (position : Nat)
    (tried : List (List Nat)) (solution : Option (List Nat)) : Prop where
  ahead : ∀ last ∈ solution, ¬ List.Lex (· < ·) last chosen ∧
    (chosen.length < network.declared.length → ¬ List.Lex (· < ·) last (chosen ++ [position]))
  ordered : tried.Pairwise (List.Lex (· < ·))
  mem_iff : ∀ positions, positions ∈ tried ↔ Live network positions ∧
    ¬ List.Lex (· < ·) positions (chosen ++ [position]) ∧
    ∀ last ∈ solution, ¬ List.Lex (· < ·) last positions

section

variable {network : Network Int} {chosen : List Nat} {position : Nat} {tried : List (List Nat)}
  {solution : Option (List Nat)}

/-- Positions that do not come before others are the same or come after them. -/
theorem lex_of_not_lex {first second : List Nat} (after : ¬ List.Lex (· < ·) second first)
    (other : second ≠ first) : List.Lex (· < ·) first second := by
  rcases trichotomous_of (List.Lex (· < ·)) first second with before | same | before
  · exact before
  · exact absurd same.symm other
  · exact absurd before after

theorem works_complete (full : chosen.length = network.declared.length) (position : Nat) :
    Works network chosen position [] (some chosen) where
  ahead last member := by
    cases member
    exact ⟨lex_irrefl chosen, fun room => absurd full (Nat.ne_of_lt room)⟩
  ordered := .nil
  mem_iff positions := by
    refine iff_of_false List.not_mem_nil ?_
    rintro ⟨_, after, limit⟩
    by_cases same : positions = chosen
    · exact after (same ▸ lex_concat chosen position)
    · have before := lex_of_not_lex (limit chosen rfl) (Ne.symm same)
      exact after (before.append_right _ [position])

theorem works_exhausted
    (missing : ∀ other rest, Live network (other :: rest) → other < position) :
    Works network [] position [] none where
  ahead _ member := nomatch member
  ordered := .nil
  mem_iff positions := by
    refine iff_of_false List.not_mem_nil ?_
    rintro ⟨live, after, _⟩
    obtain ⟨other, rest, rfl⟩ := List.exists_cons_of_ne_nil live.nonempty
    exact after (.rel (missing other rest live))

/-- Positions that are not rejected are followed by those that go on from them. -/
theorem Works.descend (works : Works network (chosen ++ [position]) 0 tried solution)
    (live : Live network (chosen ++ [position])) :
    Works network chosen position ((chosen ++ [position]) :: tried) solution where
  ahead last member := by
    have after := (works.ahead last member).1
    exact ⟨fun before => after (before.append_right _ [position]), fun _ => after⟩
  ordered := by
    refine List.pairwise_cons.mpr ⟨fun positions member => ?_, works.ordered⟩
    obtain ⟨_, after, _⟩ := (works.mem_iff positions).mp member
    rw [lex_concat_zero_iff, not_or] at after
    exact lex_of_not_lex after.2 after.1
  mem_iff positions := by
    rw [List.mem_cons, works.mem_iff, lex_concat_zero_iff, not_or]
    constructor
    · rintro (rfl | ⟨live', ⟨_, after⟩, limit⟩)
      · exact ⟨live, lex_irrefl _, fun last member => (works.ahead last member).1⟩
      · exact ⟨live', after, limit⟩
    · rintro ⟨live', after, limit⟩
      by_cases same : positions = chosen ++ [position]
      · exact Or.inl same
      · exact Or.inr ⟨live', ⟨same, after⟩, limit⟩

/-- Positions that are rejected are followed by none that go on from them. -/
theorem Works.reject (works : Works network chosen (position + 1) tried solution)
    (live : Live network (chosen ++ [position]))
    (refuted : ¬ Unrefuted network (Network.valuesAt network.declared (chosen ++ [position]))) :
    Works network chosen position ((chosen ++ [position]) :: tried) solution where
  ahead last member := by
    obtain ⟨after, after'⟩ := works.ahead last member
    exact ⟨after, fun room before => after' room (lex_concat_succ_iff.mpr (Or.inl before))⟩
  ordered := by
    refine List.pairwise_cons.mpr ⟨fun positions member => ?_, works.ordered⟩
    obtain ⟨_, after, _⟩ := (works.mem_iff positions).mp member
    rw [lex_concat_succ_iff, not_or] at after
    exact lex_of_not_lex after.1 fun same => after.2 ⟨[], same⟩
  mem_iff positions := by
    have room : chosen.length < network.declared.length := by
      have inside := live.length_le
      rwa [List.length_append, List.length_singleton] at inside
    rw [List.mem_cons, works.mem_iff, lex_concat_succ_iff, not_or]
    constructor
    · rintro (rfl | ⟨live', ⟨after, _⟩, limit⟩)
      · refine ⟨live, lex_irrefl _, fun last member before => ?_⟩
        exact (works.ahead last member).2 room (lex_concat_succ_iff.mpr (Or.inl before))
      · exact ⟨live', after, limit⟩
    · rintro ⟨live', after, limit⟩
      by_cases same : positions = chosen ++ [position]
      · exact Or.inl same
      · refine Or.inr ⟨live', ⟨after, ?_⟩, limit⟩
        rintro ⟨rest, rfl⟩
        exact refuted (live'.unrefuted _ ⟨rest, by simp⟩ (Ne.symm same))

/-- When no position is left, what is still to be tried are the positions after those chosen. -/
theorem Works.retreat {last : Nat} (works : Works network chosen (last + 1) tried solution)
    (room : chosen.length < network.declared.length)
    (missing : ∀ other rest,
      Live network (chosen ++ [last] ++ other :: rest) → other < position) :
    Works network (chosen ++ [last]) position tried solution where
  ahead end' member := by
    have after := (works.ahead end' member).2 room
    rw [lex_concat_succ_iff, not_or] at after
    refine ⟨after.1, fun _ before => ?_⟩
    have next : List.Lex (· < ·) (chosen ++ [last] ++ [position]) (chosen ++ [last + 1]) :=
      lex_concat_succ_iff.mpr (Or.inr ⟨[position], by simp⟩)
    exact (works.ahead end' member).2 room (lex_trans before next)
  ordered := works.ordered
  mem_iff positions := by
    rw [works.mem_iff]
    refine and_congr_right fun live => and_congr_left fun _ => not_congr ⟨fun before => ?_,
      fun before => ?_⟩
    · rcases lex_concat_succ_iff.mp before with earlier | ⟨rest, rfl⟩
      · exact earlier.append_right _ [position]
      · cases rest with
        | nil => exact lex_concat _ position
        | cons other rest =>
          rw [List.append_cons] at live ⊢
          exact (List.Lex.rel (missing other rest live)).append_left _ _
    · exact lex_trans before (lex_concat_succ_iff.mpr (Or.inr ⟨[position], by simp⟩))

theorem Works.nodup (works : Works network chosen position tried solution) : tried.Nodup := by
  refine List.Pairwise.imp ?_ works.ordered
  rintro positions _ before rfl
  exact lex_irrefl positions before

/-- From the start of the loop all live positions are left to try. -/
theorem Works.mem_iff_of_start (works : Works network [] 0 tried solution)
    (positions : List Nat) : positions ∈ tried ↔ Live network positions ∧
      ∀ last ∈ solution, ¬ List.Lex (· < ·) last positions := by
  rw [works.mem_iff]
  refine and_congr_right fun live => and_iff_right ?_
  rw [lex_concat_zero_iff, not_or]
  exact ⟨live.nonempty, List.not_lex_nil⟩

/-- What the outcome of a search says: the solution, or that there is none. -/
def Finds (network : Network Int) (outcome : Except Fault (Ending Int)) :
    Option (List Nat) → Prop
  | none => outcome = .ok .exhausted
  | some positions => network.PlacedSolution positions ∧ outcome = .ok (.found
      (bindFirst network.declared.length (Network.valuesAt network.declared positions)))

/-- However the loop goes on from where it stands, it tries what is left. -/
theorem Stands.works {model : Model Int} (holds : model.Holds network)
    (wellFormed : network.WellFormed) {assignment : PartialAssignment Int}
    (stands : Stands network assignment chosen) {rounds : List Round}
    {outcome : Except Fault (Ending Int)}
    (loops : model.Loops ⟨assignment, chosen, position⟩ rounds outcome) :
    ∃ solution, Finds network outcome solution ∧
      Works network chosen position (triedIn rounds) solution := by
  generalize here : (⟨assignment, chosen, position⟩ : Cursor) = cursor at loops
  induction loops generalizing assignment chosen position with
  | ends turned =>
    subst here
    have turns := stands.turns holds wellFormed position
    rw [turned] at turns
    cases turns with
    | completes placed unrefuted =>
      have full := placed.length_eq.symm
      have satisfied := satisfied_of_unrefuted wellFormed
        ((Network.length_valuesAt full.le).trans full) unrefuted
      exact ⟨some chosen, ⟨⟨placed, satisfied⟩, rfl⟩, works_complete full position⟩
    | exhausts missing => exact ⟨none, rfl, works_exhausted missing⟩
  | onward turned _ inductionHypothesis =>
    subst here
    have turns := stands.turns holds wellFormed position
    rw [turned] at turns
    cases turns with
    | descends live stands' =>
      obtain ⟨solution, finds, works⟩ := inductionHypothesis stands' rfl
      exact ⟨solution, finds, works.descend live⟩
    | rejects live refuted stands' =>
      obtain ⟨solution, finds, works⟩ := inductionHypothesis stands' rfl
      exact ⟨solution, finds, works.reject live refuted⟩
    | retreats room missing stands' =>
      obtain ⟨solution, finds, works⟩ := inductionHypothesis stands' rfl
      exact ⟨solution, finds, works.retreat room missing⟩

end

/-! ### Solving without a time limit -/

/-- A model that was built by any calls is solved, without a time limit, by one run of the loop,
which ends.  What it tries are pairwise different positions for the first variables, in the order
of a depth-first walk: all live positions, or if it finds a solution those that do not come after
it.  So it tries no more than there are positions for the first variable, the first two, and so
on. -/
theorem solve_tries_live (steps : List (BuildStep Int))
    (admitted : Network.empty.AdmitsAll steps) (clock : Clock) (limit : TimeLimit) (readings : Nat)
    (free : limit.deadline? (clock.reading readings) = .ok none) :
    ∃ rounds ending,
      (∀ rounds' outcome, (Model.empty.performAll steps).Loops (Model.empty.performAll steps).start
        rounds' outcome ↔ rounds' = rounds ∧ outcome = .ok ending) ∧
      (Model.empty.performAll steps).solve clock limit readings =
        (.ok ((Model.empty.performAll steps).answer ending),
          ⟨(triedIn rounds).length, readings⟩) ∧
      (triedIn rounds).Nodup ∧ (triedIn rounds).Pairwise (List.Lex (· < ·)) ∧
      ((((Model.empty.performAll steps).answer ending).status = .satisfiable ∧
          ∃ last, (Network.empty.extendAll steps).PlacedSolution last ∧
            ((Model.empty.performAll steps).answer ending).values =
              Network.valuesAt (Network.empty.extendAll steps).declared last ∧
            ∀ positions, positions ∈ triedIn rounds ↔
              Live (Network.empty.extendAll steps) positions ∧
                ¬ List.Lex (· < ·) last positions) ∨
        (((Model.empty.performAll steps).answer ending).status = .unsatisfiable ∧
          ∀ positions, positions ∈ triedIn rounds ↔
            Live (Network.empty.extendAll steps) positions)) ∧
      (triedIn rounds).length ≤
        ((List.range (Network.empty.extendAll steps).declared.length).map fun slot =>
          (((Network.empty.extendAll steps).declared.take (slot + 1)).map fun entry =>
            entry.values.length).prod).sum := by
  have wellFormed := Network.wellFormed_extendAll Network.wellFormed_empty admitted
  have holds := Model.holds_performAll Model.holds_empty Network.wellFormed_empty admitted
  generalize Model.empty.performAll steps = model at holds ⊢
  generalize Network.empty.extendAll steps = network at holds wellFormed ⊢
  obtain ⟨rounds, outcome, searches⟩ := model.exists_searches
  obtain ⟨solution, finds, works⟩ :=
    (stands_unbound holds wellFormed).works holds wellFormed searches.loops
  have mem_iff := works.mem_iff_of_start
  have fewer := length_le_of_live works.nodup fun positions member =>
    ((mem_iff positions).mp member).1
  have solved := solve_free (noneFalse_closed holds wellFormed) searches free
  cases solution with
  | none =>
    cases finds
    refine ⟨rounds, .exhausted, fun rounds' outcome => ⟨searches.loops.unique, ?_⟩, solved,
      works.nodup, works.ordered, Or.inr ⟨rfl, fun positions => ?_⟩, fewer⟩
    · rintro ⟨rfl, rfl⟩
      exact searches.loops
    · rw [mem_iff]
      exact and_iff_left nofun
  | some last =>
    obtain ⟨placed, rfl⟩ := finds
    have found := answer_found model (Network.within_valuesAt placed.placed).length_eq.symm
    refine ⟨rounds, _, fun rounds' outcome => ⟨searches.loops.unique, ?_⟩, solved, works.nodup,
      works.ordered, Or.inl ?_, fewer⟩
    · rintro ⟨rfl, rfl⟩
      exact searches.loops
    · rw [found]
      refine ⟨rfl, last, placed, rfl, fun positions => ?_⟩
      rw [mem_iff]
      exact and_congr_right' ⟨fun limit => limit last rfl, fun after other same => by
        cases same
        exact after⟩

/-- The first value for the second variable is tried and rejected, the second one is found. -/
theorem solve_tries_live_repeatedValues :
    ∃ rounds, triedIn rounds = [[0], [0, 0], [0, 1]] ∧
      (Model.empty.performAll repeatedValues).solve .counting .unlimited 0 =
        (.ok ⟨.satisfiable, [2, 2]⟩, ⟨3, 0⟩) ∧
      Live (Network.empty.extendAll repeatedValues) [0, 1] := by
  obtain ⟨rounds, ending, run, solved, _, _, live, _⟩ :=
    solve_tries_live repeatedValues repeatedValues_admitted .counting .unlimited 0 rfl
  have loops : (Model.empty.performAll repeatedValues).Loops
      (Model.empty.performAll repeatedValues).start
      [.tries [0], .tries [0, 0], .tries [0, 1]] (.ok (.found #[some 2, some 2])) :=
    .onward rfl (.onward rfl (.onward rfl (.ends rfl)))
  obtain ⟨rfl, same⟩ := (run _ _).mp loops
  cases same
  rcases live with ⟨_, _, _, _, mem_iff⟩ | ⟨impossible, _⟩
  · exact ⟨[.tries [0], .tries [0, 0], .tries [0, 1]], rfl, solved,
      ((mem_iff [0, 1]).mp (by simp)).1⟩
  · cases impossible

end Backtracking

end HorizonPlanner
