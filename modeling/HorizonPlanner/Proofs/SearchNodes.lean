/-
This file says why a search may look at the constraints that mention a variable
only.  Whenever it tries a value, the variables before the one that is bound have
values and those after it have none, and no constraint is false while fewer
variables are bound.  So no verdict can have changed but those of the constraints
that mention the variable, and they decide whether any constraint is false.

The loop writes over one array of values as it goes down and retreats, and at a
variable the value that was tried last may still be there.  It is followed along
the cursors that it passes.  A search under a time limit passes the first of
those that the search without one passes.
-/

import HorizonPlanner.Proofs.SearchWork

namespace HorizonPlanner

/-- A partial assignment with the values of the first variables only. -/
def PartialAssignment.upTo {α : Type} (assignment : PartialAssignment α) (count : Nat) :
    PartialAssignment α :=
  assignment.mapIdx fun slot value => if slot < count then value else none

namespace Backtracking

/-! ### Nodes and cursors -/

/-- A node of a search: the variable that was just bound, and the assignment under which the
constraints that mention it are looked at. -/
structure Node where
  slot : Nat
  assignment : PartialAssignment Int

namespace Model

/-- The node at a cursor, if the variable there has a value left to try. -/
def node? (model : Model Int) (cursor : Cursor) : Option Node := do
  let entry ← model.declared[cursor.chosen.length]?
  let value ← entry.values[cursor.position]?
  some ⟨cursor.chosen.length, cursor.assignment.setIfInBounds cursor.chosen.length (some value)⟩

/-- The nodes at some cursors. -/
def nodes (model : Model Int) (passed : List Cursor) : List Node := passed.filterMap model.node?

/-- The round that the loop does at a cursor. -/
def roundAt (model : Model Int) (cursor : Cursor) : Round :=
  match model.node? cursor with
  | some _ => .tries (cursor.chosen ++ [cursor.position])
  | none => .retreats

/-- The loop passes some cursors, one after another, and comes to a last one. -/
inductive Passes (model : Model Int) : Cursor → List Cursor → Cursor → Prop
  | stops (cursor : Cursor) : Passes model cursor [] cursor
  | onward {cursor next last : Cursor} {round : Round} {passed : List Cursor}
      (turned : model.turn cursor = .onward round next) (later : Passes model next passed last) :
      Passes model cursor (cursor :: passed) last

/-- A search passes some cursors.  It counts the nodes there, and is over where the loop is, or it
gives up where the reading of the clock is late for the first time.  Under a limit that can give no
deadline it passes none. -/
inductive Visits (model : Model Int) (clock : Clock) (limit : TimeLimit) (readings : Nat)
    (passed : List Cursor) : Prop
  | decides {last : Cursor} {rounds : List Round} {ending : Ending Int}
      (passes : model.Passes model.start passed last)
      (turned : model.turn last = .ends rounds (.ok ending))
      (timely : ∀ deadline, limit.deadline? (clock.reading readings) = .ok (some deadline) →
        ∀ earlier < passed.length + rounds.length,
          ¬ deadline < clock.reading (readings + 1 + earlier))
      (solved : (model.solve clock limit readings).1 = .ok (model.answer ending))
      (counted : (model.solve clock limit readings).2.nodes = (model.nodes passed).length)
  | expires {last : Cursor} {deadline : Binary64} (passes : model.Passes model.start passed last)
      (limited : limit.deadline? (clock.reading readings) = .ok (some deadline))
      (timely : ∀ earlier < passed.length, ¬ deadline < clock.reading (readings + 1 + earlier))
      (late : deadline < clock.reading (readings + 1 + passed.length))
      (solved : (model.solve clock limit readings).1 = .ok (model.zeros .timeout))
      (counted : (model.solve clock limit readings).2.nodes = (model.nodes passed).length)
  | refuses {fault : Fault} (nowhere : passed = [])
      (refused : limit.deadline? (clock.reading readings) = .error fault)
      (solved : (model.solve clock limit readings).1 = .error fault)
      (counted : (model.solve clock limit readings).2.nodes = 0)

/-- What a search relies on at a node: the variables up to the one that was just bound have values
from their domains and the others have none, no constraint is false while fewer variables are bound,
and the constraints that mention this variable tell whether any constraint is false. -/
structure Thorough (model : Model Int) (node : Node) : Prop where
  inside : node.slot < model.declared.size
  size : node.assignment.size = model.declared.size
  bound : ∀ slot ≤ node.slot, ∀ entry, model.declared[slot]? = some entry →
    ∃ value ∈ entry.values, node.assignment[slot]? = some (some value)
  unbound : ∀ slot, node.slot < slot → slot < model.declared.size →
    node.assignment[slot]? = some none
  earlier : ∀ count ≤ node.slot, ∀ constraint ∈ model.constraints,
    constraint.evaluate (node.assignment.upTo count) ≠ .ok (some false)
  decided : ∃ consistent,
    noneFalse node.assignment (model.watched node.slot) = .ok consistent ∧
      (consistent = true ↔
        ∀ constraint ∈ model.constraints, constraint.evaluate node.assignment ≠ .ok (some false))

/-! ### Following the loop -/

section

variable {model : Model Int} {cursor last : Cursor} {passed : List Cursor}

theorem roundAt_of_onward {next : Cursor} {round : Round}
    (turned : model.turn cursor = .onward round next) : round = model.roundAt cursor := by
  unfold turn at turned
  cases here : model.declared[cursor.chosen.length]? with
  | none =>
    rw [here] at turned
    cases turned
  | some entry =>
    cases found : entry.values[cursor.position]? with
    | some value =>
      have node : model.node? cursor = some ⟨cursor.chosen.length,
          cursor.assignment.setIfInBounds cursor.chosen.length (some value)⟩ := by
        simp [node?, here, found]
      simp only [here, found] at turned
      rw [roundAt, node]
      split at turned <;> cases turned <;> rfl
    | none =>
      have none : model.node? cursor = none := by simp [node?, here, found]
      simp only [here, found] at turned
      rw [roundAt, none]
      split at turned <;> cases turned
      rfl

theorem length_triedIn_map_roundAt (model : Model Int) (passed : List Cursor) :
    (triedIn (passed.map model.roundAt)).length = (model.nodes passed).length := by
  induction passed with
  | nil => rfl
  | cons cursor rest inductionHypothesis =>
    rw [List.map_cons, nodes, List.filterMap_cons, roundAt]
    cases model.node? cursor with
    | none => exact inductionHypothesis
    | some node => exact congrArg Nat.succ inductionHypothesis

/-- The loop also passes the first ones of the cursors that it passes. -/
theorem Passes.take (passes : model.Passes cursor passed last) (count : Nat) :
    ∃ last, model.Passes cursor (passed.take count) last := by
  induction passes generalizing count with
  | stops cursor => exact ⟨cursor, by rw [List.take_nil]; exact .stops cursor⟩
  | @onward cursor _ _ _ _ turned _ inductionHypothesis =>
    cases count with
    | zero => exact ⟨cursor, .stops cursor⟩
    | succ count =>
      obtain ⟨last, passes⟩ := inductionHypothesis count
      exact ⟨last, .onward turned passes⟩

/-- The rounds of the loop are those at the cursors it passes, and its last ones. -/
theorem Loops.exists_passes {rounds : List Round} {outcome : Except Fault (Ending Int)}
    (loops : model.Loops cursor rounds outcome) :
    ∃ passed last final, model.Passes cursor passed last ∧ model.turn last = .ends final outcome ∧
      rounds = passed.map model.roundAt ++ final := by
  induction loops with
  | @ends cursor rounds _ turned => exact ⟨[], cursor, rounds, .stops cursor, turned, rfl⟩
  | @onward cursor _ _ _ _ turned _ inductionHypothesis =>
    obtain ⟨passed, last, final, passes, ended, rfl⟩ := inductionHypothesis
    exact ⟨cursor :: passed, last, final, .onward turned passes, ended,
      by rw [roundAt_of_onward turned]; rfl⟩

end

end Model

/-! ### The invariant along the loop -/

section

variable {model : Model Int} {network : Network Int} {cursor last : Cursor}

theorem Stands.onward (holds : model.Holds network) (wellFormed : network.WellFormed)
    (stands : Stands network cursor.assignment cursor.chosen) {round : Round} {next : Cursor}
    (turned : model.turn cursor = .onward round next) :
    Stands network next.assignment next.chosen := by
  obtain ⟨assignment, chosen, position⟩ := cursor
  have turns := stands.turns holds wellFormed position
  rw [turned] at turns
  cases turns with
  | descends live stands' => exact stands'
  | rejects live refuted stands' => exact stands'
  | retreats room missing stands' => exact stands'

/-- Where the loop is over, it has an answer and tries nothing more. -/
theorem Stands.ends (holds : model.Holds network) (wellFormed : network.WellFormed)
    (stands : Stands network cursor.assignment cursor.chosen) {rounds : List Round}
    {outcome : Except Fault (Ending Int)} (turned : model.turn cursor = .ends rounds outcome) :
    ∃ ending, outcome = .ok ending ∧ triedIn rounds = [] ∧ rounds.length ≤ 1 := by
  obtain ⟨assignment, chosen, position⟩ := cursor
  have turns := stands.turns holds wellFormed position
  rw [turned] at turns
  cases turns with
  | completes placed unrefuted => exact ⟨_, rfl, rfl, Nat.zero_le 1⟩
  | exhausts missing => exact ⟨_, rfl, rfl, Nat.le_refl 1⟩

theorem Stands.passes (holds : model.Holds network) (wellFormed : network.WellFormed)
    {passed : List Cursor} (passes : model.Passes cursor passed last)
    (stands : Stands network cursor.assignment cursor.chosen) :
    (∀ other ∈ passed, Stands network other.assignment other.chosen) ∧
      Stands network last.assignment last.chosen := by
  induction passes with
  | stops cursor => exact ⟨fun _ member => absurd member List.not_mem_nil, stands⟩
  | onward turned _ inductionHypothesis =>
    obtain ⟨between, final⟩ := inductionHypothesis (stands.onward holds wellFormed turned)
    exact ⟨List.forall_mem_cons.mpr ⟨stands, between⟩, final⟩

/-! ### What holds at a node -/

theorem upTo_bindFirst {count shorter : Nat} {bound : List Int} (fits : bound.length ≤ count)
    (order : shorter ≤ bound.length) :
    (bindFirst count bound).upTo shorter = bindFirst count (bound.take shorter) := by
  have length : (bound.take shorter).length = shorter := List.length_take_of_le order
  have size := size_bindFirst fits
  have size' : (bindFirst count (bound.take shorter)).size = count :=
    size_bindFirst (by rw [length]; exact Nat.le_trans order fits)
  apply Array.ext_getElem?
  intro slot
  rw [PartialAssignment.upTo, Array.getElem?_mapIdx]
  by_cases early : slot < shorter
  · have inside : slot < bound.length := Nat.lt_of_lt_of_le early order
    rw [bindFirst_getElem? inside, bindFirst_getElem? (by rwa [length]), Option.map_some,
      if_pos early, Network.slotValue, Network.slotValue, List.getD_eq_getElem?_getD,
      List.getD_eq_getElem?_getD, List.getElem?_take_of_lt early]
  · by_cases inside : slot < count
    · have found := Array.getElem?_eq_getElem (size'.symm ▸ inside)
      rw [found, bindFirst_getElem?_open (by rw [length]; exact Nat.le_of_not_lt early) found,
        Array.getElem?_eq_getElem (size.symm ▸ inside), Option.map_some, if_neg early]
    · rw [Array.getElem?_eq_none (size.symm ▸ Nat.le_of_not_lt inside),
        Array.getElem?_eq_none (size'.symm ▸ Nat.le_of_not_lt inside), Option.map_none]

/-- The values at positions for the first variables are from their domains. -/
theorem within_valuesAt_take {declared : List (Variable Int)} {positions : List Nat}
    (placed : Network.Placed (declared.take positions.length) positions) :
    Network.Within (declared.take positions.length) (Network.valuesAt declared positions) := by
  have fewer : (Network.valuesAt declared positions).length ≤ positions.length := by
    rw [Network.valuesAt, List.length_zipWith]
    exact Nat.min_le_right _ _
  have same : Network.valuesAt declared positions =
      Network.valuesAt (declared.take positions.length) positions := by
    rw [← List.take_of_length_le fewer, Network.valuesAt, List.take_zipWith, List.take_length,
      Network.valuesAt]
  rw [same]
  exact Network.within_valuesAt placed

/-- Values that refute nothing still do so when only the first of them are bound. -/
theorem Unrefuted.upTo {bound more : List Int} (unrefuted : Unrefuted network bound)
    (fits : (bound ++ more).length ≤ network.declared.length) {shorter : Nat}
    (order : shorter ≤ bound.length) :
    ∀ constraint ∈ network.constraints,
      constraint.evaluate ((bindFirst network.declared.length (bound ++ more)).upTo shorter) ≠
        .ok (some false) := by
  rw [List.length_append] at fits
  have parts : Unrefuted network (bound.take shorter ++ bound.drop shorter) := by
    rwa [List.take_append_drop]
  rw [upTo_bindFirst (by rwa [List.length_append]) (by rw [List.length_append]; omega),
    List.take_append_of_le_length order]
  exact parts.of_append (by rw [List.take_append_drop]; omega)

/-- Once values that refute nothing bind the first variables, one more value may be judged by the
constraints that mention its variable. -/
theorem thorough_push (holds : model.Holds network) (wellFormed : network.WellFormed)
    {bound : List Int} {value : Int} (unrefuted : Unrefuted network bound)
    (within : Network.Within (network.declared.take (bound.length + 1)) (bound ++ [value])) :
    model.Thorough ⟨bound.length, bindFirst network.declared.length (bound ++ [value])⟩ := by
  have length : (bound ++ [value]).length = bound.length + 1 := List.length_append
  obtain ⟨full, drawn⟩ := Network.within_iff_getElem?.mp within
  have room : bound.length < network.declared.length := by
    rw [length, List.length_take] at full
    omega
  have fits : (bound ++ [value]).length ≤ network.declared.length := length ▸ room
  have posted : ∀ constraint, constraint ∈ model.constraints ↔ constraint ∈ network.constraints :=
    fun constraint => by rw [← Array.mem_toList_iff, holds.constraints]
  exact
    { inside := holds.size_eq.symm ▸ room
      size := (size_bindFirst fits).trans holds.size_eq.symm
      bound := fun slot early entry known => by
        have inside : slot < (bound ++ [value]).length := length ▸ Nat.lt_succ_of_le early
        refine ⟨_, drawn slot entry _ ?_ ?_, bindFirst_getElem? inside⟩
        · rw [List.getElem?_take_of_lt (Nat.lt_succ_of_le early), ← holds.getElem?_eq, known]
        · rw [Network.slotValue, List.getD_eq_getElem _ _ inside, List.getElem?_eq_getElem inside]
      unbound := fun slot after known => by
        have inside : slot < (bindFirst network.declared.length (bound ++ [value])).size := by
          rw [size_bindFirst fits, ← holds.size_eq]
          exact known
        have found := Array.getElem?_eq_getElem inside
        have outside : (bound ++ [value]).length ≤ slot := length ▸ after
        rw [found, bindFirst_getElem?_open outside found]
      earlier := fun shorter order constraint member =>
        unrefuted.upTo fits order constraint ((posted constraint).mp member)
      decided := by
        obtain ⟨consistent, looked, meaning⟩ :=
          noneFalse_watched holds wellFormed room unrefuted value
        refine ⟨consistent, looked, meaning.trans ?_⟩
        exact forall_congr' fun constraint => imp_congr_left (posted constraint).symm }

/-- Wherever the loop stands and has a value to try, it may look at the constraints that mention the
variable only. -/
theorem Stands.thorough (holds : model.Holds network) (wellFormed : network.WellFormed)
    (stands : Stands network cursor.assignment cursor.chosen) {node : Node}
    (found : model.node? cursor = some node) : model.Thorough node := by
  obtain ⟨entry, declared, value, present, rfl⟩ :
      ∃ entry, model.declared[cursor.chosen.length]? = some entry ∧
        ∃ value, entry.values[cursor.position]? = some value ∧
          ⟨cursor.chosen.length,
            cursor.assignment.setIfInBounds cursor.chosen.length (some value)⟩ = node := by
    simpa [Model.node?, Option.bind_eq_some_iff] using found
  rw [holds.getElem?_eq] at declared
  have length := Network.length_valuesAt (Network.length_le_of_placed stands.placed)
  have within := within_valuesAt_take (stands.live declared present).placed
  rw [Network.valuesAt_concat declared present, List.length_append, List.length_singleton,
    ← length] at within
  rw [stands.bind declared present, Network.valuesAt_concat declared present, ← length]
  exact thorough_push holds wellFormed stands.unrefuted within

/-! ### Searches -/

/-- Under any time limit a search passes cursors of the loop. -/
theorem exists_visits (holds : model.Holds network) (wellFormed : network.WellFormed)
    (clock : Clock) (limit : TimeLimit) (readings : Nat) :
    ∃ passed, model.Visits clock limit readings passed := by
  obtain ⟨rounds, outcome, searches⟩ := model.exists_searches
  obtain ⟨passed, last, final, passes, turned, rfl⟩ := searches.loops.exists_passes
  have looked := noneFalse_closed holds wellFormed
  have stands := ((stands_unbound holds wellFormed).passes holds wellFormed passes).2
  obtain ⟨ending, rfl, idle, short⟩ := stands.ends holds wellFormed turned
  have counted : (triedIn (passed.map model.roundAt ++ final)).length =
      (model.nodes passed).length := by
    rw [triedIn_append, idle, List.append_nil, Model.length_triedIn_map_roundAt]
  match limited : limit.deadline? (clock.reading readings) with
  | .error fault =>
    have solved : model.solve clock limit readings = _ := solve_refused limited
    exact ⟨[], .refuses rfl limited (by rw [solved]) (by rw [solved])⟩
  | .ok none =>
    have solved := solve_free looked searches limited
    refine ⟨passed, .decides passes turned (fun deadline same => ?_) (by rw [solved]; rfl)
      (by rw [solved, counted])⟩
    cases limited.symm.trans same
  | .ok (some deadline) =>
    rcases Timer.exists_first_late ⟨clock, deadline⟩ (readings + 1)
        (passed.map model.roundAt ++ final).length with timely | ⟨count, inside, late, before⟩
    · have solved := solve_timely looked searches limited timely
      rw [List.length_append, List.length_map] at timely
      refine ⟨passed, .decides passes turned (fun other same => ?_) (by rw [solved]; rfl)
        (by rw [solved, counted])⟩
      cases limited.symm.trans same
      exact timely
    · have solved := solve_late looked searches limited inside late before
      rw [List.length_append, List.length_map] at inside
      -- The loop is over in one round at most, so the late reading is the one at a cursor that it
      -- passes or at the last one.
      have among : count ≤ passed.length := by omega
      have length : (passed.take count).length = count := List.length_take_of_le among
      rw [List.take_append_of_le_length (by rwa [List.length_map]), ← List.map_take,
        Model.length_triedIn_map_roundAt] at solved
      obtain ⟨last, passes⟩ := passes.take count
      exact ⟨passed.take count, .expires passes limited (by rwa [length]) (by rwa [length])
        (by rw [solved]) (by rw [solved])⟩

end

/-- A model that was built by any calls watches the constraints that mention a variable: all of
them, no others, each once.  This is enough: wherever the loop tries a value, only the variables up
to the one it binds have values, no constraint is false while fewer of them are bound, and the
constraints that mention the variable tell whether any constraint of the model is false.  Under any
time limit a search tries the values that the loop tries until it is over or late. -/
theorem watching_suffices (steps : List (BuildStep Int))
    (admitted : Network.empty.AdmitsAll steps) :
    let model := (Model.empty : Model Int).performAll steps
    let network := (Network.empty : Network Int).extendAll steps
    model.declared.toList = network.declared ∧ model.constraints.toList = network.constraints ∧
      model.watchers.size = model.declared.size ∧
      (∀ slot < model.declared.size,
        (model.watchers.getD slot #[]).toList.Nodup ∧
        ∀ position, position ∈ model.watchers.getD slot #[] ↔
          ∃ constraint, model.constraints[position]? = some constraint ∧
            slot ∈ constraint.slots) ∧
      (∀ passed last, model.Passes model.start passed last →
        ∀ node ∈ model.nodes passed, model.Thorough node) ∧
      ∀ clock limit readings, ∃ passed, model.Visits clock limit readings passed := by
  intro model network
  have wellFormed : network.WellFormed :=
    Network.wellFormed_extendAll Network.wellFormed_empty admitted
  have holds : model.Holds network :=
    Model.holds_performAll Model.holds_empty Network.wellFormed_empty admitted
  refine ⟨holds.declared, holds.constraints, holds.covered.trans holds.size_eq.symm,
    fun slot inside => ?_, fun passed last passes node member => ?_,
    exists_visits holds wellFormed⟩
  · have watching := holds.watching slot (holds.size_eq ▸ inside)
    refine ⟨watching ▸ network.nodup_mentions slot, fun position => ?_⟩
    rw [← Array.mem_toList_iff, watching, Network.mem_mentions_iff, ← holds.constraints]
    simp only [Array.getElem?_toList]
  · obtain ⟨cursor, among, found⟩ := List.mem_filterMap.mp member
    have stands := ((stands_unbound holds wellFormed).passes holds wellFormed passes).1 cursor among
    exact stands.thorough holds wellFormed found

/-- Two variables that have to be the same, and a constraint that mentions none. -/
def retreating : List (BuildStep Int) :=
  [.declare ⟨"x", [1, 2]⟩, .declare ⟨"y", [2]⟩, .post (.all []), .post (.agree 0 1)]

/-- The search rejects the only value for the second variable and retreats from it.  When it then
tries the next value for the first one, the second one has none again. -/
theorem watching_suffices_retreating :
    let model := (Model.empty : Model Int).performAll retreating
    Network.empty.AdmitsAll retreating ∧ (model.watchers.getD 1 #[]).toList.Nodup ∧
      (∃ constraint ∈ model.constraints,
        constraint.evaluate #[some 1, some 2] = .ok (some false)) ∧
      model.Thorough ⟨0, #[some 2, none]⟩ ∧
      ∃ passed, model.Visits .counting (.whole 3) 0 passed := by
  intro model
  have admitted : Network.empty.AdmitsAll retreating := by
    refine ⟨trivial, trivial, ⟨rfl, ?_⟩, ⟨rfl, ?_⟩, trivial⟩ <;> decide
  obtain ⟨-, -, -, watching, thorough, visits⟩ := watching_suffices retreating admitted
  have passes : model.Passes model.start _ _ :=
    .onward rfl (.onward rfl (.onward rfl (.onward rfl (.stops _))))
  have thorough : ∀ node ∈ [⟨0, #[some 1, none]⟩, ⟨1, #[some 1, some 2]⟩, ⟨0, #[some 2, none]⟩],
    model.Thorough node := thorough _ _ passes
  refine ⟨admitted, (watching 1 (by decide)).1, ?_, thorough _ (by simp),
    visits .counting (.whole 3) 0⟩
  have rejected : noneFalse #[some 1, some 2] (model.watched 1) = .ok false := rfl
  obtain ⟨consistent, looked, meaning⟩ := (thorough ⟨1, #[some 1, some 2]⟩ (by simp)).decided
  rw [rejected] at looked
  cases looked
  by_contra none
  exact Bool.false_ne_true (meaning.mpr fun constraint member refuted =>
    none ⟨constraint, member, refuted⟩)

end Backtracking

end HorizonPlanner
