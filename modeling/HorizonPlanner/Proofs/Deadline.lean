/-
This file proves that a deadline only truncates a search.  A search whose readings
of the clock are all in time is the search without a limit; otherwise the first
late one ends it, and nothing but the nodes tried before it is left.

A longer limit gives no earlier deadline, so what decides under a limit decides
under every longer one.  Whole seconds are rounded to double precision before they
are added and the sum is rounded again, and each time the order is kept.
-/

import HorizonPlanner.Proofs.SearchWork
import HorizonPlanner.Proofs.TimeLimit
import HorizonPlanner.Proofs.ValueEquality

namespace HorizonPlanner

/-- No reading of a clock is infinitely early. -/
theorem Clock.begun (clock : Clock) (count : Nat) : .infinite true < clock.reading count := by
  induction count with
  | zero => exact clock.started
  | succ count inductionHypothesis =>
    exact Binary64.lt_of_lt_of_le inductionHypothesis (clock.monotone count)

/-- Numbers of the format are not changed by rounding. -/
theorem Binary64.Standard.rounded_eq {number : Binary64} (standard : number.Standard)
    {extent : Extent} (stated : number.extent? = some extent) : extent.rounded = extent := by
  match number, standard, stated with
  | .infinite true, _, rfl | .infinite false, _, rfl => rfl
  | .finite negative significand exponent, ⟨short, least, within, _⟩, rfl =>
    have short : significand < 2 ^ 53 := short
    have nonneg : (0 : Rat) ≤ significand * 2 ^ exponent := by positivity
    have small := le_largestFinite short within
    have same := roundedMagnitude_eq short least
    rw [exactValue_eq_mul, Extent.rounded]
    generalize (significand : Rat) * 2 ^ exponent = magnitude at small same nonneg
    cases negative with
    | false =>
      rw [if_neg Bool.false_ne_true, one_mul, same, decide_eq_false (not_lt.mpr nonneg),
        Extent.placed_of_le small, if_neg Bool.false_ne_true, one_mul]
    | true =>
      rw [if_pos rfl, neg_one_mul, roundedMagnitude_neg, same, Extent.placed_of_le small]
      obtain zero | positive := nonneg.eq_or_lt
      · simp [← zero]
      · rw [decide_eq_true (neg_neg_of_pos positive), if_pos rfl, neg_one_mul]

namespace TimeLimit

/-! ### Longer limits -/

/-- A limit states no more seconds than another. -/
def AtMost (limit limit' : TimeLimit) : Prop :=
  ∃ extent extent', limit.extent? = some extent ∧ limit'.extent? = some extent' ∧ extent ≤ extent'

/-- The seconds of a limit are a whole number, or spelled as double precision has them. -/
def Standard : TimeLimit → Prop
  | .whole _ => True
  | .binary seconds => seconds.Standard

instance : DecidablePred Standard
  | .whole _ => isTrue trivial
  | .binary seconds => inferInstanceAs (Decidable seconds.Standard)

variable {limit limit' : TimeLimit} {seconds seconds' start : Binary64} {extent : Extent}

theorem eq_nearest_of_inBinary {whole : Int} (exact : inBinary (.whole whole) = .ok seconds) :
    seconds = Binary64.nearest false whole := by
  rw [inBinary, Value.binaryOfWhole, Binary64.ofWhole?] at exact
  split at exact
  next found =>
    cases exact
    split at found
    next => cases found
    next => exact (Option.some.inj found).symm
  next => cases exact

/-- The seconds of a limit are rounded, if they are a whole number. -/
theorem inBinary_extent? (standard : limit.Standard) (exact : limit.inBinary = .ok seconds)
    (stated : limit.extent? = some extent) : seconds.extent? = some extent.rounded := by
  cases limit with
  | whole whole =>
    cases stated
    rw [eq_nearest_of_inBinary exact, Binary64.nearest_extent?]
  | binary number =>
    cases exact
    rw [standard.rounded_eq stated]
    exact stated

theorem exists_extent? (positive : limit.isPositive = true) :
    ∃ extent, limit.extent? = some extent ∧ .rational 0 < extent := by
  rw [isPositive] at positive
  split at positive
  next extent stated => exact ⟨extent, stated, of_decide_eq_true positive⟩
  next => cases positive

/-- The seconds of a positive limit are not infinitely few. -/
theorem lowest_lt_inBinary (positive : limit.isPositive = true)
    (exact : limit.inBinary = .ok seconds) : .infinite true < seconds := by
  obtain ⟨extent, stated, above⟩ := exists_extent? positive
  cases limit with
  | whole whole =>
    cases stated
    rw [eq_nearest_of_inBinary exact]
    have nonneg : (0 : Rat) ≤ whole := (Extent.rational_lt_iff.mp above).le
    exact Binary64.lt_of_lt_of_le (by decide : Binary64.infinite true < Binary64.nearest false 0)
      (Binary64.nearest_mono false false nonneg)
  | binary number =>
    cases exact
    have lowest : Extent.lowest < extent :=
      Extent.lt_of_le_of_lt (Extent.lowest_le (.rational 0)) above
    exact Binary64.lt_iff.mpr ⟨_, _, rfl, stated, lowest⟩

theorem deadline?_of_positive (positive : limit.isPositive = true)
    (exact : limit.inBinary = .ok seconds) :
    limit.deadline? start = .ok (some (start.add seconds)) := by
  rw [deadline?, if_pos positive, exact]
  rfl

/-- A deadline is somewhere on the number line. -/
theorem deadline_defined {deadline : Binary64} (begun : .infinite true < start)
    (limited : limit.deadline? start = .ok (some deadline)) :
    ∃ extent, deadline.extent? = some extent := by
  rw [deadline?] at limited
  split at limited
  next positive =>
    cases exact : limit.inBinary with
    | error fault =>
      rw [exact] at limited
      cases limited
    | ok seconds =>
      rw [exact] at limited
      cases limited
      exact Binary64.add_defined begun (lowest_lt_inBinary positive exact)
  next => cases limited

theorem AtMost.isPositive (order : limit.AtMost limit') (positive : limit.isPositive = true) :
    limit'.isPositive = true := by
  obtain ⟨extent, extent', stated, stated', order⟩ := order
  obtain ⟨_, same, above⟩ := exists_extent? positive
  cases stated.symm.trans same
  rw [TimeLimit.isPositive, stated']
  exact decide_eq_true (Extent.lt_of_lt_of_le above order)

/-- A limit that states no fewer seconds gives no earlier deadline. -/
theorem AtMost.deadline_le (order : limit.AtMost limit') (standard : limit.Standard)
    (standard' : limit'.Standard) (positive : limit.isPositive = true)
    (exact : limit.inBinary = .ok seconds) (exact' : limit'.inBinary = .ok seconds')
    (begun : .infinite true < start) : start.add seconds ≤ start.add seconds' := by
  obtain ⟨extent, extent', stated, stated', order⟩ := order
  refine Binary64.add_mono begun (lowest_lt_inBinary positive exact) ?_
  exact Binary64.le_iff.mpr ⟨_, _, inBinary_extent? standard exact stated,
    inBinary_extent? standard' exact' stated', Extent.rounded_mono order⟩

end TimeLimit

namespace Backtracking

/-! ### Searches under a limit -/

/-- A search that does all its rounds before a deadline does them before a later one. -/
theorem solve_later {model : Model Int} {clock : Clock} {limit : TimeLimit} {readings : Nat}
    {rounds : List Round} {outcome : Except Fault (Ending Int)} {deadline deadline' : Binary64}
    (looked : noneFalse model.unbound model.closed = .ok true)
    (searches : model.Searches rounds outcome)
    (limited : limit.deadline? (clock.reading readings) = .ok (some deadline'))
    (later : deadline ≤ deadline')
    (timely : ∀ count < rounds.length, ¬ deadline < clock.reading (readings + 1 + count)) :
    model.solve clock limit readings =
      (outcome.map model.answer, ⟨(triedIn rounds).length, readings + 1 + rounds.length⟩) :=
  solve_timely looked searches limited fun count inside late =>
    timely count inside (Binary64.lt_of_le_of_lt later late)

theorem Finds.exists_decided {network : Network Int} {outcome : Except Fault (Ending Int)}
    {solution : Option (List Nat)} (finds : Finds network outcome solution) (model : Model Int) :
    ∃ ending, outcome = .ok ending ∧ (model.answer ending).status ≠ .timeout := by
  cases solution with
  | none => exact ⟨_, finds, nofun⟩
  | some positions => exact ⟨_, finds.2, nofun⟩

/-- A model that was built by any calls is solved by one run of the loop, which ends.  Without a
limit the search does all rounds of this run.  Under a limit, unless it is so many whole seconds
that there can be no deadline, it gives up, with no more nodes, if and only if a reading of the
clock is past the deadline, where one reading is taken for each round after that for the deadline
itself; otherwise it gives the same answer with the same nodes.  What it decides under a limit it
decides under every longer one for which there can be a deadline.  It takes no more readings of the
clock than one for the deadline and one for each round, and so many readings that never go back are
those of some clock. -/
theorem solve_under_limit (steps : List (BuildStep Int)) (admitted : Network.empty.AdmitsAll steps)
    (readings : Nat) :
    ∃ rounds ending,
      (∀ rounds' outcome, (Model.empty.performAll steps).Loops (Model.empty.performAll steps).start
        rounds' outcome ↔ rounds' = rounds ∧ outcome = .ok ending) ∧
      (∀ clock, (Model.empty.performAll steps).solve clock .unlimited readings =
        (.ok ((Model.empty.performAll steps).answer ending),
          ⟨(triedIn rounds).length, readings⟩)) ∧
      (∀ (clock : Clock) (limit : TimeLimit), limit.isPositive = true →
        limit.Excessive ∧ (Model.empty.performAll steps).solve clock limit readings =
            (.error .numberTooLarge, ⟨0, readings + 1⟩) ∨
        ∃ seconds, limit.inBinary = .ok seconds ∧
          (((Model.empty.performAll steps).solve clock limit readings).1 =
                .ok ((Model.empty.performAll steps).zeros .timeout) ∧
              ((Model.empty.performAll steps).solve clock limit readings).2.nodes ≤
                (triedIn rounds).length ∧
              ((Model.empty.performAll steps).solve clock limit readings).2.readings ≤
                readings + 1 + rounds.length ∨
            (Model.empty.performAll steps).solve clock limit readings =
              (.ok ((Model.empty.performAll steps).answer ending),
                ⟨(triedIn rounds).length, readings + 1 + rounds.length⟩)) ∧
          ((∃ answer, ((Model.empty.performAll steps).solve clock limit readings).1 = .ok answer ∧
              answer.status = .timeout) ↔
            ∃ count < rounds.length,
              (clock.reading readings).add seconds < clock.reading (readings + 1 + count)) ∧
          ∀ limit' : TimeLimit, limit.AtMost limit' → limit.Standard → limit'.Standard →
            ¬ limit'.Excessive →
            ∀ answer, ((Model.empty.performAll steps).solve clock limit readings).1 = .ok answer →
              answer.status ≠ .timeout →
              (Model.empty.performAll steps).solve clock limit' readings =
                (Model.empty.performAll steps).solve clock limit readings) ∧
      ∀ reading : Nat → Binary64, (∀ count, reading count ≤ reading (count + 1)) →
        .infinite true < reading 0 →
        ∃ clock : Clock, ∀ count ≤ readings + rounds.length,
          clock.reading count = reading count := by
  have wellFormed := Network.wellFormed_extendAll Network.wellFormed_empty admitted
  have holds := Model.holds_performAll Model.holds_empty Network.wellFormed_empty admitted
  generalize Model.empty.performAll steps = model at holds ⊢
  generalize Network.empty.extendAll steps = network at holds wellFormed
  have looked := noneFalse_closed holds wellFormed
  obtain ⟨rounds, outcome, searches⟩ := model.exists_searches
  obtain ⟨solution, finds, _⟩ :=
    (stands_unbound holds wellFormed).works holds wellFormed searches.loops
  obtain ⟨ending, rfl, decided⟩ := finds.exists_decided model
  refine ⟨rounds, ending, fun rounds' outcome => ⟨searches.loops.unique, ?_⟩,
    fun clock => solve_free looked searches rfl, fun clock limit positive => ?_,
    fun reading monotone started => Clock.exists_beginning monotone started _⟩
  · rintro ⟨rfl, rfl⟩
    exact searches.loops
  obtain excessive | feasible := em limit.Excessive
  · exact Or.inl ⟨excessive, solve_refused (TimeLimit.deadline?_eq_error_iff.mpr ⟨rfl, excessive⟩)⟩
  obtain ⟨seconds, exact⟩ := TimeLimit.exists_inBinary_eq_ok positive feasible
  have limited : limit.deadline? (clock.reading readings) = _ :=
    TimeLimit.deadline?_of_positive positive exact
  refine Or.inr ⟨seconds, exact, ?_⟩
  rcases solve_limited looked searches limited with ⟨late, gaveUp, fewer, taken⟩ | ⟨timely, same⟩
  · refine ⟨Or.inl ⟨gaveUp, fewer, taken⟩, iff_of_true ⟨_, gaveUp, rfl⟩ late,
      fun limit' _ _ _ _ answer solved status => ?_⟩
    cases gaveUp.symm.trans solved
    exact absurd rfl status
  · refine ⟨Or.inr same, iff_of_false ?_ ?_,
      fun limit' longer standard standard' feasible' _ _ _ => ?_⟩
    · rintro ⟨answer, solved, status⟩
      rw [same] at solved
      cases solved
      exact decided status
    · rintro ⟨count, inside, late⟩
      exact timely count inside late
    · obtain ⟨seconds', exact'⟩ :=
        TimeLimit.exists_inBinary_eq_ok (longer.isPositive positive) feasible'
      rw [same]
      exact solve_later looked searches
        (TimeLimit.deadline?_of_positive (longer.isPositive positive) exact')
        (longer.deadline_le standard standard' positive exact exact' (clock.begun readings)) timely

/-- Three values are tried, and the clock reads a second more each time: two seconds are too few,
three are enough, and so are three and a half.  There can be no deadline for ten to the power of
four hundred seconds. -/
theorem solve_under_limit_repeatedValues :
    (∃ answer, ((Model.empty.performAll repeatedValues).solve .counting (.whole 2) 0).1 =
        .ok answer ∧ answer.status = .timeout) ∧
      (Model.empty.performAll repeatedValues).solve .counting (.whole 3) 0 =
        (.ok ⟨.satisfiable, [2, 2]⟩, ⟨3, 4⟩) ∧
      (Model.empty.performAll repeatedValues).solve .counting
          (.binary (.finite false (7 * Binary64.powerOfTwo 50) (-51))) 0 =
        (Model.empty.performAll repeatedValues).solve .counting (.whole 3) 0 ∧
      (Model.empty.performAll repeatedValues).solve .counting
          (.whole (Binary64.powerOfTen 400)) 0 = (.error .numberTooLarge, ⟨0, 1⟩) := by
  obtain ⟨rounds, ending, run, _, limited, _⟩ :=
    solve_under_limit repeatedValues repeatedValues_admitted 0
  have loops : (Model.empty.performAll repeatedValues).Loops
      (Model.empty.performAll repeatedValues).start
      [.tries [0], .tries [0, 0], .tries [0, 1]] (.ok (.found #[some 2, some 2])) :=
    .onward rfl (.onward rfl (.onward rfl (.ends rfl)))
  obtain ⟨rfl, same⟩ := (run _ _).mp loops
  cases same
  have feasible {seconds : Int} (few : seconds < Binary64.overflowThreshold) :
      ∀ {failed : Prop}, ¬ ((TimeLimit.whole seconds).Excessive ∧ failed) :=
    fun excessive => TimeLimit.not_excessive_whole few excessive.1
  obtain ⟨_, exact, _, late, _⟩ :=
    (limited .counting (.whole 2) rfl).resolve_left (feasible (by decide +kernel))
  obtain ⟨_, exact', solved, late', longer⟩ :=
    (limited .counting (.whole 3) rfl).resolve_left (feasible (by decide +kernel))
  obtain rfl := TimeLimit.eq_nearest_of_inBinary exact
  obtain rfl := TimeLimit.eq_nearest_of_inBinary exact'
  have timely : ∀ count < 3, ¬ (Clock.counting.reading 0).add (Binary64.nearest false (3 : Int)) <
      Clock.counting.reading (0 + 1 + count) := by
    decide +kernel
  have decided := solved.resolve_left fun gaveUp => by
    obtain ⟨count, inside, past⟩ := late'.mp ⟨_, gaveUp.1, rfl⟩
    exact timely count inside past
  have excessive : (TimeLimit.whole (Binary64.powerOfTen 400)).Excessive :=
    ⟨_, rfl, by decide +kernel⟩
  refine ⟨late.mpr ⟨2, by decide, by decide +kernel⟩, decided, ?_, ?_⟩
  · exact longer _ ⟨_, _, rfl, rfl, by decide +kernel⟩ trivial (by decide +kernel)
      (fun ⟨_, impossible, _⟩ => nomatch impossible) _ (congrArg Prod.fst decided) nofun
  · rcases limited .counting (.whole (Binary64.powerOfTen 400)) (by decide +kernel) with
      ⟨_, failed⟩ | ⟨_, exact, _⟩
    · exact failed
    · cases exact.symm.trans ((TimeLimit.inBinary_eq_error_iff (by decide +kernel)).mpr
        ⟨rfl, excessive⟩)

end Backtracking

end HorizonPlanner
