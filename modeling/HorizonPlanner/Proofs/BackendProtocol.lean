/-
This file describes how a backend is used that cannot be interrupted.  Without a
positive time limit it is asked once.  Under one it is asked for slice after
slice, and the slices end with the first that decides or fails, or after which
the clock has reached the deadline: there is a last one, as the clock gets there.
It is not asked at all if the limit is so long that there can be no deadline.
A model is asked for once, if the backend said that there is one, and a session
that was opened is closed once and last, whatever failed in between.

What happens depends on the readings of the clock that are taken, and on no
later one.
-/

import HorizonPlanner.Proofs.Deadline

namespace HorizonPlanner

namespace Cnf

/-! ### Slices -/

/-- A session is asked for some slices and one more: none of the earlier ones decided, and after
each of them the clock was before the deadline; the last one decided or failed, or the clock was not
before the deadline any more. -/
structure Session.Lasts (session : Session) (clock : Clock) (deadline : Binary64)
    (readings slices : Nat) : Prop where
  undecided : ∀ slice < slices, session.answer slice = .ok none
  early : ∀ slice < slices, clock.reading (readings + slice) < deadline
  ended : session.answer slices = .ok none → deadline ≤ clock.reading (readings + slices)

variable {session : Session} {clock clock' : Clock} {deadline : Binary64} {readings slices : Nat}

/-- The clock reaches the deadline, so there is a last slice. -/
theorem Session.exists_lasts (session : Session) (clock : Clock) {extent : Extent}
    (defined : deadline.extent? = some extent) (readings : Nat) :
    ∃ slices, session.Lasts clock deadline readings slices := by
  classical
  have ends : ∃ slice, session.answer slice = .ok none →
      ¬ clock.reading (readings + slice) < deadline := by
    obtain ⟨lifetime, ended⟩ := clock.ended
    refine ⟨lifetime, fun _ => ?_⟩
    rw [ended _ (Nat.le_add_left _ _)]
    exact Binary64.not_infinite_lt deadline
  refine ⟨Nat.find ends, fun slice before => ?_, fun slice before => ?_, fun undecided => ?_⟩
  · exact (Classical.not_imp.mp (Nat.find_min ends before)).1
  · exact not_not.mp (Classical.not_imp.mp (Nat.find_min ends before)).2
  · obtain ⟨_, _, read, _, _⟩ := Binary64.le_iff.mp (clock.monotone (readings + Nat.find ends))
    exact Binary64.le_of_not_lt defined read (Nat.find_spec ends undecided)

/-- The requests of some slices and one more. -/
def callsOfSlices (slices : Nat) : List Call := (List.replicate (slices + 1) sliceCalls).flatten

/-- The number of readings after the last slice: its own is only taken if it decided nothing. -/
def Session.readingsAfter (session : Session) (readings slices : Nat) : Nat :=
  match session.answer slices with
  | .ok none => readings + slices + 1
  | _ => readings + slices

theorem Session.Lasts.inquireInSlices_eq (lasts : session.Lasts clock deadline readings slices)
    {slice remaining : Nat} (split : slice + remaining = slices) :
    inquireInSlices session clock deadline slice (readings + slice) =
      ⟨session.answer slices, callsOfSlices remaining,
        session.readingsAfter readings slices⟩ := by
  -- Along the slices that remain; each of them but the last goes on.
  induction remaining generalizing slice with
  | zero =>
    obtain rfl : slice = slices := split
    rw [inquireInSlices, readingsAfter]
    cases answered : session.answer slice with
    | error reason => rfl
    | ok decided =>
      cases decided with
      | some truth => rfl
      | none => exact if_neg (Binary64.not_lt_of_le (lasts.ended answered))
  | succ remaining inductionHypothesis =>
    have before : slice < slices := by omega
    have split' : slice + 1 + remaining = slices := by omega
    have later := inductionHypothesis split'
    rw [← Nat.add_assoc] at later
    rw [inquireInSlices, lasts.undecided slice before]
    dsimp only
    rw [if_pos (lasts.early slice before), later]
    rfl

/-! ### Asking a session -/

/-- How a session is asked under what was stated for the time limit: the requests, what comes of
them, and the number of readings of the clock after them. -/
inductive Session.Asks (session : Session) (clock : Clock) (readings : Nat) :
    Except Fault TimeLimit → List Call → Except String (Option Bool) → Nat → Prop
  /-- What is no number of seconds is found out before anything is asked. -/
  | unfit (fault : Fault) :
    Asks session clock readings (.error fault) [] (.error fault.message) readings
  | once {limit : TimeLimit} (unlimited : limit.isPositive = false) :
    Asks session clock readings (.ok limit) [.solve] (session.answer 0) readings
  /-- So is, with a reading of the clock, that there can be no deadline. -/
  | endless {limit : TimeLimit} (excessive : limit.Excessive) :
    Asks session clock readings (.ok limit) [] (.error Fault.numberTooLarge.message)
      (readings + 1)
  | inSlices {limit : TimeLimit} {deadline : Binary64} {slices : Nat}
      (limited : limit.deadline? (clock.reading readings) = .ok (some deadline))
      (lasts : session.Lasts clock deadline (readings + 1) slices) :
    Asks session clock readings (.ok limit) (callsOfSlices slices) (session.answer slices)
      (session.readingsAfter (readings + 1) slices)

/-- What is concluded from the answer of a session: the further requests it takes, and the
outcome. -/
inductive Session.Concludes {α : Type} [Symbol α] (session : Session) (model : Model α)
    (engine : String) : Except String (Option Bool) → List Call → Except Fault (Answer α) → Prop
  | failed (reason : String) :
    Concludes session model engine (.error reason) [] (.error (.backendFailed engine reason))
  | undecided : Concludes session model engine (.ok none) [] (.ok (model.zeros .timeout))
  | refuted :
    Concludes session model engine (.ok (some false)) [] (.ok (model.zeros .unsatisfiable))
  | satisfied {literals : Option (List Int)} (given : session.model = .ok literals) :
    Concludes session model engine (.ok (some true)) [.model]
      (.ok (model.answerOf (literals.getD [])))
  | withheld {reason : String} (refused : session.model = .error reason) :
    Concludes session model engine (.ok (some true)) [.model]
      (.error (.backendFailed engine reason))

variable {α : Type} [Symbol α] {model : Model α} {engine : String} {backend : Backend}
  {limit : Except Fault TimeLimit} {asked found : List Call}
  {answer : Except String (Option Bool)} {outcome : Except Fault (Answer α)} {taken : Nat}

/-! ### One run of a session -/

theorem Session.exists_asks (session : Session) (clock : Clock) (limit : Except Fault TimeLimit)
    (readings : Nat) : ∃ asked answer taken,
      session.Asks clock readings limit asked answer taken := by
  cases limit with
  | error fault => exact ⟨_, _, _, .unfit fault⟩
  | ok limit =>
    match limited : limit.deadline? (clock.reading readings) with
    | .error fault => exact ⟨_, _, _, .endless (TimeLimit.deadline?_eq_error_iff.mp limited).2⟩
    | .ok none => exact ⟨_, _, _, .once (TimeLimit.deadline?_eq_none_iff.mp limited)⟩
    | .ok (some deadline) =>
      obtain ⟨extent, defined⟩ := TimeLimit.deadline_defined (clock.begun readings) limited
      obtain ⟨slices, lasts⟩ := session.exists_lasts clock defined (readings + 1)
      exact ⟨_, _, _, .inSlices limited lasts⟩

theorem Session.exists_concludes (session : Session) (model : Model α) (engine : String)
    (answer : Except String (Option Bool)) :
    ∃ found outcome, session.Concludes model engine answer found outcome := by
  match answer with
  | .error reason => exact ⟨_, _, .failed reason⟩
  | .ok none => exact ⟨_, _, .undecided⟩
  | .ok (some false) => exact ⟨_, _, .refuted⟩
  | .ok (some true) =>
    cases modelled : session.model with
    | error reason => exact ⟨_, _, .withheld modelled⟩
    | ok literals => exact ⟨_, _, .satisfied modelled⟩

theorem Session.Concludes.conclude_eq
    (concludes : session.Concludes model engine answer found outcome) :
    (model.conclude session answer).1.mapError (.backendFailed engine) = outcome ∧
      (model.conclude session answer).2 = found := by
  cases concludes with
  | failed | undecided | refuted => exact ⟨rfl, rfl⟩
  | satisfied given => rw [Model.conclude, given]; exact ⟨rfl, rfl⟩
  | withheld refused => rw [Model.conclude, refused]; exact ⟨rfl, rfl⟩

theorem Session.Asks.consult_eq (asks : session.Asks clock readings limit asked answer taken)
    (model : Model α) :
    model.consult session false clock limit readings =
      ((model.conclude session answer).1,
        asked ++ (model.conclude session answer).2 ++ [.delete], taken) := by
  cases asks with
  | unfit => rfl
  | @once limit unlimited =>
    have inquired :
        inquire session false clock limit readings = ⟨session.answer 0, [.solve], readings⟩ := by
      unfold inquire
      rw [TimeLimit.deadline?_eq_none_iff.mpr unlimited]
    simp only [Model.consult, inquired]
  | @endless limit excessive =>
    have inquired : inquire session false clock limit readings =
        ⟨.error Fault.numberTooLarge.message, [], readings + 1⟩ := by
      unfold inquire
      rw [TimeLimit.deadline?_eq_error_iff.mpr ⟨rfl, excessive⟩]
    simp only [Model.consult, inquired]
  | @inSlices limit deadline slices limited lasts =>
    have inquired : inquire session false clock limit readings =
        ⟨session.answer slices, callsOfSlices slices,
          session.readingsAfter (readings + 1) slices⟩ := by
      unfold inquire
      rw [limited]
      exact lasts.inquireInSlices_eq (Nat.zero_add _)
    simp only [Model.consult, inquired]

/-- A contradiction needs no backend. -/
theorem Model.solve_of_contradiction (contradictory : model.contradiction = true)
    (clock : Clock) (limit : Except Fault TimeLimit) (readings : Nat) :
    model.solve engine backend false clock limit readings =
      ⟨.ok (model.zeros .unsatisfiable), [], readings⟩ :=
  if_pos contradictory

/-- Nothing is asked of a backend that opens no session. -/
theorem Model.solve_of_unopened {reason : String} (possible : model.contradiction = false)
    (unopened : backend model.formula = .error reason) (clock : Clock)
    (limit : Except Fault TimeLimit) (readings : Nat) :
    model.solve engine backend false clock limit readings =
      ⟨.error (.backendFailed engine reason), [], readings⟩ := by
  rw [solve, possible, if_neg Bool.false_ne_true, unopened]

/-- A session that is opened is asked, its answer is concluded from, and it is closed. -/
theorem Model.solve_eq (possible : model.contradiction = false)
    (opened : backend model.formula = .ok session)
    (asks : session.Asks clock readings limit asked answer taken)
    (concludes : session.Concludes model engine answer found outcome) :
    model.solve engine backend false clock limit readings =
      ⟨outcome, asked ++ found ++ [.delete], taken⟩ := by
  obtain ⟨outcome_eq, found_eq⟩ := concludes.conclude_eq
  rw [solve, possible, if_neg Bool.false_ne_true, opened]
  dsimp only
  rw [asks.consult_eq model, outcome_eq, found_eq]

/-- Nothing depends on readings of the clock that are not taken. -/
theorem Session.Asks.congr (asks : session.Asks clock readings limit asked answer taken)
    (agree : ∀ count < taken, clock'.reading count = clock.reading count) :
    session.Asks clock' readings limit asked answer taken := by
  cases asks with
  | unfit fault => exact .unfit fault
  | once unlimited => exact .once unlimited
  | endless excessive => exact .endless excessive
  | @inSlices limit deadline slices limited lasts =>
    have least : readings + 1 + slices ≤ session.readingsAfter (readings + 1) slices := by
      rw [readingsAfter]
      split <;> omega
    have limited' : limit.deadline? (clock'.reading readings) = .ok (some deadline) := by
      rwa [agree readings (by omega)]
    refine .inSlices limited' ⟨lasts.undecided, fun slice before => ?_, fun undecided => ?_⟩
    · rw [agree _ (by omega)]
      exact lasts.early slice before
    · rw [agree _ (by rw [readingsAfter, undecided]; exact Nat.lt_succ_self _)]
      exact lasts.ended undecided

/-- No reading is taken after one that has reached the deadline. -/
theorem Session.Asks.taken_le (asks : session.Asks clock readings limit asked answer taken)
    {last : Nat} (after : readings < last)
    (reached : ∀ stated deadline, limit = .ok stated →
      stated.deadline? (clock.reading readings) = .ok (some deadline) →
        deadline ≤ clock.reading last) : taken ≤ last + 1 := by
  cases asks with
  | unfit | once | endless => omega
  | @inSlices limit deadline slices limited lasts =>
    obtain ⟨before, rfl⟩ := Nat.exists_eq_add_of_le (Nat.succ_le_of_lt after)
    have few : slices ≤ before := by
      by_contra more
      exact Binary64.not_lt_of_le (reached limit deadline rfl limited)
        (lasts.early before (Nat.not_le.mp more))
    rw [readingsAfter]
    split <;> omega

/-! ### The requests -/

/-- The requests to decide neither close a session nor ask it for a model. -/
theorem Session.Asks.calls (asks : session.Asks clock readings limit asked answer taken) :
    ∀ call ∈ asked, call ≠ .model ∧ call ≠ .delete := by
  cases asks with
  | unfit | endless => exact fun _ member => absurd member List.not_mem_nil
  | once => exact List.forall_mem_singleton.mpr ⟨nofun, nofun⟩
  | inSlices =>
    intro call member
    obtain ⟨slice, among, requested⟩ := List.mem_flatten.mp member
    rw [List.eq_of_mem_replicate among] at requested
    rcases List.mem_pair.mp requested with rfl | rfl <;> exact ⟨nofun, nofun⟩

/-- A session is closed once and last. -/
theorem Session.closes (asks : session.Asks clock readings limit asked answer taken)
    (concludes : session.Concludes model engine answer found outcome) :
    (asked ++ found ++ [Call.delete]).count Call.delete = 1 ∧
      (asked ++ found ++ [Call.delete]).getLast? = some .delete := by
  have notAsked : asked.count Call.delete = 0 :=
    List.count_eq_zero.mpr fun member => (asks.calls _ member).2 rfl
  have notFound : found.count Call.delete = 0 := by cases concludes <;> rfl
  refine ⟨?_, List.getLast?_concat⟩
  rw [List.count_append, List.count_append, notAsked, notFound]
  rfl

/-- A session is asked for a model once, if it said that there is one. -/
theorem Session.models (asks : session.Asks clock readings limit asked answer taken)
    (concludes : session.Concludes model engine answer found outcome) :
    (answer = .ok (some true) → (asked ++ found ++ [Call.delete]).count Call.model = 1) ∧
      (answer ≠ .ok (some true) → Call.model ∉ asked ++ found ++ [.delete]) := by
  have notAsked : Call.model ∉ asked := fun member => (asks.calls _ member).1 rfl
  cases concludes with
  | failed | undecided | refuted =>
    refine ⟨nofun, fun _ member => ?_⟩
    rcases List.mem_append.mp member with before | last
    · exact notAsked (List.append_nil asked ▸ before)
    · exact nomatch List.mem_singleton.mp last
  | satisfied | withheld =>
    refine ⟨fun _ => ?_, fun other => absurd rfl other⟩
    rw [List.count_append, List.count_append, List.count_eq_zero.mpr notAsked]
    rfl

/-! ### Failures and giving up -/

theorem Session.Concludes.eq_backendFailed {fault : Fault}
    (concludes : session.Concludes model engine answer found (.error fault)) :
    ∃ reason, fault = .backendFailed engine reason := by
  cases concludes <;> exact ⟨_, rfl⟩

theorem Session.Concludes.undecided_of_timeout {given : Answer α}
    (concludes : session.Concludes model engine answer found (.ok given))
    (timeout : given.status = .timeout) : answer = .ok none := by
  cases concludes with
  | undecided => rfl
  | refuted => cases timeout
  | satisfied => cases timeout

/-- Nothing was decided in time: a session that was asked once did not decide, or the last slice
did not and the clock was not before the deadline any more. -/
def Session.RanOut (session : Session) (clock : Clock) (readings : Nat) (limit : TimeLimit) :
    Prop :=
  (limit.isPositive = false ∧ session.answer 0 = .ok none) ∨
    ∃ deadline slices, limit.deadline? (clock.reading readings) = .ok (some deadline) ∧
      session.Lasts clock deadline (readings + 1) slices ∧ session.answer slices = .ok none ∧
      deadline ≤ clock.reading (readings + 1 + slices)

theorem Session.Asks.ranOut (asks : session.Asks clock readings limit asked (.ok none) taken) :
    ∃ stated, limit = .ok stated ∧ session.RanOut clock readings stated := by
  generalize undecided : (Except.ok none : Except String (Option Bool)) = answer at asks
  cases asks with
  | unfit | endless => cases undecided
  | once unlimited => exact ⟨_, rfl, Or.inl ⟨unlimited, undecided.symm⟩⟩
  | inSlices limited lasts =>
    exact ⟨_, rfl, Or.inr ⟨_, _, limited, lasts, undecided.symm, lasts.ended undecided.symm⟩⟩

theorem family_backendFailed (engine reason : String) :
    (Fault.backendFailed engine reason).family = .engine :=
  rfl

/-! ### Solving -/

/-- Solving takes no reading of the clock after one that has reached the deadline. -/
theorem Model.readings_solve_le (model : Model α) (engine : String) (backend : Backend) {last : Nat}
    (after : readings < last)
    (reached : ∀ stated deadline, limit = .ok stated →
      stated.deadline? (clock.reading readings) = .ok (some deadline) →
        deadline ≤ clock.reading last) :
    (model.solve engine backend false clock limit readings).readings ≤ last + 1 := by
  cases contradictory : model.contradiction with
  | true =>
    rw [solve_of_contradiction contradictory]
    exact Nat.le_succ_of_le after.le
  | false =>
    cases opened : backend model.formula with
    | error reason =>
      rw [solve_of_unopened contradictory opened]
      exact Nat.le_succ_of_le after.le
    | ok session =>
      obtain ⟨asked, answer, taken, asks⟩ := session.exists_asks clock limit readings
      obtain ⟨found, outcome, concludes⟩ := session.exists_concludes model engine answer
      rw [solve_eq contradictory opened asks concludes]
      exact asks.taken_le after reached

/-- Any readings that never go back and reach the deadline are those of a clock, as far as they are
taken. -/
theorem Model.exists_clock_of_reached (model : Model α) (engine : String) (backend : Backend)
    {reading : Nat → Binary64} (monotone : ∀ count, reading count ≤ reading (count + 1))
    (started : .infinite true < reading 0) (last : Nat) (after : readings < last)
    (reached : ∀ stated deadline, limit = .ok stated →
      stated.deadline? (reading readings) = .ok (some deadline) → deadline ≤ reading last) :
    ∃ clock : Clock, (∀ count ≤ last, clock.reading count = reading count) ∧
      (model.solve engine backend false clock limit readings).readings ≤ last + 1 := by
  obtain ⟨clock, agree⟩ := Clock.exists_beginning monotone started last
  refine ⟨clock, agree, model.readings_solve_le engine backend after fun stated deadline => ?_⟩
  rw [agree readings after.le, agree last (Nat.le_refl last)]
  exact reached stated deadline

/-- How a backend that cannot be interrupted is used.  A contradiction is answered without one, and
nothing is asked of one that cannot be opened.  An opened session is asked, the outcome is concluded
from its answer, and it is closed once and last; it is asked for a model once if it said that there
is one, and otherwise never.  What fails is the backend, and that is reported under the name of the
engine.  A search is only given up if a session that was asked once did not decide, or if the last
slice did not and the clock had reached the deadline.  Readings of the clock that are not taken do
not matter, and none is taken after one that reached the deadline.  So this holds of any readings
that never go back and reach it, as up to there they are those of a clock. -/
theorem Model.solve_protocol (model : Model α) (engine : String) (backend : Backend)
    (clock : Clock) (limit : Except Fault TimeLimit) (readings : Nat) :
    let report := model.solve engine backend false clock limit readings
    (model.contradiction = true →
      report = ⟨.ok (model.zeros .unsatisfiable), [], readings⟩) ∧
    (model.contradiction = false → ∀ reason, backend model.formula = .error reason →
      report = ⟨.error (.backendFailed engine reason), [], readings⟩) ∧
    (model.contradiction = false → ∀ session, backend model.formula = .ok session →
      ∃ asked answer found, session.Asks clock readings limit asked answer report.readings ∧
        session.Concludes model engine answer found report.outcome ∧
        report.calls = asked ++ found ++ [.delete] ∧
        (report.calls.count .delete = 1 ∧ report.calls.getLast? = some .delete) ∧
        (answer = .ok (some true) → report.calls.count .model = 1) ∧
        (answer ≠ .ok (some true) → .model ∉ report.calls)) ∧
    (∀ fault, report.outcome = .error fault →
      ∃ reason, fault = .backendFailed engine reason ∧ fault.family = .engine) ∧
    (∀ answer, report.outcome = .ok answer → answer.status = .timeout →
      ∃ session stated, backend model.formula = .ok session ∧ limit = .ok stated ∧
        session.RanOut clock readings stated) ∧
    (∀ clock' : Clock, (∀ count < report.readings, clock'.reading count = clock.reading count) →
      model.solve engine backend false clock' limit readings = report) ∧
    ∀ reading : Nat → Binary64, (∀ count, reading count ≤ reading (count + 1)) →
      .infinite true < reading 0 → ∀ last, readings < last →
      (∀ stated deadline, limit = .ok stated →
        stated.deadline? (reading readings) = .ok (some deadline) → deadline ≤ reading last) →
      ∃ clock' : Clock, (∀ count ≤ last, clock'.reading count = reading count) ∧
        (model.solve engine backend false clock' limit readings).readings ≤ last + 1 := by
  intro report
  cases contradictory : model.contradiction with
  | true =>
    have reported : report = _ := solve_of_contradiction contradictory clock limit readings
    rw [reported]
    refine ⟨fun _ => rfl, nofun, nofun, nofun, ?_, fun clock' _ => ?_,
      fun _ => model.exists_clock_of_reached engine backend⟩
    · rintro _ ⟨⟩ ⟨⟩
    · exact solve_of_contradiction contradictory clock' limit readings
  | false =>
    cases opened : backend model.formula with
    | error reason =>
      have reported : report = _ := solve_of_unopened contradictory opened clock limit readings
      rw [reported]
      refine ⟨nofun, ?_, nofun, ?_, nofun, fun clock' _ => ?_,
        fun _ => model.exists_clock_of_reached engine backend⟩
      · rintro _ _ ⟨⟩
        rfl
      · rintro _ ⟨⟩
        exact ⟨reason, rfl, family_backendFailed engine reason⟩
      · exact solve_of_unopened contradictory opened clock' limit readings
    | ok session =>
      obtain ⟨asked, answer, taken, asks⟩ := session.exists_asks clock limit readings
      obtain ⟨found, outcome, concludes⟩ := session.exists_concludes model engine answer
      have reported : report = _ := solve_eq contradictory opened asks concludes
      rw [reported]
      refine ⟨nofun, nofun, ?_, ?_, ?_, fun clock' agree => ?_,
        fun _ => model.exists_clock_of_reached engine backend⟩
      · rintro _ _ ⟨⟩
        exact ⟨asked, answer, found, asks, concludes, rfl, Session.closes asks concludes,
          Session.models asks concludes⟩
      · rintro fault rfl
        obtain ⟨reason, rfl⟩ := concludes.eq_backendFailed
        exact ⟨reason, rfl, family_backendFailed engine reason⟩
      · rintro given rfl timeout
        obtain rfl := concludes.undecided_of_timeout timeout
        obtain ⟨stated, rfl, ranOut⟩ := asks.ranOut
        exact ⟨session, stated, rfl, rfl, ranOut⟩
      · exact solve_eq contradictory opened (asks.congr agree) concludes

/-- A variable with two values. -/
def switched : Model Int :=
  ⟨#[⟨"x", [1, 2]⟩], #[[(1, 1), (2, 2)]], 2, #[[.holds 1, .holds 2], [.fails 1, .fails 2]], none,
    false, 0⟩

/-- A backend that decides in its second slice. -/
def hesitant : Backend := fun _ =>
  .ok ⟨fun slice => .ok (if slice = 0 then none else some true), .ok (some [-1, 2])⟩

theorem solve_protocol_hesitant :
    switched.solve "cadical" hesitant false .counting (.ok (.whole 5)) 0 =
      ⟨.ok ⟨.satisfiable, [2]⟩,
        [.budget 2000, .limitedSolve, .budget 2000, .limitedSolve, .model, .delete], 2⟩ := by
  obtain ⟨asked, answer, found, asks, concludes, calls, _⟩ :=
    (switched.solve_protocol "cadical" hesitant .counting (.ok (.whole 5)) 0).2.2.1 rfl _ rfl
  generalize switched.solve "cadical" hesitant false .counting (.ok (.whole 5)) 0 = report at *
  obtain ⟨outcome, requests, taken⟩ := report
  obtain rfl : requests = _ := calls
  cases asks with
  | once unlimited => cases unlimited
  | endless excessive =>
    exact absurd excessive (TimeLimit.not_excessive_whole (by decide +kernel))
  | @inSlices _ deadline slices limited lasts =>
    have feasible : ¬ (TimeLimit.whole 5).Excessive :=
      TimeLimit.not_excessive_whole (by decide +kernel)
    obtain ⟨seconds, exact⟩ := TimeLimit.exists_inBinary_eq_ok rfl feasible
    cases limited.symm.trans (TimeLimit.deadline?_of_positive rfl exact)
    obtain rfl := TimeLimit.eq_nearest_of_inBinary exact
    -- The first slice decides nothing and ends in time, and the second decides.
    obtain rfl : slices = 1 := by
      rcases Nat.lt_trichotomy slices 1 with first | second | later
      · obtain rfl : slices = 0 := Nat.lt_one_iff.mp first
        exact absurd (lasts.ended rfl) (by decide +kernel)
      · exact second
      · cases lasts.undecided 1 later
    cases concludes with
    | satisfied given => cases given; rfl
    | withheld refused => cases refused

end Cnf

end HorizonPlanner
