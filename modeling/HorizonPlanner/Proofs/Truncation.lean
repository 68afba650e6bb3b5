/-
This file proves that a time limit only truncates a backtracking search.  The
search is followed round by round along its loop.  Each round reads the clock
first, and a reading has no other effect than to end the search when it is late.
So a limited search runs the rounds of the unlimited one up to its first late
reading, and to the end if none of its readings is late.

The course is followed through the recursion in two steps: a reading is taken
before a part of it, and one part follows another that ended exhausted.
-/

import Mathlib.Data.Nat.Find
import HorizonPlanner.Proofs.BacktrackingSearch
import HorizonPlanner.Proofs.SearchLoop

namespace HorizonPlanner.Backtracking

/-- A reading of the clock is later than the deadline. -/
def Timer.Late (timer : Timer) (reading : Nat) : Prop :=
  timer.deadline < timer.clock.reading reading

/-- Among some readings there is a first one that is late, unless none is. -/
theorem Timer.exists_first_late (timer : Timer) (readings bound : Nat) :
    (∀ count < bound, ¬ timer.Late (readings + count)) ∨
      ∃ count < bound, timer.Late (readings + count) ∧
        ∀ earlier < count, ¬ timer.Late (readings + earlier) := by
  classical
  by_cases late : ∃ count, count < bound ∧ timer.Late (readings + count)
  · obtain ⟨inside, here⟩ := Nat.find_spec late
    refine Or.inr ⟨_, inside, here, fun earlier before late' => ?_⟩
    exact Nat.find_min late before ⟨Nat.lt_trans before inside, late'⟩
  · exact Or.inl fun count inside here => late ⟨count, inside, here⟩

/-- A part of a search, which may be timed. -/
abbrev Part := Option Timer → Progress → Run Int

/-- A round counts one more value as tried, unless it retreats. -/
def Round.enter (round : Round) (progress : Progress) : Progress :=
  { progress with nodes := progress.nodes + (triedIn [round]).length }

/-- The course of a part: the rounds that it takes, and how it ends if the reading of none of them
is late.  The first late reading ends it, when the rounds before are done. -/
structure Course (part : Part) (rounds : List Round) (outcome : Except Fault (Ending Int)) :
    Prop where
  unlimited : ∀ nodes readings, part none ⟨nodes, readings⟩ =
    (outcome, ⟨nodes + (triedIn rounds).length, readings⟩)
  timely : ∀ (timer : Timer) nodes readings,
    (∀ count < rounds.length, ¬ timer.Late (readings + count)) →
      part (some timer) ⟨nodes, readings⟩ =
        (outcome, ⟨nodes + (triedIn rounds).length, readings + rounds.length⟩)
  late : ∀ (timer : Timer) nodes readings, ∀ count < rounds.length,
    timer.Late (readings + count) → (∀ earlier < count, ¬ timer.Late (readings + earlier)) →
      part (some timer) ⟨nodes, readings⟩ =
        (.ok .expired, ⟨nodes + (triedIn (rounds.take count)).length, readings + count + 1⟩)

/-! ### Steps of a search -/

/-- Reads the clock before a part begins. -/
def checked (part : Part) : Part := fun timer progress =>
  let (late, progress) := progress.check timer
  if late then (.ok .expired, progress) else part timer progress

/-- Goes on with another part after one that ended exhausted. -/
def followed (part next : Part) : Part := fun timer progress =>
  match part timer progress with
  | (.ok .exhausted, progress) => next timer progress
  | stopped => stopped

section

variable {part next : Part} {rounds more : List Round} {outcome : Except Fault (Ending Int)}

theorem course_done (outcome : Except Fault (Ending Int)) :
    Course (fun _ progress => (outcome, progress)) [] outcome where
  unlimited _ _ := rfl
  timely _ _ _ _ := rfl
  late _ _ _ _ outside := absurd outside (Nat.not_lt_zero _)

theorem checked_of_late {timer : Timer} {nodes readings : Nat} (late : timer.Late readings) :
    checked part (some timer) ⟨nodes, readings⟩ = (.ok .expired, ⟨nodes, readings + 1⟩) := by
  have late' : timer.deadline < timer.clock.reading readings := late
  simp only [checked, Progress.check, late', decide_true, if_true]

theorem checked_of_timely {timer : Timer} {nodes readings : Nat}
    (timely : ¬ timer.Late readings) :
    checked part (some timer) ⟨nodes, readings⟩ = part (some timer) ⟨nodes, readings + 1⟩ := by
  have timely' : ¬ timer.deadline < timer.clock.reading readings := timely
  simp only [checked, Progress.check, timely', decide_false, Bool.false_eq_true, if_false]

theorem length_triedIn_cons (round : Round) (rounds : List Round) (nodes : Nat) :
    nodes + (triedIn [round]).length + (triedIn rounds).length =
      nodes + (triedIn (round :: rounds)).length := by
  rw [Nat.add_assoc, ← List.length_append, ← triedIn_append, List.singleton_append]

/-- A part with a reading before it takes one more round. -/
theorem Course.checked (course : Course part rounds outcome) (round : Round) :
    Course (checked fun timer progress => part timer (round.enter progress)) (round :: rounds)
      outcome where
  unlimited nodes readings := by
    rw [← length_triedIn_cons]
    exact course.unlimited _ readings
  timely timer nodes readings timely := by
    have first : ¬ timer.Late readings := timely 0 (Nat.succ_pos _)
    rw [checked_of_timely first, ← length_triedIn_cons, List.length_cons,
      Nat.add_comm rounds.length, ← Nat.add_assoc]
    refine course.timely timer _ (readings + 1) fun count inside => ?_
    rw [Nat.add_right_comm, Nat.add_assoc]
    exact timely (count + 1) (Nat.succ_lt_succ inside)
  late timer nodes readings count inside late before := by
    obtain _ | count := count
    · exact checked_of_late late
    · have first : ¬ timer.Late readings := before 0 (Nat.succ_pos _)
      rw [checked_of_timely first, List.take_succ_cons, ← length_triedIn_cons,
        Nat.add_comm count, ← Nat.add_assoc]
      refine course.late timer _ (readings + 1) count (Nat.lt_of_succ_lt_succ inside) ?_ ?_
      · rwa [Nat.add_right_comm, Nat.add_assoc]
      · intro earlier order
        rw [Nat.add_right_comm, Nat.add_assoc]
        exact before (earlier + 1) (Nat.succ_lt_succ order)

theorem followed_of_exhausted {timer : Option Timer} {progress later : Progress}
    (ran : part timer progress = (.ok .exhausted, later)) :
    followed part next timer progress = next timer later := by
  rw [followed, ran]

theorem followed_of_stopped {timer : Option Timer} {progress later : Progress}
    {ended : Except Fault (Ending Int)} (ran : part timer progress = (ended, later))
    (stopped : ended ≠ .ok .exhausted) : followed part next timer progress = (ended, later) := by
  rw [followed, ran]
  split
  next same => exact absurd (Prod.mk.inj same).1 stopped
  next => rfl

/-- A part that ends otherwise than exhausted is followed by nothing. -/
theorem Course.stopped (course : Course part rounds outcome) (stopped : outcome ≠ .ok .exhausted) :
    Course (followed part next) rounds outcome where
  unlimited nodes readings := followed_of_stopped (course.unlimited nodes readings) stopped
  timely timer nodes readings timely :=
    followed_of_stopped (course.timely timer nodes readings timely) stopped
  late timer nodes readings count inside late before :=
    followed_of_stopped (course.late timer nodes readings count inside late before) nofun

theorem Course.followed (course : Course part rounds (.ok .exhausted))
    (course' : Course next more outcome) :
    Course (followed part next) (rounds ++ more) outcome where
  unlimited nodes readings := by
    rw [followed_of_exhausted (course.unlimited nodes readings), course'.unlimited, triedIn_append,
      List.length_append, Nat.add_assoc]
  timely timer nodes readings timely := by
    rw [List.length_append] at timely
    have ran := course.timely timer nodes readings fun count inside => timely count (by omega)
    rw [followed_of_exhausted ran, course'.timely timer, triedIn_append, List.length_append,
      List.length_append, Nat.add_assoc, Nat.add_assoc]
    intro count inside
    rw [Nat.add_assoc]
    exact timely (rounds.length + count) (by omega)
  late timer nodes readings count inside late before := by
    rw [List.length_append] at inside
    by_cases early : count < rounds.length
    · rw [List.take_append_of_le_length (Nat.le_of_lt early)]
      exact followed_of_stopped (course.late timer nodes readings count early late before) nofun
    · obtain ⟨count, rfl⟩ := Nat.exists_eq_add_of_le (Nat.le_of_not_lt early)
      have ran := course.timely timer nodes readings fun earlier order => before earlier (by omega)
      rw [followed_of_exhausted ran, List.take_length_add_append, triedIn_append,
        List.length_append, ← Nat.add_assoc, ← Nat.add_assoc]
      refine course'.late timer _ (readings + rounds.length) count (by omega) ?_ ?_
      · rwa [Nat.add_assoc]
      · intro earlier order
        rw [Nat.add_assoc]
        exact before (rounds.length + earlier) (by omega)

end

/-! ### The rounds of a part -/

/-- What runs of the loop are like, by their rounds and their outcome. -/
abbrev Runs := List Round → Except Fault (Ending Int) → Prop

/-- A part takes some rounds of the loop: the last ones, or if it ends exhausted those that come
before any run from where the loop goes on. -/
def Unrolls (part : Part) (here beyond : Runs) : Prop :=
  ∃ rounds outcome, Course part rounds outcome ∧
    (outcome ≠ .ok .exhausted → here rounds outcome) ∧
    (outcome = .ok .exhausted → ∀ more last, beyond more last → here (rounds ++ more) last)

section

variable {part next : Part} {here here' there beyond beyond' : Runs}

theorem unrolls_stopped {outcome : Except Fault (Ending Int)} (stopped : outcome ≠ .ok .exhausted)
    (ends : here [] outcome) : Unrolls (fun _ progress => (outcome, progress)) here beyond :=
  ⟨[], outcome, course_done outcome, fun _ => ends, fun same => absurd same stopped⟩

theorem unrolls_exhausted (leads : ∀ more last, beyond more last → here more last) :
    Unrolls (fun _ progress => (.ok .exhausted, progress)) here beyond :=
  ⟨[], _, course_done _, fun other => absurd rfl other, fun _ => leads⟩

theorem Unrolls.imp (unrolls : Unrolls part here beyond)
    (before : ∀ rounds outcome, here rounds outcome → here' rounds outcome)
    (after : ∀ rounds outcome, beyond' rounds outcome → beyond rounds outcome) :
    Unrolls part here' beyond' := by
  obtain ⟨rounds, outcome, course, stopped, exhausted⟩ := unrolls
  exact ⟨rounds, outcome, course, fun other => before _ _ (stopped other),
    fun same more last goes => before _ _ (exhausted same more last (after _ _ goes))⟩

theorem Unrolls.checked (round : Round)
    (unrolls : Unrolls part (fun rounds outcome => here (round :: rounds) outcome) beyond) :
    Unrolls (checked fun timer progress => part timer (round.enter progress)) here beyond := by
  obtain ⟨rounds, outcome, course, stopped, exhausted⟩ := unrolls
  exact ⟨round :: rounds, outcome, course.checked round, stopped, exhausted⟩

/-- Where the loop goes on after an exhausted part, the next part takes over. -/
theorem Unrolls.followed (unrolls : Unrolls part here there)
    (unrolls' : Unrolls next there beyond) : Unrolls (followed part next) here beyond := by
  obtain ⟨rounds, outcome, course, stopped, exhausted⟩ := unrolls
  by_cases same : outcome = .ok .exhausted
  · subst same
    obtain ⟨more, last, course', stopped', exhausted'⟩ := unrolls'
    refine ⟨rounds ++ more, last, course.followed course',
      fun other => exhausted rfl _ _ (stopped' other), fun same further end' goes => ?_⟩
    rw [List.append_assoc]
    exact exhausted rfl _ _ (exhausted' same further end' goes)
  · exact ⟨rounds, outcome, course.stopped same, stopped, fun same' => absurd same' same⟩

end

/-! ### The search -/

theorem tryValues_nil_eq (visits : Option Timer → Int → Progress → Run Int) :
    (fun timer => tryValues timer (visits timer) []) =
      checked fun _ progress => (.ok .exhausted, Round.retreats.enter progress) := by
  funext timer progress
  simp only [tryValues, checked]
  split <;> rfl

theorem tryValues_cons_eq (visits : Option Timer → Int → Progress → Run Int) (value : Int)
    (rest : List Int) (tried : List Nat) :
    (fun timer => tryValues timer (visits timer) (value :: rest)) =
      checked fun timer progress => followed (fun timer => visits timer value)
        (fun timer => tryValues timer (visits timer) rest) timer
        ((Round.tries tried).enter progress) := by
  funext timer progress
  simp only [tryValues, checked, followed]
  split
  next => rfl
  next =>
    show _ = match visits timer value (progress.check timer).2.count with
      | (.ok .exhausted, progress) => tryValues timer (visits timer) rest progress
      | stopped => stopped
    rcases visits timer value (progress.check timer).2.count with ⟨_ | ending, later⟩
    · rfl
    · cases ending <;> rfl

section

variable {model : Model Int} {rest : List (Variable Int)} {entry : Variable Int}
  {assignment : PartialAssignment Int} {chosen : List Nat}

/-- The search below a variable is what the loop does from the first position in its domain to the
retreat from it. -/
def Descends (model : Model Int) (rest : List (Variable Int)) (chosen : List Nat)
    (assignment : PartialAssignment Int) : Prop :=
  Unrolls (fun timer => descend model timer rest chosen.length assignment)
    (model.Loops ⟨assignment, chosen, 0⟩) (model.Resumes assignment chosen)

/-- A visit to a value is what the loop does from the turn that tries it to the next position. -/
theorem unrolls_visit (declared : model.declared[chosen.length]? = some entry)
    {position : Nat} {value : Int} (found : entry.values[position]? = some value)
    {left : PartialAssignment Int}
    (stale : left.setIfInBounds chosen.length (some value) =
      assignment.setIfInBounds chosen.length (some value))
    (below : Descends model rest (chosen ++ [position])
      (assignment.setIfInBounds chosen.length (some value))) :
    Unrolls (fun timer => visit model timer rest chosen.length assignment value)
      (fun rounds => model.Loops ⟨left, chosen, position⟩
        (.tries (chosen ++ [position]) :: rounds))
      (model.Loops
        ⟨assignment.setIfInBounds chosen.length (some value), chosen, position + 1⟩) := by
  show Unrolls (fun timer progress =>
    visit model timer rest chosen.length assignment value progress) _ _
  rw [← stale] at below ⊢
  cases looked : noneFalse (left.setIfInBounds chosen.length (some value))
      (model.watched chosen.length) with
  | error fault =>
    simp only [visit, ← stale, looked]
    exact unrolls_stopped (fun same => by cases same)
      (.ends (Model.turn_error declared found looked))
  | ok consistent =>
    cases consistent with
    | false =>
      simp only [visit, ← stale, looked]
      exact unrolls_exhausted fun more last goes =>
        .onward (Model.turn_reject declared found looked) goes
    | true =>
      simp only [visit, ← stale, looked]
      rw [Descends, List.length_append, List.length_singleton] at below
      exact below.imp (fun _ _ => .onward (Model.turn_descend declared found looked))
        fun _ _ => Model.resumes_concat_iff.mpr

theorem unrolls_tryValues (declared : model.declared[chosen.length]? = some entry)
    (clean : assignment.setIfInBounds chosen.length none = assignment)
    (below : ∀ position value, Descends model rest (chosen ++ [position])
      (assignment.setIfInBounds chosen.length (some value)))
    {values : List Int} {position : Nat} (remaining : entry.values.drop position = values)
    {left : PartialAssignment Int}
    (stale : ∀ binding, left.setIfInBounds chosen.length binding =
      assignment.setIfInBounds chosen.length binding) :
    Unrolls (fun timer => tryValues timer (visit model timer rest chosen.length assignment) values)
      (model.Loops ⟨left, chosen, position⟩) (model.Resumes assignment chosen) := by
  induction values generalizing position left with
  | nil =>
    rw [tryValues_nil_eq]
    refine Unrolls.checked .retreats (unrolls_exhausted fun more last resumes => ?_)
    refine Model.Resumes.loops ?_ declared
      (List.getElem?_eq_none (List.drop_eq_nil_iff.mp remaining))
    rwa [stale, clean]
  | cons value values inductionHypothesis =>
    rw [tryValues_cons_eq _ _ _ (chosen ++ [position])]
    have found : entry.values[position]? = some value := by
      rw [← List.head?_drop, remaining, List.head?_cons]
    refine Unrolls.checked _ ((unrolls_visit declared found (stale _) (below _ _)).followed
      (inductionHypothesis ?_ fun binding => ?_))
    · rw [← List.tail_drop, remaining, List.tail_cons]
    · rw [Array.setIfInBounds_setIfInBounds]

/-- The recursion along the variables that are left runs the loop. -/
theorem descends (model : Model Int) (rest : List (Variable Int)) (chosen : List Nat)
    (assignment : PartialAssignment Int) (left : model.declared.toList.drop chosen.length = rest)
    (clean : ∀ slot, chosen.length ≤ slot → assignment.setIfInBounds slot none = assignment) :
    Descends model rest chosen assignment := by
  induction rest generalizing chosen assignment with
  | nil =>
    refine unrolls_stopped nofun (.ends (Model.turn_complete ?_))
    rw [← Array.getElem?_toList]
    exact List.getElem?_eq_none (List.drop_eq_nil_iff.mp left)
  | cons entry rest inductionHypothesis =>
    have declared : model.declared[chosen.length]? = some entry := by
      rw [← Array.getElem?_toList, ← List.head?_drop, left, List.head?_cons]
    refine unrolls_tryValues declared (clean _ (Nat.le_refl _)) (fun position value => ?_)
      (List.drop_zero) fun _ => rfl
    refine inductionHypothesis (chosen ++ [position]) _ ?_ fun slot outside => ?_
    · rw [List.length_append, List.length_singleton, ← List.tail_drop, left, List.tail_cons]
    · rw [List.length_append, List.length_singleton] at outside
      rw [Array.setIfInBounds_comm _ _ (by omega), clean slot (by omega)]

end

/-- A search as a whole takes the rounds of one run of the loop. -/
structure Model.Searches (model : Model Int) (rounds : List Round)
    (outcome : Except Fault (Ending Int)) : Prop where
  loops : model.Loops model.start rounds outcome
  course : Course (fun timer => descend model timer model.declared.toList 0 model.unbound) rounds
    outcome

theorem Model.exists_searches (model : Model Int) :
    ∃ rounds outcome, model.Searches rounds outcome := by
  have unbound : ∀ slot, model.unbound.setIfInBounds slot none = model.unbound := by
    intro slot
    apply Array.ext_getElem?
    intro other
    rw [Model.unbound, Array.getElem?_setIfInBounds]
    split
    next same => simp [← same, Array.getElem?_replicate]
    next => rfl
  obtain ⟨rounds, outcome, course, stopped, exhausted⟩ :=
    descends model model.declared.toList [] model.unbound List.drop_zero fun slot _ => unbound slot
  refine ⟨rounds, outcome, ⟨?_, course⟩⟩
  by_cases same : outcome = .ok .exhausted
  · rw [← List.append_nil rounds]
    exact exhausted same [] outcome ⟨rfl, same⟩
  · exact stopped same

/-! ### Solving -/

section

variable {model : Model Int} {clock : Clock} {limit : TimeLimit} {readings : Nat}
  {rounds : List Round} {outcome : Except Fault (Ending Int)} {deadline : Binary64}

/-- Without a time limit all rounds are done and the clock is not read. -/
theorem solve_free (looked : noneFalse model.unbound model.closed = .ok true)
    (searches : model.Searches rounds outcome)
    (free : limit.deadline? (clock.reading readings) = .ok none) :
    model.solve clock limit readings =
      (outcome.map model.answer, ⟨(triedIn rounds).length, readings⟩) := by
  rw [Model.solve, free]
  simp only [Model.search, looked, searches.course.unlimited 0 readings, Nat.zero_add]

/-- Under a time limit all rounds are done if the reading of none of them is late. -/
theorem solve_timely (looked : noneFalse model.unbound model.closed = .ok true)
    (searches : model.Searches rounds outcome)
    (limited : limit.deadline? (clock.reading readings) = .ok (some deadline))
    (timely : ∀ count < rounds.length, ¬ deadline < clock.reading (readings + 1 + count)) :
    model.solve clock limit readings =
      (outcome.map model.answer, ⟨(triedIn rounds).length, readings + 1 + rounds.length⟩) := by
  rw [Model.solve, limited]
  simp only [Model.search, looked, Nat.zero_add,
    searches.course.timely ⟨clock, deadline⟩ 0 (readings + 1) timely]

/-- Otherwise the first late reading ends the search, when the rounds before it are done. -/
theorem solve_late (looked : noneFalse model.unbound model.closed = .ok true)
    (searches : model.Searches rounds outcome)
    (limited : limit.deadline? (clock.reading readings) = .ok (some deadline))
    {count : Nat} (inside : count < rounds.length)
    (late : deadline < clock.reading (readings + 1 + count))
    (before : ∀ earlier < count, ¬ deadline < clock.reading (readings + 1 + earlier)) :
    model.solve clock limit readings = (.ok (model.zeros .timeout),
      ⟨(triedIn (rounds.take count)).length, readings + 1 + count + 1⟩) := by
  rw [Model.solve, limited]
  simp only [Model.search, looked, Nat.zero_add,
    searches.course.late ⟨clock, deadline⟩ 0 (readings + 1) count inside late before]
  rfl

/-- A search under a limit gives up if the reading of one of its rounds is late, after some of its
rounds; otherwise it does them all. -/
theorem solve_limited (looked : noneFalse model.unbound model.closed = .ok true)
    (searches : model.Searches rounds outcome)
    (limited : limit.deadline? (clock.reading readings) = .ok (some deadline)) :
    ((∃ count < rounds.length, deadline < clock.reading (readings + 1 + count)) ∧
        (model.solve clock limit readings).1 = .ok (model.zeros .timeout) ∧
        (model.solve clock limit readings).2.nodes ≤ (triedIn rounds).length ∧
        (model.solve clock limit readings).2.readings ≤ readings + 1 + rounds.length) ∨
      ((∀ count < rounds.length, ¬ deadline < clock.reading (readings + 1 + count)) ∧
        model.solve clock limit readings =
          (outcome.map model.answer, ⟨(triedIn rounds).length, readings + 1 + rounds.length⟩)) := by
  rcases Timer.exists_first_late ⟨clock, deadline⟩ (readings + 1) rounds.length with
    timely | ⟨count, inside, late, before⟩
  · exact Or.inr ⟨timely, solve_timely looked searches limited timely⟩
  · refine Or.inl ⟨⟨count, inside, late⟩, ?_⟩
    rw [solve_late looked searches limited inside late before]
    refine ⟨rfl, ?_, Nat.add_le_add_left inside _⟩
    exact ((List.take_sublist count rounds).filterMap Round.tried?).length_le

end

/-- Nothing is tried if the clock and the limit give no deadline. -/
theorem solve_refused {model : Model Int} {clock : Clock} {limit : TimeLimit} {readings : Nat}
    {fault : Fault} (refused : limit.deadline? (clock.reading readings) = .error fault) :
    model.solve clock limit readings = (.error fault, ⟨0, readings + 1⟩) := by
  rw [Model.solve, refused]

/-- A search that ends at the constraints without variables is not timed. -/
theorem search_eq_of_not_ok {model : Model Int}
    (looked : noneFalse model.unbound model.closed ≠ .ok true) (timer timer' : Option Timer)
    (progress progress' : Progress) :
    (model.search timer progress).1 = (model.search timer' progress').1 := by
  cases outcome : noneFalse model.unbound model.closed with
  | error fault => simp only [Model.search, outcome]
  | ok consistent =>
    cases consistent with
    | false => simp only [Model.search, outcome]
    | true => exact absurd outcome looked

/-- Under any time limit a search gives up with zeros, or its outcome is that without one, unless
there can be no deadline. -/
theorem solve_truncated (model : Model Int) (clock : Clock) (limit : TimeLimit) (readings : Nat) :
    (∃ fault, limit.deadline? (clock.reading readings) = .error fault ∧
        (model.solve clock limit readings).1 = .error fault) ∨
      (model.solve clock limit readings).1 = .ok (model.zeros .timeout) ∨
      (model.solve clock limit readings).1 = (model.solve clock .unlimited readings).1 := by
  have free : TimeLimit.unlimited.deadline? (clock.reading readings) = .ok none := rfl
  cases limited : limit.deadline? (clock.reading readings) with
  | error fault => exact Or.inl ⟨fault, rfl, by rw [solve_refused limited]⟩
  | ok deadline? =>
    by_cases looked : noneFalse model.unbound model.closed = .ok true
    · obtain ⟨rounds, outcome, searches⟩ := model.exists_searches
      rw [solve_free looked searches free]
      cases deadline? with
      | none =>
        rw [solve_free looked searches limited]
        exact Or.inr (Or.inr rfl)
      | some deadline =>
        rcases solve_limited looked searches limited with ⟨_, gaveUp, _⟩ | ⟨_, same⟩
        · exact Or.inr (Or.inl gaveUp)
        · rw [same]
          exact Or.inr (Or.inr rfl)
    · refine Or.inr (Or.inr ?_)
      rw [Model.solve, Model.solve, limited, free]
      cases deadline? <;> exact search_eq_of_not_ok looked _ _ _ _

end HorizonPlanner.Backtracking
