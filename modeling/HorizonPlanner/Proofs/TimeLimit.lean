/-
This file proves that no engine answers wrongly under a time limit.  The
backtracking engine gives up or answers as without a limit.  A clausal engine
hands on what its backend says: a backend that works in slices may give up any
number of them, and only a slice that decides leads to a status that does.

What is assumed of a backend here is weaker than that it decides: it may give up,
and it may fail, but what it decides is right.
-/

import HorizonPlanner.Proofs.Engines
import HorizonPlanner.Proofs.Rounding
import HorizonPlanner.Proofs.Truncation

namespace HorizonPlanner

/-- Any readings that never go back are, as far as they are taken, the first readings of a clock. -/
theorem Clock.exists_beginning {reading : Nat → Binary64}
    (monotone : ∀ count, reading count ≤ reading (count + 1))
    (started : .infinite true < reading 0) (taken : Nat) :
    ∃ clock : Clock, ∀ count ≤ taken, clock.reading count = reading count :=
  ⟨.lasting (taken + 1) reading monotone started, fun _ within => if_pos (Nat.lt_succ_of_le within)⟩

/-! ### Limits that give no deadline -/

/-- A limit states more whole seconds than double precision allows. -/
def TimeLimit.Excessive (limit : TimeLimit) : Prop :=
  ∃ seconds : Int, limit = .whole seconds ∧ Binary64.overflowThreshold ≤ seconds

namespace TimeLimit

variable {limit : TimeLimit}

theorem not_excessive_whole {seconds : Int} (few : seconds < Binary64.overflowThreshold) :
    ¬ (TimeLimit.whole seconds).Excessive := by
  rintro ⟨_, ⟨⟩, above⟩
  exact absurd few (not_lt.mpr above)

theorem isPositive_whole_iff {seconds : Int} :
    (TimeLimit.whole seconds).isPositive = true ↔ 0 < seconds := by
  rw [isPositive, extent?, decide_eq_true_iff, Extent.rational_lt_iff]
  exact Int.cast_pos

theorem inBinary_eq_error_iff (positive : limit.isPositive = true) {fault : Fault} :
    limit.inBinary = .error fault ↔ fault = .numberTooLarge ∧ limit.Excessive := by
  cases limit with
  | binary seconds => exact ⟨nofun, fun ⟨_, _, impossible, _⟩ => nomatch impossible⟩
  | whole seconds =>
    have tooLarge := Binary64.ofWhole?_eq_none_iff (isPositive_whole_iff.mp positive).le
    rw [inBinary, Value.binaryOfWhole]
    constructor
    · intro failed
      split at failed
      next => cases failed
      next overflow =>
        cases failed
        exact ⟨rfl, seconds, rfl, tooLarge.mp overflow⟩
    · rintro ⟨rfl, _, ⟨⟩, above⟩
      rw [tooLarge.mpr above]

theorem exists_inBinary_eq_ok (positive : limit.isPositive = true) (feasible : ¬ limit.Excessive) :
    ∃ seconds, limit.inBinary = .ok seconds := by
  cases converted : limit.inBinary with
  | ok seconds => exact ⟨seconds, rfl⟩
  | error fault => exact absurd ((inBinary_eq_error_iff positive).mp converted).2 feasible

theorem deadline?_eq_none_iff {start : Binary64} :
    limit.deadline? start = .ok none ↔ limit.isPositive = false := by
  rw [deadline?]
  split
  next positive =>
    refine iff_of_false ?_ (by rw [positive]; exact Bool.noConfusion)
    cases limit.inBinary <;> exact nofun
  next idle => exact iff_of_true rfl (Bool.not_eq_true _ ▸ idle)

/-- There can be no deadline for a limit if it is excessive, and only then. -/
theorem deadline?_eq_error_iff {start : Binary64} {fault : Fault} :
    limit.deadline? start = .error fault ↔ fault = .numberTooLarge ∧ limit.Excessive := by
  rw [deadline?]
  split
  next positive =>
    rw [← inBinary_eq_error_iff positive]
    cases limit.inBinary <;> simp [Except.map]
  next idle =>
    refine ⟨nofun, ?_⟩
    rintro ⟨_, seconds, rfl, above⟩
    refine absurd (isPositive_whole_iff.mpr (lt_of_lt_of_le ?_ above)) idle
    decide +kernel

end TimeLimit

/-- An answer is not wrong about a network: it is right, or it was given up. -/
def Network.Tolerates (network : Network Int) (answer : Answer Int) : Prop :=
  network.Answers answer ∨ answer.status = .timeout

namespace Cnf

/-! ### Backends that may give up -/

/-- Whenever a session decides a formula, it decides rightly. -/
structure Session.Truthful (session : Session) (formula : Formula) : Prop where
  lists : ∀ asked, session.answer asked = .ok (some true) → ∀ model, session.model = .ok model →
    ∃ literals, model = some literals ∧ formula.Listed literals
  refutes : ∀ asked, session.answer asked = .ok (some false) →
    ∀ truth, formula.satisfied truth = false

/-- The sessions of a backend decide rightly, if they decide. -/
def Backend.Sound (backend : Backend) : Prop :=
  ∀ formula : Formula, formula.Proper → ∀ session, backend formula = .ok session →
    session.Truthful formula

/-- No request to a session fails. -/
structure Session.Responds (session : Session) : Prop where
  answers : ∀ asked, ∃ decided, session.answer asked = .ok decided
  models : ∃ model, session.model = .ok model

/-- A backend opens a session on every formula, and no request to it fails. -/
def Backend.Responds (backend : Backend) : Prop :=
  ∀ formula : Formula, formula.Proper → ∃ session, backend formula = .ok session ∧ session.Responds

/-- A session that decides a formula at once and stays with its answer is truthful. -/
theorem Session.Decides.truthful {session : Session} {formula : Formula}
    (decides : session.Decides formula)
    (constant : ∀ asked, session.answer asked = session.answer 0) : session.Truthful formula where
  lists asked decided model modeled := by
    rw [constant asked] at decided
    rcases decides with ⟨_, literals, modeled', listed⟩ | ⟨answered, _⟩
    · exact ⟨literals, Except.ok.inj (modeled.symm.trans modeled'), listed⟩
    · cases decided.symm.trans answered
  refutes asked decided := by
    rw [constant asked] at decided
    rcases decides with ⟨answered, _⟩ | ⟨_, refuted⟩
    · cases decided.symm.trans answered
    · exact refuted

theorem exhaustive_sound : exhaustive.Sound := by
  intro formula proper session opened
  obtain ⟨_, opened', decides⟩ := exhaustive_exact formula proper
  obtain rfl := Except.ok.inj (opened'.symm.trans opened)
  refine decides.truthful fun asked => ?_
  rw [exhaustive] at opened
  split at opened <;> (cases opened; rfl)

theorem exhaustive_responds : exhaustive.Responds := by
  intro formula _
  rw [exhaustive]
  split
  next => exact ⟨_, rfl, fun _ => ⟨_, rfl⟩, _, rfl⟩
  next => exact ⟨_, rfl, fun _ => ⟨_, rfl⟩, _, rfl⟩

/-! ### Asking a session -/

/-- Slices end with the answer to one of them. -/
theorem exists_answer_inquireInSlices (session : Session) (clock : Clock) (deadline : Binary64)
    (slice readings : Nat) : ∃ asked,
      (inquireInSlices session clock deadline slice readings).answer = session.answer asked := by
  induction slice, readings using inquireInSlices.induct session clock deadline with
  | case1 slice readings reason failed =>
    exact ⟨slice, by rw [inquireInSlices, failed]⟩
  | case2 slice readings decided answered =>
    exact ⟨slice, by rw [inquireInSlices, answered]⟩
  | case3 slice readings undecided early inductionHypothesis =>
    obtain ⟨asked, answered⟩ := inductionHypothesis
    exact ⟨asked, by rw [inquireInSlices, undecided]; simp only [early, if_true, answered]⟩
  | case4 slice readings undecided late =>
    exact ⟨slice, by rw [inquireInSlices, undecided]; simp only [late, if_false]⟩

/-- An inquiry ends with the answer to one of its requests, unless there is no deadline for it. -/
theorem exists_answer_inquire (session : Session) (interruptible : Bool) (clock : Clock)
    (limit : TimeLimit) (readings : Nat) :
    (∃ asked, (inquire session interruptible clock limit readings).answer =
        session.answer asked) ∨
      ∃ fault, limit.deadline? (clock.reading readings) = .error fault ∧
        (inquire session interruptible clock limit readings).answer = .error fault.message := by
  unfold inquire
  split
  next => exact Or.inl ⟨0, rfl⟩
  next => exact Or.inl ⟨0, rfl⟩
  next fault refused => exact Or.inr ⟨fault, refused, rfl⟩
  next deadline _ =>
    exact Or.inl (exists_answer_inquireInSlices session clock deadline 0 (readings + 1))

/-! ### Solving a compiled model -/

section

variable {model : Model Int} {network : Network Int} {backend : Backend}

/-- What a truthful session is concluded to say is not wrong. -/
theorem Model.Represents.conclude_tolerates (represents : model.Represents network)
    (possible : model.contradiction = false) {session : Session}
    (truthful : session.Truthful model.formula) {asked : Nat} {answer : Answer Int}
    (concluded : (model.conclude session (session.answer asked)).1 = .ok answer) :
    network.Tolerates answer := by
  cases answered : session.answer asked with
  | error reason =>
    rw [answered, Model.conclude] at concluded
    cases concluded
  | ok decided =>
    rw [answered] at concluded
    obtain _ | _ | _ := decided
    · cases concluded
      exact Or.inr rfl
    · cases concluded
      refine Or.inl (Or.inr ⟨rfl, represents.not_solution fun truth admitted => ?_⟩)
      rw [Model.admits_iff, truthful.refutes asked answered truth] at admitted
      cases admitted.2
    · cases modeled : session.model with
      | error reason =>
        rw [Model.conclude, modeled] at concluded
        cases concluded
      | ok found =>
        obtain ⟨literals, rfl, listed⟩ := truthful.lists asked answered found modeled
        rw [Model.conclude, modeled] at concluded
        cases concluded
        refine Or.inl (Or.inl ⟨rfl, ?_⟩)
        exact represents.sound _ (Model.admits_iff.mpr
          ⟨possible, listed.satisfied represents.coherent.proper⟩)

/-- What a compiled model is answered is not wrong, if its backend is sound. -/
theorem Model.Represents.solve_tolerates (represents : model.Represents network)
    (sound : backend.Sound) {name : String} {interruptible : Bool} {clock : Clock}
    {limit : TimeLimit} {readings : Nat} {answer : Answer Int}
    (solved : (model.solve name backend interruptible clock (.ok limit) readings).outcome =
      .ok answer) : network.Tolerates answer := by
  rw [Model.solve] at solved
  cases contradiction : model.contradiction with
  | true =>
    rw [contradiction] at solved
    cases solved
    exact Or.inl
      (Or.inr ⟨rfl, represents.not_solution (not_admits_of_contradiction contradiction)⟩)
  | false =>
    rw [contradiction] at solved
    cases opened : backend model.formula with
    | error reason =>
      rw [opened] at solved
      cases solved
    | ok session =>
      have truthful := sound model.formula represents.coherent.proper session opened
      rcases exists_answer_inquire session interruptible clock limit readings with
        ⟨asked, answered⟩ | ⟨fault, _, answered⟩
      · simp only [opened, Model.consult, answered] at solved
        exact represents.conclude_tolerates contradiction truthful (mapError_eq_ok_iff.mp solved)
      · simp only [opened, Model.consult, answered, Model.conclude] at solved
        cases solved

/-- A compiled model is answered if its backend never fails and the limit is not excessive. -/
theorem Model.exists_solve_eq_ok (coherent : model.Coherent) (responds : backend.Responds)
    (name : String) (interruptible : Bool) (clock : Clock) {limit : TimeLimit}
    (feasible : ¬ limit.Excessive) (readings : Nat) :
    ∃ answer, (model.solve name backend interruptible clock (.ok limit) readings).outcome =
      .ok answer := by
  rw [Model.solve]
  cases model.contradiction with
  | true => exact ⟨_, rfl⟩
  | false =>
    obtain ⟨session, opened, answers, found, modeled⟩ := responds model.formula coherent.proper
    rcases exists_answer_inquire session interruptible clock limit readings with
      ⟨asked, answered⟩ | ⟨_, refused, _⟩
    · obtain ⟨decided, decides⟩ := answers asked
      simp only [opened, Model.consult, answered, decides]
      obtain _ | _ | _ := decided
      · exact ⟨_, rfl⟩
      · exact ⟨_, rfl⟩
      · exact ⟨_, by rw [Model.conclude, modeled]; rfl⟩
    · exact absurd (TimeLimit.deadline?_eq_error_iff.mp refused).2 feasible

end

end Cnf

/-! ### Engines under a time limit -/

namespace EngineModel

variable {model : EngineModel Int} {engine : Engine} {network : Network Int}
  {backend : Cnf.Backend} {stated : Value} {limit : TimeLimit}

/-- Under any time limit an engine gives no wrong answer; one that compiles to clauses if its
backend is sound. -/
theorem Holds.solve_tolerates (holds : model.Holds engine network)
    (wellFormed : network.WellFormed) (sound : engine = .backtracking ∨ backend.Sound)
    {clock : Clock} (read : TimeLimit.ofValue stated = .ok limit) {readings : Nat}
    {answer : Answer Int}
    (solved : (model.solve backend clock stated readings).outcome = .ok answer) :
    network.Tolerates answer := by
  cases holds with
  | @backtracking model network holds =>
    obtain ⟨unlimited, solved', first⟩ := Backtracking.solve_answersFirst holds wellFormed clock
      (TimeLimit.unlimited_absent (clock.reading readings))
    simp only [EngineModel.solve, read] at solved
    rcases Backtracking.solve_truncated model clock limit readings with
      ⟨_, _, failed⟩ | gaveUp | same
    · cases failed.symm.trans solved
    · obtain rfl := Except.ok.inj (gaveUp.symm.trans solved)
      exact Or.inr rfl
    · obtain rfl := Except.ok.inj ((same.trans solved').symm.trans solved)
      exact Or.inl first.answers
  | @clausal name interruptible model network represents =>
    rcases sound with backtracking | sound
    · cases backtracking
    · simp only [EngineModel.solve, read] at solved
      exact represents.solve_tolerates sound solved

/-- An engine answers under any time limit that is not excessive; one that compiles to clauses if
its backend never fails. -/
theorem Holds.exists_solve_eq_ok (holds : model.Holds engine network)
    (wellFormed : network.WellFormed) (responds : engine = .backtracking ∨ backend.Responds)
    (clock : Clock) (read : TimeLimit.ofValue stated = .ok limit) (feasible : ¬ limit.Excessive)
    (readings : Nat) :
    ∃ answer, (model.solve backend clock stated readings).outcome = .ok answer := by
  cases holds with
  | @backtracking model network holds =>
    obtain ⟨unlimited, solved', _⟩ := Backtracking.solve_answersFirst holds wellFormed clock
      (TimeLimit.unlimited_absent (clock.reading readings))
    simp only [EngineModel.solve, read]
    rcases Backtracking.solve_truncated model clock limit readings with
      ⟨_, refused, _⟩ | gaveUp | same
    · exact absurd (TimeLimit.deadline?_eq_error_iff.mp refused).2 feasible
    · exact ⟨_, gaveUp⟩
    · exact ⟨_, same.trans solved'⟩
  | @clausal name interruptible model network represents =>
    rcases responds with backtracking | responds
    · cases backtracking
    · simp only [EngineModel.solve, read]
      exact Cnf.Model.exists_solve_eq_ok represents.coherent responds name interruptible clock
        feasible readings

end EngineModel

end HorizonPlanner
