/-
This file proves that a simulation decides whether a plan can be carried out.
It starts from the initial facts only and assumes an open value when it is first
tested, so one run stands for all states to start from.  The run succeeds
exactly if the plan does from some of them, and its assumptions are the weakest
ones: the plan succeeds from a state exactly if the state agrees with them.

A simulation compares values, so this rests on domains whose values compare equal
to themselves.
-/

import HorizonPlanner.Proofs.Knowledge
import HorizonPlanner.Proofs.Outcome

namespace HorizonPlanner

open Simulation

namespace Problem

variable {problem : Problem}

/-! ### Plans that succeed from a state -/

/-- Actions can be taken one after another from a state, and the goals hold after them. -/
def Succeeds (problem : Problem) : List Action → PlanState → Prop
  | [], state => problem.Satisfies state problem.goals
  | action :: rest, state => problem.Satisfies state action.preconditions ∧ action.Consistent ∧
      problem.Succeeds rest (problem.successor action state)

/-! ### Tests -/

/-- What a simulation knows is proper, and what it assumed is among it. -/
structure Sound (problem : Problem) (state : Simulation.State) : Prop where
  proper : problem.Proper state.current
  assumed : ∀ subject ∈ state.assumed.subjects, subject ∈ state.current.subjects

/-- A simulation's state with some assumptions more. -/
def assuming (state : Simulation.State) (more : Bindings) : Simulation.State :=
  ⟨state.current ++ more, state.assumed ++ more⟩

variable {state : Simulation.State}

theorem assuming_nil (state : Simulation.State) : assuming state [] = state := by
  rw [assuming, List.append_nil, List.append_nil]

theorem assuming_assuming (first second : Bindings) :
    assuming (assuming state first) second = assuming state (first ++ second) := by
  simp only [assuming, List.append_assoc]

theorem sound_assuming (sound : problem.Sound state) {more : Bindings}
    (proper : problem.Proper (state.current ++ more)) : problem.Sound (assuming state more) where
  proper := proper
  assumed subject member := by
    rw [assuming, Bindings.subjects_append, List.mem_append] at member ⊢
    exact member.imp_left (sound.assumed subject)

/-- What comes of testing some facts: whether all of them hold, and what was assumed.  From the
point of view of a state that agrees with what was known, the facts hold exactly if the tests say so
and the state agrees with the assumptions. -/
structure Tests (problem : Problem) (before : Simulation.State) (facts : List Fact) (passed : Prop)
    (after : Simulation.State) (assumptions : Bindings) : Prop where
  after_eq : after = assuming before assumptions
  sound : problem.Sound after
  holds_iff : ∀ current, problem.Agrees before.current current →
    (problem.FactsHold current facts ↔ passed ∧ problem.Agrees assumptions current)

theorem Sound.test (sound : problem.Sound state) (selfEqual : problem.SelfEqual) {fact : Fact}
    (known : fact.subject ∈ problem.subjects) :
    ∃ assumptions, problem.Tests state [fact] ((state.test fact).1 = true) (state.test fact).2
      assumptions := by
  have single (current : PlanState) : problem.FactsHold current [fact] ↔
      fact.subject.find? fact.value = some (problem.valueOf current fact.subject) := by
    rw [FactsHold, List.forall_mem_singleton, find?_fact_eq_iff]
  -- A value that is known is compared, and one that is open becomes that of the fact.
  cases found : state.current.value? fact.subject with
  | some value =>
    refine ⟨[], ?_, ?_, fun current agrees => ?_⟩
    · rw [assuming_nil, State.test, found]
    · rw [State.test, found]
      exact sound
    · have agree := agrees _ (Bindings.mem_of_value? found)
      rw [single, State.test, found, and_iff_left (agrees_nil problem current),
        sound.proper.equal_iff selfEqual found, agree, eq_comm]
  | none =>
    have open' : state.assumed.value? fact.subject = none :=
      Bindings.value?_eq_none_iff.mpr fun member =>
        Bindings.value?_eq_none_iff.mp found (sound.assumed _ member)
    have equal := (((selfEqual _ known).equal_iff_position_eq fact.located fact.located).mpr rfl)
    have after : state.test fact = (true, assuming state [(fact.subject, fact.value)]) := by
      rw [State.test, found, equal, Bindings.bind_of_value?_eq_none found,
        Bindings.bind_of_value?_eq_none open']
      rfl
    refine ⟨[(fact.subject, fact.value)], ?_, ?_, fun current _ => ?_⟩
    · rw [after]
    · rw [after]
      refine sound_assuming sound ?_
      rw [← Bindings.bind_of_value?_eq_none found]
      exact sound.proper.bind known fact.located
    · rw [single, after, Agrees, List.forall_mem_singleton]
      exact (and_iff_right rfl).symm

theorem testAll_cons_iff {fact : Fact} {rest : List Fact} :
    (state.testAll (fact :: rest)).1 = [] ↔
      (state.test fact).1 = true ∧ ((state.test fact).2.testAll rest).1 = [] := by
  have opened : (state.testAll (fact :: rest)).1 =
      if (state.test fact).1 then ((state.test fact).2.testAll rest).1
      else fact :: ((state.test fact).2.testAll rest).1 := rfl
  rw [opened]
  split
  next passed => rw [and_iff_right passed]
  next failed => exact iff_of_false (List.cons_ne_nil _ _) fun both => failed both.1

/-- Facts are tested one after another, later ones under the assumptions of earlier ones. -/
theorem Sound.testAll (sound : problem.Sound state) (selfEqual : problem.SelfEqual)
    {facts : List Fact} (covered : ∀ fact ∈ facts, fact.subject ∈ problem.subjects) :
    ∃ assumptions, problem.Tests state facts ((state.testAll facts).1 = [])
      (state.testAll facts).2 assumptions := by
  induction facts generalizing state with
  | nil =>
    refine ⟨[], (assuming_nil state).symm, sound, fun current _ => ?_⟩
    exact ⟨fun _ => ⟨rfl, agrees_nil problem current⟩, fun _ _ member => nomatch member⟩
  | cons fact rest inductionHypothesis =>
    obtain ⟨here, there⟩ := List.forall_mem_cons.mp covered
    obtain ⟨first, tests⟩ := sound.test selfEqual here
    obtain ⟨others, later⟩ := inductionHypothesis tests.sound there
    refine ⟨first ++ others, ?_, later.sound, fun current agrees => ?_⟩
    · rw [← assuming_assuming, ← tests.after_eq]
      exact later.after_eq
    · have head : problem.FactsHold current [fact] ↔
          problem.valueOf current fact.subject = fact.index := List.forall_mem_singleton
      rw [testAll_cons_iff, factsHold_cons_iff, ← head, tests.holds_iff current agrees,
        agrees_append_iff]
      have known (agrees' : problem.Agrees first current) :
          problem.Agrees (state.test fact).2.current current := by
        rw [tests.after_eq]
        exact agrees_append_iff.mpr ⟨agrees, agrees'⟩
      constructor
      · rintro ⟨⟨passed, agrees'⟩, holding⟩
        obtain ⟨passed', agrees''⟩ := (later.holds_iff current (known agrees')).mp holding
        exact ⟨⟨passed, passed'⟩, agrees', agrees''⟩
      · rintro ⟨⟨passed, passed'⟩, agrees', agrees''⟩
        exact ⟨⟨passed, agrees'⟩, (later.holds_iff current (known agrees')).mpr ⟨passed', agrees''⟩⟩

/-! ### Taking the actions of a plan -/

theorem follow_nil (goals : FactSet) (state : Simulation.State) (step : Nat) :
    follow goals state step [] =
      if (state.testAll goals.facts).1.isEmpty then
        .reached (step - 1) (state.testAll goals.facts).2.assumed
      else .goalsUnmet (state.testAll goals.facts).1 := rfl

theorem follow_cons (goals : FactSet) (state : Simulation.State) (step : Nat) (action : Action)
    (rest : List Action) :
    follow goals state step (action :: rest) =
      if !(state.testAll action.preconditions.facts).1.isEmpty then
        .unsatisfied step action (state.testAll action.preconditions.facts).1
      else match bindAll [] action.effects.facts with
        | .error _ => .contradictory step action
        | .ok changes => follow goals
          { (state.testAll action.preconditions.facts).2 with
            current := (state.testAll action.preconditions.facts).2.current.update changes }
          (step + 1) rest := rfl

/-- An action affects what its effects bind. -/
theorem Gathers.mem_subjects_of_affected {action : Action} {changes : Bindings}
    (gathers : problem.Gathers [] action.effects.facts changes) {subject : StateVariable}
    (affected : subject ∈ action.affected) : subject ∈ changes.subjects := by
  obtain ⟨fact, member, rfl⟩ := Action.mem_affected_iff.mp affected
  exact gathers.bound fact member

theorem Gathers.consistent {action : Action} {changes : Bindings}
    (gathers : problem.Gathers [] action.effects.facts changes) : action.Consistent := by
  obtain ⟨state, _, agrees⟩ := gathers.proper.exists_agrees
  have holding := ((gathers.agrees_iff state).mp agrees).2
  intro first member second member' same
  rw [← holding first member, ← holding second member', same]

/-- The state after an action agrees with what is known after it. -/
theorem Gathers.agrees_successor {action : Action} (covered : action.Over problem.subjects)
    {changes current : Bindings} (gathers : problem.Gathers [] action.effects.facts changes)
    (proper : problem.Proper current) {start : PlanState} (agrees : problem.Agrees current start) :
    problem.Agrees (current.update changes) (problem.successor action start) := by
  have holding := satisfies_successor covered gathers.consistent start
  have changed := (gathers.agrees_iff (problem.successor action start)).mpr
    ⟨agrees_nil problem _, holding⟩
  intro entry member
  rcases Bindings.mem_of_mem_update member with change | ⟨earlier, untouched⟩
  · exact changed entry change
  · rw [valueOf_successor_of_not_affected (proper.known entry earlier)
      (fun affected => untouched (gathers.mem_subjects_of_affected affected))]
    exact agrees entry earlier

/-- What is assumed after an action is about variables that the action does not affect. -/
theorem Gathers.agrees_fresh_iff {action : Action} {changes current more : Bindings}
    (gathers : problem.Gathers [] action.effects.facts changes)
    (proper : problem.Proper (current.update changes ++ more)) (start : PlanState) :
    problem.Agrees more (problem.successor action start) ↔ problem.Agrees more start := by
  refine forall₂_congr fun entry member => ?_
  rw [valueOf_successor_of_not_affected (proper.known entry (List.mem_append_right _ member))]
  intro affected
  exact proper.fresh member
    (Bindings.mem_subjects_update.mpr (Or.inr (gathers.mem_subjects_of_affected affected)))

/-- How a simulation ends after following a plan.  It may reach the goals, under the weakest
assumptions more that the plan needs, or fail with a report, as it has to from every state. -/
inductive Ends (problem : Problem) (state : Simulation.State) (plan : List Action) :
    Outcome → Prop where
  | reached {steps : Nat} {more : Bindings} (proper : problem.Proper (state.current ++ more))
      (weakest : ∀ start, problem.Agrees state.current start →
        (problem.Succeeds plan start ↔ problem.Agrees more start)) :
      Ends problem state plan (.reached steps (state.assumed ++ more))
  | failed {outcome : Outcome} (failed : outcome.succeeded = false)
      (reported : ∃ text, outcome.report = .ok text)
      (impossible : ∀ start, problem.Agrees state.current start → ¬ problem.Succeeds plan start) :
      Ends problem state plan outcome

/-- An action whose preconditions passed and whose effects were bound is taken. -/
theorem Ends.taken {action : Action} {rest : List Action} {assumptions changes : Bindings}
    {after : Simulation.State} {passed : Prop} {outcome : Outcome}
    (covered : action.Over problem.subjects)
    (tests : problem.Tests state action.preconditions.facts passed after assumptions)
    (passing : passed)
    (gathers : problem.Gathers [] action.effects.facts changes)
    (ends : problem.Ends { after with current := after.current.update changes } rest outcome) :
    problem.Ends state (action :: rest) outcome := by
  have sound := tests.sound
  have known := tests.after_eq
  subst known
  have here (start : PlanState) (agrees : problem.Agrees state.current start) :
      problem.Satisfies start action.preconditions ↔ problem.Agrees assumptions start :=
    (tests.holds_iff start agrees).trans (and_iff_right passing)
  have there (start : PlanState) (agrees : problem.Agrees state.current start)
      (agrees' : problem.Agrees assumptions start) := gathers.agrees_successor covered sound.proper
    (agrees_append_iff.mpr ⟨agrees, agrees'⟩)
  cases ends with
  | @reached steps more proper weakest =>
    have fresh : problem.Proper (state.current ++ (assumptions ++ more)) := by
      rw [← List.append_assoc]
      exact proper.append_of_fewer sound.proper
        fun subject known => Bindings.mem_subjects_update.mpr (Or.inl known)
    show problem.Ends state (action :: rest) (.reached steps (state.assumed ++ assumptions ++ more))
    rw [List.append_assoc]
    refine .reached fresh fun start agrees => ?_
    rw [Succeeds, here start agrees, agrees_append_iff, and_iff_right gathers.consistent]
    refine and_congr_right fun agrees' => ?_
    rw [weakest _ (there start agrees agrees'), gathers.agrees_fresh_iff proper]
  | failed failed reported impossible =>
    refine .failed failed reported fun start agrees => ?_
    rintro ⟨applicable, _, later⟩
    exact impossible _ (there start agrees ((here start agrees).mp applicable)) later

/-- After the last action the goals are tested. -/
theorem Sound.ends_nil (sound : problem.Sound state) (selfEqual : problem.SelfEqual) (step : Nat) :
    problem.Ends state [] (follow problem.goals state step []) := by
  obtain ⟨assumptions, tests⟩ := sound.testAll selfEqual problem.goalsKnown
  have sound' := tests.sound
  rw [follow_nil]
  split
  next passed =>
    rw [tests.after_eq] at sound' ⊢
    refine .reached sound'.proper fun start agrees => ?_
    exact (tests.holds_iff start agrees).trans (and_iff_right (List.isEmpty_iff.mp passed))
  next unmet =>
    refine .failed rfl ⟨_, rfl⟩ fun start agrees succeeds => unmet ?_
    exact List.isEmpty_iff.mpr ((tests.holds_iff start agrees).mp succeeds).1

/-- An action is tested, its effects are bound, and the rest of the plan is followed from there. -/
theorem Sound.ends_cons (sound : problem.Sound state) (selfEqual : problem.SelfEqual)
    {action : Action} {rest : List Action} (covered : action.Over problem.subjects) {step : Nat}
    (later : ∀ after : Simulation.State, problem.Sound after →
      problem.Ends after rest (follow problem.goals after (step + 1) rest)) :
    problem.Ends state (action :: rest) (follow problem.goals state step (action :: rest)) := by
  obtain ⟨title, titled⟩ := covered.titled
  obtain ⟨assumptions, tests⟩ := sound.testAll selfEqual covered.preconditions
  have gathered := (proper_nil problem).gathered_bindAll selfEqual covered.effects
  rw [follow_cons]
  split
  next missing =>
    refine .failed rfl ⟨_, by rw [Outcome.report, titled]; rfl⟩ fun start agrees succeeds => ?_
    rw [((tests.holds_iff start agrees).mp succeeds.1).1] at missing
    cases missing
  next present =>
    have passed : (state.testAll action.preconditions.facts).1 = [] := by simpa using present
    cases bound : bindAll [] action.effects.facts with
    | error refused =>
      rw [bound] at gathered
      refine .failed rfl ⟨_, by rw [Outcome.report, titled]; rfl⟩ fun start _ succeeds => ?_
      exact gathered (problem.successor action start) (agrees_nil problem _)
        (satisfies_successor covered succeeds.2.1 start)
    | ok changes =>
      rw [bound] at gathered
      refine .taken covered tests passed gathered (later _ ⟨?_, fun subject assumed => ?_⟩)
      · exact tests.sound.proper.update gathered.proper
      · exact Bindings.mem_subjects_update.mpr (Or.inl (tests.sound.assumed subject assumed))

/-- Following a plan ends as it has to for all states that agree with what was known. -/
theorem Sound.ends_follow (sound : problem.Sound state) (selfEqual : problem.SelfEqual)
    {plan : List Action} (covered : ∀ action ∈ plan, action.Over problem.subjects) (step : Nat) :
    problem.Ends state plan (follow problem.goals state step plan) := by
  induction plan generalizing state step with
  | nil => exact sound.ends_nil selfEqual step
  | cons action rest inductionHypothesis =>
    obtain ⟨here, there⟩ := List.forall_mem_cons.mp covered
    exact sound.ends_cons selfEqual here
      fun after sound => inductionHypothesis sound there (step + 1)

/-! ### Running a plan -/

/-- How a run of a plan from the initial facts ends.  If it reaches the goals, the plan succeeds
from some state with these facts, and precisely from those that agree with what was assumed.  If it
fails, the plan succeeds from no such state. -/
inductive Judges (problem : Problem) (plan : List Action) : Outcome → Prop where
  | reached {steps : Nat} {assumed : Bindings}
      (reported : ∃ text, (Outcome.reached steps assumed).report = .ok text)
      (attained : ∃ start, problem.Total start ∧ problem.Satisfies start problem.initial ∧
        problem.Agrees assumed start)
      (weakest : ∀ start, problem.Satisfies start problem.initial →
        (problem.Succeeds plan start ↔ problem.Agrees assumed start)) :
      Judges problem plan (.reached steps assumed)
  | failed {outcome : Outcome} (failed : outcome.succeeded = false)
      (reported : ∃ text, outcome.report = .ok text)
      (impossible : ∀ start, problem.Satisfies start problem.initial →
        ¬ problem.Succeeds plan start) :
      Judges problem plan outcome

/-- Values of a domain are found there, so what was assumed can be listed. -/
theorem exists_bindingTexts {assumed : Bindings}
    (located : ∀ entry ∈ assumed, ∃ position, entry.1.find? entry.2 = some position) :
    ∃ texts, assumed.mapM bindingText = .ok texts := by
  refine exists_mapM_eq_ok fun entry member => ?_
  obtain ⟨position, found⟩ := located entry member
  rw [bindingText, Fact.locate]
  split
  next => exact ⟨_, rfl⟩
  next missing => cases found.symm.trans missing

theorem report_reached {steps : Nat} {assumed : Bindings}
    (located : ∀ entry ∈ assumed, ∃ position, entry.1.find? entry.2 = some position) :
    ∃ text, (Outcome.reached steps assumed).report = .ok text := by
  obtain ⟨texts, written⟩ := exists_bindingTexts located
  rw [Outcome.report]
  split
  next => exact ⟨_, rfl⟩
  next => exact ⟨_, by rw [written, ok_bind]⟩

/-- What the initial facts bind is proper, and the states that agree with it are those in which they
hold. -/
theorem gathers_initial (selfEqual : problem.SelfEqual) {current : Bindings}
    (bound : bindAll [] problem.initial.facts = .ok current) :
    problem.Gathers [] problem.initial.facts current := by
  have gathered := (proper_nil problem).gathered_bindAll selfEqual problem.initialKnown
  rwa [bound] at gathered

/-- A simulation starts without assumptions. -/
theorem Gathers.sound {facts : List Fact} {current : Bindings}
    (gathers : problem.Gathers [] facts current) : problem.Sound ⟨current, []⟩ :=
  ⟨gathers.proper, fun _ member => absurd member List.not_mem_nil⟩

theorem judges_run (problem : Problem) (selfEqual : problem.SelfEqual) {plan : List Action}
    (covered : ∀ action ∈ plan, action.Over problem.subjects) :
    problem.Judges plan (run problem plan) := by
  rw [run]
  cases bound : bindAll [] problem.initial.facts with
  | error fact =>
    have gathered := (proper_nil problem).gathered_bindAll selfEqual problem.initialKnown
    rw [bound] at gathered
    exact .failed rfl ⟨_, rfl⟩ fun start satisfied =>
      absurd satisfied (gathered start (agrees_nil problem start))
  | ok current =>
    have gathers := gathers_initial selfEqual bound
    have initial (start : PlanState) :
        problem.Agrees current start ↔ problem.Satisfies start problem.initial :=
      (gathers.agrees_iff start).trans (and_iff_right (agrees_nil problem start))
    have ends := gathers.sound.ends_follow selfEqual covered 1
    show problem.Judges plan (follow problem.goals ⟨current, []⟩ 1 plan)
    generalize follow problem.goals ⟨current, []⟩ 1 plan = outcome at ends ⊢
    cases ends with
    | @reached steps more proper weakest =>
      obtain ⟨start, total, agrees⟩ := proper.exists_agrees
      obtain ⟨agrees, agrees'⟩ := agrees_append_iff.mp agrees
      refine .reached (report_reached fun entry member =>
        proper.located entry (List.mem_append_right _ member))
        ⟨start, total, (initial start).mp agrees, agrees'⟩ fun start satisfied => ?_
      exact weakest start ((initial start).mpr satisfied)
    | failed failed reported impossible =>
      exact .failed failed reported fun start satisfied =>
        impossible start ((initial start).mpr satisfied)

/-- A run succeeds exactly if the plan does from some state with the initial facts. -/
theorem Judges.succeeded_iff {plan : List Action} {outcome : Outcome}
    (judges : problem.Judges plan outcome) :
    outcome.succeeded = true ↔ ∃ start, problem.Total start ∧
      problem.Satisfies start problem.initial ∧ problem.Succeeds plan start := by
  cases judges with
  | reached _ attained weakest =>
    obtain ⟨start, total, satisfied, agrees⟩ := attained
    exact iff_of_true rfl ⟨start, total, satisfied, (weakest start satisfied).mpr agrees⟩
  | failed failed _ impossible =>
    rw [failed]
    exact iff_of_false Bool.false_ne_true
      fun ⟨start, _, satisfied, succeeds⟩ => impossible start satisfied succeeds

theorem Judges.reported {plan : List Action} {outcome : Outcome}
    (judges : problem.Judges plan outcome) : ∃ text, outcome.report = .ok text := by
  cases judges with
  | reached reported => exact reported
  | failed _ reported => exact reported

end Problem

end HorizonPlanner
