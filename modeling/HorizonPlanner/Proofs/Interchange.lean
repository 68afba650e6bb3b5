/-
This file proves that engines can be interchanged.  A model may be built and
solved in any order, so a request for a solution is about the network that was
stated up to then.  Every engine answers it rightly, and a right answer is of one
status only.  So engines that share nothing but the constraints return the same
statuses, and what was asked before leaves no trace.
-/

import HorizonPlanner.Proofs.Engines

namespace HorizonPlanner

/-! ### Requests -/

/-- A call on a model.  A solution may be asked for through another backend each time. -/
inductive Request where
  | build (step : BuildStep Int)
  | solve (backend : Cnf.Backend)

namespace Request

/-- The step in building a model that a request is, if it is one. -/
def step? : Request → Option (BuildStep Int)
  | build step => some step
  | solve _ => none

/-- The networks whose solutions are asked for, one after another. -/
def networks (network : Network Int) : List Request → List (Network Int)
  | [] => []
  | build step :: rest => networks (network.extend step) rest
  | solve _ :: rest => network :: networks network rest

theorem networks_append (network : Network Int) (first second : List Request) :
    networks network (first ++ second) = networks network first ++
      networks (network.extendAll (first.filterMap step?)) second := by
  induction first generalizing network with
  | nil => rfl
  | cons request rest inductionHypothesis =>
    cases request with
    | build step => exact inductionHypothesis (network.extend step)
    | solve backend => exact congrArg (network :: ·) (inductionHypothesis network)

end Request

/-- Meets requests one after another, solving without a time limit, and gathers the answers. -/
def EngineModel.meet (clock : Clock) (model : EngineModel Int) (readings : Nat) :
    List Request → Except Fault (List (Answer Int))
  | [] => .ok []
  | .build step :: rest =>
    match perform step model with
    | (some fault, _) => .error fault
    | (none, after) => meet clock after readings rest
  | .solve backend :: rest => do
    let report := model.solve backend clock (.integer 0) readings
    let answer ← report.outcome
    let others ← meet clock model report.readings rest
    .ok (answer :: others)

namespace Engine

/-- The answers of an engine to requests on an empty model. -/
def answers (engine : Engine) (clock : Clock) (requests : List Request) :
    Except Fault (List (Answer Int)) :=
  (EngineModel.empty engine).meet clock 0 requests

/-- The statuses of the answers. -/
def statuses (engine : Engine) (clock : Clock) (requests : List Request) :
    Except Fault (List Status) :=
  (engine.answers clock requests).map (List.map Answer.status)

end Engine

/-! ### Right answers -/

namespace Network

theorem AdmitsAll.of_append {network : Network Int} {first second : List (BuildStep Int)}
    (admitted : network.AdmitsAll (first ++ second)) : network.AdmitsAll first := by
  induction first generalizing network with
  | nil => trivial
  | cons step rest inductionHypothesis => exact ⟨admitted.1, inductionHypothesis admitted.2⟩

/-- The status of a right answer about a network. -/
noncomputable def status (network : Network Int) : Status :=
  open Classical in
  if ∃ values, network.Solution values then .satisfiable else .unsatisfiable

/-- Right answers about networks with the same solutions are of the same status. -/
theorem status_congr {first second : Network Int}
    (same : ∀ values, first.Solution values ↔ second.Solution values) :
    first.status = second.status := by
  have solutions : first.Solution = second.Solution := funext fun values => propext (same values)
  rw [status, status, solutions]

theorem Answers.status_eq {network : Network Int} {answer : Answer Int}
    (right : network.Answers answer) : answer.status = network.status := by
  rcases right with ⟨satisfiable, solution⟩ | ⟨unsatisfiable, none⟩
  · rw [satisfiable, Network.status, if_pos ⟨_, solution⟩]
  · rw [unsatisfiable, Network.status, if_neg none]

theorem map_status_eq {networks : List (Network Int)} {answers : List (Answer Int)}
    (right : List.Forall₂ Answers networks answers) :
    answers.map Answer.status = networks.map status := by
  induction right with
  | nil => rfl
  | cons first _ inductionHypothesis =>
    rw [List.map_cons, List.map_cons, first.status_eq, inductionHypothesis]

end Network

/-- A model that holds a network answers each request rightly, about what was stated up to it. -/
theorem EngineModel.Holds.meet_answers {model : EngineModel Int} {engine : Engine}
    {network : Network Int} (holds : model.Holds engine network) (wellFormed : network.WellFormed)
    {requests : List Request} (admitted : network.AdmitsAll (requests.filterMap Request.step?))
    (exact' : ∀ backend, .solve backend ∈ requests → backend.Exact) (clock : Clock)
    (readings : Nat) :
    ∃ answers, model.meet clock readings requests = .ok answers ∧
      List.Forall₂ Network.Answers (Request.networks network requests) answers := by
  -- Solving leaves the model as it is, so only building moves it on, along with the network.
  induction requests generalizing model network readings with
  | nil => exact ⟨[], rfl, .nil⟩
  | cons request rest inductionHypothesis =>
    have later := fun backend member => exact' backend (List.mem_cons_of_mem _ member)
    cases request with
    | build step =>
      obtain ⟨here, there⟩ := admitted
      obtain ⟨after, performed, holds⟩ := EngineModel.holds_perform holds wellFormed here
      obtain ⟨answers, met, right⟩ := inductionHypothesis holds
        (Network.wellFormed_extend wellFormed here) there later readings
      refine ⟨answers, ?_, right⟩
      rw [meet, performed]
      exact met
    | solve backend =>
      have read : TimeLimit.ofValue (.integer 0) = .ok .unlimited := rfl
      obtain ⟨answer, solved, right⟩ := holds.solve_answers wellFormed
        (Or.inr (exact' backend List.mem_cons_self)) clock read TimeLimit.unlimited_absent readings
      obtain ⟨others, met, right'⟩ := inductionHypothesis holds wellFormed admitted later
        (model.solve backend clock (.integer 0) readings).readings
      refine ⟨answer :: others, ?_, .cons right right'⟩
      simp only [meet, solved, met, ok_bind]

namespace Engine

theorem exists_answers {requests : List Request}
    (admitted : Network.empty.AdmitsAll (requests.filterMap Request.step?))
    (exact' : ∀ backend, .solve backend ∈ requests → backend.Exact) (engine : Engine)
    (clock : Clock) :
    ∃ answers, engine.answers clock requests = .ok answers ∧
      List.Forall₂ Network.Answers (Request.networks .empty requests) answers :=
  (EngineModel.holds_empty engine).meet_answers Network.wellFormed_empty admitted exact' clock 0

/-- The statuses depend neither on the engine nor on anything but the networks. -/
theorem statuses_eq {requests : List Request}
    (admitted : Network.empty.AdmitsAll (requests.filterMap Request.step?))
    (exact' : ∀ backend, .solve backend ∈ requests → backend.Exact) (engine : Engine)
    (clock : Clock) :
    engine.statuses clock requests =
      .ok ((Request.networks .empty requests).map Network.status) := by
  obtain ⟨answers, met, right⟩ := exists_answers admitted exact' engine clock
  rw [statuses, met, ← Network.map_status_eq right]
  rfl

/-- Every engine answers every request rightly, whatever is built before and between the requests;
all engines answer with the same statuses; and a request can be left out without a change to the
statuses of the others. -/
theorem engines_interchangeable (requests : List Request)
    (admitted : Network.empty.AdmitsAll (requests.filterMap Request.step?))
    (exact' : ∀ backend, .solve backend ∈ requests → backend.Exact) :
    (∀ (engine : Engine) clock, ∃ answers, engine.answers clock requests = .ok answers ∧
      List.Forall₂ Network.Answers (Request.networks .empty requests) answers) ∧
    (∀ (engine engine' : Engine) clock clock',
      engine.statuses clock requests = engine'.statuses clock' requests) ∧
    ∀ (engine : Engine) clock before backend after, requests = before ++ .solve backend :: after →
      ∃ earlier status later, engine.statuses clock before = .ok earlier ∧
        engine.statuses clock requests = .ok (earlier ++ status :: later) ∧
        engine.statuses clock (before ++ after) = .ok (earlier ++ later) := by
  refine ⟨exists_answers admitted exact', fun engine engine' clock clock' => ?_, ?_⟩
  · rw [statuses_eq admitted exact', statuses_eq admitted exact']
  · rintro engine clock before backend after rfl
    have steps : (before ++ .solve backend :: after).filterMap Request.step? =
        (before ++ after).filterMap Request.step? := by
      rw [List.filterMap_append, List.filterMap_append]
      rfl
    have admitted' : Network.empty.AdmitsAll ((before ++ after).filterMap Request.step?) :=
      steps ▸ admitted
    have admitted'' : Network.empty.AdmitsAll (before.filterMap Request.step?) := by
      rw [List.filterMap_append] at admitted'
      exact admitted'.of_append
    rw [statuses_eq admitted exact', statuses_eq admitted' fun other member => exact' other ?_,
      statuses_eq admitted'' fun other member => exact' other (List.mem_append_left _ member),
      Request.networks_append, Request.networks_append, List.map_append, List.map_append]
    · exact ⟨_, _, _, rfl, rfl, rfl⟩
    · rcases List.mem_append.mp member with member | member
      · exact List.mem_append_left _ member
      · exact List.mem_append_right _ (List.mem_cons_of_mem _ member)

/-- A variable with a repeated value, asked for before and after it is bound to a value outside of
its domain. -/
def outsideDomain : List Request :=
  [.build (.declare ⟨"x", [2, 1, 2]⟩), .solve Cnf.exhaustive, .build (.post (.equals 0 3)),
    .solve Cnf.exhaustive]

theorem engines_interchangeable_outsideDomain :
    (Engine.clausal "cadical" false).statuses .counting outsideDomain =
      .ok [.satisfiable, .unsatisfiable] := by
  have admitted : Network.empty.AdmitsAll (outsideDomain.filterMap Request.step?) := by
    refine ⟨trivial, ⟨rfl, ?_⟩, trivial⟩
    decide
  have exact' : ∀ backend, .solve backend ∈ outsideDomain → backend.Exact := by
    intro backend member
    obtain rfl : backend = Cnf.exhaustive := by simpa [outsideDomain] using member
    exact Cnf.exhaustive_exact
  obtain ⟨_, same, _⟩ := engines_interchangeable outsideDomain admitted exact'
  rw [same (.clausal "cadical" false) .backtracking .counting .counting]
  rfl

end Engine

end HorizonPlanner
