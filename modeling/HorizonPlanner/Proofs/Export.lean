/-
This file says what the clauses that are written out are worth.  An empty clause
is not among them when it is derived; the model records it on the side.  So the
clauses are satisfiable exactly if the network has a solution only as long as
nothing was recorded.  Solving looks at the record first, and its answer is right
in any case.
-/

import HorizonPlanner.Proofs.Engines

namespace HorizonPlanner.Cnf

/-- A model in which nothing contradicts itself and the clauses written out can be made true. -/
def Model.Consistent (model : Model Int) : Prop :=
  model.contradiction = false ∧ ∃ truth, model.formula.satisfied truth = true

theorem Model.Represents.consistent_iff {model : Model Int} {network : Network Int}
    (represents : model.Represents network) :
    model.Consistent ↔ ∃ values, network.Solution values := by
  constructor
  · rintro ⟨possible, truth, satisfied⟩
    exact ⟨_, represents.sound truth (Model.admits_iff.mpr ⟨possible, satisfied⟩)⟩
  · rintro ⟨values, solution⟩
    obtain ⟨truth, admitted, _⟩ := represents.complete values solution
    obtain ⟨possible, satisfied⟩ := Model.admits_iff.mp admitted
    exact ⟨possible, truth, satisfied⟩

/-- Whatever calls built a model: its clauses are satisfiable and no contradiction is recorded
beside them exactly if the network has a solution, and exactly if solving the model without a time
limit through a backend that decides answers that there is one. -/
theorem consistent_iff_solvable (steps : List (BuildStep Int))
    (admitted : Network.empty.AdmitsAll steps) :
    ∃ model, (performAll steps).run .empty = .ok () model ∧
      (model.Consistent ↔ ∃ values, (Network.empty.extendAll steps).Solution values) ∧
      ∀ (backend : Backend) (name : String) (interruptible : Bool) (clock : Clock)
        (limit : TimeLimit) (readings : Nat), backend.Exact → limit.Absent →
        ∃ answer, (model.solve name backend interruptible clock (.ok limit) readings).outcome =
            .ok answer ∧
          (answer.status = .satisfiable ↔ model.Consistent) := by
  obtain ⟨model, ran, represents⟩ :=
    Model.run_performAll Model.represents_empty Network.wellFormed_empty admitted
  refine ⟨model, ran, represents.consistent_iff, ?_⟩
  intro backend name interruptible clock limit readings decides unlimited
  obtain ⟨answer, solved, right⟩ :=
    represents.solve_answers decides name interruptible clock unlimited readings
  refine ⟨answer, solved, ?_⟩
  rw [represents.consistent_iff]
  rcases right with ⟨satisfiable, solution⟩ | ⟨unsatisfiable, none⟩
  · exact iff_of_true satisfiable ⟨_, solution⟩
  · rw [unsatisfiable]
    exact iff_of_false (fun impossible => nomatch impossible) none

/-- A variable is bound to a value outside of its domain. -/
def misfit : List (BuildStep Int) := [.declare ⟨"x", [1]⟩, .post (.equals 0 2)]

/-- The text that is written out may be satisfiable although there is no solution. -/
theorem satisfiable_dimacs_misfit :
    ∃ model, (performAll misfit).run .empty = .ok () model ∧
      model.formula.dimacs = "p cnf 1 1\n1 0\n" ∧
      model.formula.satisfied (fun _ => true) = true ∧
      ¬ ∃ values, (Network.empty.extendAll misfit).Solution values := by
  refine ⟨⟨#[⟨"x", [1]⟩], #[[(1, 1)]], 1, #[[.holds 1]], none, true, 1⟩, rfl, rfl, ?_, ?_⟩
  · exact Formula.satisfied_iff.mpr fun clause member => by
      rw [Array.mem_singleton.mp member]
      rfl
  · rintro ⟨values, within, satisfied⟩
    obtain ⟨value, rfl⟩ : ∃ value, values = [value] :=
      List.length_eq_one_iff.mp within.length_eq.symm
    obtain ⟨one, -⟩ := List.forall₂_cons.mp within
    obtain rfl : value = 1 := List.mem_singleton.mp one
    exact absurd (satisfied (.equals 0 2) (List.mem_singleton_self _)) (by decide)

end HorizonPlanner.Cnf
