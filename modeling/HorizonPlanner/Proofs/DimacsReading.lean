/-
This file proves that a formula is read back from the text that is written for
it.  A reader goes through the lines of a text: the first one states how many
variables and clauses there are, and the numbers on the others make up the
clauses, each ended by a zero.

A zero could not end a clause if it could also be the number of a literal, so
the proof rests on what every compiled model keeps, whether or not constraints
were refused: its clauses are over the propositional variables from one to the
number of those taken.
-/

import HorizonPlanner.Cnf.Dimacs
import HorizonPlanner.Proofs.Numbering
import Mathlib

namespace HorizonPlanner.Cnf

/-! ### A reader of the exchange format -/

namespace Dimacs

/-- What a text says: the numbers of variables and of clauses that its header states, the number of
lines after the header, and the clauses. -/
structure Reading where
  atoms : Nat
  stated : Nat
  lines : Nat
  clauses : List Clause
  deriving DecidableEq

/-- The lines of a text that say something.  An empty line does not, nor does a comment, which
begins with a letter of its own. -/
def lines (text : String) : List (List Char) :=
  (text.toList.splitOn '\n').filter fun line => !line.isEmpty && line.head? != some 'c'

/-- The words of a line. -/
def words (line : List Char) : List String :=
  ((line.splitOn ' ').filter fun word => !word.isEmpty).map String.ofList

/-- The clauses that a list of numbers makes up, given the literals at the front of the first one.
A zero ends a clause, and no clause is left without one. -/
def clausesFrom (begun : Clause) : List Int → Option (List Clause)
  | [] => if begun.isEmpty then some [] else none
  | number :: rest =>
    if number = 0 then (clausesFrom [] rest).map (begun :: ·)
    else clausesFrom (begun ++ [.ofNumber number]) rest

/-- Reads a text.  The numbers of a clause may be spread over several lines. -/
def read (text : String) : Option Reading :=
  match lines text with
  | [] => none
  | header :: body => match words header with
    | ["p", "cnf", atoms, stated] => do
      let atoms ← atoms.toNat?
      let stated ← stated.toNat?
      let numbers ← (body.flatMap words).mapM String.toInt?
      let clauses ← clausesFrom [] numbers
      some ⟨atoms, stated, body.length, clauses⟩
    | _ => none

/-! ### Separated items -/

section

variable {β : Type}

theorem intercalate_concat (separator : β) {items : List (List β)} (proper : items ≠ [])
    (last : List β) :
    [separator].intercalate (items ++ [last]) =
      [separator].intercalate items ++ separator :: last := by
  induction items with
  | nil => exact absurd rfl proper
  | cons item rest inductionHypothesis =>
    cases rest with
    | nil => simp [List.intercalate_cons_cons]
    | cons next others =>
      have shorter := inductionHypothesis (List.cons_ne_nil next others)
      rw [List.cons_append] at shorter
      rw [List.cons_append, List.cons_append, List.intercalate_cons_cons, shorter,
        List.intercalate_cons_cons, List.append_assoc, List.append_assoc, List.append_assoc]

theorem mem_intercalate {separator : β} {items : List (List β)} {element : β}
    (member : element ∈ [separator].intercalate items) :
    element = separator ∨ ∃ item ∈ items, element ∈ item := by
  induction items with
  | nil => exact absurd member List.not_mem_nil
  | cons item rest inductionHypothesis =>
    cases rest with
    | nil =>
      rw [List.intercalate_singleton] at member
      exact Or.inr ⟨item, List.mem_cons_self, member⟩
    | cons next others =>
      rw [List.intercalate_cons_cons, List.mem_append, List.mem_append] at member
      rcases member with (here | between) | later
      · exact Or.inr ⟨item, List.mem_cons_self, here⟩
      · exact Or.inl (List.mem_singleton.mp between)
      · refine (inductionHypothesis later).imp_right fun ⟨found, among, inside⟩ => ?_
        exact ⟨found, List.mem_cons_of_mem item among, inside⟩

end

/-- The words that a line is written with are the ones that it is read as. -/
theorem words_intercalate {items : List String}
    (proper : ∀ word ∈ items, word.toList ≠ [] ∧ ' ' ∉ word.toList) :
    words ([' '].intercalate (items.map String.toList)) = items := by
  by_cases nothing : items = []
  · subst nothing
    rfl
  have whole : ∀ word ∈ items.map String.toList, ' ' ∉ word :=
    List.forall_mem_map.mpr fun word member => (proper word member).2
  have kept : (items.map String.toList).filter (fun word => !word.isEmpty) =
      items.map String.toList := by
    refine List.filter_eq_self.mpr (List.forall_mem_map.mpr fun word member => ?_)
    simpa using (proper word member).1
  have restored : String.ofList ∘ String.toList = id := funext fun word => word.ofList_toList
  rw [words, List.splitOn_intercalate ' ' whole (by simpa using nothing), kept, List.map_map,
    restored, List.map_id]

/-- The lines that a text is written with are the ones that it is read as, unless one of them is
empty or a comment. -/
theorem lines_intercalate {items : List String} (some : items ≠ [])
    (proper : ∀ line ∈ items, line.toList ≠ [] ∧ line.toList.head? ≠ .some 'c' ∧
      '\n' ∉ line.toList) :
    lines ("\n".intercalate items ++ "\n") = items.map String.toList := by
  have ended : ("\n".intercalate items ++ "\n").toList =
      ['\n'].intercalate (items.map String.toList ++ [[]]) := by
    rw [intercalate_concat '\n' (by simpa using some), String.toList_append,
      String.toList_intercalate]
    rfl
  have whole : ∀ line ∈ items.map String.toList ++ [[]], '\n' ∉ line := by
    refine List.forall_mem_append.mpr ⟨List.forall_mem_map.mpr fun line member => ?_, by simp⟩
    exact (proper line member).2.2
  have kept : (items.map String.toList).filter
      (fun line => !line.isEmpty && line.head? != .some 'c') = items.map String.toList := by
    refine List.filter_eq_self.mpr (List.forall_mem_map.mpr fun line member => ?_)
    obtain ⟨nonempty, statement, -⟩ := proper line member
    rw [Bool.and_eq_true, Bool.not_eq_true', List.isEmpty_eq_false_iff, bne_iff_ne]
    exact ⟨nonempty, statement⟩
  rw [lines, ended, List.splitOn_intercalate '\n' whole (by simp), List.filter_append, kept]
  exact List.append_nil _

/-! ### Numbers -/

theorem isDigit_of_mem_toString {number : Nat} {character : Char}
    (member : character ∈ (toString number).toList) : character.isDigit = true := by
  rw [Nat.toString_eq_ofList_toDigits, String.toList_ofList] at member
  exact Nat.isDigit_of_mem_toDigits (by decide) (Nat.le_refl 10) member

theorem toList_toString_ne_nil (number : Nat) : (toString number).toList ≠ [] := by
  rw [Nat.toString_eq_ofList_toDigits, String.toList_ofList]
  exact Nat.toDigits_ne_nil

/-- A whole number is written with digits, behind a minus if it is negative. -/
theorem mem_toString {number : Int} {character : Char}
    (member : character ∈ (toString number).toList) :
    character = '-' ∨ character.isDigit = true := by
  cases number with
  | ofNat size =>
    have inside : character ∈ (toString size).toList := member
    exact Or.inr (isDigit_of_mem_toString inside)
  | negSucc size =>
    have written : toString (Int.negSucc size) = "-" ++ toString (size + 1) := rfl
    rw [written, String.toList_append, List.mem_append] at member
    rcases member with sign | digit
    · exact Or.inl (List.mem_singleton.mp sign)
    · exact Or.inr (isDigit_of_mem_toString digit)

theorem toList_toString_int_ne_nil (number : Int) : (toString number).toList ≠ [] := by
  cases number with
  | ofNat size => exact toList_toString_ne_nil size
  | negSucc size =>
    have written : toString (Int.negSucc size) = "-" ++ toString (size + 1) := rfl
    rw [written, String.toList_append]
    exact List.append_ne_nil_of_left_ne_nil (by decide) _

/-- A number has neither a blank nor a line break in it. -/
theorem not_mem_toString {character : Char} (sign : character ≠ '-')
    (digit : character.isDigit = false) (number : Int) : character ∉ (toString number).toList := by
  intro member
  rcases mem_toString member with same | found
  · exact sign same
  · exact absurd (found.symm.trans digit) (by decide)

theorem mapM_toInt (numbers : List Int) :
    (numbers.map toString).mapM String.toInt? = some numbers := by
  induction numbers with
  | nil => rfl
  | cons number rest inductionHypothesis =>
    have here : (toString number).toInt? = some number := Int.toInt?_repr number
    rw [List.map_cons, List.mapM_cons, here, inductionHypothesis]
    rfl

/-! ### The lines of a formula -/

/-- The numbers on the line of a clause. -/
def numbersOf (clause : Clause) : List Int := clause.map Literal.number ++ [0]

theorem toList_dimacs {clause : Clause} (proper : clause ≠ []) :
    clause.dimacs.toList =
      [' '].intercalate (((numbersOf clause).map toString).map String.toList) := by
  have written : (clause.map fun literal => toString literal.number) =
      (clause.map Literal.number).map toString := by
    rw [List.map_map]
    rfl
  have some : ((clause.map Literal.number).map toString).map String.toList ≠ [] := by
    simpa using proper
  rw [Clause.dimacs, String.toList_append, String.toList_intercalate, written, numbersOf,
    List.map_append, List.map_append]
  exact (intercalate_concat ' ' some _).symm

theorem words_dimacs {clause : Clause} (proper : clause ≠ []) :
    words clause.dimacs.toList = (numbersOf clause).map toString := by
  rw [toList_dimacs proper]
  refine words_intercalate (List.forall_mem_map.mpr fun number _ => ?_)
  exact ⟨toList_toString_int_ne_nil number, not_mem_toString (by decide) (by decide) number⟩

theorem toList_header (formula : Formula) :
    formula.header.toList = [' '].intercalate
      (["p", "cnf", toString formula.atoms, toString formula.clauses.size].map
        String.toList) := by
  have spelled : formula.header = "p cnf " ++ toString formula.atoms ++ " " ++
      toString formula.clauses.size := rfl
  simp [spelled, List.intercalate_cons_cons]

theorem words_header (formula : Formula) :
    words formula.header.toList =
      ["p", "cnf", toString formula.atoms, toString formula.clauses.size] := by
  rw [toList_header]
  refine words_intercalate fun word member => ?_
  have numeral (size : Nat) : (toString size).toList ≠ [] ∧ ' ' ∉ (toString size).toList :=
    ⟨toList_toString_ne_nil size, not_mem_toString (by decide) (by decide) (size : Int)⟩
  simp only [List.mem_cons, List.not_mem_nil, or_false] at member
  rcases member with rfl | rfl | rfl | rfl
  · decide
  · decide
  · exact numeral formula.atoms
  · exact numeral formula.clauses.size

/-- The line of a clause is neither empty nor a comment, and it is one line. -/
theorem line_dimacs {clause : Clause} (proper : clause ≠ []) :
    clause.dimacs.toList ≠ [] ∧ clause.dimacs.toList.head? ≠ some 'c' ∧
      '\n' ∉ clause.dimacs.toList := by
  have absent {character : Char} (blank : character ≠ ' ') (sign : character ≠ '-')
      (digit : character.isDigit = false) : character ∉ clause.dimacs.toList := by
    intro member
    rw [toList_dimacs proper] at member
    rcases mem_intercalate member with same | ⟨word, among, inside⟩
    · exact blank same
    · rw [List.map_map] at among
      obtain ⟨number, -, rfl⟩ := List.mem_map.mp among
      exact not_mem_toString sign digit number inside
  refine ⟨fun nothing => ?_, fun comment => ?_, absent (by decide) (by decide) (by decide)⟩
  · have spoken := words_dimacs proper
    rw [nothing, numbersOf, List.map_append] at spoken
    exact List.append_ne_nil_of_right_ne_nil _ (List.cons_ne_nil _ _) spoken.symm
  · exact absent (by decide) (by decide) (by decide) (List.mem_of_head? comment)

theorem line_header (formula : Formula) :
    formula.header.toList ≠ [] ∧ formula.header.toList.head? ≠ some 'c' ∧
      '\n' ∉ formula.header.toList := by
  have start : formula.header.toList = 'p' :: ' ' :: [' '].intercalate
      (["cnf", toString formula.atoms, toString formula.clauses.size].map String.toList) := by
    rw [toList_header, List.map_cons, List.map_cons, List.intercalate_cons_cons]
    rfl
  refine ⟨by simp [start], by simp [start], fun member => ?_⟩
  rw [toList_header] at member
  have numeral (size : Nat) : '\n' ∉ (toString size).toList :=
    not_mem_toString (by decide) (by decide) (size : Int)
  rcases mem_intercalate member with same | ⟨word, among, inside⟩
  · exact absurd same (by decide)
  · simp only [List.map_cons, List.map_nil, List.mem_cons, List.not_mem_nil, or_false] at among
    rcases among with rfl | rfl | rfl | rfl
    · exact absurd inside (by decide)
    · exact absurd inside (by decide)
    · exact numeral formula.atoms inside
    · exact numeral formula.clauses.size inside

/-! ### Clauses out of numbers -/

theorem natAbs_number (literal : Literal) : literal.number.natAbs = literal.atom := by
  obtain ⟨atom, sign⟩ := literal
  cases sign with
  | true => exact Int.natAbs_natCast atom
  | false => exact Int.natAbs_neg atom

theorem ofNumber_number {literal : Literal} (positive : 0 < literal.atom) :
    literal.number ≠ 0 ∧ Literal.ofNumber literal.number = literal := by
  obtain ⟨atom, sign⟩ := literal
  have positive : 0 < atom := positive
  cases sign with
  | true =>
    show (atom : Int) ≠ 0 ∧ (⟨(atom : Int).natAbs, decide (0 < (atom : Int))⟩ : Literal) = _
    simpa using ⟨Nat.ne_of_gt positive, positive⟩
  | false =>
    show -(atom : Int) ≠ 0 ∧ (⟨(-(atom : Int)).natAbs, decide (0 < -(atom : Int))⟩ : Literal) = _
    simpa using Nat.ne_of_gt positive

/-- The numbers on the line of a clause are read to the clause, whatever follows. -/
theorem clausesFrom_append {clause : Clause} (positive : ∀ literal ∈ clause, 0 < literal.atom)
    (begun : Clause) (rest : List Int) :
    clausesFrom begun (numbersOf clause ++ rest) =
      (clausesFrom [] rest).map ((begun ++ clause) :: ·) := by
  induction clause generalizing begun with
  | nil =>
    show clausesFrom begun (0 :: rest) = _
    rw [clausesFrom, if_pos rfl, List.append_nil]
  | cons literal others inductionHypothesis =>
    obtain ⟨here, there⟩ := List.forall_mem_cons.mp positive
    obtain ⟨nonzero, same⟩ := ofNumber_number here
    show clausesFrom begun (literal.number :: (numbersOf others ++ rest)) = _
    rw [clausesFrom, if_neg nonzero, same, inductionHypothesis there, List.append_assoc,
      List.singleton_append]

theorem clausesFrom_flatMap {clauses : List Clause}
    (positive : ∀ clause ∈ clauses, ∀ literal ∈ clause, 0 < literal.atom) :
    clausesFrom [] (clauses.flatMap numbersOf) = some clauses := by
  induction clauses with
  | nil => rfl
  | cons clause rest inductionHypothesis =>
    obtain ⟨here, there⟩ := List.forall_mem_cons.mp positive
    rw [List.flatMap_cons, clausesFrom_append here, inductionHypothesis there, List.nil_append,
      Option.map_some]

/-! ### The whole text -/

theorem lines_dimacs {formula : Formula}
    (proper : ∀ clause ∈ formula.clauses.toList, clause ≠ []) :
    lines formula.dimacs =
      formula.header.toList :: formula.clauses.toList.map fun clause => clause.dimacs.toList := by
  have written : ∀ line ∈ formula.header :: formula.clauses.toList.map Clause.dimacs,
      line.toList ≠ [] ∧ line.toList.head? ≠ some 'c' ∧ '\n' ∉ line.toList := by
    refine List.forall_mem_cons.mpr ⟨line_header formula, List.forall_mem_map.mpr ?_⟩
    exact fun clause member => line_dimacs (proper clause member)
  rw [Formula.dimacs, lines_intercalate (List.cons_ne_nil _ _) written, List.map_cons,
    List.map_map]
  rfl

/-- The text of a formula over its propositional variables, without an empty clause, says what the
formula is. -/
theorem read_dimacs (formula : Formula)
    (proper : ∀ clause ∈ formula.clauses.toList, clause ≠ [] ∧ clause.Below formula.atoms) :
    read formula.dimacs = some
      { atoms := formula.atoms
        stated := formula.clauses.size
        lines := formula.clauses.size
        clauses := formula.clauses.toList } := by
  have body : (formula.clauses.toList.map fun clause => clause.dimacs.toList).flatMap words =
      (formula.clauses.toList.flatMap numbersOf).map toString := by
    rw [List.flatMap_map, List.map_flatMap]
    exact List.flatMap_congr fun clause member => words_dimacs (proper clause member).1
  have positive : ∀ clause ∈ formula.clauses.toList, ∀ literal ∈ clause, 0 < literal.atom :=
    fun clause member literal among => ((proper clause member).2 literal among).1
  have numeral (size : Nat) : (toString size).toNat? = some size := Nat.toNat?_repr size
  rw [read, lines_dimacs fun clause member => (proper clause member).1]
  simp only [words_header, numeral, body, mapM_toInt, clausesFrom_flatMap positive,
    List.length_map, Array.length_toList, Option.bind_eq_bind, Option.bind_some]

end Dimacs

/-! ### The text of a compiled model -/

variable {α : Type} [Symbol α] [ReflexiveSymbol α]

theorem clauses_below_afterAll {uses : List (Use α)} (hashable : ∀ use ∈ uses, use.Hashable) :
    ∀ clause ∈ ((Model.empty : Model α).afterAll uses).clauses.toList,
      clause ≠ [] ∧ clause.Below ((Model.empty : Model α).afterAll uses).atoms :=
  (Model.numbered_empty.useAll hashable).clauses

/-- Whatever calls built a model, even if constraints were refused half way: reading its text gives
the number of its propositional variables, a number of clauses that is also the number of lines
after the header, and its clauses in their order; every clause is nonempty, and no literal of it is
a zero or beyond the number of propositional variables; and only a model with as many propositional
variables and the same clauses has the same text. -/
theorem read_dimacs_afterAll (uses : List (Use α)) (hashable : ∀ use ∈ uses, use.Hashable) :
    let model := (Model.empty : Model α).afterAll uses
    Dimacs.read model.formula.dimacs = some
        { atoms := model.atoms
          stated := model.clauses.size
          lines := model.clauses.size
          clauses := model.clauses.toList } ∧
      (∀ clause ∈ model.clauses.toList, clause ≠ [] ∧ ∀ literal ∈ clause,
        literal.number ≠ 0 ∧ literal.number.natAbs ≤ model.atoms) ∧
      ∀ others : List (Use α), (∀ use ∈ others, use.Hashable) →
        let other := (Model.empty : Model α).afterAll others
        model.formula.dimacs = other.formula.dimacs →
          model.atoms = other.atoms ∧ model.clauses = other.clauses := by
  intro model
  have below : ∀ clause ∈ model.clauses.toList, clause ≠ [] ∧ clause.Below model.atoms :=
    clauses_below_afterAll hashable
  have reading := Dimacs.read_dimacs model.formula below
  refine ⟨reading, fun clause member => ?_, fun others hashable' => ?_⟩
  · refine ⟨(below clause member).1, fun literal among => ?_⟩
    obtain ⟨positive, inside⟩ := (below clause member).2 literal among
    rw [Dimacs.natAbs_number]
    exact ⟨(Dimacs.ofNumber_number positive).1, inside⟩
  · intro other same
    have reading' := Dimacs.read_dimacs other.formula (clauses_below_afterAll hashable')
    rw [← same, reading, Option.some_inj, Dimacs.Reading.mk.injEq] at reading'
    obtain ⟨atoms, -, -, clauses⟩ := reading'
    exact ⟨atoms, Array.toList_inj.mp clauses⟩

/-- The model has a ladder over values of which two are the same, a constraint that was refused half
way and an empty domain.  Without the empty domain the text is the same. -/
theorem read_dimacs_refusedUses :
    let model := (Model.empty : Model Value).afterAll Model.refusedUses
    let other := (Model.empty : Model Value).afterAll (Model.refusedUses.take 4)
    (Dimacs.read model.formula.dimacs).map (fun reading => (reading.atoms, reading.stated)) =
        some (15, 22) ∧
      model.formula.dimacs = other.formula.dimacs ∧ model.clauses = other.clauses := by
  obtain ⟨reading, -, unique⟩ := read_dimacs_afterAll Model.refusedUses (by decide)
  have same : (Model.empty.afterAll Model.refusedUses).formula.dimacs =
      ((Model.empty : Model Value).afterAll (Model.refusedUses.take 4)).formula.dimacs := rfl
  refine ⟨?_, same, (unique (Model.refusedUses.take 4) (by decide) same).2⟩
  rw [reading]
  rfl

end HorizonPlanner.Cnf
