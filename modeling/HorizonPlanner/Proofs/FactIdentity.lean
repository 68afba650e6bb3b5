/-
This file proves that a fact is its variable and a position.  Whatever a state
variable is declared from, it is made exactly if there are values, all of them
can be members of a set and no two are equal.  A value can be assigned to it
exactly if it is equal to a value of the domain, and of the enumeration if the
domain is one.  Then it is equal to one value of the domain only, whose position
is the fact's.  Two facts are the same exactly if they agree in variable and
position, and a set of facts keeps one fact for each of these pairs.

Equality is that of `Value.Equals`: as exact numbers, item by item in tuples, and
of anything else only with itself.  So an undefined number is equal to the one
that it is, by its identity, and to no other.
-/

import HorizonPlanner.Proofs.DomainPosition
import HorizonPlanner.Proofs.ValueEquality

namespace HorizonPlanner

/-! ### Sources of a domain -/

/-- What the domain of a state variable is declared from. -/
inductive DomainSource where
  | walked (stated : Value)
  | members (enumeration : Enumeration)

namespace DomainSource

/-- The values of the domain, if there are any to walk through. -/
def items? : DomainSource → Option (List Value)
  | .walked stated => stated.items?
  | .members enumeration => some enumeration.members

/-- The enumeration that the domain is. -/
def owner? : DomainSource → Option Nat
  | .walked _ => none
  | .members enumeration => some enumeration.key

/-- Declares a state variable. -/
def declare (source : DomainSource) (key : Nat) (name : Value) : Except Fault StateVariable :=
  match source with
  | .walked stated => StateVariable.declare key name stated
  | .members enumeration => StateVariable.ofEnumeration key name enumeration

variable {source : DomainSource} {key : Nat} {name : Value} {subject : StateVariable}

theorem declare_eq_ok (declared : source.declare key name = .ok subject) :
    subject.key = key ∧ source.items? = some subject.values ∧ subject.owner = source.owner? := by
  cases source with
  | walked stated =>
    rw [declare, StateVariable.declare] at declared
    split at declared
    next items walked =>
      obtain ⟨same, _, owner, rfl⟩ := StateVariable.ofList_eq_ok declared
      exact ⟨same, walked, owner⟩
    next => cases declared
  | members enumeration =>
    obtain ⟨same, _, owner, values⟩ := StateVariable.ofList_eq_ok declared
    exact ⟨same, congrArg some values.symm, owner⟩

theorem exists_declare_iff : (∃ subject, source.declare key name = .ok subject) ↔
    ∃ items, source.items? = some items ∧ items ≠ [] ∧
      (∀ item ∈ items, item.unhashable? = none) ∧
      items.Pairwise fun first second => first.same second = false := by
  cases source with
  | walked stated =>
    rw [declare, StateVariable.declare, items?]
    split
    next items walked =>
      rw [StateVariable.exists_ofList_iff]
      simp only [walked, Option.some_inj, exists_eq_left']
    next walked =>
      rw [walked]
      exact iff_of_false (fun ⟨_, made⟩ => nomatch made) fun ⟨_, made, _⟩ => nomatch made
  | members enumeration =>
    simp only [items?, Option.some_inj, exists_eq_left']
    exact StateVariable.exists_ofList_iff

end DomainSource

/-! ### Values of a domain -/

namespace StateVariable

variable {subject : StateVariable} {value : Value} {position : Nat}

/-- A value is at most once in a domain. -/
theorem position_eq_find? (found : subject.find? value = some position) {place : Nat}
    (inside : place < subject.values.length) (same : subject.values[place].same value = true) :
    place = position := by
  obtain ⟨inside', same'⟩ := same_of_find? found
  exact position_eq_of_same inside inside' (Value.same_trans same (Value.same_symm same'))

/-- Positions that count from the front give the values of the domain. -/
theorem valueAt_getElem (inside : position < subject.values.length) :
    subject.valueAt (.integer position) = .ok subject.values[position] := by
  have front : ¬ (position : Int) < 0 := Int.not_lt.mpr (Int.natCast_nonneg _)
  simp only [valueAt, Value.position?, Value.wholeNumber?, if_neg front, Int.toNat_natCast,
    List.getElem?_eq_getElem inside]

theorem position_eq_ok_iff :
    subject.position value = .ok position ↔ subject.find? value = some position := by
  rw [StateVariable.position]
  cases hashable : value.unhashable? with
  | some obstacle => simp [find?, hashable]
  | none => cases subject.find? value <;> simp

section

variable (standard : ∀ known ∈ subject.values, known.Standard) (standard' : value.Standard)

include standard standard'

/-- What is found at a position is equal to the value there, and to no other value of the
domain. -/
theorem equals_of_find? (found : subject.find? value = some position) :
    (∃ known, subject.valueAt (.integer position) = .ok known ∧ known.Equals value) ∧
      ∀ (place : Nat) (inside : place < subject.values.length),
        subject.values[place].Equals value → place = position := by
  have hashable : value.unhashable? = none :=
    (isSome_find?_iff.mp (found ▸ Option.isSome_some)).1
  have same_iff : ∀ (place : Nat) (inside : place < subject.values.length),
      subject.values[place].same value = true ↔ subject.values[place].Equals value :=
    fun place inside =>
      have here := List.getElem_mem inside
      Value.same_iff_equals (subject.hashable _ here) hashable (standard _ here) standard'
  obtain ⟨inside, same⟩ := same_of_find? found
  exact ⟨⟨_, valueAt_getElem inside, (same_iff position inside).mp same⟩,
    fun place inside' equal => position_eq_find? found inside' ((same_iff place inside').mpr equal)⟩

/-- A value can be assigned to a variable that admits it. -/
theorem exists_assign_iff_equals : (∃ fact, Fact.assign subject value = .ok fact) ↔
    value.unhashable? = none ∧ (∃ known ∈ subject.values, known.Equals value) ∧
      ∀ owner, subject.owner = some owner → Enumeration.owns owner value = true := by
  rw [Fact.exists_assign_iff, admits_iff]
  refine and_congr_right fun hashable => and_congr_left fun _ => exists_congr fun known =>
    and_congr_right fun member => ?_
  exact Value.same_iff_equals (subject.hashable known member) hashable (standard known member)
    standard'

end

end StateVariable

/-! ### Sets of facts -/

/-- The variable of a fact and the position of its value. -/
def Fact.place (fact : Fact) : StateVariable × Nat := (fact.subject, fact.index)

theorem Fact.same_iff_place_eq {first second : Fact} :
    first.same second = true ↔ first.place = second.place := by
  rw [same_iff, place, place, Prod.mk.injEq]

namespace FactSet

/-- A fact is entered exactly if no fact of the set is at its place. -/
theorem places_insert (set : FactSet) (fact : Fact) :
    (set.insert fact).facts.map Fact.place =
      if fact.place ∈ set.facts.map Fact.place then set.facts.map Fact.place
      else set.facts.map Fact.place ++ [fact.place] := by
  have known : (∀ known ∈ set.facts, known.same fact = false) ↔
      fact.place ∉ set.facts.map Fact.place := by
    simp only [List.mem_map, not_exists, not_and, ← Fact.same_iff_place_eq, Bool.not_eq_true]
  rw [insert]
  split
  next fresh => rw [if_neg (known.mp fresh), List.map_append, List.map_singleton]
  next taken => rw [if_pos (not_not.mp (mt known.mpr taken))]

/-- A set of facts has one fact for each place of the facts it was made of. -/
theorem places_ofList (facts : List Fact) :
    (ofList facts).facts.map Fact.place = (facts.map Fact.place).eraseDups := by
  -- From the end, as the last fact is the last one entered.
  induction facts using List.reverseRecOn with
  | nil => rfl
  | append_singleton before fact inductionHypothesis =>
    have entered : ofList (before ++ [fact]) = (ofList before).insert fact :=
      List.foldl_concat ..
    rw [entered, places_insert, inductionHypothesis, List.map_append, List.map_singleton,
      List.eraseDups_append]
    generalize before.map Fact.place = places
    split
    next taken => simp [List.removeAll, List.mem_eraseDups.mp taken]
    next fresh => simp [List.removeAll, List.eraseDups_cons, mt List.mem_eraseDups.mpr fresh]

end FactSet

/-! ### Declaring and assigning -/

/-- What a source says about a value besides its domain: the members of an enumeration are its
own. -/
def DomainSource.Owns (source : DomainSource) (value : Value) : Prop :=
  ∀ owner, source.owner? = some owner → Enumeration.owns owner value = true

/-- A variable is declared exactly if there are values, all can be members of a set and no two are
equal.  Then its domain has these values.  A value can be assigned exactly if it can be a member of
a set, is equal to one of them and is a member of the enumeration if the domain is one, and the
position of the fact is the only one of a value that it is equal to.  Positions and values of the
domain determine each other.  Facts are the same exactly if they agree in variable and position,
and a set of facts has each of these pairs once. -/
theorem facts_identified (source : DomainSource) (key : Nat) (name : Value)
    (standard : ∀ items, source.items? = some items → ∀ item ∈ items, item.Standard) :
    ((∃ subject, source.declare key name = .ok subject) ↔
      ∃ items, source.items? = some items ∧ items ≠ [] ∧
        (∀ item ∈ items, item.unhashable? = none) ∧
        items.Pairwise fun first second => ¬ first.Equals second) ∧
    (∀ subject, source.declare key name = .ok subject →
      (subject.key = key ∧ source.items? = some subject.values) ∧
      (∀ value : Value, value.Standard →
        ((∃ fact, Fact.assign subject value = .ok fact) ↔
          value.unhashable? = none ∧ (∃ known ∈ subject.values, known.Equals value) ∧
            source.Owns value)) ∧
      (∀ (value : Value) (fact : Fact), value.Standard → Fact.assign subject value = .ok fact →
        fact.subject = subject ∧ fact.value = value ∧
        (∃ known, subject.valueAt (.integer fact.index) = .ok known ∧ known.Equals value) ∧
        ∀ (place : Nat) (inside : place < subject.values.length),
          subject.values[place].Equals value → place = fact.index) ∧
      (∀ position < subject.size, ∃ known, subject.valueAt (.integer position) = .ok known ∧
        subject.position known = .ok position) ∧
      (∀ (value : Value) (position : Nat), value.Standard →
        subject.position value = .ok position →
        position < subject.size ∧
          ∃ known, subject.valueAt (.integer position) = .ok known ∧ known.Equals value)) ∧
    (∀ first second : Fact,
      first.same second = true ↔ first.subject = second.subject ∧ first.index = second.index) ∧
    ∀ facts : List Fact,
      (FactSet.ofList facts).facts.map Fact.place = (facts.map Fact.place).eraseDups := by
  refine ⟨?_, fun subject declared => ?_, fun _ _ => Fact.same_iff, FactSet.places_ofList⟩
  · rw [DomainSource.exists_declare_iff]
    refine exists_congr fun items => and_congr_right fun walked => and_congr_right fun _ =>
      and_congr_right fun hashable => List.Pairwise.iff_of_mem fun {first second} here here' => ?_
    rw [← Bool.not_eq_true, Value.same_iff_equals (hashable first here) (hashable second here')
      (standard items walked first here) (standard items walked second here')]
  · obtain ⟨same, walked, owner⟩ := DomainSource.declare_eq_ok declared
    have standard := standard subject.values walked
    refine ⟨⟨same, walked⟩, fun value standard' => ?_, fun value fact standard' assigned => ?_,
      fun position inside => ?_, fun value position standard' located => ?_⟩
    · rw [DomainSource.Owns, ← owner]
      exact subject.exists_assign_iff_equals standard standard'
    · obtain ⟨rfl, rfl⟩ := Fact.assign_eq_ok assigned
      exact ⟨rfl, rfl, StateVariable.equals_of_find? standard standard' fact.located⟩
    · exact ⟨_, StateVariable.valueAt_getElem inside,
        StateVariable.position_eq_ok_iff.mpr (StateVariable.find?_getElem inside)⟩
    · have found := StateVariable.position_eq_ok_iff.mp located
      obtain ⟨inside, _⟩ := StateVariable.same_of_find? found
      exact ⟨inside, (StateVariable.equals_of_find? standard standard' found).1⟩

/-- A truth value, a tuple with an undefined number in it, two undefined numbers and a member that
counts as a number. -/
def mixture : DomainSource := .walked (.tuple [.boolean true,
  .tuple [.binary (.finite false (2 ^ 52) (-52)), .binary (.undefined 0)],
  .binary (.undefined 0), .binary (.undefined 1),
  .member 3 "Level" "high" ⟨true, none, none⟩ (.integer 7)])

/-- Two undefined numbers can be in one domain.  A third one is no value of it, and a tuple with the
first one is where the tuple with this one stands. -/
theorem facts_identified_mixture :
    ∃ subject, mixture.declare 0 .none = .ok subject ∧
      (∃ fact, Fact.assign subject (.tuple [.integer 1, .binary (.undefined 0)]) = .ok fact ∧
        fact.index = 1) ∧
      (∃ fact, Fact.assign subject (.binary (.undefined 1)) = .ok fact ∧ fact.index = 3) ∧
      ¬ ∃ fact, Fact.assign subject (.binary (.undefined 2)) = .ok fact := by
  have undefined (identity : Nat) : Value.Standard (.binary (.undefined identity)) :=
    .binary trivial
  have pair : Value.Standard
      (.tuple [.binary (.finite false (2 ^ 52) (-52)), .binary (.undefined 0)]) :=
    .tuple (List.forall_mem_cons.mpr
      ⟨.binary (by decide), List.forall_mem_singleton.mpr (undefined 0)⟩)
  have standard : ∀ items, mixture.items? = some items → ∀ item ∈ items, item.Standard := by
    rintro _ ⟨⟩
    simp only [List.forall_mem_cons]
    exact ⟨.other nofun nofun, pair, undefined 0, undefined 1, .other nofun nofun, nofun⟩
  have value : Value.Standard (.tuple [.integer 1, .binary (.undefined 0)]) :=
    .tuple (List.forall_mem_cons.mpr
      ⟨.other nofun nofun, List.forall_mem_singleton.mpr (undefined 0)⟩)
  have declarable : ∃ subject, mixture.declare 0 .none = .ok subject :=
    DomainSource.exists_declare_iff.mpr ⟨_, rfl, List.cons_ne_nil _ _, by decide, by decide⟩
  obtain ⟨subject, declared⟩ := declarable
  obtain ⟨⟨_, walked⟩, assigns, located, _⟩ :=
    (facts_identified mixture 0 .none standard).2.1 subject declared
  have values := (Option.some.inj walked).symm
  have length : subject.values.length = 5 := congrArg List.length values
  have inside : 1 < subject.values.length := by omega
  have inside' : 3 < subject.values.length := by omega
  have equal : subject.values[1].Equals (.tuple [.integer 1, .binary (.undefined 0)]) := by
    rw [List.getElem_of_eq values inside]
    exact (Value.same_iff_equals rfl rfl pair value).mp (by decide)
  have equal' : subject.values[3].Equals (.binary (.undefined 1)) := by
    rw [List.getElem_of_eq values inside']
    exact .itself _
  refine ⟨subject, declared, ?_, ?_, fun assigned => ?_⟩
  · obtain ⟨fact, assigned⟩ :=
      (assigns _ value).mpr ⟨rfl, ⟨_, List.getElem_mem inside, equal⟩, nofun⟩
    exact ⟨fact, assigned, ((located _ fact value assigned).2.2.2 1 inside equal).symm⟩
  · obtain ⟨fact, assigned⟩ :=
      (assigns _ (undefined 1)).mpr ⟨rfl, ⟨_, List.getElem_mem inside', equal'⟩, nofun⟩
    exact ⟨fact, assigned, ((located _ fact (undefined 1) assigned).2.2.2 3 inside' equal').symm⟩
  · obtain ⟨-, ⟨known, member, equal⟩, -⟩ := (assigns _ (undefined 2)).mp assigned
    have same := (Value.same_iff_equals (subject.hashable known member) rfl
      (standard _ walked known member) (undefined 2)).mpr equal
    have different : ∀ known ∈ subject.values, known.same (.binary (.undefined 2)) = false := by
      rw [values]
      decide
    exact Bool.false_ne_true ((different known member).symm.trans same)

end HorizonPlanner
