/-
This file declares state variables: named slots whose values come from a closed,
ordered domain.  The domain of a state variable is never empty, its values can
be told apart, and each of them can be a member of a set; these three facts are
part of the type.
-/

import HorizonPlanner.Value.Enumeration

namespace HorizonPlanner

/-- A state variable.  The key is its identity: two declarations never share one.  Where `owner`
is given, the domain is the enumeration with that key, and only its members are in it. -/
structure StateVariable where
  key : Nat
  name : Value
  values : List Value
  owner : Option Nat
  nonempty : values ≠ []
  distinct : values.Pairwise fun first second => first.same second = false
  hashable : ∀ value ∈ values, value.unhashable? = none
  deriving DecidableEq

namespace StateVariable

/-! ### Declaration -/

/-- A list of domain values that can be told apart and can be members of a set. -/
structure Domain where
  values : List Value
  distinct : values.Pairwise fun first second => first.same second = false
  hashable : ∀ value ∈ values, value.unhashable? = none

/-- A domain with one more value at its end. -/
def Domain.extend (domain : Domain) (name value : Value) : Except Fault Domain :=
  if hashable : value.unhashable? = none then
    if fresh : ∀ known ∈ domain.values, known.same value = false then
      .ok
        { values := domain.values ++ [value]
          distinct := by
            rw [List.pairwise_append]
            exact ⟨domain.distinct, List.pairwise_singleton _ _, fun known member other single => by
              rw [List.mem_singleton.mp single]
              exact fresh known member⟩
          hashable := by
            intro known member
            rcases List.mem_append.mp member with member | member
            · exact domain.hashable known member
            · rw [List.mem_singleton.mp member]
              exact hashable }
    else .error (.duplicateDomainValue value name)
  else .error (.unhashableDomainValue value name)

/-- The domain that a list of values makes, entered one after another; the first value that does
not fit is reported. -/
def Domain.ofList (name : Value) (values : List Value) : Except Fault Domain :=
  values.foldlM (fun domain value => domain.extend name value) ⟨[], .nil, by simp⟩

/-- The state variable with a list of values for its domain. -/
def ofList (key : Nat) (name : Value) (owner : Option Nat) (values : List Value) :
    Except Fault StateVariable := do
  let domain ← Domain.ofList name values
  if nonempty : domain.values ≠ [] then
    .ok
      { key, name, owner, nonempty
        values := domain.values
        distinct := domain.distinct
        hashable := domain.hashable }
  else .error (.emptyDomain name)

/-- The state variable whose domain is walked out of a value. -/
def declare (key : Nat) (name values : Value) : Except Fault StateVariable :=
  match values.items? with
  | some items => ofList key name none items
  | none => .error (.notIterable values.kind)

/-- The state variable whose domain is an enumeration, named after it if it has no name of its
own. -/
def ofEnumeration (key : Nat) (name : Value) (enumeration : Enumeration) :
    Except Fault StateVariable :=
  let name := if name.isTruthy then name else .text enumeration.name
  ofList key name (some enumeration.key) enumeration.members

/-! ### The domain and its positions -/

/-- The number of values in the domain. -/
def size (subject : StateVariable) : Nat := subject.values.length

/-- The position of a value in the domain, if the domain has one the same. -/
def find? (subject : StateVariable) (value : Value) : Option Nat :=
  if value.unhashable?.isSome then none else subject.values.findIdx? (·.same value)

/-- The position of a value in the domain. -/
def position (subject : StateVariable) (value : Value) : Except Fault Nat :=
  match value.unhashable?, subject.find? value with
  | some obstacle, _ => .error (.obstructed obstacle)
  | none, some position => .ok position
  | none, none => .error (.missingKey value)

/-- The largest magnitude a position can have before it is refused for its size. -/
def positionLimit : Int := (Nat.pow 2 63 : Nat)

/-- The value at a position; negative positions count from the end. -/
def valueAt (subject : StateVariable) (position : Value) : Except Fault Value :=
  match position.position? with
  | none => .error (.notTuplePosition position.kind)
  | some index =>
    let place := if index < 0 then index + subject.size else index
    match if place < 0 then none else subject.values[place.toNat]? with
    | some value => .ok value
    | none =>
      if index < -positionLimit || positionLimit ≤ index then .error (.hugePosition position.kind)
      else .error .tuplePosition

/-- Whether a value may be bound to the variable.  A domain that is an enumeration admits its own
members only. -/
def admits (subject : StateVariable) (value : Value) : Bool :=
  (match subject.owner with
    | some owner => Enumeration.owns owner value
    | none => true) && (subject.find? value).isSome

/-! ### Text -/

/-- The values that the rendered form of a state variable shows. -/
def shown (subject : StateVariable) : List Value := subject.name :: subject.values

/-- The rendered form of a state variable whose values can be written. -/
def render (subject : StateVariable) : String :=
  s!"StateVariable({subject.name.render}, {Value.renderList subject.values})"

end StateVariable

end HorizonPlanner
