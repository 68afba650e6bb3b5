/-
This file states the grammar of the documents that problems are read from, and
proves that the reader accepts exactly the documents of the grammar.  The grammar
only talks about entries and values.  A fact is stated by the name of a variable
and a value of its list, and what stands for facts may be missing or null.

It also proves that nothing is lost.  The variables and the actions of the problem
are those of the document in its order, and a set of facts has one fact for each
entry.  This takes that an object has each key once, since a second entry under
the key of another would be read as a fact about the same variable.
-/

import HorizonPlanner.Proofs.DocumentFault

namespace HorizonPlanner

namespace Document

/-! ### Documents -/

/-- A value that a document can hold, whose objects have each key once. -/
inductive Keyed : Value → Prop
  | none : Keyed .none
  | boolean (truth : Bool) : Keyed (.boolean truth)
  | integer (number : Int) : Keyed (.integer number)
  | binary (number : Binary64) : Keyed (.binary number)
  | text (content : Text.Passage) : Keyed (.text content)
  | sequence {items : List Value} (each : ∀ item ∈ items, Keyed item) : Keyed (.sequence items)
  | mapping {entries : List (Value × Value)}
      (named : ∀ entry ∈ entries, ∃ name, entry.1 = .text name)
      (distinct : (entries.map Prod.fst).Nodup) (each : ∀ entry ∈ entries, Keyed entry.2) :
      Keyed (.mapping entries)

namespace Keyed

variable {entries : List (Value × Value)}

theorem keys_distinct (keyed : Keyed (.mapping entries)) :
    entries.Pairwise fun first second => first.1.same second.1 = false := by
  cases keyed with
  | mapping named distinct =>
    refine (List.pairwise_map.mp distinct).imp_of_mem fun {first second} here there different => ?_
    obtain ⟨name, called⟩ := named first here
    obtain ⟨name', called'⟩ := named second there
    rw [called, called'] at different ⊢
    exact beq_false_of_ne different

theorem field {name : String} {value : Value} (keyed : Keyed (.mapping entries))
    (found : field? entries name = some value) : Keyed value := by
  obtain ⟨entry, member, rfl⟩ := exists_entry_of_field? found
  cases keyed with
  | mapping _ _ each => exact each entry member

/-- What is met when a value is walked through are its items, or texts. -/
theorem walked {stated : Value} (keyed : Keyed stated) {items : List Value}
    (walked : stated.items? = some items) : ∀ item ∈ items, Keyed item := by
  intro item member
  rcases Value.walked_cases walked member with
    ⟨content, rfl⟩ | rfl | rfl | ⟨entries, rfl, entry, among, rfl⟩
  · exact .text content
  · cases keyed with
    | sequence each => exact each item member
  · cases keyed
  · cases keyed with
    | mapping named =>
      obtain ⟨name, text⟩ := named entry among
      exact text ▸ .text name

end Keyed

/-! ### The grammar of documents -/

/-- A value states a domain: it is a list that is not empty, its items can be members of a set and
no two of them are the same. -/
def StatesDomain (stated : Value) : Prop :=
  ∃ items, stated = .sequence items ∧ items ≠ [] ∧ (∀ item ∈ items, item.unhashable? = none) ∧
    items.Pairwise fun first second => first.same second = false

/-- A name and a value state a fact: a variable is declared under the name, and the value is one of
its domain. -/
def StatesFact (declarations : List (Value × Value)) (name value : Value) : Prop :=
  ∃ declared items, (declared, Value.sequence items) ∈ declarations ∧ declared.same name = true ∧
    value.unhashable? = none ∧ ∃ known ∈ items, known.same value = true

/-- What may stand for facts. -/
inductive StatesFacts (declarations : List (Value × Value)) : Option Value → Prop
  | absent : StatesFacts declarations none
  | null : StatesFacts declarations (some .none)
  | entered {entries : List (Value × Value)}
      (each : ∀ entry ∈ entries, StatesFact declarations entry.1 entry.2) :
      StatesFacts declarations (some (.mapping entries))

/-- What may stand for the name of an action. -/
inductive NamesAction : Option Value → Prop
  | absent : NamesAction none
  | text (content : Text.Passage) : NamesAction (some (.text content))
  | falsy {stated : Value} (falsy : stated.isTruthy = false) : NamesAction (some stated)

/-- The fields of an object state an action. -/
structure StatesAction (declarations fields : List (Value × Value)) : Prop where
  name : NamesAction (field? fields "name")
  preconditions : StatesFacts declarations (field? fields "preconditions")
  effects : StatesFacts declarations (field? fields "effects")

/-- What may stand for the actions: whatever gives objects that state actions when it is walked
through. -/
inductive StatesActions (declarations : List (Value × Value)) : Option Value → Prop
  | absent : StatesActions declarations none
  | walked {stated : Value} {items : List Value} (walked : stated.items? = some items)
      (each : ∀ item ∈ items, ∃ fields, item = .mapping fields ∧ StatesAction declarations fields) :
      StatesActions declarations (some stated)

/-- The entries of an object state a problem. -/
structure StatesProblem (bound : Value) (entries declarations : List (Value × Value)) : Prop where
  declared : field? entries "variables" = some (.mapping declarations)
  nonempty : declarations ≠ []
  domains : ∀ entry ∈ declarations, StatesDomain entry.2
  actions : StatesActions declarations (field? entries "actions")
  initial : StatesFacts declarations (field? entries "initial")
  goals : StatesFacts declarations (field? entries "goals")
  bound : ∃ steps : Int,
    ((field? entries "max_steps").getD bound).wholeNumber? = some steps ∧ 0 < steps

/-! ### What is kept of a document -/

/-- A variable has the name and the domain that an entry states. -/
structure KeepsVariable (entry : Value × Value) (subject : StateVariable) : Prop where
  name : subject.name = entry.1
  values : entry.2 = .sequence subject.values
  owner : subject.owner = none

/-- A fact is about the variable that an entry names, at the position of the value that it
states. -/
structure KeepsFact (subjects : List StateVariable) (entry : Value × Value) (fact : Fact) :
    Prop where
  known : fact.subject ∈ subjects
  named : fact.subject.name.same entry.1 = true
  value : fact.value = entry.2
  placed : ∃ known, fact.subject.values[fact.index]? = some known ∧ known.same entry.2 = true

/-- The entries of what stands for facts. -/
def factEntries : Option Value → List (Value × Value)
  | some (.mapping entries) => entries
  | _ => []

/-- A set has one fact for each entry. -/
def KeepsFacts (subjects : List StateVariable) (stated : Option Value) (set : FactSet) : Prop :=
  List.Forall₂ (KeepsFact subjects) (factEntries stated) set.facts

/-- An action has the name and the facts that an object states, or the name of its number. -/
def KeepsAction (subjects : List StateVariable) (place : Value × Nat) (action : Action) : Prop :=
  ∃ fields, place.1 = .mapping fields ∧ action.name = nameOf place.2 fields ∧
    KeepsFacts subjects (field? fields "preconditions") action.preconditions ∧
    KeepsFacts subjects (field? fields "effects") action.effects

/-- The items that stand for the actions. -/
def actionItems (entries : List (Value × Value)) : List Value :=
  (((field? entries "actions").getD (.sequence [])).items?).getD []

/-- A problem has the variables, the actions, the facts and the bound of a document. -/
structure KeepsProblem (bound : Value) (entries declarations : List (Value × Value))
    (problem : Problem) : Prop where
  subjects : List.Forall₂ KeepsVariable declarations problem.subjects
  actions :
    List.Forall₂ (KeepsAction problem.subjects) (actionItems entries).zipIdx problem.actions
  initial : KeepsFacts problem.subjects (field? entries "initial") problem.initial
  goals : KeepsFacts problem.subjects (field? entries "goals") problem.goals
  bound : problem.bound.stated = (field? entries "max_steps").getD bound

/-! ### Variables -/

section

variable {entries : List (Value × Value)} {subjects : List StateVariable}

theorem readVariables_keeps (declared : readVariables entries = .ok subjects) :
    List.Forall₂ (fun place subject => place.2 = subject.key ∧ KeepsVariable place.1 subject)
      entries.zipIdx subjects := by
  refine (mapM_eq_ok_iff.mp declared).imp ?_
  rintro ⟨⟨name, values⟩, key⟩ subject made
  dsimp only at made
  split at made
  next items =>
    obtain ⟨rfl, rfl, owner, rfl⟩ := StateVariable.ofList_eq_ok made
    exact ⟨rfl, rfl, rfl, owner⟩
  next => cases made

/-- The variables of a problem are those of the document, in its order. -/
theorem keepsVariables_of_read (declared : readVariables entries = .ok subjects) :
    List.Forall₂ KeepsVariable entries subjects := by
  have each := (readVariables_keeps declared).imp fun _ _ kept => kept.2
  rwa [← List.forall₂_map_left_iff, List.zipIdx_map_fst] at each

/-- Variables are told apart by their numbers. -/
theorem nodup_of_read (declared : readVariables entries = .ok subjects) : subjects.Nodup := by
  have keys := map_eq_map_of_forall₂
    ((readVariables_keeps declared).imp fun _ _ kept => kept.1)
  rw [List.zipIdx_map_snd] at keys
  exact List.Nodup.of_map _ (keys ▸ List.nodup_range')

theorem exists_readVariables_iff : (∃ subjects, readVariables entries = .ok subjects) ↔
    ∀ entry ∈ entries, StatesDomain entry.2 := by
  constructor
  · rintro ⟨subjects, declared⟩ entry member
    obtain ⟨subject, _, kept⟩ := exists_right_of_mem (keepsVariables_of_read declared) member
    exact ⟨subject.values, kept.values, subject.nonempty, subject.hashable, subject.distinct⟩
  · intro each
    refine exists_mapM_eq_ok ?_
    rintro ⟨⟨name, values⟩, key⟩ listed
    obtain ⟨items, rfl, domain⟩ := each _ (List.fst_mem_of_mem_zipIdx listed)
    exact StateVariable.exists_ofList_iff.mpr domain

variable (kept : List.Forall₂ KeepsVariable entries subjects)

include kept

theorem names_distinct
    (distinct : entries.Pairwise fun first second => first.1.same second.1 = false) :
    subjects.Pairwise fun first second => first.name.same second.name = false := by
  have names : entries.map Prod.fst = subjects.map StateVariable.name :=
    map_eq_map_of_forall₂ (kept.imp fun _ _ kept => kept.name.symm)
  have told : (entries.map Prod.fst).Pairwise fun first second => first.same second = false :=
    List.pairwise_map.mpr distinct
  rw [names] at told
  exact List.pairwise_map.mp told

/-- A fact is stated by the name of a variable and a value that the variable admits. -/
theorem statesFact_iff {name value : Value} : StatesFact entries name value ↔
    ∃ subject ∈ subjects, subject.name.same name = true ∧ subject.admits value = true := by
  constructor
  · rintro ⟨declared, items, member, same, hashable, known⟩
    obtain ⟨subject, among, kept⟩ := exists_right_of_mem kept member
    obtain rfl := Value.sequence.inj kept.values
    refine ⟨subject, among, kept.name ▸ same, StateVariable.admits_iff.mpr ⟨hashable, known, ?_⟩⟩
    rw [kept.owner]
    exact nofun
  · rintro ⟨subject, among, same, admitted⟩
    obtain ⟨⟨declared, values⟩, member, kept⟩ := exists_left_of_mem kept among
    obtain ⟨rfl, rfl, _⟩ := kept
    obtain ⟨hashable, known, _⟩ := StateVariable.admits_iff.mp admitted
    exact ⟨_, _, member, same, hashable, known⟩

end

/-! ### Facts -/

section

variable {declarations : List (Value × Value)} {subjects : List StateVariable}
  {name value : Value} {subject : StateVariable} {place : String} {fact : Fact}

theorem declared?_spec (found : declared? subjects name = some subject) :
    subject ∈ subjects ∧ subject.name.same name = true := by
  rw [declared?] at found
  have named := List.find?_some found
  exact ⟨List.mem_of_find?_eq_some found, named⟩

theorem readFact_eq_ok_iff : readFact subjects place name value = .ok fact ↔
    ∃ subject, declared? subjects name = some subject ∧ Fact.assign subject value = .ok fact := by
  rw [readFact]
  cases declared? subjects name with
  | none =>
    constructor
    · rintro ⟨⟩
    · rintro ⟨subject, ⟨⟩, _⟩
  | some subject =>
    simp only [Option.some_inj, exists_eq_left']
    split
    next refused =>
      rw [refused]
      constructor <;> rintro ⟨⟩
    next => rfl

theorem readFact_keeps (read : readFact subjects place name value = .ok fact) :
    KeepsFact subjects (name, value) fact := by
  obtain ⟨subject, found, assigned⟩ := readFact_eq_ok_iff.mp read
  obtain ⟨rfl, rfl⟩ := Fact.assign_eq_ok assigned
  obtain ⟨inside, same⟩ := StateVariable.same_of_find? fact.located
  obtain ⟨member, named⟩ := declared?_spec found
  exact ⟨member, named, rfl, _, List.getElem?_eq_getElem inside, same⟩

/-- Of variables with different names, the one that has a name is found by it. -/
theorem declared?_eq_some
    (told : subjects.Pairwise fun first second => first.name.same second.name = false)
    (member : subject ∈ subjects) (same : subject.name.same name = true) :
    declared? subjects name = some subject := by
  induction subjects with
  | nil => cases member
  | cons first rest inductionHypothesis =>
    obtain ⟨apart, told⟩ := List.pairwise_cons.mp told
    rw [declared?, List.find?_cons]
    rcases List.mem_cons.mp member with rfl | later
    · rw [same]
    · have passed : first.name.same name = false := by
        refine Bool.not_eq_true _ ▸ fun first_same => ?_
        have clash := Value.same_trans first_same (Value.same_symm same)
        rw [apart subject later] at clash
        cases clash
      rw [passed]
      exact inductionHypothesis told later

variable (kept : List.Forall₂ KeepsVariable declarations subjects)
  (told : subjects.Pairwise fun first second => first.name.same second.name = false)

include kept told

theorem exists_readFact_iff :
    (∃ fact, readFact subjects place name value = .ok fact) ↔
      StatesFact declarations name value := by
  rw [statesFact_iff kept]
  constructor
  · rintro ⟨fact, read⟩
    obtain ⟨subject, found, assigned⟩ := readFact_eq_ok_iff.mp read
    obtain ⟨member, named⟩ := declared?_spec found
    exact ⟨subject, member, named, Fact.exists_assign_iff.mp ⟨fact, assigned⟩⟩
  · rintro ⟨subject, member, same, admitted⟩
    obtain ⟨fact, assigned⟩ := Fact.exists_assign_iff.mpr admitted
    exact ⟨fact, readFact_eq_ok_iff.mpr ⟨subject, declared?_eq_some told member same, assigned⟩⟩

theorem exists_readFacts_iff {stated : Option Value} :
    (∃ set, readFacts subjects place stated = .ok set) ↔ StatesFacts declarations stated := by
  unfold readFacts
  split
  next => exact iff_of_true ⟨_, rfl⟩ .absent
  next => exact iff_of_true ⟨_, rfl⟩ .null
  next entries =>
    constructor
    · rintro ⟨set, read⟩
      obtain ⟨facts, each, _⟩ := map_eq_ok_iff.mp read
      refine .entered fun entry member => ?_
      obtain ⟨fact, _, one⟩ := exists_result_of_mem each member
      exact (exists_readFact_iff kept told).mp ⟨fact, one⟩
    · rintro (_ | _ | each)
      have reads : ∀ entry ∈ entries, ∃ fact,
          readFact subjects place entry.1 entry.2 = .ok fact :=
        fun entry member => (exists_readFact_iff kept told).mpr (each entry member)
      obtain ⟨facts, read⟩ := exists_mapM_eq_ok reads
      exact ⟨_, map_eq_ok_iff.mpr ⟨facts, read, rfl⟩⟩
  next other noNull noMapping =>
    refine iff_of_false (fun ⟨_, read⟩ => nomatch read) ?_
    rintro (_ | _ | _)
    · exact noNull rfl
    · exact noMapping _ rfl

end

/-- Facts on variables with different names are told apart. -/
theorem facts_distinct {entries : List (Value × Value)} {subjects : List StateVariable}
    {facts : List Fact} (kept : List.Forall₂ (KeepsFact subjects) entries facts)
    (distinct : entries.Pairwise fun first second => first.1.same second.1 = false) :
    facts.Pairwise fun first second => first.same second = false := by
  induction kept with
  | nil => exact .nil
  | @cons entry fact entries facts here there inductionHypothesis =>
    obtain ⟨apart, distinct⟩ := List.pairwise_cons.mp distinct
    refine List.pairwise_cons.mpr ⟨fun other member => ?_, inductionHypothesis distinct⟩
    obtain ⟨entry', among, kept⟩ := exists_left_of_mem there member
    refine Bool.not_eq_true _ ▸ fun same => ?_
    have named := here.named
    rw [(Fact.same_iff.mp same).1] at named
    have clash := Value.same_trans (Value.same_symm named) kept.named
    rw [apart entry' among] at clash
    cases clash

theorem readFacts_keeps {subjects : List StateVariable} {place : String} {stated : Option Value}
    {set : FactSet} (keyed : ∀ value, stated = some value → Keyed value)
    (read : readFacts subjects place stated = .ok set) : KeepsFacts subjects stated set := by
  unfold readFacts at read
  split at read
  next => cases read; exact .nil
  next => cases read; exact .nil
  next entries =>
    obtain ⟨facts, each, rfl⟩ := map_eq_ok_iff.mp read
    have kept : List.Forall₂ (KeepsFact subjects) entries facts :=
      (mapM_eq_ok_iff.mp each).imp fun _ _ one => readFact_keeps one
    have distinct := facts_distinct kept (keyed _ rfl).keys_distinct
    rw [KeepsFacts, FactSet.facts_ofList distinct]
    exact kept
  next => cases read

/-! ### Actions -/

theorem names_nameOf_iff {index : Nat} {fields : List (Value × Value)} :
    ((∃ content, nameOf index fields = .text content) ∨ (nameOf index fields).isTruthy = false) ↔
      NamesAction (field? fields "name") := by
  rw [nameOf]
  cases field? fields "name" with
  | none => exact iff_of_true (Or.inl ⟨_, rfl⟩) .absent
  | some stated =>
    rw [Option.getD_some]
    constructor
    · rintro (⟨content, rfl⟩ | falsy)
      · exact .text content
      · exact .falsy falsy
    · rintro (_ | content | falsy)
      · exact Or.inl ⟨content, rfl⟩
      · exact Or.inr falsy

section

variable {declarations : List (Value × Value)} {subjects : List StateVariable} {item : Value}
  {index : Nat} {action : Action}

theorem readAction_keeps (keyed : Keyed item) (read : readAction subjects index item = .ok action) :
    KeepsAction subjects (item, index) action := by
  unfold readAction at read
  split at read
  next fields =>
    obtain ⟨preconditions, before, later⟩ := bind_eq_ok_iff.mp read
    obtain ⟨effects, after, whole⟩ := bind_eq_ok_iff.mp later
    cases whole
    exact ⟨fields, rfl, rfl, readFacts_keeps (fun _ found => keyed.field found) before,
      readFacts_keeps (fun _ found => keyed.field found) after⟩
  next => cases read

variable (kept : List.Forall₂ KeepsVariable declarations subjects)
  (told : subjects.Pairwise fun first second => first.name.same second.name = false)

include kept told

/-- An action is read, and then has a title, exactly if an object states it. -/
theorem exists_readAction_iff :
    (∃ action, readAction subjects index item = .ok action ∧ ∃ title, action.title = .ok title) ↔
      ∃ fields, item = .mapping fields ∧ StatesAction declarations fields := by
  unfold readAction
  split
  next fields =>
    constructor
    · rintro ⟨action, read, titled⟩
      obtain ⟨preconditions, before, later⟩ := bind_eq_ok_iff.mp read
      obtain ⟨effects, after, whole⟩ := bind_eq_ok_iff.mp later
      cases whole
      exact ⟨fields, rfl, names_nameOf_iff.mp (Action.exists_title_iff.mp titled),
        (exists_readFacts_iff kept told).mp ⟨_, before⟩,
        (exists_readFacts_iff kept told).mp ⟨_, after⟩⟩
    · rintro ⟨_, ⟨⟩, named, before, after⟩
      obtain ⟨preconditions, before⟩ := (exists_readFacts_iff kept told).mpr before
      obtain ⟨effects, after⟩ := (exists_readFacts_iff kept told).mpr after
      refine ⟨⟨nameOf index fields, preconditions, effects⟩, ?_,
        Action.exists_title_iff.mpr (names_nameOf_iff.mpr named)⟩
      exact bind_eq_ok_iff.mpr ⟨_, before, bind_eq_ok_iff.mpr ⟨_, after, rfl⟩⟩
  next noMapping =>
    exact iff_of_false (fun ⟨_, read, _⟩ => nomatch read)
      fun ⟨fields, mapping, _⟩ => noMapping fields mapping

/-- Actions are read, and then have titles, exactly if what stands for them states them. -/
theorem exists_readActions_iff {stated : Option Value} :
    (∃ actions, readActions subjects (stated.getD (.sequence [])) = .ok actions ∧
      ∀ action ∈ actions, ∃ title, action.title = .ok title) ↔
        StatesActions declarations stated := by
  unfold readActions
  constructor
  · rintro ⟨actions, read, titled⟩
    split at read
    next => cases read
    next items walked =>
      cases stated with
      | none => exact .absent
      | some stated =>
        refine .walked walked fun item member => ?_
        obtain ⟨index, place⟩ := List.mem_iff_getElem?.mp member
        have numbered : (item, index) ∈ items.zipIdx := List.mem_zipIdx_iff_getElem?.mpr place
        obtain ⟨action, among, one⟩ := exists_result_of_mem read numbered
        exact (exists_readAction_iff kept told).mp ⟨action, one, titled action among⟩
  · rintro (_ | @⟨_, items, walked, each⟩)
    · exact ⟨[], rfl, fun _ member => nomatch member⟩
    · rw [Option.getD_some, walked]
      -- The title is looked at after all actions are read, so a read action carries it along.
      have stated : ∀ place ∈ items.zipIdx, ∃ action,
          readAction subjects place.2 place.1 = .ok action ∧ ∃ title, action.title = .ok title :=
        fun place listed =>
          (exists_readAction_iff kept told).mpr (each _ (List.fst_mem_of_mem_zipIdx listed))
      obtain ⟨actions, read⟩ := exists_mapM_eq_ok fun place listed =>
        (stated place listed).imp fun _ found => found.1
      refine ⟨actions, read, fun action member => ?_⟩
      obtain ⟨place, listed, one⟩ := exists_of_mem_mapM read member
      obtain ⟨action', one', titled⟩ := stated place listed
      cases one.symm.trans one'
      exact titled

end

/-- The actions of a problem are those of the document, in its order. -/
theorem readActions_keeps {subjects : List StateVariable} {stated : Value} {actions : List Action}
    (keyed : Keyed stated) (read : readActions subjects stated = .ok actions) :
    List.Forall₂ (KeepsAction subjects) (stated.items?.getD []).zipIdx actions := by
  unfold readActions at read
  split at read
  next => cases read
  next items walked =>
    rw [walked, Option.getD_some]
    have keyed' : ∀ place ∈ items.zipIdx, Keyed place.1 := fun place listed =>
      keyed.walked walked _ (List.fst_mem_of_mem_zipIdx listed)
    have each := (List.forall₂_and_left _ _).mpr ⟨keyed', mapM_eq_ok_iff.mp read⟩
    exact each.imp fun _ _ one => readAction_keeps one.1 one.2

/-! ### Whole documents -/

section

variable {bound : Value} {entries declarations : List (Value × Value)} {problem : Problem}

/-- The parts of a document that is accepted. -/
theorem readProblem_eq_ok_iff : readProblem bound (.mapping entries) = .ok problem ↔
    ∃ declarations, (field? entries "variables" = some (.mapping declarations) ∧
      declarations ≠ []) ∧
      ∃ subjects, readVariables declarations = .ok subjects ∧
      ∃ actions, readActions subjects ((field? entries "actions").getD (.sequence [])) =
        .ok actions ∧
      ∃ initial, readFacts subjects "initial" (field? entries "initial") = .ok initial ∧
      ∃ goals, readFacts subjects "goals" (field? entries "goals") = .ok goals ∧
        Problem.create subjects actions initial goals ((field? entries "max_steps").getD bound) =
          .ok problem := by
  unfold readProblem
  dsimp only
  split
  next first rest declared =>
    simp only [bind_eq_ok_iff]
    constructor
    · exact fun accepted => ⟨_, ⟨declared, List.cons_ne_nil _ _⟩, accepted⟩
    · rintro ⟨declarations, ⟨declared', _⟩, accepted⟩
      obtain rfl := Value.mapping.inj (Option.some.inj (declared.symm.trans declared'))
      exact accepted
  next other =>
    refine iff_of_false nofun ?_
    rintro ⟨_ | ⟨first, rest⟩, ⟨declared, nonempty⟩, _⟩
    · exact nonempty rfl
    · exact other first rest declared

/-- An accepted document states a problem, and the problem keeps all of it. -/
theorem states_of_read (keyed : Keyed (.mapping entries))
    (read : readProblem bound (.mapping entries) = .ok problem) :
    ∃ declarations, StatesProblem bound entries declarations ∧
      KeepsProblem bound entries declarations problem := by
  obtain ⟨declarations, ⟨declared, nonempty⟩, subjects, readAll, actions, readActions, initial,
    start, goals, wanted, made⟩ := readProblem_eq_ok_iff.mp read
  have kept := keepsVariables_of_read readAll
  have told := names_distinct kept (keyed.field declared).keys_distinct
  have covered : ∀ action ∈ actions,
      action.preconditions.Over subjects ∧ action.effects.Over subjects :=
    fun action member => (readActions_eq_ok readActions member).1
  obtain ⟨bounded, titled⟩ := (Problem.exists_create_iff (nodup_of_read readAll)
    (readFacts_over start) (readFacts_over wanted) covered).mp ⟨problem, made⟩
  obtain ⟨rfl, rfl, rfl, rfl, stated⟩ := Problem.create_eq_ok made
  refine ⟨declarations, ?_, ?_⟩
  · exact
      { declared, nonempty
        domains := exists_readVariables_iff.mp ⟨_, readAll⟩
        actions := (exists_readActions_iff kept told).mp ⟨_, readActions, titled⟩
        initial := (exists_readFacts_iff kept told).mp ⟨_, start⟩
        goals := (exists_readFacts_iff kept told).mp ⟨_, wanted⟩
        bound := bounded }
  · have keyedActions : Keyed ((field? entries "actions").getD (.sequence [])) := by
      cases found : field? entries "actions" with
      | none => exact .sequence fun _ member => nomatch member
      | some stated => exact keyed.field found
    exact
      { subjects := kept
        actions := readActions_keeps keyedActions readActions
        initial := readFacts_keeps (fun _ found => keyed.field found) start
        goals := readFacts_keeps (fun _ found => keyed.field found) wanted
        bound := stated }

/-- A document that states a problem is accepted. -/
theorem exists_read_of_states (keyed : Keyed (.mapping entries))
    (states : StatesProblem bound entries declarations) :
    ∃ problem, readProblem bound (.mapping entries) = .ok problem := by
  obtain ⟨subjects, readAll⟩ := exists_readVariables_iff.mpr states.domains
  have kept := keepsVariables_of_read readAll
  have told := names_distinct kept (keyed.field states.declared).keys_distinct
  obtain ⟨actions, readActions, titled⟩ := (exists_readActions_iff kept told).mpr states.actions
  obtain ⟨initial, start⟩ := (exists_readFacts_iff kept told).mpr states.initial
  obtain ⟨goals, wanted⟩ := (exists_readFacts_iff kept told).mpr states.goals
  have covered : ∀ action ∈ actions,
      action.preconditions.Over subjects ∧ action.effects.Over subjects :=
    fun action member => (readActions_eq_ok readActions member).1
  obtain ⟨problem, made⟩ := (Problem.exists_create_iff (nodup_of_read readAll)
    (readFacts_over start) (readFacts_over wanted) covered).mpr ⟨states.bound, titled⟩
  exact ⟨problem, readProblem_eq_ok_iff.mpr ⟨declarations, ⟨states.declared, states.nonempty⟩,
    subjects, readAll, actions, readActions, initial, start, goals, wanted, made⟩⟩

end

/-- The reader accepts exactly the documents of the grammar: objects whose entries state a problem.
A problem that is read has the variables and the actions of the document in its order, with their
names and domains, one fact for each entry of what stands for facts, on the variable of that name
and at the position of that value, and the bound that is stated. -/
theorem readProblem_grammar (bound : Value) {document : Value} (keyed : Keyed document) :
    ((∃ problem, readProblem bound document = .ok problem) ↔
      ∃ entries declarations, document = .mapping entries ∧
        StatesProblem bound entries declarations) ∧
    ∀ problem, readProblem bound document = .ok problem →
      ∃ entries declarations, document = .mapping entries ∧
        field? entries "variables" = some (.mapping declarations) ∧
        KeepsProblem bound entries declarations problem := by
  have mapping : ∀ problem, readProblem bound document = .ok problem →
      ∃ entries, document = .mapping entries := by
    intro problem read
    unfold readProblem at read
    split at read
    next entries => exact ⟨entries, rfl⟩
    next => cases read
  refine ⟨⟨?_, ?_⟩, fun problem read => ?_⟩
  · rintro ⟨problem, read⟩
    obtain ⟨entries, rfl⟩ := mapping problem read
    obtain ⟨declarations, states, _⟩ := states_of_read keyed read
    exact ⟨entries, declarations, rfl, states⟩
  · rintro ⟨entries, declarations, rfl, states⟩
    exact exists_read_of_states keyed states
  · obtain ⟨entries, rfl⟩ := mapping problem read
    obtain ⟨declarations, states, keeps⟩ := states_of_read keyed read
    exact ⟨entries, declarations, rfl, states.declared, keeps⟩

/-- A dial with two positions, and an action without a name that states the second one in another
spelling. -/
def dialEntries : List (Value × Value) :=
  [(.text "variables", .mapping [(.text "dial", .sequence [.integer 0, .boolean true])]),
    (.text "actions", .sequence [.mapping [(.text "effects",
      .mapping [(.text "dial", .integer 1)])]])]

theorem keyed_dialEntries : Keyed (.mapping dialEntries) := by
  have dial : Keyed (.sequence [.integer 0, .boolean true]) :=
    .sequence (List.forall_mem_cons.mpr ⟨.integer 0, List.forall_mem_singleton.mpr (.boolean true)⟩)
  have effects : Keyed (.mapping [(.text "dial", .integer 1)]) :=
    .mapping (by simp) (by decide) (List.forall_mem_singleton.mpr (.integer 1))
  have actions : Keyed (.sequence [.mapping [(.text "effects",
      .mapping [(.text "dial", .integer 1)])]]) :=
    .sequence (List.forall_mem_singleton.mpr
      (.mapping (by simp) (by decide) (List.forall_mem_singleton.mpr effects)))
  exact .mapping (by simp [dialEntries]) (by decide) (List.forall_mem_cons.mpr
    ⟨.mapping (by simp) (by decide) (List.forall_mem_singleton.mpr dial),
      List.forall_mem_singleton.mpr actions⟩)

theorem readProblem_grammar_dial :
    ∃ problem, readProblem (.integer 10) (.mapping dialEntries) = .ok problem ∧
      problem.subjects.map StateVariable.name = [.text "dial"] ∧
      ∃ action, problem.actions = [action] ∧ action.name = .text "action0" ∧
        action.effects.facts.length = 1 := by
  have states : StatesProblem (.integer 10) dialEntries
      [(.text "dial", .sequence [.integer 0, .boolean true])] :=
    { declared := rfl
      nonempty := List.cons_ne_nil _ _
      domains := List.forall_mem_singleton.mpr
        ⟨_, rfl, List.cons_ne_nil _ _, by decide, by decide⟩
      actions := .walked rfl (List.forall_mem_singleton.mpr ⟨_, rfl, .absent, .absent,
        .entered (List.forall_mem_singleton.mpr
          ⟨_, _, List.mem_singleton_self _, by decide, rfl, .boolean true, by decide, by decide⟩)⟩)
      initial := .absent
      goals := .absent
      bound := ⟨10, rfl, by decide⟩ }
  obtain ⟨accepts, keeps⟩ := readProblem_grammar (.integer 10) keyed_dialEntries
  obtain ⟨problem, read⟩ := accepts.mpr ⟨_, _, rfl, states⟩
  obtain ⟨_, _, ⟨⟩, ⟨⟩, kept⟩ := keeps problem read
  have names := map_eq_map_of_forall₂ (kept.subjects.imp fun _ _ kept => kept.name.symm)
  obtain ⟨action, _, ⟨_, ⟨⟩, called, _, effects⟩, none, actions⟩ :=
    List.forall₂_cons_left_iff.mp kept.actions
  rw [List.forall₂_nil_left_iff.mp none] at actions
  exact ⟨problem, read, names.symm, action, actions, called, effects.length_eq.symm⟩

end Document

end HorizonPlanner
