/-
This file says how reading a problem from a document fails.  A fault of a
document is a fault of its values, with two exceptions that the reader
overlooks.  What is stated for the actions is walked through without a look at
what it is, which nothing, truth values and numbers refuse; and the name of an
action is first looked at when its title is wanted, which must be a text.  These
two are faults of the kind of a value.
-/

import HorizonPlanner.Proofs.Creation
import HorizonPlanner.Proofs.DocumentValue
import HorizonPlanner.Proofs.DomainPosition

namespace HorizonPlanner

variable {fault : Fault}

/-! ### State variables -/

namespace StateVariable

variable {name value : Value} {values : List Value}

theorem Domain.extend_eq_error {domain : Domain}
    (failed : domain.extend name value = .error fault) :
    fault = .unhashableDomainValue value name ∨ fault = .duplicateDomainValue value name := by
  rw [extend] at failed
  split at failed
  next =>
    split at failed
    next => cases failed
    next =>
      cases failed
      exact .inr rfl
  next =>
    cases failed
    exact .inl rfl

theorem ofList_eq_error {key : Nat} {owner : Option Nat}
    (failed : ofList key name owner values = .error fault) :
    (∃ value ∈ values,
      fault = .unhashableDomainValue value name ∨ fault = .duplicateDomainValue value name) ∨
      fault = .emptyDomain name := by
  rcases bind_eq_error_iff.mp failed with entering | ⟨domain, _, closing⟩
  · obtain ⟨value, member, domain, here⟩ := exists_of_foldlM_eq_error entering
    exact .inl ⟨value, member, Domain.extend_eq_error here⟩
  · split at closing
    next => cases closing
    next =>
      cases closing
      exact .inr rfl

end StateVariable

/-! ### Facts -/

/-- A variable that does not admit a value says so; nothing else can go wrong. -/
theorem Fact.assign_eq_error {subject : StateVariable} {value : Value}
    (failed : assign subject value = .error fault) :
    fault = .outsideDomain value subject.name := by
  rw [assign] at failed
  split at failed
  next admitted =>
    have found : (subject.find? value).isSome = true := (Bool.and_eq_true_iff.mp admitted).2
    unfold locate at failed
    split at failed
    next => cases failed
    next missing => rw [missing] at found; cases found
  next =>
    cases failed
    rfl

namespace Document

variable {subjects : List StateVariable}

/-! ### Fields -/

section

variable {entries : List (Value × Value)} {name : String} {fallback : Value}

theorem HoldsEntries.fieldOr (held : HoldsEntries entries) (name : String)
    (held' : Holds fallback) : Holds ((field? entries name).getD fallback) := by
  cases found : field? entries name with
  | none => exact held'
  | some value => exact held.field found

/-- A value other than the fallback is stated. -/
theorem field?_of_ne (other : (field? entries name).getD fallback ≠ fallback) :
    field? entries name = some ((field? entries name).getD fallback) := by
  cases found : field? entries name with
  | none => exact absurd (by rw [found, Option.getD_none]) other
  | some value => rfl

end

/-! ### Parts of a document -/

/-- Variables are named by texts. -/
theorem named_of_declared {entries : List (Value × Value)} (held : HoldsEntries entries)
    (declared : readVariables entries = .ok subjects) :
    ∀ subject ∈ subjects, Holds subject.name := by
  intro subject member
  obtain ⟨⟨⟨name, values⟩, key⟩, listed, made⟩ := exists_of_mem_mapM declared member
  obtain ⟨⟨content, rfl⟩, _⟩ := held _ (List.fst_mem_of_mem_zipIdx listed)
  dsimp only at made
  split at made
  next =>
    rw [(StateVariable.ofList_eq_ok made).2.1]
    exact .text content
  next => cases made

theorem family_readVariables {entries : List (Value × Value)} (held : HoldsEntries entries)
    (failed : readVariables entries = .error fault) : fault.family = .value := by
  obtain ⟨⟨⟨name, values⟩, key⟩, listed, refused⟩ := exists_of_mapM_eq_error failed
  obtain ⟨⟨content, rfl⟩, held'⟩ := held _ (List.fst_mem_of_mem_zipIdx listed)
  dsimp only at refused held'
  split at refused
  next items =>
    have plain {value : Value} (member : value ∈ items) :
        ∀ shown ∈ [value, .text content], shown.Plain :=
      List.forall_mem_cons.mpr ⟨(holds_sequence_iff.mp held' value member).plain,
        List.forall_mem_singleton.mpr (Holds.text content).plain⟩
    rcases StateVariable.ofList_eq_error refused with ⟨value, member, rfl | rfl⟩ | rfl
    · exact Fault.family_eq_value (plain member) rfl
    · exact Fault.family_eq_value (plain member) rfl
    · rfl
  next =>
    cases refused
    rfl

theorem readFact_eq_error {place : String} {name value : Value}
    (failed : readFact subjects place name value = .error fault) :
    fault = .undeclaredVariable place name ∨
      ∃ subject ∈ subjects, fault = .documentFact place value subject.name := by
  rw [readFact] at failed
  split at failed
  next =>
    cases failed
    exact .inl rfl
  next subject found =>
    refine .inr ⟨subject, List.mem_of_find?_eq_some found, ?_⟩
    split at failed
    next outside =>
      cases failed
      cases Fact.assign_eq_error outside
      rfl
    next other =>
      obtain rfl := Fact.assign_eq_error failed
      exact absurd failed (other _ _)

theorem readFact_known {place : String} {name value : Value} {fact : Fact}
    (read : readFact subjects place name value = .ok fact) : fact.subject ∈ subjects := by
  rw [readFact] at read
  split at read
  next => cases read
  next subject found =>
    split at read
    next => cases read
    next =>
      rw [(Fact.assign_eq_ok read).1]
      exact List.mem_of_find?_eq_some found

theorem readFacts_over {place : String} {stated : Option Value} {set : FactSet}
    (read : readFacts subjects place stated = .ok set) : set.Over subjects := by
  unfold readFacts at read
  split at read
  next =>
    cases read
    exact fun _ member => absurd member List.not_mem_nil
  next =>
    cases read
    exact fun _ member => absurd member List.not_mem_nil
  next entries =>
    obtain ⟨facts, each, rfl⟩ := map_eq_ok_iff.mp read
    refine FactSet.ofList_over fun fact member => ?_
    obtain ⟨entry, _, one⟩ := exists_of_mem_mapM each member
    exact readFact_known one
  next => cases read

/-- Facts are refused with a fault of a value. -/
theorem family_readFacts {place : String} {stated : Option Value}
    (named : ∀ subject ∈ subjects, Holds subject.name)
    (held : ∀ value, stated = some value → Holds value)
    (failed : readFacts subjects place stated = .error fault) : fault.family = .value := by
  unfold readFacts at failed
  split at failed
  next => cases failed
  next => cases failed
  next entries =>
    have entriesHeld := holds_mapping_iff.mp (held _ rfl)
    obtain ⟨⟨name, value⟩, member, one⟩ := exists_of_mapM_eq_error (map_eq_error_iff.mp failed)
    obtain ⟨_, held'⟩ := entriesHeld _ member
    rcases readFact_eq_error one with rfl | ⟨subject, known, rfl⟩
    · rfl
    · exact Fault.family_eq_value (List.forall_mem_cons.mpr
        ⟨held'.plain, List.forall_mem_singleton.mpr (named subject known).plain⟩) rfl
  next =>
    cases failed
    rfl

/-- The name that an action of a document has, by its number. -/
def nameOf (index : Nat) (entries : List (Value × Value)) : Value :=
  (field? entries "name").getD (.text s!"action{index}")

theorem readAction_eq_ok {index : Nat} {item : Value} {action : Action}
    (read : readAction subjects index item = .ok action) :
    action.preconditions.Over subjects ∧ action.effects.Over subjects ∧
      ∃ entries, item = .mapping entries ∧ action.name = nameOf index entries := by
  unfold readAction at read
  split at read
  next entries =>
    obtain ⟨preconditions, before, later⟩ := bind_eq_ok_iff.mp read
    obtain ⟨effects, after, whole⟩ := bind_eq_ok_iff.mp later
    cases whole
    exact ⟨readFacts_over before, readFacts_over after, entries, rfl, rfl⟩
  next => cases read

theorem family_readAction {index : Nat} {item : Value}
    (named : ∀ subject ∈ subjects, Holds subject.name) (held : Holds item)
    (failed : readAction subjects index item = .error fault) : fault.family = .value := by
  unfold readAction at failed
  split at failed
  next entries =>
    have entriesHeld := holds_mapping_iff.mp held
    rcases bind_eq_error_iff.mp failed with refused | ⟨_, _, later⟩
    · exact family_readFacts named (fun _ found => entriesHeld.field found) refused
    · rcases bind_eq_error_iff.mp later with refused | ⟨_, _, impossible⟩
      · exact family_readFacts named (fun _ found => entriesHeld.field found) refused
      · cases impossible
  next =>
    cases failed
    rfl

/-- What is met when a value is walked through are its items, or texts. -/
theorem Holds.walked {stated : Value} (held : Holds stated) {items : List Value}
    (walked : stated.items? = some items) : ∀ item ∈ items, Holds item := by
  intro item member
  rcases Value.walked_cases walked member with
    ⟨content, rfl⟩ | rfl | rfl | ⟨entries, rfl, entry, among, rfl⟩
  · exact .text content
  · exact holds_sequence_iff.mp held item member
  · cases held
  · obtain ⟨⟨name, text⟩, _⟩ := holds_mapping_iff.mp held entry among
    exact text ▸ .text name

theorem readActions_eq_error {stated : Value} (named : ∀ subject ∈ subjects, Holds subject.name)
    (held : Holds stated) (failed : readActions subjects stated = .error fault) :
    fault.family = .value ∨ stated.items? = none ∧ fault = .notIterable stated.kind := by
  unfold readActions at failed
  split at failed
  next closed =>
    cases failed
    exact .inr ⟨closed, rfl⟩
  next items walked =>
    obtain ⟨⟨item, index⟩, member, one⟩ := exists_of_mapM_eq_error failed
    have among := List.fst_mem_of_mem_zipIdx member
    exact .inl (family_readAction named (held.walked walked item among) one)

theorem readActions_eq_ok {stated : Value} {actions : List Action}
    (read : readActions subjects stated = .ok actions) {action : Action}
    (member : action ∈ actions) :
    (action.preconditions.Over subjects ∧ action.effects.Over subjects) ∧
      ∃ items index entries, stated.items? = some items ∧ .mapping entries ∈ items ∧
        action.name = nameOf index entries := by
  unfold readActions at read
  split at read
  next => cases read
  next items walked =>
    obtain ⟨⟨item, index⟩, listed, one⟩ := exists_of_mem_mapM read member
    obtain ⟨preconditions, effects, entries, rfl, called⟩ := readAction_eq_ok one
    have among := List.fst_mem_of_mem_zipIdx listed
    exact ⟨⟨preconditions, effects⟩, items, index, entries, walked, among, called⟩

/-! ### Whole documents -/

/-- What the reader overlooks in a document, with the fault that comes of it: something stands for
the actions that cannot be walked through, or the name of an action counts as something and is no
text. -/
inductive Overlooks (entries : List (Value × Value)) : Fault → Prop where
  | actions {stated : Value} (found : field? entries "actions" = some stated)
      (closed : stated.items? = none) : Overlooks entries (.notIterable stated.kind)
  | name {stated name : Value} {items : List Value} {action : List (Value × Value)}
      (found : field? entries "actions" = some stated) (walked : stated.items? = some items)
      (member : .mapping action ∈ items) (named : field? action "name" = some name)
      (truthy : name.isTruthy = true) (noText : ∀ content, name ≠ .text content) :
      Overlooks entries (.nameNotText name.kind)

theorem Overlooks.family {entries : List (Value × Value)} (overlooks : Overlooks entries fault) :
    fault.family = .kind := by
  cases overlooks <;> rfl

theorem overlooks_of_closed {entries : List (Value × Value)}
    (closed : ((field? entries "actions").getD (.sequence [])).items? = none) :
    Overlooks entries (.notIterable ((field? entries "actions").getD (.sequence [])).kind) := by
  refine .actions (field?_of_ne fun absent => ?_) closed
  rw [absent] at closed
  cases closed

/-- An action that was read and has no title is one whose name was overlooked. -/
theorem overlooks_of_untitled {entries : List (Value × Value)} {actions : List Action}
    (read : readActions subjects ((field? entries "actions").getD (.sequence [])) = .ok actions)
    {action : Action} (member : action ∈ actions) (untitled : action.title = .error fault) :
    Overlooks entries fault := by
  obtain ⟨truthy, noText, rfl⟩ := Action.title_eq_error untitled
  obtain ⟨_, items, index, fields, walked, among, called⟩ := readActions_eq_ok read member
  rw [called] at truthy noText ⊢
  refine .name (field?_of_ne fun absent => ?_) walked among (field?_of_ne (noText _)) truthy noText
  rw [absent] at walked
  cases walked
  cases among

/-- A document that is refused is refused for its values, except for what the reader overlooks. -/
theorem readProblem_eq_error {bound document : Value} (held : Holds document)
    (bounded : Holds bound) (failed : readProblem bound document = .error fault) :
    fault.family = .value ∨
      ∃ entries, document = .mapping entries ∧ Overlooks entries fault := by
  unfold readProblem at failed
  split at failed
  next entries =>
    have entriesHeld := holds_mapping_iff.mp held
    split at failed
    next first rest listed =>
      have variablesHeld := holds_mapping_iff.mp (entriesHeld.field listed)
      rcases bind_eq_error_iff.mp failed with refused | ⟨subjects, declared, later⟩
      · exact .inl (family_readVariables variablesHeld refused)
      have named := named_of_declared variablesHeld declared
      rcases bind_eq_error_iff.mp later with refused | ⟨actions, readAll, later⟩
      · have unstated := holds_sequence_iff.mpr (List.forall_mem_nil _)
        refine (readActions_eq_error named (entriesHeld.fieldOr _ unstated) refused).imp_right ?_
        rintro ⟨closed, rfl⟩
        exact ⟨entries, rfl, overlooks_of_closed closed⟩
      rcases bind_eq_error_iff.mp later with refused | ⟨initial, start, later⟩
      · exact .inl (family_readFacts named (fun _ found => entriesHeld.field found) refused)
      rcases bind_eq_error_iff.mp later with refused | ⟨goals, wanted, later⟩
      · exact .inl (family_readFacts named (fun _ found => entriesHeld.field found) refused)
      have known : ∀ action ∈ actions,
          action.preconditions.Over subjects ∧ action.effects.Over subjects :=
        fun action member => (readActions_eq_ok readAll member).1
      rcases Problem.create_eq_error (readFacts_over start) (readFacts_over wanted) known later with
        rfl | rfl | ⟨action, member, untitled⟩
      · exact .inl (Fault.family_eq_value
          (List.forall_mem_singleton.mpr (entriesHeld.fieldOr _ bounded).plain) rfl)
      · exact .inl rfl
      · exact .inr ⟨entries, rfl, overlooks_of_untitled readAll member untitled⟩
    next =>
      cases failed
      exact .inl rfl
  next =>
    cases failed
    exact .inl rfl

/-- Once the variables are declared, a document is refused for actions that cannot be walked
through, and the fault is one of their kind. -/
theorem readProblem_of_closed {bound : Value} {entries rest : List (Value × Value)}
    {first : Value × Value}
    (listed : field? entries "variables" = some (.mapping (first :: rest)))
    (declared : readVariables (first :: rest) = .ok subjects) {stated : Value}
    (found : field? entries "actions" = some stated) (closed : stated.items? = none) :
    readProblem bound (.mapping entries) = .error (.notIterable stated.kind) := by
  have refused : readActions subjects stated = .error (.notIterable stated.kind) := by
    unfold readActions
    rw [closed]
  unfold readProblem
  simp only [listed, declared, ok_bind, found, Option.getD_some, refused, error_bind]

/-- A document in which something is overlooked is never accepted. -/
theorem Overlooks.not_accepted {bound : Value} {entries : List (Value × Value)} {problem : Problem}
    (overlooks : Overlooks entries fault) : readProblem bound (.mapping entries) ≠ .ok problem := by
  intro accepted
  unfold readProblem at accepted
  dsimp only at accepted
  split at accepted
  next =>
    obtain ⟨subjects, _, later⟩ := bind_eq_ok_iff.mp accepted
    obtain ⟨actions, readAll, later⟩ := bind_eq_ok_iff.mp later
    obtain ⟨_, _, later⟩ := bind_eq_ok_iff.mp later
    obtain ⟨_, _, made⟩ := bind_eq_ok_iff.mp later
    unfold readActions at readAll
    cases overlooks with
    | actions found closed =>
      rw [found, Option.getD_some, closed] at readAll
      cases readAll
    | @name _ _ items fields found walked member named truthy noText =>
      rw [found, Option.getD_some, walked] at readAll
      obtain ⟨index, place⟩ := List.mem_iff_getElem?.mp member
      have numbered : (.mapping fields, index) ∈ items.zipIdx :=
        List.mem_zipIdx_iff_getElem?.mpr place
      obtain ⟨action, listed, one⟩ := exists_result_of_mem readAll numbered
      obtain ⟨_, _, _, same, called⟩ := readAction_eq_ok one
      cases same
      rw [nameOf, named, Option.getD_some] at called
      rw [← (Problem.create_eq_ok made).2.1] at listed
      obtain ⟨title, titled⟩ := (problem.actionsKnown action listed).titled
      rw [Action.title, called, if_pos truthy] at titled
      split at titled
      next content => exact noText content rfl
      next => cases titled
  next => cases accepted

/-- One variable with one value, and nothing in the place of the actions. -/
def nullActions : Value :=
  .mapping [(.text "variables", .mapping [(.text "d", .sequence [.text "a"])]),
    (.text "actions", .none)]

theorem readProblem_nullActions :
    readProblem (.integer 10) nullActions = .error (.notIterable "NoneType") ∧
      (Fault.notIterable "NoneType").family = .kind :=
  ⟨rfl, rfl⟩

/-- One variable with one value, and an action that is named by a number. -/
def numberedAction : Value :=
  .mapping [(.text "variables", .mapping [(.text "d", .sequence [.text "a"])]),
    (.text "actions", .sequence [.mapping [(.text "name", .integer 1)]])]

theorem readProblem_numberedAction :
    readProblem (.integer 10) numberedAction = .error (.nameNotText "int") ∧
      (Fault.nameNotText "int").family = .kind :=
  ⟨rfl, rfl⟩

end Document

end HorizonPlanner
