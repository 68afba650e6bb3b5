/-
This file reads planning problems from documents.  A document is an object with
`variables`, each with the list of its values, and optionally `actions`,
`initial` facts, `goals` and `max_steps`.  Facts are objects from variables to
values.
-/

import HorizonPlanner.Document.Json
import HorizonPlanner.Problem

namespace HorizonPlanner.Document

/-! ### Parts of a document -/

/-- The value of an entry of an object, by its name. -/
def field? (entries : List (Value × Value)) (name : String) : Option Value :=
  Value.lookup? (.text name) entries

/-- The state variable declared under a name. -/
def declared? (subjects : List StateVariable) (name : Value) : Option StateVariable :=
  subjects.find? fun subject => subject.name.same name

/-- Declares the state variables of a document, numbered in their order. -/
def readVariables (entries : List (Value × Value)) : Except Fault (List StateVariable) :=
  entries.zipIdx.mapM fun ((name, values), key) =>
    match values with
    | .sequence _ => StateVariable.declare key name values
    | _ => .error (.domainShape name)

/-- One fact of a document; `place` says where it is stated. -/
def readFact (subjects : List StateVariable) (place : String) (name value : Value) :
    Except Fault Fact :=
  match declared? subjects name with
  | none => .error (.undeclaredVariable place name)
  | some subject => match Fact.assign subject value with
    | .error (.outsideDomain value name) => .error (.documentFact place value name)
    | result => result

/-- The facts of an entry, none if the entry is missing or empty. -/
def readFacts (subjects : List StateVariable) (place : String) :
    Option Value → Except Fault FactSet
  | none => .ok FactSet.empty
  | some .none => .ok FactSet.empty
  | some (.mapping entries) =>
    (entries.mapM fun (name, value) => readFact subjects place name value).map FactSet.ofList
  | some _ => .error (.factsShape place)

/-- One action of a document.  An action without a name is named after its number. -/
def readAction (subjects : List StateVariable) (index : Nat) : Value → Except Fault Action
  | .mapping entries => do
    let name := (field? entries "name").getD (.text s!"action{index}")
    let place := s!"actions[{index}] ({name.display})"
    let preconditions ←
      readFacts subjects s!"{place} preconditions" (field? entries "preconditions")
    let effects ← readFacts subjects s!"{place} effects" (field? entries "effects")
    .ok ⟨name, preconditions, effects⟩
  | _ => .error (.actionShape index)

/-- The actions of a document: whatever the entry gives when it is walked through. -/
def readActions (subjects : List StateVariable) (stated : Value) : Except Fault (List Action) :=
  match stated.items? with
  | none => .error (.notIterable stated.kind)
  | some items => items.zipIdx.mapM fun (item, index) => readAction subjects index item

/-! ### Whole documents -/

/-- The problem that a document states.  The given bound is used where the document has none. -/
def readProblem (bound : Value) : Value → Except Fault Problem
  | .mapping entries => match field? entries "variables" with
    | some (.mapping (first :: rest)) => do
      let subjects ← readVariables (first :: rest)
      let actions ← readActions subjects ((field? entries "actions").getD (.sequence []))
      let initial ← readFacts subjects "initial" (field? entries "initial")
      let goals ← readFacts subjects "goals" (field? entries "goals")
      Problem.create subjects actions initial goals ((field? entries "max_steps").getD bound)
    | _ => .error .variablesShape
  | _ => .error .documentShape

/-- The problem in the bytes of a file, whose parts can be nested up to a number of levels. -/
def loadProblem (levels : Nat) (bound : Value) (path : String) (bytes : List Nat) :
    Except Fault Problem := do
  readProblem bound (← readBytes levels path bytes)

end HorizonPlanner.Document
