/-
This file says which values a document can hold: whatever is read from a text is
built from nothing, truth values, numbers and texts, by lists and by mappings
from texts.  There are no members of enumerations among them, so all of them can
be written in a message, unless a whole number is too long for it.
-/

import HorizonPlanner.Document.Problem
import HorizonPlanner.Proofs.Outcome

namespace HorizonPlanner

/-! ### Writing values -/

namespace Value

theorem unwritableItem?_eq_none_iff {items : List Value} :
    unwritableItem? items = Option.none ↔ ∀ item ∈ items, item.unwritable? = Option.none := by
  induction items with
  | nil => simp [unwritableItem?]
  | cons item rest inductionHypothesis =>
    rw [unwritableItem?, Option.or_eq_none_iff, inductionHypothesis, List.forall_mem_cons]

/-- If anything keeps a value from being written, it is the length of a whole number. -/
def Plain (value : Value) : Prop :=
  ∀ obstacle, value.unwritable? = some obstacle → obstacle = .tooManyDigits

theorem plain_integer (number : Int) : (Value.integer number).Plain := by
  intro obstacle unwritten
  rw [unwritable?, tooLong?] at unwritten
  split at unwritten
  next => exact (Option.some.inj unwritten).symm
  next => cases unwritten

theorem eq_tooManyDigits_of_items {items : List Value} (plain : ∀ item ∈ items, item.Plain)
    {obstacle : Obstacle} (unwritten : unwritableItem? items = some obstacle) :
    obstacle = .tooManyDigits := by
  induction items with
  | nil => cases unwritten
  | cons item rest inductionHypothesis =>
    obtain ⟨first, others⟩ := List.forall_mem_cons.mp plain
    rw [unwritableItem?, Option.or_eq_some_iff] at unwritten
    exact unwritten.elim (first obstacle) fun later => inductionHypothesis others later.2

theorem eq_tooManyDigits_of_entries {entries : List (Value × Value)}
    (plain : ∀ entry ∈ entries, entry.1.Plain ∧ entry.2.Plain) {obstacle : Obstacle}
    (unwritten : unwritablePair? entries = some obstacle) : obstacle = .tooManyDigits := by
  induction entries with
  | nil => cases unwritten
  | cons entry rest inductionHypothesis =>
    obtain ⟨⟨key, value⟩, others⟩ := List.forall_mem_cons.mp plain
    rw [unwritablePair?, Option.or_eq_some_iff, Option.or_eq_some_iff] at unwritten
    rcases unwritten with (first | ⟨_, second⟩) | ⟨_, later⟩
    · exact key obstacle first
    · exact value obstacle second
    · exact inductionHypothesis others later

/-- What is met when a value is walked through is a text, an item or a key. -/
theorem walked_cases {stated item : Value} {items : List Value}
    (walked : stated.items? = some items) (member : item ∈ items) :
    (∃ content, item = .text content) ∨ stated = .sequence items ∨ stated = .tuple items ∨
      ∃ entries, stated = .mapping entries ∧ ∃ entry ∈ entries, entry.1 = item := by
  cases stated with
  | text content =>
    cases walked
    obtain ⟨point, _, rfl⟩ := List.mem_map.mp member
    exact Or.inl ⟨_, rfl⟩
  | sequence | tuple =>
    cases walked
    simp
  | mapping entries =>
    cases walked
    exact Or.inr (Or.inr (Or.inr ⟨entries, rfl, List.mem_map.mp member⟩))
  | _ => cases walked

end Value

/-- A fault whose values can be written is of the family that its cause has. -/
theorem Fault.family_of_writable {fault : Fault}
    (writable : ∀ value ∈ fault.rendered, value.unwritable? = none) :
    fault.family = fault.writableFamily := by
  rw [family, obstacle?, Value.unwritableItem?_eq_none_iff.mpr writable]

/-- A fault about plain values is one of a value if its cause is. -/
theorem Fault.family_eq_value {fault : Fault} (plain : ∀ value ∈ fault.rendered, value.Plain)
    (fits : fault.writableFamily = .value) : fault.family = .value := by
  rw [family]
  split
  next obstacle unwritten =>
    rw [Value.eq_tooManyDigits_of_items plain unwritten]
    rfl
  next => exact fits

namespace Document

/-! ### The values of documents -/

/-- A value that a document can hold. -/
inductive Holds : Value → Prop where
  | none : Holds .none
  | boolean (truth : Bool) : Holds (.boolean truth)
  | integer (number : Int) : Holds (.integer number)
  | binary (number : Binary64) : Holds (.binary number)
  | text (content : Text.Passage) : Holds (.text content)
  | sequence {items : List Value} (held : ∀ item ∈ items, Holds item) : Holds (.sequence items)
  | mapping {entries : List (Value × Value)}
      (named : ∀ entry ∈ entries, ∃ name, entry.1 = .text name)
      (held : ∀ entry ∈ entries, Holds entry.2) : Holds (.mapping entries)

/-- Entries by which a document can map texts to values. -/
def HoldsEntries (entries : List (Value × Value)) : Prop :=
  ∀ entry ∈ entries, (∃ name, entry.1 = .text name) ∧ Holds entry.2

theorem Holds.plain {value : Value} (held : Holds value) : value.Plain := by
  induction held with
  | none | boolean | binary | text => exact nofun
  | integer number => exact Value.plain_integer number
  | sequence _ inductionHypothesis =>
    exact fun _ => Value.eq_tooManyDigits_of_items inductionHypothesis
  | mapping named _ inductionHypothesis =>
    refine fun _ => Value.eq_tooManyDigits_of_entries fun entry member => ⟨?_, ?_⟩
    · obtain ⟨name, text⟩ := named entry member
      rw [text]
      exact nofun
    · exact inductionHypothesis entry member

theorem holds_sequence_iff {items : List Value} :
    Holds (.sequence items) ↔ ∀ item ∈ items, Holds item :=
  ⟨fun held => by cases held; assumption, .sequence⟩

theorem holds_mapping_iff {entries : List (Value × Value)} :
    Holds (.mapping entries) ↔ HoldsEntries entries := by
  constructor
  · intro held
    cases held with
    | mapping named held => exact fun entry member => ⟨named entry member, held entry member⟩
  · exact fun held => .mapping (fun entry member => (held entry member).1)
      fun entry member => (held entry member).2

theorem exists_entry_of_field? {entries : List (Value × Value)} {name : String} {value : Value}
    (found : field? entries name = some value) : ∃ entry ∈ entries, entry.2 = value := by
  obtain ⟨entry, first, stated⟩ := Option.map_eq_some_iff.mp found
  exact ⟨entry, List.mem_of_find?_eq_some first, stated⟩

theorem HoldsEntries.field {entries : List (Value × Value)} (held : HoldsEntries entries)
    {name : String} {value : Value} (found : field? entries name = some value) : Holds value := by
  obtain ⟨entry, member, rfl⟩ := exists_entry_of_field? found
  exact (held entry member).2

/-! ### Reading values -/

theorem holds_words : ∀ word ∈ words, Holds word.2 := by
  rw [words]
  simp only [List.forall_mem_cons]
  exact ⟨.none, .boolean _, .boolean _, .binary _, .binary _, .binary _,
    fun _ member => absurd member List.not_mem_nil⟩

theorem holds_numberAtFront {text rest : List Char} {value : Value}
    (read : numberAtFront text = .ok (value, rest)) : Holds value := by
  unfold numberAtFront at read
  dsimp only at read
  split at read
  next => cases read
  next =>
    split at read
    next =>
      split at read
      next =>
        cases read
        exact .integer _
      next => cases read
    next =>
      cases read
      exact .binary _

theorem holds_plainValue {text rest : List Char} {value : Value}
    (read : plainValue text = .ok (value, rest)) : Holds value := by
  rw [plainValue] at read
  split at read
  next found word =>
    obtain ⟨entry, member, here⟩ := List.exists_of_findSome?_eq_some word
    obtain ⟨_, _, rfl⟩ := Option.map_eq_some_iff.mp here
    cases read
    exact holds_words entry member
  next => exact holds_numberAtFront read

theorem HoldsEntries.insertEntry {entries : List (Value × Value)} (held : HoldsEntries entries)
    (name : Text.Passage) {value : Value} (held' : Holds value) :
    HoldsEntries (Value.insertEntry entries (.text name) value) := by
  intro entry member
  rw [Value.insertEntry] at member
  split at member
  next =>
    obtain ⟨known, among, rfl⟩ := List.mem_map.mp member
    split
    next => exact ⟨(held known among).1, held'⟩
    next => exact held known among
  next =>
    rcases List.mem_append.mp member with member | last
    · exact held entry member
    · rw [List.mem_singleton.mp last]
      exact ⟨⟨name, rfl⟩, held'⟩

theorem HoldsEntries.mappingOf {entries : List (Value × Value)} (held : HoldsEntries entries) :
    Holds (Value.mappingOf entries) := by
  refine holds_mapping_iff.mpr ?_
  refine List.foldlRecOn entries _ (motive := HoldsEntries)
    (fun _ member => absurd member List.not_mem_nil) fun entered before entry member => ?_
  obtain ⟨⟨name, text⟩, held'⟩ := held entry member
  rw [text]
  exact before.insertEntry name held'

/-- What the readers give that are called with an amount of fuel. -/
structure Reads (fuel : Nat) : Prop where
  value : ∀ {levels : Nat} {text rest : List Char} {value : Value},
    valueAtFront levels fuel text = .ok (value, rest) → Holds value
  items : ∀ {levels : Nat} {before items : List Value} {text rest : List Char},
    (∀ item ∈ before, Holds item) → itemsAtFront levels fuel before text = .ok (items, rest) →
      ∀ item ∈ items, Holds item
  entries : ∀ {levels : Nat} {before entries : List (Value × Value)} {text rest : List Char},
    HoldsEntries before → entriesAtFront levels fuel before text = .ok (entries, rest) →
      HoldsEntries entries

section

variable {fuel levels : Nat} {text rest : List Char}

theorem Reads.value_succ (below : Reads fuel) {value : Value}
    (read : valueAtFront levels (fuel + 1) text = .ok (value, rest)) : Holds value := by
  cases text with
  | nil => cases read
  | cons character after =>
    rw [valueAtFront] at read
    split at read
    next =>
      obtain ⟨found, _, same⟩ := map_eq_ok_iff.mp read
      cases same
      exact .text _
    next =>
      split at read
      next =>
        split at read
        next => cases read
        next =>
          split at read
          next =>
            cases read
            exact .sequence fun _ member => absurd member List.not_mem_nil
          next =>
            obtain ⟨found, whole, same⟩ := map_eq_ok_iff.mp read
            cases same
            exact .sequence (below.items (fun _ member => absurd member List.not_mem_nil) whole)
      next =>
        split at read
        next =>
          split at read
          next => cases read
          next =>
            split at read
            next =>
              cases read
              exact holds_mapping_iff.mpr fun _ member => absurd member List.not_mem_nil
            next =>
              obtain ⟨found, whole, same⟩ := map_eq_ok_iff.mp read
              cases same
              exact (below.entries (fun _ member => absurd member List.not_mem_nil) whole).mappingOf
        next => exact holds_plainValue read

theorem Reads.items_succ (below : Reads fuel) {before items : List Value}
    (held : ∀ item ∈ before, Holds item)
    (read : itemsAtFront levels (fuel + 1) before text = .ok (items, rest)) :
    ∀ item ∈ items, Holds item := by
  rw [itemsAtFront] at read
  split at read
  next => cases read
  next item after first =>
    have held' : ∀ other ∈ item :: before, Holds other :=
      List.forall_mem_cons.mpr ⟨below.value first, held⟩
    split at read
    next =>
      cases read
      exact fun other member => held' other (List.mem_reverse.mp member)
    next => exact below.items held' read
    next => cases read

theorem Reads.entries_succ (below : Reads fuel) {before entries : List (Value × Value)}
    (held : HoldsEntries before)
    (read : entriesAtFront levels (fuel + 1) before text = .ok (entries, rest)) :
    HoldsEntries entries := by
  unfold entriesAtFront at read
  split at read
  next =>
    split at read
    next => cases read
    next key after _ =>
      split at read
      next =>
        split at read
        next => cases read
        next value after first =>
          have held' : HoldsEntries ((.text key, value) :: before) :=
            List.forall_mem_cons.mpr ⟨⟨⟨key, rfl⟩, below.value first⟩, held⟩
          split at read
          next =>
            cases read
            exact fun other member => held' other (List.mem_reverse.mp member)
          next => exact below.entries held' read
          next => cases read
      next => cases read
  next => cases read

end

theorem reads (fuel : Nat) : Reads fuel := by
  induction fuel with
  | zero => exact ⟨nofun, fun _ => nofun, fun _ => nofun⟩
  | succ fuel below => exact ⟨below.value_succ, below.items_succ, below.entries_succ⟩

/-- Whatever is read from a text is a value that a document can hold. -/
theorem holds_readValue {levels : Nat} {text : List Char} {value : Value}
    (read : readValue levels text = .ok value) : Holds value := by
  unfold readValue at read
  split at read
  next => cases read
  next =>
    split at read
    next => cases read
    next value rest first =>
      split at read
      next =>
        cases read
        exact (reads _).value first
      next => cases read

end Document

end HorizonPlanner
