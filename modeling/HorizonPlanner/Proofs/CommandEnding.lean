/-
This file says how a command ends that is given a problem it cannot load.  A
fault of the file or of its values is reported in one line, and the exit code is
two.  A fault of a kind is not expected there: it stops the command, and so do
the parts of a document that the reader overlooks.
-/

import HorizonPlanner.CommandLine.FileTree
import HorizonPlanner.CommandLine.Run
import HorizonPlanner.Proofs.DocumentFault

namespace HorizonPlanner.CommandLine

/-! ### Running one interaction after another -/

section

variable {β γ : Type} {transcript : Transcript}

theorem Interaction.runOn_bind (interaction : Interaction β) (continuation : β → Interaction γ) :
    (interaction >>= continuation).runOn transcript =
      (continuation (interaction.runOn transcript).1).runOn (interaction.runOn transcript).2 := by
  show (interaction.andThen continuation).runOn transcript = _
  induction interaction generalizing transcript with
  | done result => rfl
  | print text next inductionHypothesis => exact inductionHypothesis
  | complain text next inductionHypothesis => exact inductionHypothesis
  | warn record next inductionHypothesis => exact inductionHypothesis
  | read path next inductionHypothesis => exact inductionHypothesis _
  | look path next inductionHypothesis => exact inductionHypothesis _
  | write path content next inductionHypothesis =>
    rw [andThen, runOn, runOn]
    cases transcript.tree.write path content with
    | ok tree => exact inductionHypothesis _
    | error fault => exact inductionHypothesis _
  | makeFolder path next inductionHypothesis =>
    rw [andThen, runOn, runOn]
    cases transcript.tree.makeOne path with
    | ok tree => exact inductionHypothesis _
    | error fault => exact inductionHypothesis _

/-- A step that is cut short cuts short what it is the first part of. -/
theorem Step.runOn_bind_error {step : Step β} {continuation : β → Step γ} {fault : Fault}
    {after : Transcript} (ran : step.run.runOn transcript = (.error fault, after)) :
    (step >>= continuation).run.runOn transcript = (.error fault, after) := by
  show ((step.run >>= ExceptT.bindCont continuation : Interaction _).runOn transcript) = _
  rw [Interaction.runOn_bind, ran]
  rfl

theorem Step.runOn_bind_ok {step : Step β} {continuation : β → Step γ} {result : β}
    {after : Transcript} (ran : step.run.runOn transcript = (.ok result, after)) :
    (step >>= continuation).run.runOn transcript = (continuation result).run.runOn after := by
  show ((step.run >>= ExceptT.bindCont continuation : Interaction _).runOn transcript) = _
  rw [Interaction.runOn_bind, ran]
  rfl

/-- Warnings are put into the log. -/
theorem Step.runOn_warnAll (records : List String) :
    (Step.warnAll records).run.runOn transcript =
      (.ok (), { transcript with records := transcript.records ++ records }) := by
  induction records generalizing transcript with
  | nil =>
    rw [List.append_nil]
    rfl
  | cons record rest inductionHypothesis =>
    have first : (ExceptT.lift (.warn record (.done ())) : Step Unit).run.runOn transcript =
        (.ok (), { transcript with records := transcript.records ++ [record] }) := rfl
    rw [warnAll, Step.runOn_bind_ok first, inductionHypothesis, List.append_assoc,
      List.singleton_append]

end

/-! ### Loading a problem -/

/-- The problem in the file that a request names, under given settings. -/
def loaded (settings : Settings) (tree : FileTree) (request : CommonRequest) :
    Except Fault Problem := do
  Document.loadProblem documentLevels settings.bound request.path (← tree.read request.path)

section

variable {workshop : Workshop} {transcript : Transcript} {fault : Fault}

theorem runOn_loadRequested {request : CommonRequest}
    (failed : loaded workshop.settings transcript.tree request = .error fault) :
    (loadRequested workshop request).run.runOn transcript = (.error fault, transcript) := by
  rw [loadRequested]
  rcases bind_eq_error_iff.mp failed with missing | ⟨bytes, found, refused⟩
  · refine Step.runOn_bind_error ?_
    show (transcript.tree.read request.path, transcript) = _
    rw [missing]
  · have read : (Step.read request.path).run.runOn transcript = (.ok bytes, transcript) := by
      show (transcript.tree.read request.path, transcript) = _
      rw [found]
    rw [Step.runOn_bind_ok read]
    refine Step.runOn_bind_error ?_
    rw [refused]
    rfl

/-- Both commands load the problem first. -/
theorem Request.runOn_run {request : Request}
    (failed : loaded workshop.settings transcript.tree request.common = .error fault) :
    (request.run workshop).run.runOn transcript = (.error fault, transcript) := by
  rw [run]
  cases request.command with
  | solve dimacs validate => exact Step.runOn_bind_error (runOn_loadRequested failed)
  | sizes folder => exact Step.runOn_bind_error (runOn_loadRequested failed)

end

/-! ### The ending -/

/-- A command that cannot load its problem prints nothing.  It complains and ends with code two if
the fault is one to report, and is stopped by it otherwise. -/
theorem runOn_run_of_unloaded {environment : Environment} {words : List String} {request : Request}
    {transcript : Transcript} {fault : Fault} (clock : Clock) (backend : Cnf.Backend)
    (plotter : Plotter)
    (asked : Request.read (Settings.read environment).1 words = .ok request)
    (failed : loaded (Settings.read environment).1 transcript.tree request.common = .error fault) :
    (run environment clock backend plotter words).runOn transcript =
      (if isReported fault then .code 2 else .stopped fault,
        { transcript with
          records := transcript.records ++
            (Settings.read environment).2.map SettingWarning.record
          complained := transcript.complained ++
            if isReported fault then s!"error: {fault.message}\n" else "" }) := by
  unfold run
  rcases reading : Settings.read environment with ⟨settings, warnings⟩
  rw [reading] at asked failed
  dsimp only at asked failed ⊢
  let warned : Transcript :=
    { transcript with records := transcript.records ++ warnings.map SettingWarning.record }
  have stopped : (request.run ⟨settings, clock, backend, plotter⟩).run.runOn warned =
      (.error fault, warned) := Request.runOn_run failed
  rw [Interaction.runOn_bind, Step.runOn_warnAll, asked]
  dsimp only
  rw [Interaction.runOn_bind, stopped]
  dsimp only
  by_cases reported : isReported fault = true
  · simp only [if_pos reported]
    rfl
  · simp only [if_neg reported, String.append_empty]
    rfl

/-! ### What is reported -/

section

variable {fault : Fault}

theorem isReported_of_value (family : fault.family = .value) : isReported fault = true := by
  rw [isReported, family]

/-- Whatever keeps a file from being read is reported. -/
theorem isReported_read {tree : FileTree} {path : String}
    (failed : tree.read path = .error fault) : isReported fault = true := by
  rw [FileTree.read] at failed
  split at failed
  next other missing =>
    cases failed
    rw [FileTree.locate] at missing
    split at missing
    next => cases missing; rfl
    next =>
      split at missing
      next => cases missing; rfl
      next =>
        split at missing
        next => cases missing; rfl
        next =>
          obtain ⟨cause, _, rfl⟩ := mapError_eq_error_iff.mp missing
          rfl
  next => cases failed; rfl
  next => cases failed; rfl
  next => cases failed; rfl
  next =>
    split at failed
    next => cases failed
    next => cases failed; rfl

theorem isReported_decodeFrom {fuel position : Nat} {decoded : List Char} {bytes : List Nat}
    (failed : Document.decodeFrom position decoded fuel bytes = .error fault) :
    isReported fault = true := by
  induction fuel generalizing position decoded bytes with
  | zero => cases bytes <;> cases failed
  | succ fuel inductionHypothesis =>
    cases bytes with
    | nil => cases failed
    | cons byte rest =>
      rw [Document.decodeFrom] at failed
      split at failed
      next => exact inductionHypothesis failed
      next =>
        split at failed
        next => cases failed; rfl
        next =>
          split at failed
          next => exact inductionHypothesis failed
          next => cases failed; rfl

/-- Bytes that are no document are reported, unless parts of them are nested too deeply. -/
theorem isReported_readBytes {levels : Nat} {path : String} {bytes : List Nat}
    (failed : Document.readBytes levels path bytes = .error fault) :
    isReported fault = true ∨ ∃ part, fault = .nestedTooDeep part := by
  rcases bind_eq_error_iff.mp failed with undecodable | ⟨text, _, later⟩
  · exact .inl (isReported_decodeFrom undecodable)
  · obtain ⟨cause, _, rfl⟩ := mapError_eq_error_iff.mp later
    cases cause with
    | misplaced cause remaining => exact .inl rfl
    | tooLong digits => exact .inl rfl
    | tooDeep part => exact .inr ⟨part, rfl⟩

theorem holds_bound (environment : Environment) :
    Document.Holds (Settings.read environment).1.bound := by
  show Document.Holds (readNumber "CSP_PLANNER_MAX_STEPS" _ .whole Settings.defaultBound).1
  unfold readNumber
  split
  next => exact .integer _
  next =>
    split
    next => exact .integer _
    next =>
      split
      next number found =>
        obtain ⟨whole, _, rfl⟩ := Option.map_eq_some_iff.mp found
        exact .integer whole
      next => exact .integer _

end

/-! ### Problems that cannot be loaded -/

section

variable {environment : Environment} {words : List String} {request : Request}
  {transcript : Transcript} {fault : Fault}

/-- A command whose problem cannot be loaded reports the fault in one line and ends with code two,
unless parts of the document are nested too deeply or the reader overlooks something in it. -/
theorem runOn_run_of_refused (clock : Clock) (backend : Cnf.Backend) (plotter : Plotter)
    (asked : Request.read (Settings.read environment).1 words = .ok request)
    (failed : loaded (Settings.read environment).1 transcript.tree request.common = .error fault) :
    ((∃ ended, (run environment clock backend plotter words).runOn transcript = (.code 2, ended) ∧
        ended.printed = transcript.printed ∧
        ended.complained = transcript.complained ++ s!"error: {fault.message}\n") ∨
      (∃ part, fault = .nestedTooDeep part) ∨
      ∃ bytes entries, transcript.tree.read request.common.path = .ok bytes ∧
        Document.readBytes documentLevels request.common.path bytes = .ok (.mapping entries) ∧
        Document.Overlooks entries fault) := by
  have ends := runOn_run_of_unloaded clock backend plotter asked failed
  by_cases reported : isReported fault = true
  · refine .inl ⟨_, ends.trans (Prod.ext (if_pos reported) rfl), rfl, ?_⟩
    exact congrArg (transcript.complained ++ ·) (if_pos reported)
  · refine .inr ?_
    rcases bind_eq_error_iff.mp failed with missing | ⟨bytes, found, refused⟩
    · exact absurd (isReported_read missing) reported
    · rcases bind_eq_error_iff.mp refused with unreadable | ⟨document, read, later⟩
      · exact .inl ((isReported_readBytes unreadable).resolve_left reported)
      · obtain ⟨text, _, whole⟩ := bind_eq_ok_iff.mp read
        have held := Document.holds_readValue (mapError_eq_ok_iff.mp whole)
        rcases Document.readProblem_eq_error held (holds_bound environment) later with
          family | ⟨entries, rfl, overlooks⟩
        · exact absurd (isReported_of_value family) reported
        · exact .inr ⟨bytes, entries, found, read, overlooks⟩

/-- A command is stopped by a document that declares its variables and states actions that cannot
be walked through. -/
theorem runOn_run_of_closed (clock : Clock) (backend : Cnf.Backend) (plotter : Plotter)
    (asked : Request.read (Settings.read environment).1 words = .ok request) {bytes : List Nat}
    (found : transcript.tree.read request.common.path = .ok bytes)
    {entries rest : List (Value × Value)} {first : Value × Value} {stated : Value}
    {subjects : List StateVariable}
    (read : Document.readBytes documentLevels request.common.path bytes = .ok (.mapping entries))
    (listed : Document.field? entries "variables" = some (.mapping (first :: rest)))
    (declared : Document.readVariables (first :: rest) = .ok subjects)
    (actions : Document.field? entries "actions" = some stated) (closed : stated.items? = none) :
    ((run environment clock backend plotter words).runOn transcript).1 =
      .stopped (.notIterable stated.kind) := by
  have failed : loaded (Settings.read environment).1 transcript.tree request.common =
      .error (.notIterable stated.kind) := by
    rw [loaded, found, ok_bind, Document.loadProblem, read, ok_bind]
    exact Document.readProblem_of_closed listed declared actions closed
  rw [runOn_run_of_unloaded clock backend plotter asked failed]
  rfl

end

end HorizonPlanner.CommandLine
