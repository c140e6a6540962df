import RadiusDictionary.Proofs.Reading.Ends

/-! # What becomes of inclusions

An `Attempt` is an inclusion that a reading comes to, together with its `Fate`. The attempts of every
part of a reading are listed in the order in which the log tells of them. A strict reading of lines
goes on to the end exactly if no attempt on the way fails (`recounts_interpretLines`,
`exists_failed_interpretLines`), and an outcome that says so is said to recount its attempts.

Loading a dictionary strictly reads two files, the root file and at the end the extension file.
`strict_load` says what a failing attempt in each of them leads to. -/

namespace RadiusDictionary

/-- What becomes of an inclusion. -/
inductive Fate where
  /-- The file is being read already. -/
  | recursive
  /-- The file may be missing, and it is. -/
  | absent
  /-- The file is read to its end. -/
  | whole
  /-- The file cannot be read, or its reading is broken off. -/
  | failed (cause : LoadError)
deriving DecidableEq, Repr

/-- The fate of an inclusion whose file is read, by why the reading was broken off. -/
def Fate.ofFailure : Option LoadError → Fate
  | none => .whole
  | some cause => .failed cause

/-- An inclusion that a reading comes to. -/
structure Attempt where
  origin : Origin
  file : String
  isOptional : Bool
  fate : Fate
deriving DecidableEq, Repr

namespace Attempt

/-- Whether the attempt fails. -/
def Failed (a : Attempt) : Prop := ∃ cause, a.fate = .failed cause

/-- What the log tells of the attempt. -/
def event (a : Attempt) : ReadingEvent :=
  match a.fate with
  | .recursive => .inclusionRecursive a.origin a.file
  | .absent => .inclusionAbsent a.origin a.file
  | .whole => .including a.file
  | .failed _ => .including a.file

theorem event_ofFailure (origin : Origin) (file : String) (isOptional : Bool)
    (failure : Option LoadError) :
    event ⟨origin, file, isOptional, .ofFailure failure⟩ = .including file := by
  cases failure <;> rfl

end Attempt

/-- Whether the event tells of an attempt. -/
def ReadingEvent.tellsAttempt : ReadingEvent → Bool
  | inclusionRecursive _ _ => true
  | inclusionAbsent _ _ => true
  | including _ => true
  | _ => false

/-- The events of the outcome tell of these attempts, and none of them failed if the outcome did not.
-/
structure Outcome.Recounts (o : Outcome) (attempts : List Attempt) : Prop where
  events : o.events.filter ReadingEvent.tellsAttempt = attempts.map Attempt.event
  whole : o.failure = none → ∀ a ∈ attempts, ¬ a.Failed

namespace Outcome.Recounts

variable {o : Outcome} {attempts attempts' : List Attempt}

theorem after (h : o.Recounts attempts) {events : List ReadingEvent}
    (hevents : events.filter ReadingEvent.tellsAttempt = []) : (o.after events).Recounts attempts :=
  ⟨by rw [Outcome.after, List.filter_append, hevents, List.nil_append, h.events], h.whole⟩

theorem andThen (h : o.Recounts attempts) {next : Session → Outcome}
    (hnext : (next o.session).Recounts attempts') :
    (o.andThen next).Recounts (attempts ++ if o.failure.isNone then attempts' else []) := by
  cases hfailure : o.failure with
  | some e =>
    have hboth : o.andThen next = o := by rw [Outcome.andThen, hfailure]
    rw [hboth, Option.isNone_some, if_neg Bool.false_ne_true, List.append_nil]
    exact h
  | none =>
    have hboth : o.andThen next = (next o.session).after o.events := by
      rw [Outcome.andThen, hfailure]
    rw [hboth, Option.isNone_none, if_pos rfl]
    refine ⟨?_, fun hwhole => List.forall_mem_append.mpr ⟨h.whole hfailure, hnext.whole hwhole⟩⟩
    rw [Outcome.after, List.filter_append, h.events, hnext.events, List.map_append]

end Outcome.Recounts

/-! ### Statements -/

namespace Session

variable (s : Session) (origin : Origin)

theorem tellsAttempt_beginScope (kind : ScopeKind) (name : String) :
    (s.beginScope origin kind name).2.filter ReadingEvent.tellsAttempt = [] := by
  rw [beginScope]
  cases s.openScope kind with
  | none => rfl
  | some opened => rfl

theorem tellsAttempt_endScope (kind : ScopeKind) (name : Option String) :
    (s.endScope origin kind name).2.filter ReadingEvent.tellsAttempt = [] := by
  unfold endScope
  dsimp only
  split
  · rfl
  · rfl
  · split_ifs
    · rfl
    · rfl

theorem tellsAttempt_undeclaredEvents (line : AttributeLine) :
    (s.undeclaredEvents origin line).filter ReadingEvent.tellsAttempt = [] := by
  rw [undeclaredEvents]
  cases s.undeclaredVendor? line.trailing with
  | none => rfl
  | some vendor => rfl

/-- A statement tells of no attempt. -/
theorem tellsAttempt_apply (statement : Statement) :
    (s.apply origin statement).2.filter ReadingEvent.tellsAttempt = [] := by
  cases statement with
  | beginTlv name => exact s.tellsAttempt_beginScope origin .tlv name
  | endTlv name => exact s.tellsAttempt_endScope origin .tlv name
  | beginVendor name => exact s.tellsAttempt_beginScope origin .vendor name
  | endVendor name => exact s.tellsAttempt_endScope origin .vendor name
  | declareVendor line =>
    simp only [apply, declareVendor]
    cases Numeral.unsigned? line.number with
    | none => rfl
    | some number =>
      dsimp only
      split_ifs
      · rfl
      · rfl
  | declareAttribute line =>
    simp only [apply, declareAttribute]
    cases s.check line with
    | ok d =>
      simp only [List.filter_append, tellsAttempt_undeclaredEvents]
      rfl
    | error why =>
      cases why with
      | noParent parent =>
        simp only [List.filter_append, tellsAttempt_undeclaredEvents]
        rfl
      | badNumber => rfl
      | alreadyDefined => rfl
      | childNumber number => rfl
  | declareValue line =>
    simp only [apply, declareValue]
    cases Numeral.signed? line.number with
    | none => rfl
    | some number =>
      cases s.valueHome? line.attributeName with
      | none => rfl
      | some vendor => rfl

end Session

namespace Dictionary

variable (dict : Dictionary)

/-! ### Lines -/

section Lines

variable (nested : String → Session → Outcome) (nestedAttempts : String → Session → List Attempt)

/-- The attempts of an inclusion: itself, and those of the included file. -/
def inclusionAttempts (origin : Origin) (file : String) (isOptional : Bool) (s : Session) :
    List Attempt :=
  if s.openFiles.any (dict.pathOf file).same then [⟨origin, file, isOptional, .recursive⟩]
  else if isOptional && !dict.disk.holds (dict.pathOf file) then
    [⟨origin, file, isOptional, .absent⟩]
  else ⟨origin, file, isOptional, .ofFailure (nested file s).failure⟩ :: nestedAttempts file s

/-- The attempts of a line. -/
def lineAttempts (origin : Origin) : Line → Session → List Attempt
  | .directive (.inclusion file isOptional), s =>
    dict.inclusionAttempts nested nestedAttempts origin file isOptional s
  | .directive (.statement _), _ => []
  | .blank, _ => []
  | .malformed, _ => []

/-- The attempts of lines. After a failure there are none. -/
def linesAttempts (file : String) : Nat → List String → Session → List Attempt
  | _, [], _ => []
  | number, line :: rest, s =>
    let read := dict.interpretLine nested ⟨file, number⟩ (.read line) s
    dict.lineAttempts nested nestedAttempts ⟨file, number⟩ (.read line) s ++
      if read.failure.isNone then linesAttempts file (number + 1) rest read.session else []

variable {nested nestedAttempts}

/-! A failure is that of an attempt. -/

theorem exists_failed_interpretInclusion {origin : Origin} {file : String} {isOptional : Bool}
    {s : Session} {e : LoadError}
    (h : (dict.interpretInclusion nested origin file isOptional s).failure = some e) :
    ∃ a ∈ dict.inclusionAttempts nested nestedAttempts origin file isOptional s,
      ∃ cause, a.fate = .failed cause ∧ e = .inclusion a.file cause := by
  simp only [interpretInclusion, inclusionAttempts, Outcome.after] at h ⊢
  by_cases hopen : s.openFiles.any (dict.pathOf file).same = true
  · simp only [if_pos hopen, reduceCtorEq] at h
  by_cases habsent : (isOptional && !dict.disk.holds (dict.pathOf file)) = true
  · simp only [if_neg hopen, if_pos habsent, reduceCtorEq] at h
  simp only [if_neg hopen, if_neg habsent] at h ⊢
  cases hread : (nested file s).failure with
  | none =>
    by_cases hfile : file = extensionFile
    · simp only [hread, if_pos hfile, reduceCtorEq] at h
    · simp only [hread, if_neg hfile, reduceCtorEq] at h
  | some cause =>
    by_cases hstrict : dict.options.strictIncludes = true
    · simp only [hread, if_pos hstrict, Option.some.injEq] at h
      exact ⟨_, List.mem_cons_self, cause, rfl, h.symm⟩
    · simp only [hread, if_neg hstrict, reduceCtorEq] at h

theorem exists_failed_interpretLine {origin : Origin} {line : Line} {s : Session} {e : LoadError}
    (h : (dict.interpretLine nested origin line s).failure = some e) :
    ∃ a ∈ dict.lineAttempts nested nestedAttempts origin line s,
      ∃ cause, a.fate = .failed cause ∧ e = .inclusion a.file cause := by
  cases line with
  | blank => cases h
  | malformed => cases h
  | directive d =>
    cases d with
    | statement statement => cases h
    | inclusion file isOptional => exact exists_failed_interpretInclusion dict h

/-- **Lines are broken off by an attempt that fails.** -/
theorem exists_failed_interpretLines (file : String) : ∀ {number : Nat} {lines : List String}
    {s : Session} {e : LoadError},
    (dict.interpretLines nested file number lines s).failure = some e →
    ∃ a ∈ dict.linesAttempts nested nestedAttempts file number lines s,
      ∃ cause, a.fate = .failed cause ∧ e = .inclusion a.file cause
  | _, [], _, _, h => by cases h
  | number, line :: rest, s, e, h => by
    simp only [interpretLines, Outcome.andThen] at h
    simp only [linesAttempts, List.mem_append]
    cases hline : (dict.interpretLine nested ⟨file, number⟩ (.read line) s).failure with
    | some e' =>
      simp only [hline] at h
      obtain ⟨a, ha, hfailed⟩ := exists_failed_interpretLine dict (hline.trans h)
      exact ⟨a, Or.inl ha, hfailed⟩
    | none =>
      simp only [hline] at h
      obtain ⟨a, ha, hfailed⟩ := exists_failed_interpretLines file h
      exact ⟨a, Or.inr ha, hfailed⟩

/-! Strict readings recount their attempts. -/

variable (hstrict : dict.options.strictIncludes = true)
variable (hnested : ∀ file s, (nested file s).Recounts (nestedAttempts file s))
include hstrict hnested

theorem recounts_interpretInclusion (origin : Origin) (file : String) (isOptional : Bool)
    (s : Session) : (dict.interpretInclusion nested origin file isOptional s).Recounts
      (dict.inclusionAttempts nested nestedAttempts origin file isOptional s) := by
  simp only [interpretInclusion, inclusionAttempts, Outcome.after]
  by_cases hopen : s.openFiles.any (dict.pathOf file).same = true
  · simp only [if_pos hopen]
    refine ⟨rfl, fun _ => List.forall_mem_singleton.mpr ?_⟩
    rintro ⟨cause, hfate⟩
    cases hfate
  by_cases habsent : (isOptional && !dict.disk.holds (dict.pathOf file)) = true
  · simp only [if_neg hopen, if_pos habsent]
    refine ⟨rfl, fun _ => List.forall_mem_singleton.mpr ?_⟩
    rintro ⟨cause, hfate⟩
    cases hfate
  simp only [if_neg hopen, if_neg habsent, if_pos hstrict]
  have hevents : (ReadingEvent.including file :: (nested file s).events).filter
      ReadingEvent.tellsAttempt = List.map Attempt.event
        (⟨origin, file, isOptional, .ofFailure (nested file s).failure⟩ :: nestedAttempts file s) := by
    rw [List.filter_cons_of_pos rfl, (hnested file s).events, List.map_cons,
      Attempt.event_ofFailure]
  cases hread : (nested file s).failure with
  | none =>
    have hwhole : ∀ a ∈ Attempt.mk origin file isOptional .whole :: nestedAttempts file s,
        ¬ a.Failed := by
      refine List.forall_mem_cons.mpr ⟨?_, (hnested file s).whole hread⟩
      rintro ⟨cause, hfate⟩
      cases hfate
    rw [hread] at hevents
    by_cases hfile : file = extensionFile
    · simp only [if_pos hfile]
      exact ⟨hevents, fun _ => hwhole⟩
    · simp only [if_neg hfile]
      exact ⟨hevents, fun _ => hwhole⟩
  | some cause =>
    rw [hread] at hevents
    refine ⟨hevents, fun hnone => ?_⟩
    cases hnone

theorem recounts_interpretLine (origin : Origin) (line : Line) (s : Session) :
    (dict.interpretLine nested origin line s).Recounts
      (dict.lineAttempts nested nestedAttempts origin line s) := by
  have hnothing : ∀ a ∈ ([] : List Attempt), ¬ a.Failed := fun _ ha => nomatch ha
  cases line with
  | blank => exact ⟨rfl, fun _ => hnothing⟩
  | malformed => exact ⟨rfl, fun _ => hnothing⟩
  | directive d =>
    cases d with
    | statement statement => exact ⟨s.tellsAttempt_apply origin statement, fun _ => hnothing⟩
    | inclusion file isOptional =>
      exact (recounts_interpretInclusion dict hstrict hnested origin file isOptional s).after rfl

/-- **Lines recount their attempts** if the files that they include do. -/
theorem recounts_interpretLines (file : String) : ∀ (number : Nat) (lines : List String)
    (s : Session), (dict.interpretLines nested file number lines s).Recounts
      (dict.linesAttempts nested nestedAttempts file number lines s)
  | _, [], _ => ⟨rfl, fun _ _ ha => nomatch ha⟩
  | number, line :: rest, s =>
    (recounts_interpretLine dict hstrict hnested ⟨file, number⟩ (.read line) s).andThen
      (recounts_interpretLines file (number + 1) rest _)

end Lines

/-! ### Files -/

/-- The attempts of a file in which inclusions may go down to `depth`. -/
def fileAttemptsTo : (depth : Nat) → (file : String) → Session → List Attempt
  | 0, _, _ => []
  | depth + 1, file, s =>
    match dict.disk.readText (dict.pathOf file) with
    | .error _ => []
    | .ok text => dict.linesAttempts (dict.interpretFileTo depth) (fileAttemptsTo depth) file 1
        (Text.lines text) (s.move (.openFile (dict.pathOf file)))

/-- The attempts of a file. -/
def fileAttempts (file : String) (s : Session) : List Attempt :=
  dict.fileAttemptsTo (dict.depthFrom "") file s

/-- The attempts of the built-in declarations. -/
def builtinAttempts (s : Session) : List Attempt :=
  dict.linesAttempts (dict.interpretFileTo (dict.depthFrom builtinExtension))
    (dict.fileAttemptsTo (dict.depthFrom builtinExtension)) "<built-in>" 1
    (Text.lines builtinExtension) s

/-- The attempts at the end of a reading. -/
def finishAttempts (s : Session) : List Attempt :=
  if dict.options.mergeExtension && !s.hasExtension then
    let read := dict.interpretFile extensionFile s
    dict.fileAttempts extensionFile s ++
      match read.failure with
      | none => []
      | some _ => dict.builtinAttempts read.session
  else []

/-- The attempts of loading the dictionary. -/
def loadAttempts : List Attempt :=
  let read := dict.interpretFile rootFile .start
  dict.fileAttempts rootFile .start ++
    if read.failure.isNone then dict.finishAttempts read.session else []

variable {dict} {file : String} {s : Session}

theorem fileAttemptsTo_of_ok {depth : Nat} {text : String}
    (h : dict.disk.readText (dict.pathOf file) = .ok text) :
    dict.fileAttemptsTo (depth + 1) file s = dict.linesAttempts (dict.interpretFileTo depth)
      (dict.fileAttemptsTo depth) file 1 (Text.lines text)
      (s.move (.openFile (dict.pathOf file))) := by
  unfold fileAttemptsTo
  simp only [h]

theorem fileAttemptsTo_of_error {depth : Nat} {e : FileError}
    (h : dict.disk.readText (dict.pathOf file) = .error e) :
    dict.fileAttemptsTo (depth + 1) file s = [] := by
  unfold fileAttemptsTo
  simp only [h]

/-- A file that cannot be read has no attempts. -/
theorem interpretFile_of_error {e : FileError}
    (h : dict.disk.readText (dict.pathOf file) = .error e) (s : Session) :
    dict.interpretFile file s = ⟨s, [], some (.file e)⟩ ∧ dict.fileAttempts file s = [] :=
  ⟨interpretFileTo_of_error h, fileAttemptsTo_of_error h⟩

/-- **A file that can be read is broken off by an attempt that fails.** -/
theorem exists_failed_interpretFile {text : String} {e : LoadError}
    (htext : dict.disk.readText (dict.pathOf file) = .ok text)
    (h : (dict.interpretFile file s).failure = some e) :
    ∃ a ∈ dict.fileAttempts file s, ∃ cause, a.fate = .failed cause ∧ e = .inclusion a.file cause := by
  rw [interpretFile, depthFrom, interpretFileTo_of_ok htext] at h
  rw [fileAttempts, depthFrom, fileAttemptsTo_of_ok htext]
  exact exists_failed_interpretLines dict file h

/-- **Files recount their attempts.** -/
theorem recounts_interpretFileTo (hstrict : dict.options.strictIncludes = true) :
    ∀ (depth : Nat) (file : String) (s : Session),
      (dict.interpretFileTo depth file s).Recounts (dict.fileAttemptsTo depth file s)
  | 0, _, _ => ⟨rfl, fun hnone => nomatch hnone⟩
  | depth + 1, file, s => by
    cases htext : dict.disk.readText (dict.pathOf file) with
    | error e =>
      rw [interpretFileTo_of_error htext, fileAttemptsTo_of_error htext]
      exact ⟨rfl, fun hnone => nomatch hnone⟩
    | ok text =>
      have hlines := recounts_interpretLines dict hstrict (recounts_interpretFileTo hstrict depth)
        file 1 (Text.lines text) (s.move (.openFile (dict.pathOf file)))
      rw [interpretFileTo_of_ok htext, fileAttemptsTo_of_ok htext]
      exact ⟨hlines.events, hlines.whole⟩

theorem recounts_interpretFile (hstrict : dict.options.strictIncludes = true) (file : String)
    (s : Session) : (dict.interpretFile file s).Recounts (dict.fileAttempts file s) :=
  recounts_interpretFileTo hstrict _ file s

/-! ### The whole dictionary -/

theorem linesAttempts_of_statements {nested : String → Session → Outcome}
    {nestedAttempts : String → Session → List Attempt} (file : String) :
    ∀ (number : Nat) {lines : List String} (s : Session),
    (∀ line ∈ lines, (Line.read line).isInclusion = false) →
    dict.linesAttempts nested nestedAttempts file number lines s = []
  | _, [], _, _ => rfl
  | number, line :: rest, s, h => by
    obtain ⟨hline, hrest⟩ := List.forall_mem_cons.mp h
    have hnone : dict.lineAttempts nested nestedAttempts ⟨file, number⟩ (.read line) s = [] := by
      cases hread : Line.read line with
      | blank => rfl
      | malformed => rfl
      | directive d =>
        cases d with
        | inclusion inner isOptional => rw [hread] at hline; cases hline
        | statement statement => rfl
    simp only [linesAttempts, hnone, List.nil_append,
      linesAttempts_of_statements file (number + 1) _ hrest, ite_self]

/-- The built-in declarations include nothing. -/
theorem builtinAttempts_eq (s : Session) : dict.builtinAttempts s = [] := by
  refine linesAttempts_of_statements "<built-in>" 1 s fun line hline => ?_
  obtain ⟨statement, hread⟩ := exists_statement_of_mem hline
  rw [hread]
  rfl

theorem finishAttempts_of_unwanted
    (hwanted : (dict.options.mergeExtension && !s.hasExtension) = false) :
    dict.finishAttempts s = [] := by
  simp only [finishAttempts, hwanted, Bool.false_eq_true, if_false]

theorem finishAttempts_of_wanted
    (hwanted : (dict.options.mergeExtension && !s.hasExtension) = true) :
    dict.finishAttempts s = dict.fileAttempts extensionFile s := by
  simp only [finishAttempts, hwanted, if_true, builtinAttempts_eq]
  split
  · exact List.append_nil _
  · exact List.append_nil _

section Strict

variable (hstrict : dict.options.strictIncludes = true)
include hstrict

/-- **A file is read to its end exactly if it can be read and no attempt fails.** -/
theorem failure_interpretFile_eq_none_iff (file : String) (s : Session) :
    (dict.interpretFile file s).failure = none ↔
      (∃ text, dict.disk.readText (dict.pathOf file) = .ok text) ∧
        ∀ a ∈ dict.fileAttempts file s, ¬ a.Failed := by
  cases htext : dict.disk.readText (dict.pathOf file) with
  | error e =>
    rw [(interpretFile_of_error htext s).1]
    simp
  | ok text =>
    refine ⟨fun h => ⟨⟨text, rfl⟩, (recounts_interpretFile hstrict file s).whole h⟩, fun h => ?_⟩
    rw [Option.eq_none_iff_forall_ne_some]
    intro e he
    obtain ⟨a, ha, cause, hfate, -⟩ := exists_failed_interpretFile htext he
    exact h.2 a ha ⟨cause, hfate⟩

theorem tellsAttempt_interpretBuiltin (s : Session) :
    (dict.interpretBuiltin s).events.filter ReadingEvent.tellsAttempt = [] := by
  have hlines := recounts_interpretLines dict hstrict
    (recounts_interpretFileTo hstrict (dict.depthFrom builtinExtension)) "<built-in>" 1
    (Text.lines builtinExtension) s
  have hnone : dict.builtinAttempts s = [] := builtinAttempts_eq s
  rw [builtinAttempts] at hnone
  rw [hnone] at hlines
  exact hlines.events

theorem tellsAttempt_finish (s : Session) : (dict.finish s).2.filter ReadingEvent.tellsAttempt =
    (dict.finishAttempts s).map Attempt.event := by
  have hfile := (recounts_interpretFile hstrict extensionFile s).events
  cases hwanted : dict.options.mergeExtension && !s.hasExtension with
  | false => rw [finish_of_unwanted hwanted, finishAttempts_of_unwanted hwanted]; rfl
  | true =>
    rw [finishAttempts_of_wanted hwanted, ← hfile]
    obtain ⟨read, hread⟩ : ∃ o, dict.interpretFile extensionFile s = o := ⟨_, rfl⟩
    cases hfailure : read.failure with
    | none => rw [finish_of_read hwanted hread hfailure, hread]
    | some cause =>
      have hnone := tellsAttempt_interpretBuiltin hstrict read.session
      obtain ⟨builtin, hbuiltin⟩ : ∃ o, dict.interpretBuiltin read.session = o := ⟨_, rfl⟩
      rw [hbuiltin] at hnone
      rw [finish_of_unread hwanted hread hfailure hbuiltin, hread, List.filter_append, hnone,
        List.filter_append, List.append_nil]
      exact List.append_nil _

/-- **At the end of a reading an attempt fails exactly if the extension file is there and is broken
off.** -/
theorem exists_failed_finish_iff (s : Session) : (∃ a ∈ dict.finishAttempts s, a.Failed) ↔
    dict.options.mergeExtension = true ∧ s.hasExtension = false ∧
      ∃ file cause, (dict.interpretFile extensionFile s).failure = some (.inclusion file cause) := by
  have hiff : (dict.options.mergeExtension = true ∧ s.hasExtension = false) ↔
      (dict.options.mergeExtension && !s.hasExtension) = true := by
    rw [Bool.and_eq_true, Bool.not_eq_true']
  rw [← and_assoc, hiff]
  cases hwanted : dict.options.mergeExtension && !s.hasExtension with
  | false => simp [finishAttempts_of_unwanted hwanted]
  | true =>
    rw [finishAttempts_of_wanted hwanted]
    cases htext : dict.disk.readText (dict.pathOf extensionFile) with
    | error e =>
      obtain ⟨hread, hnone⟩ := interpretFile_of_error htext s
      simp [hread, hnone]
    | ok text =>
      have hwhole := (recounts_interpretFile hstrict extensionFile s).whole
      constructor
      · rintro ⟨a, ha, hfailed⟩
        cases hfailure : (dict.interpretFile extensionFile s).failure with
        | none => exact absurd hfailed (hwhole hfailure a ha)
        | some e =>
          obtain ⟨a', -, cause, -, rfl⟩ := exists_failed_interpretFile htext hfailure
          exact ⟨rfl, a'.file, cause, rfl⟩
      · rintro ⟨-, file, cause, hfailure⟩
        obtain ⟨a, ha, cause', hfate, -⟩ := exists_failed_interpretFile htext hfailure
        exact ⟨a, ha, cause', hfate⟩

end Strict

theorem load_of_broken {e : LoadError} (h : (dict.interpretFile rootFile .start).failure = some e) :
    dict.load = (.error e, (dict.interpretFile rootFile .start).events) ∧
      dict.loadAttempts = dict.fileAttempts rootFile .start := by
  rw [load_of_read rfl]
  simp only [Outcome.andThen, Outcome.result, loadAttempts, h, Option.isNone_some,
    Bool.false_eq_true, if_false, List.append_nil, and_self]

theorem load_of_whole (h : (dict.interpretFile rootFile .start).failure = none) :
    let root := dict.interpretFile rootFile .start
    dict.load = (.ok (dict.finish root.session).1.registry,
        root.events ++ (dict.finish root.session).2) ∧
      dict.loadAttempts = dict.fileAttempts rootFile .start ++ dict.finishAttempts root.session := by
  rw [load_of_read rfl]
  simp only [Outcome.andThen, Outcome.after, Outcome.result, loadAttempts, h, Option.isNone_none,
    if_true, and_self]

/-- **What failing inclusions do to strict loading.** The log tells of every inclusion that is come
to. Loading gives a registry exactly if the root file can be read and no inclusion in it, or in the
files included there, fails. If it gives one, an inclusion has failed all the same exactly if the
extension file is read at the end and an inclusion breaks it off. -/
theorem strict_load (dict : Dictionary) (hstrict : dict.options.strictIncludes = true) :
    let root := dict.interpretFile rootFile .start
    dict.load.2.filter ReadingEvent.tellsAttempt = dict.loadAttempts.map Attempt.event ∧
    ((∃ registry, dict.load.1 = .ok registry) ↔
      (∃ text, dict.disk.readText (dict.pathOf rootFile) = .ok text) ∧
        ∀ a ∈ dict.fileAttempts rootFile .start, ¬ a.Failed) ∧
    ∀ registry, dict.load.1 = .ok registry →
      ((∃ a ∈ dict.loadAttempts, a.Failed) ↔
        dict.options.mergeExtension = true ∧ root.session.hasExtension = false ∧
          ∃ file cause, (dict.interpretFile extensionFile root.session).failure =
            some (.inclusion file cause)) := by
  intro root
  have hroot : root.Recounts (dict.fileAttempts rootFile .start) :=
    recounts_interpretFile hstrict rootFile .start
  rw [← failure_interpretFile_eq_none_iff hstrict]
  cases hfailure : root.failure with
  | some e =>
    obtain ⟨hload, hattempts⟩ := load_of_broken hfailure
    rw [hload, hattempts]
    refine ⟨hroot.events, ⟨?_, fun h => nomatch h⟩, fun _ h => nomatch h⟩
    rintro ⟨registry, h⟩
    cases h
  | none =>
    obtain ⟨hload, hattempts⟩ := load_of_whole hfailure
    rw [hload, hattempts]
    refine ⟨?_, ⟨fun _ => rfl, fun _ => ⟨_, rfl⟩⟩, fun registry _ => ?_⟩
    · rw [List.filter_append, hroot.events, tellsAttempt_finish hstrict, List.map_append]
    rw [← exists_failed_finish_iff hstrict]
    constructor
    · rintro ⟨a, ha, hfailed⟩
      rcases List.mem_append.mp ha with ha | ha
      · exact absurd hfailed (hroot.whole hfailure a ha)
      · exact ⟨a, ha, hfailed⟩
    · rintro ⟨a, ha, hfailed⟩
      exact ⟨a, List.mem_append_right _ ha, hfailed⟩

/-- A dictionary whose extension file includes a file that is not there. -/
def brokenExtension : Dictionary where
  disk := (Disk.empty.put ["dictionary"] (.file (.text ""))).put ["dictionary.jradius"]
    (.file (.text "$INCLUDE missing\n"))
  root := .ofText "."
  options := ⟨true, true⟩

/-- It is loaded, although an inclusion fails and failing inclusions are to break off the reading. -/
theorem strict_load_of_brokenExtension :
    brokenExtension.options.strictIncludes = true ∧
    (∃ registry, brokenExtension.load.1 = .ok registry) ∧
    ∃ a ∈ brokenExtension.loadAttempts, a.Failed := by
  have hstrict : brokenExtension.options.strictIncludes = true := rfl
  obtain ⟨-, hload, hfailed⟩ := strict_load brokenExtension hstrict
  have hnone : brokenExtension.fileAttempts rootFile .start = [] := by decide +kernel
  obtain ⟨registry, hregistry⟩ : ∃ registry, brokenExtension.load.1 = .ok registry :=
    hload.mpr ⟨⟨"", rfl⟩, by rw [hnone]; exact fun _ ha => nomatch ha⟩
  refine ⟨hstrict, ⟨registry, hregistry⟩,
    (hfailed registry hregistry).mpr ⟨rfl, ?_, "missing", ?_⟩⟩
  · decide +kernel
  · exact ⟨.file ⟨.openFile, brokenExtension.pathOf "missing", .notFound⟩, by decide +kernel⟩

end Dictionary

end RadiusDictionary
