import RadiusDictionary.Dictionary
import RadiusDictionary.Proofs.Reading.Effect
import Mathlib.Tactic.SplitIfs

/-! # The moves of a reading

A reading goes through lines, files and inclusions, but all that it does to the session are `Move`s
one after the other: statements take effect, files are opened and closed, and the extension is
noted. This file lists the moves of every part of a reading and shows that running them gives the
session that the part leaves.

* `Reading`: requests to one reader on one disk, in any number and order, each of them carried out
  to its end or broken off; at the end the reading may be finished.
* `Reading.moves`, `session_eq_run`: the moves of a whole reading.
* `run_induction`: what every effect keeps, every sequence of moves keeps. -/

namespace RadiusDictionary

/-- One thing that a reading does to the session. -/
inductive Move where
  | statement (origin : Origin) (statement : Statement)
  | openFile (path : Path)
  | closeFile
  | noteExtension
deriving DecidableEq, Repr

namespace Session

/-- The session after a move. -/
def move (s : Session) : Move → Session
  | .statement origin statement => (s.apply origin statement).1
  | .openFile path => { s with openFiles := path :: s.openFiles }
  | .closeFile => { s with openFiles := s.openFiles.tail }
  | .noteExtension => { s with hasExtension := true }

/-- The session after moves. -/
def run (s : Session) (moves : List Move) : Session := moves.foldl move s

@[simp] theorem run_nil (s : Session) : s.run [] = s := rfl

@[simp] theorem run_cons (s : Session) (m : Move) (moves : List Move) :
    s.run (m :: moves) = (s.move m).run moves := rfl

@[simp] theorem run_append (s : Session) (moves moves' : List Move) :
    s.run (moves ++ moves') = (s.run moves).run moves' := List.foldl_append

/-- **What every effect keeps, every sequence of moves keeps.** -/
theorem run_induction {P : Session → Prop} (effect : ∀ {s s'}, Effect s s' → P s → P s')
    (files : ∀ {s} openFiles, P s → P { s with openFiles })
    (extension : ∀ {s}, P s → P { s with hasExtension := true }) :
    ∀ (moves : List Move) {s : Session}, P s → P (s.run moves)
  | [], _, h => h
  | .statement origin statement :: moves, s, h =>
    run_induction effect files extension moves (effect (effect_apply s origin statement) h)
  | .openFile path :: moves, s, h =>
    run_induction effect files extension moves (files (path :: s.openFiles) h)
  | .closeFile :: moves, s, h =>
    run_induction effect files extension moves (files s.openFiles.tail h)
  | .noteExtension :: moves, _, h => run_induction effect files extension moves (extension h)

end Session

namespace Dictionary

variable (dict : Dictionary)

/-! ### Lines -/

section Lines

variable (nested : String → Session → Outcome) (nestedMoves : String → Session → List Move)

/-- The moves of an inclusion. `nestedMoves` gives those of the included file. -/
def inclusionMoves (file : String) (isOptional : Bool) (s : Session) : List Move :=
  let path := dict.pathOf file
  if s.openFiles.any path.same then []
  else if isOptional && !dict.disk.holds path then []
  else nestedMoves file s ++
    if (nested file s).failure.isNone && file = extensionFile then [.noteExtension] else []

/-- The moves of a line. -/
def lineMoves (origin : Origin) : Line → Session → List Move
  | .directive (.inclusion file isOptional), s =>
    dict.inclusionMoves nested nestedMoves file isOptional s
  | .directive (.statement statement), _ => [.statement origin statement]
  | .blank, _ => []
  | .malformed, _ => []

/-- The moves of lines. After a failure there are none. -/
def linesMoves (file : String) : Nat → List String → Session → List Move
  | _, [], _ => []
  | number, line :: rest, s =>
    let read := dict.interpretLine nested ⟨file, number⟩ (.read line) s
    dict.lineMoves nested nestedMoves ⟨file, number⟩ (.read line) s ++
      if read.failure.isNone then linesMoves file (number + 1) rest read.session else []

variable {nested nestedMoves}
variable (h : ∀ file s, (nested file s).session = s.run (nestedMoves file s))
include h

theorem session_interpretInclusion (origin : Origin) (file : String) (isOptional : Bool)
    (s : Session) : (dict.interpretInclusion nested origin file isOptional s).session =
      s.run (dict.inclusionMoves nested nestedMoves file isOptional s) := by
  simp only [interpretInclusion, inclusionMoves, Outcome.after]
  by_cases hopen : s.openFiles.any (dict.pathOf file).same = true
  · simp only [if_pos hopen, Session.run_nil]
  by_cases habsent : (isOptional && !dict.disk.holds (dict.pathOf file)) = true
  · simp only [if_neg hopen, if_pos habsent, Session.run_nil]
  simp only [if_neg hopen, if_neg habsent, Session.run_append, ← h]
  cases hread : (nested file s).failure with
  | none =>
    by_cases hfile : file = extensionFile
    · simp [hfile, Session.move]
    · simp [hfile]
  | some cause =>
    simp only [Option.isNone_some, Bool.false_and, Bool.false_eq_true, if_false, Session.run_nil]
    by_cases hstrict : dict.options.strictIncludes = true
    · simp only [if_pos hstrict]
    · simp only [if_neg hstrict]

theorem session_interpretLine (origin : Origin) (line : Line) (s : Session) :
    (dict.interpretLine nested origin line s).session =
      s.run (dict.lineMoves nested nestedMoves origin line s) := by
  cases line with
  | blank => rfl
  | malformed => rfl
  | directive d =>
    cases d with
    | inclusion file isOptional => exact session_interpretInclusion dict h origin file isOptional s
    | statement statement => rfl

theorem session_interpretLines (file : String) : ∀ (number : Nat) (lines : List String)
    (s : Session), (dict.interpretLines nested file number lines s).session =
      s.run (dict.linesMoves nested nestedMoves file number lines s)
  | _, [], _ => rfl
  | number, line :: rest, s => by
    have hline := session_interpretLine dict h ⟨file, number⟩ (.read line) s
    simp only [interpretLines, linesMoves, Outcome.andThen]
    cases hfailure : (dict.interpretLine nested ⟨file, number⟩ (.read line) s).failure with
    | some cause => simp [hline]
    | none =>
      simp only [Outcome.after, Session.run_append, ← hline]
      exact session_interpretLines file (number + 1) rest _

end Lines

/-! ### Files and texts -/

/-- The moves of a file in which inclusions may go down to `depth`. -/
def fileMovesTo : (depth : Nat) → (file : String) → Session → List Move
  | 0, _, _ => []
  | depth + 1, file, s =>
    let path := dict.pathOf file
    match dict.disk.readText path with
    | .error _ => []
    | .ok text =>
      .openFile path :: dict.linesMoves (dict.interpretFileTo depth) (fileMovesTo depth) file 1
        (Text.lines text) (s.move (.openFile path)) ++ [.closeFile]

section Files

variable {dict} {depth : Nat} {file : String} {s : Session}

theorem interpretFileTo_of_error {e : FileError}
    (h : dict.disk.readText (dict.pathOf file) = .error e) :
    dict.interpretFileTo (depth + 1) file s = ⟨s, [], some (.file e)⟩ := by
  unfold interpretFileTo
  simp only [h]

theorem interpretFileTo_of_ok {text : String}
    (h : dict.disk.readText (dict.pathOf file) = .ok text) :
    dict.interpretFileTo (depth + 1) file s =
      let read := dict.interpretSource (dict.interpretFileTo depth) file text
        (s.move (.openFile (dict.pathOf file)))
      { read with session := read.session.move .closeFile } := by
  unfold interpretFileTo
  simp only [h]
  rfl

theorem fileMovesTo_of_error {e : FileError}
    (h : dict.disk.readText (dict.pathOf file) = .error e) :
    dict.fileMovesTo (depth + 1) file s = [] := by
  unfold fileMovesTo
  simp only [h]

theorem fileMovesTo_of_ok {text : String}
    (h : dict.disk.readText (dict.pathOf file) = .ok text) :
    dict.fileMovesTo (depth + 1) file s =
      .openFile (dict.pathOf file) :: dict.linesMoves (dict.interpretFileTo depth)
        (dict.fileMovesTo depth) file 1 (Text.lines text)
        (s.move (.openFile (dict.pathOf file))) ++ [.closeFile] := by
  unfold fileMovesTo
  simp only [h]

end Files

variable {dict} in
theorem session_interpretFileTo : ∀ (depth : Nat) (file : String) (s : Session),
    (dict.interpretFileTo depth file s).session = s.run (dict.fileMovesTo depth file s)
  | 0, _, _ => rfl
  | depth + 1, file, s => by
    cases htext : dict.disk.readText (dict.pathOf file) with
    | error e => rw [interpretFileTo_of_error htext, fileMovesTo_of_error htext, Session.run_nil]
    | ok text =>
      have h := session_interpretLines dict (session_interpretFileTo depth) file 1
        (Text.lines text) (s.move (.openFile (dict.pathOf file)))
      simp only [interpretFileTo_of_ok htext, fileMovesTo_of_ok htext, Session.run_append,
        Session.run_cons, Session.run_nil, ← h]
      rfl

/-- The moves of a text that is read as if it were the content of `file`. -/
def textMoves (file text : String) (s : Session) : List Move :=
  dict.linesMoves (dict.interpretFileTo (dict.depthFrom text))
    (dict.fileMovesTo (dict.depthFrom text)) file 1 (Text.lines text) s

variable {dict} in
theorem session_interpretText (file text : String) (s : Session) :
    (dict.interpretSource (dict.interpretFileTo (dict.depthFrom text)) file text s).session =
      s.run (dict.textMoves file text s) :=
  session_interpretLines dict (session_interpretFileTo _) file 1 (Text.lines text) s

end Dictionary

/-! ### Requests -/

/-- What a reader can be asked to read. -/
inductive Request where
  | text (text : String)
  | file (file : String)
deriving DecidableEq, Repr

namespace Dictionary

variable (dict : Dictionary)

/-- Carries out a request, to its end or until it is broken off. -/
def answer : Request → Session → Outcome
  | .text text, s => dict.interpretString text s
  | .file file, s => dict.interpretFile file s

/-- The moves of a request. -/
def requestMoves : Request → Session → List Move
  | .text text, s => dict.textMoves "<string>" text s
  | .file file, s => dict.fileMovesTo (dict.depthFrom "") file s

/-- The session after requests, whether they fail or not. -/
def sessionAfter : List Request → Session → Session
  | [], s => s
  | q :: rest, s => sessionAfter rest (dict.answer q s).session

/-- The moves of requests. -/
def requestsMoves : List Request → Session → List Move
  | [], _ => []
  | q :: rest, s => dict.requestMoves q s ++ requestsMoves rest (dict.answer q s).session

/-- The moves at the end of a reading. -/
def finishMoves (s : Session) : List Move :=
  if dict.options.mergeExtension && !s.hasExtension then
    let read := dict.interpretFile extensionFile s
    dict.requestMoves (.file extensionFile) s ++
      match read.failure with
      | none => []
      | some _ => dict.textMoves "<built-in>" builtinExtension read.session
  else []

variable {dict}

theorem answer_file (file : String) (s : Session) :
    dict.answer (.file file) s = dict.interpretFile file s := rfl

theorem session_answer (q : Request) (s : Session) :
    (dict.answer q s).session = s.run (dict.requestMoves q s) := by
  cases q with
  | text text => exact session_interpretText "<string>" text s
  | file file => exact session_interpretFileTo _ file s

theorem sessionAfter_eq_run : ∀ (requests : List Request) (s : Session),
    dict.sessionAfter requests s = s.run (dict.requestsMoves requests s)
  | [], _ => rfl
  | q :: rest, s => by
    rw [sessionAfter, requestsMoves, Session.run_append, ← session_answer,
      sessionAfter_eq_run rest]

theorem session_interpretBuiltin (s : Session) : (dict.interpretBuiltin s).session =
    s.run (dict.textMoves "<built-in>" builtinExtension s) := by
  rw [interpretBuiltin, session_interpretText]

-- Stated of any outcomes: with the readings themselves in place of `read` and `fallback`, checking
-- the proof would carry them out.
theorem session_fallback {read : Outcome} {fallback : Session → Outcome} {s : Session}
    {moves : List Move} {fallbackMoves : Session → List Move} (event : LoadError → ReadingEvent)
    (hread : read.session = s.run moves)
    (hfallback : ∀ s, (fallback s).session = s.run (fallbackMoves s)) :
    (match read.failure with
      | none => (read.session, read.events)
      | some cause =>
        let builtin := (fallback read.session).after (read.events ++ [event cause])
        (builtin.session, builtin.events)).1 =
      s.run (moves ++ match read.failure with
        | none => []
        | some _ => fallbackMoves read.session) := by
  rw [Session.run_append, ← hread]
  cases read.failure with
  | none => rfl
  | some cause => exact hfallback read.session

theorem session_finish (s : Session) : (dict.finish s).1 = s.run (dict.finishMoves s) := by
  have hfile : (dict.answer (.file extensionFile) s).session = _ := session_answer _ s
  rw [answer_file] at hfile
  unfold finish finishMoves
  split_ifs with hwanted
  · exact session_fallback .extensionUnread hfile session_interpretBuiltin
  · rfl

end Dictionary

/-- Requests to one reader, one after the other, and whether the reading is finished after them. -/
structure Reading where
  dict : Dictionary
  requests : List Request
  isFinished : Bool

namespace Reading

/-- The session that the reading leaves. -/
def session (r : Reading) : Session :=
  let s := r.dict.sessionAfter r.requests .start
  if r.isFinished then (r.dict.finish s).1 else s

/-- What the reading finds declared. -/
def registry (r : Reading) : Registry := r.session.registry

/-- The moves of the reading. -/
def moves (r : Reading) : List Move :=
  r.dict.requestsMoves r.requests .start ++
    if r.isFinished then r.dict.finishMoves (r.dict.sessionAfter r.requests .start) else []

/-- **A reading is the run of its moves.** -/
theorem session_eq_run (r : Reading) : r.session = Session.start.run r.moves := by
  unfold session moves
  cases r.isFinished with
  | false => simp [Dictionary.sessionAfter_eq_run]
  | true =>
    simp only [if_true, Session.run_append, ← Dictionary.sessionAfter_eq_run]
    exact Dictionary.session_finish _

end Reading

/-- Loading a dictionary is the reading of its root file, finished unless the root file fails. -/
theorem Dictionary.load_eq (dict : Dictionary) : dict.load.1 =
    match (dict.interpretFile rootFile .start).failure with
    | some e => .error e
    | none => .ok (Reading.registry ⟨dict, [.file rootFile], true⟩) := by
  unfold load Reading.registry Reading.session
  simp only [sessionAfter, answer_file, if_true]
  cases (dict.interpretFile rootFile .start).failure with
  | none => rfl
  | some e => rfl

end RadiusDictionary
