import Mathlib.Logic.ExistsUnique
import RadiusDictionary.Proofs.Reading.OpenFiles

/-! # Every reading ends

The functions that read are bounded by a depth. `Ends` says without a bound that a task is carried
out to its end, and with which outcome: a file ends if its lines do, a line ends if the file that it
enters does, and the derivation is as large as the reading is long. A task has one outcome at most
(`Ends.unique`), and it has one, since a file that is entered leaves fewer files to enter
(`ends_interpretFileTo`). It is the outcome that the bounded functions give, so their bound is never
felt (`reading_ends`). -/

namespace RadiusDictionary

/-- What a reader is about. -/
inductive Task where
  | file (file : String)
  /-- Lines of a file from the one numbered `number` on. -/
  | lines (file : String) (number : Nat) (lines : List String)
  | finish
  | load
deriving DecidableEq, Repr

/-- The task that a request sets. -/
def Request.task : Request → Task
  | .text source => .lines "<string>" 1 (Text.lines source)
  | .file name => .file name

/-- What is told of an outcome in the end. -/
def Outcome.result (o : Outcome) : Except LoadError Registry × List ReadingEvent :=
  match o.failure with
  | none => (.ok o.session.registry, o.events)
  | some e => (.error e, o.events)

namespace Dictionary

variable (dict : Dictionary)

/-- Whether an inclusion that is met while `openFiles` are being read has its file read. -/
def Enters (openFiles : List Path) (file : String) (isOptional : Bool) : Prop :=
  dict.isOpen openFiles file = false ∧
    (isOptional = true → dict.disk.holds (dict.pathOf file) = true)

/-- Carrying out a task in a session ends, and what it leaves. -/
inductive Ends : Task → Session → Outcome → Prop
  | unread {file : String} {s : Session} {e : FileError}
    (htext : dict.disk.readText (dict.pathOf file) = .error e) :
    Ends (.file file) s ⟨s, [], some (.file e)⟩
  | read {file text : String} {s : Session} {o : Outcome}
    (htext : dict.disk.readText (dict.pathOf file) = .ok text)
    (hlines : Ends (.lines file 1 (Text.lines text)) (s.move (.openFile (dict.pathOf file))) o) :
    Ends (.file file) s { o with session := o.session.move .closeFile }
  | nil {file : String} {number : Nat} {s : Session} : Ends (.lines file number []) s (.still s)
  /-- The file that the line enters ends as `nested` says, and the further lines end if they are
  reached. -/
  | line {file line : String} {number : Nat} {rest : List String} {s : Session} {o : Outcome}
    {nested : String → Session → Outcome}
    (hfile : ∀ inner isOptional, Line.read line = .directive (.inclusion inner isOptional) →
      dict.Enters s.openFiles inner isOptional → Ends (.file inner) s (nested inner s))
    (hrest : (dict.interpretLine nested ⟨file, number⟩ (.read line) s).failure = none →
      Ends (.lines file (number + 1) rest)
        (dict.interpretLine nested ⟨file, number⟩ (.read line) s).session o) :
    Ends (.lines file number (line :: rest)) s
      ((dict.interpretLine nested ⟨file, number⟩ (.read line) s).andThen fun _ => o)
  | unmerged {s : Session} (hwanted : (dict.options.mergeExtension && !s.hasExtension) = false) :
    Ends .finish s (.still s)
  | merged {s : Session} {read : Outcome}
    (hwanted : (dict.options.mergeExtension && !s.hasExtension) = true)
    (hfile : Ends (.file extensionFile) s read) (hread : read.failure = none) :
    Ends .finish s ⟨read.session, read.events, none⟩
  | builtin {s : Session} {read o : Outcome} {cause : LoadError}
    (hwanted : (dict.options.mergeExtension && !s.hasExtension) = true)
    (hfile : Ends (.file extensionFile) s read) (hread : read.failure = some cause)
    (hlines : Ends (.lines "<built-in>" 1 (Text.lines builtinExtension)) read.session o) :
    Ends .finish s ⟨o.session, read.events ++ [.extensionUnread cause] ++ o.events, none⟩
  | load {s : Session} {read o : Outcome} (hfile : Ends (.file rootFile) s read)
    (hfinish : read.failure = none → Ends .finish read.session o) :
    Ends .load s (read.andThen fun _ => o)

variable {dict}

/-! ### There is one end -/

theorem Enters.of_not {openFiles : List Path} {file : String} {isOptional : Bool}
    (hopen : ¬ openFiles.any (dict.pathOf file).same = true)
    (habsent : ¬ (isOptional && !dict.disk.holds (dict.pathOf file)) = true) :
    dict.Enters openFiles file isOptional := by
  refine ⟨Bool.not_eq_true _ ▸ hopen, fun hoptional => ?_⟩
  simpa [hoptional] using habsent

/-- Of the files, a line depends on the one that it enters only. -/
theorem interpretLine_congr {nested nested' : String → Session → Outcome} {line : Line}
    {s : Session} (h : ∀ file isOptional, line = .directive (.inclusion file isOptional) →
      dict.Enters s.openFiles file isOptional → nested file s = nested' file s) (origin : Origin) :
    dict.interpretLine nested origin line s = dict.interpretLine nested' origin line s := by
  cases line with
  | blank => rfl
  | malformed => rfl
  | directive d =>
    cases d with
    | statement statement => rfl
    | inclusion file isOptional =>
      simp only [interpretLine, interpretInclusion]
      by_cases hopen : s.openFiles.any (dict.pathOf file).same = true
      · simp only [if_pos hopen]
      by_cases habsent : (isOptional && !dict.disk.holds (dict.pathOf file)) = true
      · simp only [if_neg hopen, if_pos habsent]
      rw [h file isOptional rfl (.of_not hopen habsent)]

/-- **A task has one outcome at most.** -/
theorem Ends.unique {task : Task} {s : Session} {o o' : Outcome} (h : dict.Ends task s o)
    (h' : dict.Ends task s o') : o = o' := by
  induction h generalizing o' with
  | unread htext =>
    cases h' with
    | unread htext' =>
      obtain rfl := Except.error.inj (htext.symm.trans htext')
      rfl
    | read htext' => cases htext.symm.trans htext'
  | read htext _ ih =>
    cases h' with
    | unread htext' => cases htext.symm.trans htext'
    | read htext' hlines' =>
      obtain rfl := Except.ok.inj (htext.symm.trans htext')
      rw [ih hlines']
  | nil =>
    cases h'
    rfl
  | @line file line number rest s o nested _ _ ihfile ihrest =>
    cases h' with
    | @line _ _ _ _ _ o' nested' hfile' hrest' =>
      have hline : dict.interpretLine nested ⟨file, number⟩ (.read line) s =
          dict.interpretLine nested' ⟨file, number⟩ (.read line) s :=
        interpretLine_congr (fun inner isOptional hread henters =>
          ihfile inner isOptional hread henters (hfile' inner isOptional hread henters)) _
      rw [← hline] at hrest' ⊢
      cases hfailure : (dict.interpretLine nested ⟨file, number⟩ (.read line) s).failure with
      | some e => simp only [Outcome.andThen, hfailure]
      | none => rw [ihrest hfailure (hrest' hfailure)]
  | unmerged hwanted =>
    cases h' with
    | unmerged => rfl
    | merged hwanted' => cases hwanted.symm.trans hwanted'
    | builtin hwanted' => cases hwanted.symm.trans hwanted'
  | merged hwanted _ hread ih =>
    cases h' with
    | unmerged hwanted' => cases hwanted.symm.trans hwanted'
    | merged _ hfile' => rw [ih hfile']
    | builtin _ hfile' hread' =>
      rw [ih hfile', hread'] at hread
      cases hread
  | builtin hwanted _ hread _ ihfile ihlines =>
    cases h' with
    | unmerged hwanted' => cases hwanted.symm.trans hwanted'
    | merged _ hfile' hread' =>
      rw [ihfile hfile', hread'] at hread
      cases hread
    | builtin _ hfile' hread' hlines' =>
      obtain rfl := ihfile hfile'
      obtain rfl := Option.some.inj (hread.symm.trans hread')
      rw [ihlines hlines']
  | @load s read o _ _ ihfile ihfinish =>
    cases h' with
    | load hfile' hfinish' =>
      obtain rfl := ihfile hfile'
      cases hfailure : read.failure with
      | some e => simp only [Outcome.andThen, hfailure]
      | none => rw [ihfinish hfailure (hfinish' hfailure)]

/-! ### There is an end -/

/-- Lines end if the files that they enter do. -/
theorem ends_interpretLines {depth : Nat} (openFiles : List Path) (file : String) :
    ∀ {lines : List String} (number : Nat) {s : Session}, s.openFiles = openFiles →
    (∀ line ∈ lines, ∀ {inner : String} {isOptional : Bool} {s : Session},
      Line.read line = .directive (.inclusion inner isOptional) → s.openFiles = openFiles →
      dict.isOpen openFiles inner = false →
      dict.Ends (.file inner) s (dict.interpretFileTo depth inner s)) →
    dict.Ends (.lines file number lines) s
      (dict.interpretLines (dict.interpretFileTo depth) file number lines s)
  | [], _, _, _, _ => .nil
  | line :: rest, number, s, hs, hfiles => by
    obtain ⟨hfile, hrestFiles⟩ := List.forall_mem_cons.mp hfiles
    have hs' : (dict.interpretLine (dict.interpretFileTo depth) ⟨file, number⟩ (.read line)
        s).session.openFiles = openFiles :=
      (openFiles_interpretLine depth ⟨file, number⟩ (.read line) s).trans hs
    have hrest := ends_interpretLines openFiles file (number + 1) hs' hrestFiles
    exact .line (fun inner isOptional hread henters => hfile hread hs (hs ▸ henters.1))
      fun _ => hrest

/-- **A file ends** within a depth that is enough for all files that can still be opened in it. -/
theorem ends_interpretFileTo : ∀ {depth : Nat} {file : String} {s : Session},
    (dict.unopened (dict.pathOf file :: s.openFiles)).length < depth →
    dict.Ends (.file file) s (dict.interpretFileTo depth file s)
  | 0, _, _, hdepth => absurd hdepth (Nat.not_lt_zero _)
  | depth + 1, file, s, hdepth => by
    cases htext : dict.disk.readText (dict.pathOf file) with
    | error e =>
      rw [interpretFileTo_of_error htext]
      exact .unread htext
    | ok text =>
      rw [interpretFileTo_of_ok htext]
      refine .read htext (ends_interpretLines (dict.pathOf file :: s.openFiles) file 1 rfl ?_)
      intro line hline inner isOptional s' hread hs' hopen
      have hmem : inner ∈ dict.mentioned := mem_mentioned htext (mem_inclusions hline hread)
      -- one file fewer is unopened now, and there is one level fewer to go down
      have hless := length_unopened_lt hmem hopen
      apply ends_interpretFileTo
      rw [hs']
      omega

theorem ends_interpretFile (file : String) (s : Session) :
    dict.Ends (.file file) s (dict.interpretFile file s) :=
  ends_interpretFileTo (length_unopened_lt_depthFrom dict _ "")

/-- Lines end, whatever text they are from. -/
theorem ends_lines (text file : String) (number : Nat) (lines : List String) (s : Session) :
    dict.Ends (.lines file number lines) s
      (dict.interpretLines (dict.interpretFileTo (dict.depthFrom text)) file number lines s) :=
  ends_interpretLines s.openFiles file number rfl fun _ _ _ _ _ _ _ _ =>
    ends_interpretFileTo (length_unopened_lt_depthFrom dict _ text)

theorem ends_interpretSource (file text : String) (s : Session) :
    dict.Ends (.lines file 1 (Text.lines text)) s
      (dict.interpretSource (dict.interpretFileTo (dict.depthFrom text)) file text s) :=
  ends_lines text file 1 (Text.lines text) s

theorem ends_answer (q : Request) (s : Session) : dict.Ends q.task s (dict.answer q s) := by
  cases q with
  | text source => exact ends_interpretSource "<string>" source s
  | file name => exact ends_interpretFile name s

theorem ends_interpretBuiltin (s : Session) :
    dict.Ends (.lines "<built-in>" 1 (Text.lines builtinExtension)) s (dict.interpretBuiltin s) := by
  rw [interpretBuiltin]
  exact ends_interpretSource "<built-in>" builtinExtension s

theorem finish_of_unwanted {s : Session}
    (hwanted : (dict.options.mergeExtension && !s.hasExtension) = false) :
    dict.finish s = (s, []) := by
  simp only [finish, hwanted, Bool.false_eq_true, if_false]

theorem finish_of_read {s : Session} {read : Outcome}
    (hwanted : (dict.options.mergeExtension && !s.hasExtension) = true)
    (hfile : dict.interpretFile extensionFile s = read) (hread : read.failure = none) :
    dict.finish s = (read.session, read.events) := by
  simp only [finish, hwanted, if_true, hfile, hread]

-- The readings are named by hypotheses: where they stand themselves, checking a proof would carry
-- them out.
theorem finish_of_unread {s : Session} {read builtin : Outcome} {cause : LoadError}
    (hwanted : (dict.options.mergeExtension && !s.hasExtension) = true)
    (hfile : dict.interpretFile extensionFile s = read) (hread : read.failure = some cause)
    (hbuiltin : dict.interpretBuiltin read.session = builtin) :
    dict.finish s =
      (builtin.session, read.events ++ [.extensionUnread cause] ++ builtin.events) := by
  simp only [finish, hwanted, if_true, hfile, hread, hbuiltin, Outcome.after]

theorem ends_finish (s : Session) :
    dict.Ends .finish s ⟨(dict.finish s).1, (dict.finish s).2, none⟩ := by
  have hfile : dict.Ends (.file extensionFile) s (dict.interpretFile extensionFile s) :=
    ends_interpretFile extensionFile s
  generalize hinterpret : dict.interpretFile extensionFile s = read at hfile
  cases hwanted : dict.options.mergeExtension && !s.hasExtension with
  | false =>
    rw [finish_of_unwanted hwanted]
    exact .unmerged hwanted
  | true =>
    cases hread : read.failure with
    | none =>
      rw [finish_of_read hwanted hinterpret hread]
      exact .merged hwanted hfile hread
    | some cause =>
      have hlines : dict.Ends (.lines "<built-in>" 1 (Text.lines builtinExtension)) read.session
          (dict.interpretBuiltin read.session) := ends_interpretBuiltin read.session
      obtain ⟨builtin, hbuiltin⟩ : ∃ o, dict.interpretBuiltin read.session = o := ⟨_, rfl⟩
      rw [hbuiltin] at hlines
      rw [finish_of_unread hwanted hinterpret hread hbuiltin]
      exact .builtin hwanted hfile hread hlines

theorem load_of_read {read : Outcome} (hfile : dict.interpretFile rootFile .start = read) :
    dict.load = Outcome.result (read.andThen fun _ =>
      ⟨(dict.finish read.session).1, (dict.finish read.session).2, none⟩) := by
  obtain ⟨s, events, _ | e⟩ := read
  · simp only [load, hfile, Outcome.andThen, Outcome.after, Outcome.result]
  · simp only [load, hfile, Outcome.andThen, Outcome.result]

theorem ends_load : ∃ o, dict.Ends .load .start o ∧ dict.load = o.result := by
  have hfile : dict.Ends (.file rootFile) .start (dict.interpretFile rootFile .start) :=
    ends_interpretFile rootFile .start
  generalize hread : dict.interpretFile rootFile .start = read at hfile
  exact ⟨_, .load hfile fun _ => ends_finish read.session, load_of_read hread⟩

/-- **Every task ends**, in whatever session. -/
theorem exists_ends (task : Task) (s : Session) : ∃ o, dict.Ends task s o := by
  cases task with
  | file file => exact ⟨_, ends_interpretFile file s⟩
  | lines file number lines => exact ⟨_, ends_lines "" file number lines s⟩
  | finish => exact ⟨_, ends_finish s⟩
  | load => exact ⟨_, .load (ends_interpretFile rootFile s) fun _ => ends_finish _⟩

/-- **Every reading ends, and never has a file open twice.** Whatever lies on the disk, a task has
exactly one outcome without a bound on the depth, and requests, the end of a reading and loading
give this outcome. Each leaves the open files as they were, whether it fails or not. At every moment
of a reading no two open files have the same components, so that there are no more of them than
different files included, and one. -/
theorem reading_ends (dict : Dictionary) :
    (∀ task s, ∃! o, dict.Ends task s o) ∧
    (∀ q s, dict.Ends q.task s (dict.answer q s)) ∧
    (∀ s, dict.Ends .finish s ⟨(dict.finish s).1, (dict.finish s).2, none⟩) ∧
    (∃ o, dict.Ends .load .start o ∧ dict.load = o.result) ∧
    (∀ q s, (dict.answer q s).session.openFiles = s.openFiles) ∧
    (∀ s, (dict.finish s).1.openFiles = s.openFiles) ∧
    ∀ (requests : List Request) (isFinished : Bool) (moment : ℕ),
      let r : Reading := ⟨dict, requests, isFinished⟩
      let openFiles := (Session.start.run (r.moves.take moment)).openFiles
      (openFiles.map Path.key).Nodup ∧ openFiles.length ≤ r.includedFiles.length + 1 := by
  refine ⟨fun task s => ?_, ends_answer, ends_finish, ends_load, openFiles_answer, openFiles_finish,
    fun requests isFinished moment => ?_⟩
  · obtain ⟨o, ho⟩ := dict.exists_ends task s
    exact ⟨o, ho, fun o' ho' => ho'.unique ho⟩
  · have hdistinct := (Reading.tidy_moves ⟨dict, requests, isFinished⟩).always.take moment
    exact ⟨hdistinct.nodup, hdistinct.length_le⟩

/-- A dictionary whose root file includes itself by another path. -/
def windingDictionary : Dictionary where
  disk := (Disk.empty.put ["sub"] .folder).put ["dictionary"]
    (.file (.text "$INCLUDE sub/../dictionary\n"))
  root := .ofText "."
  options := ⟨false, false⟩

-- The root file is read a second time by the other path, and not a third time.
example : (windingDictionary.interpretFile rootFile .start).events =
    [.directive ⟨"dictionary", 1⟩ "$INCLUDE", .including "sub/../dictionary",
      .directive ⟨"sub/../dictionary", 1⟩ "$INCLUDE",
      .inclusionRecursive ⟨"sub/../dictionary", 1⟩ "sub/../dictionary"] := by decide +kernel

end Dictionary

end RadiusDictionary
