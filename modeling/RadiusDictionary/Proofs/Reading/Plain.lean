import RadiusDictionary.Proofs.Reading.Moves

/-! # Lines without inclusions

Lines that include nothing are as good as their `statements`: reading them has the statements
carried out one after the other (`Session.execute`), and nothing else about the dictionary matters.
`Outcome.Obeys` says so of an outcome, up to what a session knows about files. It holds of the lines
themselves (`obeys_interpretLines`) and of a text made from them (`obeys_interpretString`). -/

namespace RadiusDictionary

namespace Line

/-- Whether the line includes a file. -/
def isInclusion : Line → Bool
  | .directive (.inclusion _ _) => true
  | _ => false

theorem isInclusion_eq_true_iff {line : Line} : line.isInclusion = true ↔
    ∃ file isOptional, line = .directive (.inclusion file isOptional) := by
  constructor
  · intro h
    cases line with
    | blank => cases h
    | malformed => cases h
    | directive d =>
      cases d with
      | inclusion file isOptional => exact ⟨file, isOptional, rfl⟩
      | statement statement => cases h
  · rintro ⟨file, isOptional, rfl⟩
    rfl

/-- The statement that stands on the line. -/
def statement? : Line → Option Statement
  | .directive (.statement statement) => some statement
  | _ => none

/-- A carriage return at the end does not matter. -/
theorem read_dropReturn (line : String) :
    read (.ofList (Text.dropReturn line.toList)) = read line := by
  unfold read Text.dropReturn
  rw [String.toList_ofList]
  split
  · next h =>
    obtain ⟨front, hfront⟩ := List.getLast?_eq_some_iff.mp h
    rw [hfront, List.dropLast_concat, Text.trimChars_append_blank front (by decide)]
  · rfl

end Line

/-- The statements on lines, inclusions left out. -/
def statements (lines : List String) : List Statement :=
  (lines.map Line.read).filterMap Line.statement?

theorem statements_append (lines lines' : List String) :
    statements (lines ++ lines') = statements lines ++ statements lines' := by
  rw [statements, List.map_append, List.filterMap_append, statements, statements]

/-- The lines of a text made from lines are read as these are. -/
theorem map_read_lines_unlines {lines : List String} (h : ∀ line ∈ lines, '\n' ∉ line.toList) :
    (Text.lines (Text.unlines lines)).map Line.read = lines.map Line.read := by
  rw [Text.lines_unlines h, List.map_map]
  refine List.map_congr_left fun line _ => ?_
  rw [Function.comp_apply, Line.read_dropReturn]

namespace Session

/-- What the session knows but for the files: the declarations and the open scopes. -/
def withoutFiles (s : Session) : Session := { s with hasExtension := false, openFiles := [] }

theorem registry_withoutFiles (s : Session) : s.withoutFiles.registry = s.registry := rfl

/-- The session after statements. -/
def execute (s : Session) (statements : List Statement) : Session :=
  statements.foldl (fun s statement => (s.apply default statement).1) s

theorem execute_cons (s : Session) (statement : Statement) (rest : List Statement) :
    s.execute (statement :: rest) = (s.apply default statement).1.execute rest := rfl

theorem execute_append (s : Session) (statements statements' : List Statement) :
    s.execute (statements ++ statements') = (s.execute statements).execute statements' :=
  List.foldl_append

theorem openFiles_apply (s : Session) (origin : Origin) (statement : Statement) :
    (s.apply origin statement).1.openFiles = s.openFiles := by
  generalize (s.apply origin statement).1 = s', effect_apply s origin statement = heffect
  cases heffect with
  | nothing => rfl
  | scope kind name => cases kind <;> rfl
  | vendor name number extra => rfl
  | declaration h => rfl
  | value name number h => rfl

/-- A statement neither looks at files nor at its own place. -/
theorem withoutFiles_apply (s : Session) (origin origin' : Origin) (statement : Statement) :
    (s.apply origin statement).1.withoutFiles = (s.withoutFiles.apply origin' statement).1 := by
  cases statement with
  | beginTlv name => rfl
  | endTlv name => rfl
  | beginVendor name => rfl
  | endVendor name => rfl
  | declareVendor line =>
    simp only [apply, declareVendor]
    cases Numeral.unsigned? line.number with
    | none => rfl
    | some number => rfl
  | declareAttribute line =>
    have hcheck : s.withoutFiles.check line = s.check line := rfl
    simp only [apply, declareAttribute, hcheck]
    cases s.check line with
    | error why => rfl
    | ok d => rfl
  | declareValue line =>
    have hhome : s.withoutFiles.valueHome? line.attributeName = s.valueHome? line.attributeName :=
      rfl
    simp only [apply, declareValue, hhome]
    cases Numeral.signed? line.number with
    | none => rfl
    | some number =>
      cases s.valueHome? line.attributeName with
      | none => rfl
      | some vendor => rfl

end Session

/-- The outcome has the statements on `lines` carried out in `s`, and has closed every file again.
-/
structure Outcome.Obeys (o : Outcome) (lines : List String) (s : Session) : Prop where
  failure : o.failure = none
  openFiles : o.session.openFiles = s.openFiles
  withoutFiles : o.session.withoutFiles = s.withoutFiles.execute (statements lines)

namespace Outcome.Obeys

variable {o : Outcome} {lines lines' : List String} {s : Session}

theorem nothing (s : Session) (events : List ReadingEvent) :
    (⟨s, events, none⟩ : Outcome).Obeys [] s := ⟨rfl, rfl, rfl⟩

theorem after (h : o.Obeys lines s) (events : List ReadingEvent) : (o.after events).Obeys lines s :=
  ⟨h.failure, h.openFiles, h.withoutFiles⟩

theorem closeFile {path : Path} (h : o.Obeys lines (s.move (.openFile path))) :
    Outcome.Obeys { o with session := o.session.move .closeFile } lines s :=
  ⟨h.failure, congrArg List.tail h.openFiles, h.withoutFiles⟩

theorem andThen (h : o.Obeys lines s) {next : Session → Outcome}
    (hnext : (next o.session).Obeys lines' o.session) :
    (o.andThen next).Obeys (lines ++ lines') s := by
  have hboth : o.andThen next = (next o.session).after o.events := by
    rw [Outcome.andThen, h.failure]
  rw [hboth]
  refine ⟨hnext.failure, hnext.openFiles.trans h.openFiles, ?_⟩
  rw [statements_append, Session.execute_append, ← h.withoutFiles]
  exact hnext.withoutFiles

end Outcome.Obeys

namespace Dictionary

variable {dict : Dictionary} {nested : String → Session → Outcome} {lines : List String}

theorem obeys_interpretLine {line : String} (h : (Line.read line).isInclusion = false)
    (origin : Origin) (s : Session) :
    (dict.interpretLine nested origin (.read line) s).Obeys [line] s := by
  cases hline : Line.read line with
  | blank => exact ⟨rfl, rfl, by rw [statements, List.map_singleton, hline]; rfl⟩
  | malformed => exact ⟨rfl, rfl, by rw [statements, List.map_singleton, hline]; rfl⟩
  | directive d =>
    cases d with
    | inclusion file isOptional => rw [hline] at h; cases h
    | statement statement =>
      refine ⟨rfl, s.openFiles_apply origin statement, ?_⟩
      rw [statements, List.map_singleton, hline]
      exact s.withoutFiles_apply origin default statement

theorem obeys_interpretLines (file : String) : ∀ {lines : List String} (number : Nat) (s : Session),
    (∀ line ∈ lines, (Line.read line).isInclusion = false) →
    (dict.interpretLines nested file number lines s).Obeys lines s
  | [], _, s, _ => .nothing s []
  | line :: rest, number, s, h => by
    obtain ⟨hline, hrest⟩ := List.forall_mem_cons.mp h
    exact (obeys_interpretLine hline ⟨file, number⟩ s).andThen
      (obeys_interpretLines file (number + 1) _ hrest)

/-- **A text made from lines without inclusions has their statements carried out**, whatever lies on
the disk. -/
theorem obeys_interpretString (hplain : ∀ line ∈ lines, (Line.read line).isInclusion = false)
    (hlines : ∀ line ∈ lines, '\n' ∉ line.toList) (dict : Dictionary) (s : Session) :
    (dict.interpretString (Text.unlines lines) s).Obeys lines s := by
  have hread := map_read_lines_unlines hlines
  have hplain' : ∀ line ∈ Text.lines (Text.unlines lines),
      (Line.read line).isInclusion = false := by
    intro line hline
    have hmem : Line.read line ∈ lines.map Line.read := by
      rw [← hread]
      exact List.mem_map_of_mem hline
    obtain ⟨line', hline', heq⟩ := List.mem_map.mp hmem
    rw [← heq]
    exact hplain line' hline'
  have h : (dict.interpretString (Text.unlines lines) s).Obeys
      (Text.lines (Text.unlines lines)) s :=
    obeys_interpretLines "<string>" 1 s hplain'
  exact ⟨h.failure, h.openFiles, by rw [h.withoutFiles, statements, hread, ← statements]⟩

/-- Reading such a text part by part is reading it as a whole: what the front opens is open when the
back is read. -/
theorem withoutFiles_interpretString_append {front back : List String}
    (hplain : ∀ line ∈ front ++ back, (Line.read line).isInclusion = false)
    (hlines : ∀ line ∈ front ++ back, '\n' ∉ line.toList) (dict : Dictionary) (s : Session) :
    (dict.interpretString (Text.unlines back)
      (dict.interpretString (Text.unlines front) s).session).session.withoutFiles =
      (dict.interpretString (Text.unlines (front ++ back)) s).session.withoutFiles := by
  obtain ⟨hplainFront, hplainBack⟩ := List.forall_mem_append.mp hplain
  obtain ⟨hlinesFront, hlinesBack⟩ := List.forall_mem_append.mp hlines
  have hfront := obeys_interpretString hplainFront hlinesFront dict s
  have hback := obeys_interpretString hplainBack hlinesBack dict
    (dict.interpretString (Text.unlines front) s).session
  have hall := obeys_interpretString hplain hlines dict s
  rw [hback.withoutFiles, hfront.withoutFiles, hall.withoutFiles, statements_append,
    Session.execute_append]

end Dictionary

end RadiusDictionary
