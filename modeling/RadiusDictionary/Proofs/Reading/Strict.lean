import RadiusDictionary.Proofs.Reading.OpenFiles
import RadiusDictionary.Proofs.Registry.Growth

/-! # Strict and lenient readings

A strict reading is broken off by an inclusion that fails, a lenient one goes on. `Agrees` compares
the outcomes of the two: they are the same, or the strict reading was broken off and the lenient one
has gone on from there (`GoesOn`). What broke it off is a chain of inclusions, each in the file of
the one before, the last of which names a file that cannot be read (`BreaksOff`).

Lines agree if the files that they include do, and files agree by induction on the depth
(`agrees_interpretFileTo`): up to the inclusion that fails both readings do the same, and what the
lenient one does afterwards takes nothing back. -/

namespace RadiusDictionary

/-- The files that the error names, the outermost first. -/
def LoadError.files : LoadError → List String
  | .inclusion name cause => name :: cause.files
  | .file _ => []
  | .tooDeep => []

/-- What is declared in `s` is declared in `s'`, provided that names and declarations agree in `s`.
-/
def Session.Grows (s s' : Session) : Prop :=
  s.NamesAgree → s'.NamesAgree ∧ s.registry.Extends s'.registry

namespace Session.Grows

variable {s s' s'' : Session}

theorem refl (s : Session) : s.Grows s := fun hs => ⟨hs, .refl _⟩

theorem trans (h : s.Grows s') (h' : s'.Grows s'') : s.Grows s'' := by
  intro hs
  obtain ⟨hs', hextends⟩ := h hs
  obtain ⟨hs'', hextends'⟩ := h' hs'
  exact ⟨hs'', hextends.trans hextends'⟩

theorem run (moves : List Move) (s : Session) : s.Grows (s.run moves) :=
  fun hs => ⟨namesAgree_run moves hs, extends_run moves hs⟩

theorem closeFile (h : s.Grows s') : (s.move .closeFile).Grows (s'.move .closeFile) := by
  intro hs
  obtain ⟨hs', hextends⟩ := h (hs.of_perm rfl (List.Perm.refl _))
  exact ⟨hs'.of_perm rfl (List.Perm.refl _), hextends⟩

end Session.Grows

namespace Dictionary

variable (dict : Dictionary)

/-- The dictionary, read so that a failing inclusion breaks off the reading. -/
def strict : Dictionary := { dict with options := { dict.options with strictIncludes := true } }

/-- The dictionary, read so that a failing inclusion is passed over. -/
def lenient : Dictionary := { dict with options := { dict.options with strictIncludes := false } }

/-- Why a strict reading is broken off that comes to inclusions of the files `names`. -/
inductive BreaksOff : (names : List String) → LoadError → Prop
  | unread {names : List String} {file : String} {e : FileError} (hfile : file ∈ names)
    (htext : dict.disk.readText (dict.pathOf file) = .error e) :
    BreaksOff names (.inclusion file (.file e))
  | inside {names : List String} {file text : String} {cause : LoadError} (hfile : file ∈ names)
    (htext : dict.disk.readText (dict.pathOf file) = .ok text)
    (hcause : BreaksOff (inclusions text) cause) : BreaksOff names (.inclusion file cause)

/-- The lenient outcome `o'` goes on where the strict outcome `o` is broken off by `e`. -/
structure GoesOn (names : List String) (e : LoadError) (o o' : Outcome) : Prop where
  failure : o'.failure = none
  cause : dict.BreaksOff names e
  events : o.events <+: o'.events
  attempts : (e.files.map ReadingEvent.including).Sublist o.events
  session : o.session.Grows o'.session

/-- The strict outcome `o` and the lenient outcome `o'` are the same as far as `o` goes. -/
inductive Agrees (names : List String) (o o' : Outcome) : Prop
  | whole (hfailure : o.failure = none) (heq : o' = o)
  | broken {e : LoadError} (hfailure : o.failure = some e) (hgoes : dict.GoesOn names e o o')

/-- What strict readings make of a file, by `nested`, agrees with what lenient ones make of it, by
`nested'`. -/
structure AgreesFile (nested nested' : String → Session → Outcome) (file : String) (s : Session) :
    Prop where
  unread : ∀ {e}, dict.disk.readText (dict.pathOf file) = .error e →
    nested file s = ⟨s, [], some (.file e)⟩ ∧ nested' file s = ⟨s, [], some (.file e)⟩
  read : ∀ {text}, dict.disk.readText (dict.pathOf file) = .ok text →
    dict.Agrees (inclusions text) (nested file s) (nested' file s)

variable {dict} {names : List String}

namespace Agrees

variable {o o' : Outcome}

theorem after (h : dict.Agrees names o o') (events : List ReadingEvent) :
    dict.Agrees names (o.after events) (o'.after events) := by
  cases h with
  | whole hfailure heq =>
    rw [heq]
    exact .whole hfailure rfl
  | broken hfailure hgoes =>
    exact .broken hfailure ⟨hgoes.failure, hgoes.cause,
      (List.prefix_append_right_inj events).mpr hgoes.events,
      hgoes.attempts.trans (List.sublist_append_right events o.events), hgoes.session⟩

theorem closeFile (h : dict.Agrees names o o') :
    dict.Agrees names { o with session := o.session.move .closeFile }
      { o' with session := o'.session.move .closeFile } := by
  cases h with
  | whole hfailure heq =>
    rw [heq]
    exact .whole hfailure rfl
  | broken hfailure hgoes =>
    exact .broken hfailure ⟨hgoes.failure, hgoes.cause, hgoes.events, hgoes.attempts,
      hgoes.session.closeFile⟩

/-- Two parts agree if the first ones do, and the second ones as far as they are reached. -/
theorem andThen (h : dict.Agrees names o o') {next next' : Session → Outcome}
    (hnext : o.failure = none → dict.Agrees names (next o.session) (next' o.session))
    (hfailure' : ∀ s, (next' s).failure = none) (hgrows : ∀ s : Session, s.Grows (next' s).session) :
    dict.Agrees names (o.andThen next) (o'.andThen next') := by
  cases h with
  | whole hfailure heq =>
    have hboth := (hnext hfailure).after o.events
    rw [heq]
    simp only [Outcome.andThen, hfailure]
    exact hboth
  | broken hfailure hgoes =>
    simp only [Outcome.andThen, hfailure, hgoes.failure]
    exact .broken hfailure ⟨hfailure' _, hgoes.cause,
      hgoes.events.trans (List.prefix_append o'.events _), hgoes.attempts,
      hgoes.session.trans (hgrows _)⟩

end Agrees

/-! ### Lines -/

section Lines

variable {nested nested' : String → Session → Outcome}

/-- A line does not break off a lenient reading. -/
theorem failure_interpretLine_lenient (origin : Origin) (line : Line) (s : Session) :
    (dict.lenient.interpretLine nested origin line s).failure = none := by
  cases line with
  | blank => rfl
  | malformed => rfl
  | directive d =>
    cases d with
    | statement statement => rfl
    | inclusion file isOptional =>
      have hlenient : dict.lenient.options.strictIncludes = false := rfl
      simp only [interpretLine, interpretInclusion, Outcome.after, hlenient]
      split
      · rfl
      split
      · rfl
      split
      · next hread =>
        split
        · exact hread
        · exact hread
      · rfl

theorem failure_interpretLines_lenient (file : String) : ∀ (number : Nat) (lines : List String)
    (s : Session), (dict.lenient.interpretLines nested file number lines s).failure = none
  | _, [], _ => rfl
  | number, line :: rest, s => by
    have hline : (dict.lenient.interpretLine nested ⟨file, number⟩ (.read line) s).failure = none :=
      failure_interpretLine_lenient ⟨file, number⟩ (.read line) s
    simp only [interpretLines, Outcome.andThen, hline]
    exact failure_interpretLines_lenient file (number + 1) rest _

theorem agrees_interpretInclusion {file : String} {isOptional : Bool} {s : Session}
    (hname : file ∈ names)
    (hfile : dict.isOpen s.openFiles file = false → dict.AgreesFile nested nested' file s)
    (origin : Origin) :
    dict.Agrees names (dict.strict.interpretInclusion nested origin file isOptional s)
      (dict.lenient.interpretInclusion nested' origin file isOptional s) := by
  have hstrict : dict.strict.options.strictIncludes = true := rfl
  have hlenient : dict.lenient.options.strictIncludes = false := rfl
  have hpath : dict.strict.pathOf file = dict.pathOf file := rfl
  have hpath' : dict.lenient.pathOf file = dict.pathOf file := rfl
  have hdisk : dict.strict.disk = dict.disk := rfl
  have hdisk' : dict.lenient.disk = dict.disk := rfl
  simp only [interpretInclusion, hstrict, hlenient, hpath, hpath', hdisk, hdisk']
  by_cases hopen : s.openFiles.any (dict.pathOf file).same = true
  · simp only [if_pos hopen]
    exact .whole rfl rfl
  by_cases habsent : (isOptional && !dict.disk.holds (dict.pathOf file)) = true
  · simp only [if_neg hopen, if_pos habsent]
    exact .whole rfl rfl
  simp only [if_neg hopen, if_neg habsent]
  have hnested := hfile (Bool.not_eq_true _ ▸ hopen)
  cases htext : dict.disk.readText (dict.pathOf file) with
  | error e =>
    obtain ⟨hread, hread'⟩ := hnested.unread htext
    simp only [hread, hread', Outcome.after, if_true, Bool.false_eq_true, if_false]
    exact .broken rfl ⟨rfl, .unread hname htext, List.prefix_append _ _, List.Sublist.refl _,
      .refl s⟩
  | ok text =>
    cases hnested.read htext with
    | whole hfailure heq =>
      simp only [heq, Outcome.after, hfailure]
      split
      · exact .whole rfl rfl
      · exact .whole rfl rfl
    | @broken e hfailure hgoes =>
      -- the lenient reading may note the extension, which the registry does not show
      have hgoes' : ∀ o', o'.failure = none → o'.events = .including file :: (nested' file s).events →
          (nested file s).session.Grows o'.session →
          dict.GoesOn names (.inclusion file e) ⟨(nested file s).session,
            .including file :: (nested file s).events, some (.inclusion file e)⟩ o' :=
        fun o' hfailure' hevents hgrows => ⟨hfailure', .inside hname htext hgoes.cause,
          hevents ▸ (List.prefix_cons_inj _).mpr hgoes.events, hgoes.attempts.cons_cons _, hgrows⟩
      simp only [Outcome.after, hfailure, hgoes.failure, if_true]
      split
      · refine .broken rfl (hgoes' _ rfl rfl fun hs => ?_)
        obtain ⟨hs', hextends⟩ := hgoes.session hs
        exact ⟨hs'.of_perm rfl (List.Perm.refl _), hextends⟩
      · exact .broken rfl (hgoes' _ rfl rfl hgoes.session)

theorem agrees_interpretLine {line : Line} {s : Session}
    (hfile : ∀ {file isOptional}, line = .directive (.inclusion file isOptional) →
      file ∈ names ∧ (dict.isOpen s.openFiles file = false → dict.AgreesFile nested nested' file s))
    (origin : Origin) :
    dict.Agrees names (dict.strict.interpretLine nested origin line s)
      (dict.lenient.interpretLine nested' origin line s) := by
  cases line with
  | blank => exact .whole rfl rfl
  | malformed => exact .whole rfl rfl
  | directive d =>
    cases d with
    | statement statement => exact .whole rfl rfl
    | inclusion file isOptional =>
      obtain ⟨hname, hagrees⟩ := hfile rfl
      exact (agrees_interpretInclusion hname hagrees origin).after _

end Lines

variable {depth : Nat}

/-- **Lines agree if the files that they include do.** -/
theorem agrees_interpretLines (openFiles : List Path) (file : String) :
    ∀ {lines : List String} (number : Nat) {s : Session}, s.openFiles = openFiles →
    (∀ line ∈ lines, ∀ {inner : String} {isOptional : Bool},
      Line.read line = .directive (.inclusion inner isOptional) → inner ∈ names ∧
        ∀ {s : Session}, s.openFiles = openFiles → dict.isOpen openFiles inner = false →
          dict.AgreesFile (dict.strict.interpretFileTo depth) (dict.lenient.interpretFileTo depth)
            inner s) →
    dict.Agrees names
      (dict.strict.interpretLines (dict.strict.interpretFileTo depth) file number lines s)
      (dict.lenient.interpretLines (dict.lenient.interpretFileTo depth) file number lines s)
  | [], _, _, _, _ => .whole rfl rfl
  | line :: rest, number, s, hs, hfiles => by
    obtain ⟨hfile, hrestFiles⟩ := List.forall_mem_cons.mp hfiles
    have hline : dict.Agrees names
        (dict.strict.interpretLine (dict.strict.interpretFileTo depth) ⟨file, number⟩ (.read line) s)
        (dict.lenient.interpretLine (dict.lenient.interpretFileTo depth) ⟨file, number⟩
          (.read line) s) :=
      agrees_interpretLine (fun hread => ⟨(hfile hread).1, fun hopen =>
        (hfile hread).2 hs (hs ▸ hopen)⟩) ⟨file, number⟩
    refine hline.andThen (fun _ => ?_) (failure_interpretLines_lenient file (number + 1) rest)
      fun s' => ?_
    · have hs' : (dict.strict.interpretLine (dict.strict.interpretFileTo depth) ⟨file, number⟩
          (.read line) s).session.openFiles = s.openFiles := openFiles_interpretLine depth _ _ s
      exact agrees_interpretLines openFiles file (number + 1) (hs'.trans hs) hrestFiles
    · rw [session_interpretLines dict.lenient (session_interpretFileTo depth)]
      exact .run _ s'

/-! ### Files -/

/-- **A file agrees** within a depth that is enough for all files that can still be opened in it. -/
theorem agrees_interpretFileTo : ∀ {depth : Nat} {file : String} {s : Session},
    (dict.unopened (dict.pathOf file :: s.openFiles)).length < depth →
    dict.AgreesFile (dict.strict.interpretFileTo depth) (dict.lenient.interpretFileTo depth) file s
  | 0, _, _, hdepth => absurd hdepth (Nat.not_lt_zero _)
  | depth + 1, file, s, hdepth => by
    refine ⟨fun {e} htext => ?_, fun {text} htext => ?_⟩
    · have hstrict : dict.strict.disk.readText (dict.strict.pathOf file) = .error e := htext
      have hlenient : dict.lenient.disk.readText (dict.lenient.pathOf file) = .error e := htext
      exact ⟨interpretFileTo_of_error hstrict, interpretFileTo_of_error hlenient⟩
    · have hstrict : dict.strict.disk.readText (dict.strict.pathOf file) = .ok text := htext
      have hlenient : dict.lenient.disk.readText (dict.lenient.pathOf file) = .ok text := htext
      rw [interpretFileTo_of_ok hstrict, interpretFileTo_of_ok hlenient]
      refine Agrees.closeFile (agrees_interpretLines (dict.pathOf file :: s.openFiles) file 1 rfl ?_)
      intro line hline inner isOptional hread
      refine ⟨mem_inclusions hline hread, fun {s'} hs' hopen => ?_⟩
      have hmem : inner ∈ dict.mentioned := mem_mentioned htext (mem_inclusions hline hread)
      -- one file fewer is unopened now, and there is one level fewer to go down
      have hless := length_unopened_lt hmem hopen
      apply agrees_interpretFileTo
      rw [hs']
      omega

/-! ### Requests -/

variable (dict) in
/-- The text that a request has read. -/
def textOf : Request → Except FileError String
  | .text source => .ok source
  | .file name => dict.disk.readText (dict.pathOf name)

theorem agrees_interpretString (source : String) (s : Session) :
    dict.Agrees (inclusions source) (dict.strict.interpretString source s)
      (dict.lenient.interpretString source s) := by
  refine agrees_interpretLines s.openFiles "<string>" 1 rfl fun line hline inner isOptional hread => ?_
  exact ⟨mem_inclusions hline hread, fun {s'} _ _ =>
    agrees_interpretFileTo (length_unopened_lt_depthFrom dict _ source)⟩

theorem agreesFile_interpretFile (file : String) (s : Session) :
    dict.AgreesFile dict.strict.interpretFile dict.lenient.interpretFile file s :=
  agrees_interpretFileTo (length_unopened_lt_depthFrom dict _ "")

/-- What a request makes of the session is the same for both readings, or the text cannot be read,
or the strict reading is broken off on the way. -/
theorem agrees_answer (q : Request) (s : Session) :
    (∃ e, dict.textOf q = .error e ∧ dict.strict.answer q s = ⟨s, [], some (.file e)⟩ ∧
      dict.lenient.answer q s = ⟨s, [], some (.file e)⟩) ∨
    ∃ text, dict.textOf q = .ok text ∧
      dict.Agrees (inclusions text) (dict.strict.answer q s) (dict.lenient.answer q s) := by
  cases q with
  | text source => exact Or.inr ⟨source, rfl, agrees_interpretString source s⟩
  | file name =>
    have hfile : dict.AgreesFile dict.strict.interpretFile dict.lenient.interpretFile name s :=
      agreesFile_interpretFile name s
    cases htext : dict.disk.readText (dict.pathOf name) with
    | error e =>
      obtain ⟨hstrict, hlenient⟩ := hfile.unread htext
      exact Or.inl ⟨e, htext, hstrict, hlenient⟩
    | ok text => exact Or.inr ⟨text, htext, hfile.read htext⟩

/-- **Strict and lenient readings.** From whatever session a reading has left, a request is carried
out strictly and leniently. If the strict reading is not broken off, the lenient one has the same
outcome. If it is, either the text that was asked for cannot be read, and both fail alike and leave
the session as it was; or the error names inclusions, each in the file of the one before, down to a
file that cannot be read. The lenient reading has come to all of them, has gone on, and in the end
has all that the strict one found declared. -/
theorem strict_and_lenient (dict : Dictionary) (r : Reading) (q : Request) :
    let o := dict.strict.answer q r.session
    let o' := dict.lenient.answer q r.session
    (o.failure = none → o' = o) ∧
    ∀ e, o.failure = some e →
      (∃ cause, dict.textOf q = .error cause ∧ e = .file cause ∧
        o = ⟨r.session, [], some e⟩ ∧ o' = o) ∨
      ∃ text, dict.textOf q = .ok text ∧ dict.BreaksOff (inclusions text) e ∧
        (e.files.map ReadingEvent.including).Sublist o.events ∧ o.events <+: o'.events ∧
        o'.failure = none ∧ o.session.registry.Extends o'.session.registry := by
  intro o o'
  rcases dict.agrees_answer q r.session with ⟨cause, htext, hstrict, hlenient⟩ | ⟨text, htext, hagrees⟩
  · have ho : o = ⟨r.session, [], some (.file cause)⟩ := hstrict
    have ho' : o' = o := hlenient.trans hstrict.symm
    refine ⟨fun _ => ho', fun e he => Or.inl ⟨cause, htext, ?_, ?_, ho'⟩⟩
    · rw [ho] at he
      exact (Option.some.inj he).symm
    · rw [← he, ho]
  · cases hagrees with
    | whole hfailure heq =>
      refine ⟨fun _ => heq, fun e he => ?_⟩
      cases hfailure.symm.trans he
    | @broken cause hfailure hgoes =>
      refine ⟨fun hnone => ?_, fun e he => Or.inr ⟨text, htext, ?_⟩⟩
      · cases hfailure.symm.trans hnone
      · obtain rfl : cause = e := Option.some.inj (hfailure.symm.trans he)
        have hgrows : r.session.Grows o.session := by
          show r.session.Grows (dict.strict.answer q r.session).session
          rw [session_answer]
          exact .run _ _
        obtain ⟨hnames, -⟩ := hgrows r.namesAgree
        exact ⟨hgoes.cause, hgoes.attempts, hgoes.events, hgoes.failure, (hgoes.session hnames).2⟩

/-- A dictionary whose file `a` includes `b`, which includes a file that is not there. -/
def brokenDictionary : Dictionary where
  disk := (Disk.empty.put ["a"] (.file (.text "ATTRIBUTE X 1 string\n$INCLUDE b\n"))).put ["b"]
    (.file (.text "$INCLUDE- c\n$INCLUDE c\nATTRIBUTE Y 2 string\n"))
  root := .ofText "."
  options := ⟨false, false⟩

/-- The file `b` is read to its end by the lenient reading only; a file that is asked for and not
there fails both, and one that may be missing fails neither. -/
theorem strict_and_lenient_of_missing :
    let r : Reading := ⟨brokenDictionary, [], false⟩
    let e : LoadError := .inclusion "b" (.inclusion "c"
      (.file ⟨.openFile, brokenDictionary.pathOf "c", .notFound⟩))
    let o := brokenDictionary.strict.answer (.file "a") r.session
    let o' := brokenDictionary.lenient.answer (.file "a") r.session
    o.failure = some e ∧ brokenDictionary.BreaksOff ["b"] e ∧
      o.session.registry.Extends o'.session.registry ∧
      o.session.registry.attributes.keys = ["X"] ∧ o'.session.registry.attributes.keys = ["X", "Y"] ∧
      (brokenDictionary.strict.answer (.file "c") r.session).failure =
        some (.file ⟨.openFile, brokenDictionary.pathOf "c", .notFound⟩) ∧
      brokenDictionary.lenient.answer (.file "c") r.session =
        brokenDictionary.strict.answer (.file "c") r.session ∧
      (brokenDictionary.strict.answer (.text "$INCLUDE- c\n") r.session).failure = none ∧
      brokenDictionary.lenient.answer (.text "$INCLUDE- c\n") r.session =
        brokenDictionary.strict.answer (.text "$INCLUDE- c\n") r.session := by
  intro r e o o'
  obtain ⟨hfailure, hkeys, hkeys'⟩ : o.failure = some e ∧
      o.session.registry.attributes.keys = ["X"] ∧
      o'.session.registry.attributes.keys = ["X", "Y"] := by decide +kernel
  have hunread : (brokenDictionary.strict.answer (.file "c") r.session).failure =
      some (.file ⟨.openFile, brokenDictionary.pathOf "c", .notFound⟩) := by decide +kernel
  have habsent : (brokenDictionary.strict.answer (.text "$INCLUDE- c\n") r.session).failure =
      none := by decide +kernel
  have hsame := (strict_and_lenient brokenDictionary r (.text "$INCLUDE- c\n")).1 habsent
  have htext : brokenDictionary.textOf (.file "a") = .ok "ATTRIBUTE X 1 string\n$INCLUDE b\n" := rfl
  have hinclusions : inclusions "ATTRIBUTE X 1 string\n$INCLUDE b\n" = ["b"] := by decide +kernel
  rcases (strict_and_lenient brokenDictionary r (.file "a")).2 e hfailure with
    ⟨cause, -, he, -⟩ | ⟨text, htext', hcause, -, -, -, hextends⟩
  · have hinclusion : LoadError.inclusion "b" _ = .file cause := he
    cases hinclusion
  obtain rfl := Except.ok.inj (htext.symm.trans htext')
  rw [hinclusions] at hcause
  rcases (strict_and_lenient brokenDictionary r (.file "c")).2 _ hunread with
    ⟨-, -, -, -, halike⟩ | ⟨text, htext', -⟩
  · exact ⟨hfailure, hcause, hextends, hkeys, hkeys', hunread, halike, habsent, hsame⟩
  · cases htext'

end Dictionary

end RadiusDictionary
