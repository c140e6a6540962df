import RadiusDictionary.Proofs.Disk
import RadiusDictionary.Proofs.Reading.Ends
import RadiusDictionary.Proofs.Reading.Strict

/-! # Failing inclusions leave no trace

In a lenient reading a line that includes a file which cannot be read is `Futile`: the reading goes
on after it in the session that it found. `Prunes` takes some futile lines out of a list, and
`PrunedTo` out of all files of a dictionary. Two readings, of which the second one goes through what
is left of the first one's lines, keep step by induction on the first one (`Ends.alike`): lines that
both have do the same to both, and at a line that only the first one has, it stays where it is.

An error therefore comes from nowhere but the file that was asked for (`lenient_reading`). -/

namespace RadiusDictionary

/-- The outcomes leave the same session, and they are broken off by the same error or not at all.
What happened on the way may differ. -/
structure Outcome.Alike (o o' : Outcome) : Prop where
  session : o.session = o'.session
  failure : o.failure = o'.failure

/-- What a statement does to the session does not depend on its place. -/
theorem Session.apply_origin (s : Session) (origin origin' : Origin) (statement : Statement) :
    (s.apply origin statement).1 = (s.apply origin' statement).1 := by
  cases statement with
  | beginTlv name => rfl
  | endTlv name => rfl
  | beginVendor name => rfl
  | endVendor name => rfl
  | declareVendor line =>
    simp only [apply, declareVendor]
    split <;> rfl
  | declareAttribute line =>
    simp only [apply, declareAttribute]
    split <;> rfl
  | declareValue line =>
    simp only [apply, declareValue]
    split
    · rfl
    · split <;> rfl

namespace Dictionary

variable (dict : Dictionary)

/-- The line includes a file that cannot be read. -/
def Futile (line : String) : Prop :=
  ∃ file isOptional e, Line.read line = .directive (.inclusion file isOptional) ∧
    dict.disk.readText (dict.pathOf file) = .error e

/-- The second list is the first one without some of its futile lines. -/
inductive Prunes : List String → List String → Prop
  | nil : Prunes [] []
  | keep (line : String) {lines lines' : List String} (h : Prunes lines lines') :
    Prunes (line :: lines) (line :: lines')
  | drop {line : String} {lines lines' : List String} (hline : dict.Futile line)
    (h : Prunes lines lines') : Prunes (line :: lines) lines'

/-- What lies at a location, and what lies there when some futile lines are gone. -/
inductive PrunesEntry : Option Entry → Option Entry → Prop
  | same (e : Option Entry) : PrunesEntry e e
  | text {text text' : String} (h : dict.Prunes (Text.lines text) (Text.lines text')) :
    PrunesEntry (some (.file (.text text))) (some (.file (.text text')))

/-- The second dictionary is the first one without some of the futile lines of its files. -/
structure PrunedTo (dict' : Dictionary) : Prop where
  root : dict'.root = dict.root
  options : dict'.options = dict.options
  here : dict'.disk.here = dict.disk.here
  entries : ∀ loc, dict.PrunesEntry (dict.disk.entry? loc) (dict'.disk.entry? loc)

/-- Reading a file, or lines and what is left of them. -/
inductive PrunesTask : Task → Task → Prop
  | file (file : String) : PrunesTask (.file file) (.file file)
  | lines {file file' : String} {number number' : Nat} {lines lines' : List String}
    (h : dict.Prunes lines lines') :
    PrunesTask (.lines file number lines) (.lines file' number' lines')

variable {dict} {dict' : Dictionary}

theorem Prunes.refl : ∀ lines, dict.Prunes lines lines
  | [] => .nil
  | line :: rest => .keep line (refl rest)

/-! ### The same paths are read -/

namespace PrunedTo

theorem refl (dict : Dictionary) : dict.PrunedTo dict := ⟨rfl, rfl, rfl, fun _ => .same _⟩

/-- One file is pruned. -/
theorem put {disk : Disk} {loc : Location} {text text' : String} (hloc : loc ≠ [])
    (hdisk : dict.disk = disk.put loc (.file (.text text)))
    (h : dict.Prunes (Text.lines text) (Text.lines text')) :
    dict.PrunedTo { dict with disk := disk.put loc (.file (.text text')) } := by
  refine ⟨rfl, rfl, by rw [hdisk]; rfl, fun l => ?_⟩
  rw [hdisk, Disk.entry?_put disk hloc, Disk.entry?_put disk hloc]
  split
  · exact .text h
  · exact .same _

variable (h : dict.PrunedTo dict')
include h

theorem pathOf_eq (file : String) : dict'.pathOf file = dict.pathOf file := by
  rw [pathOf, pathOf, h.root]

theorem requireFolder_eq (loc : Location) :
    dict'.disk.requireFolder loc = dict.disk.requireFolder loc := by
  unfold Disk.requireFolder
  generalize dict.disk.entry? loc = entry, dict'.disk.entry? loc = entry', h.entries loc = hentry
  cases hentry with
  | same => rfl
  | text => rfl

theorem enter_eq (loc : Location) (piece : String) :
    dict'.disk.enter loc piece = dict.disk.enter loc piece := by
  rw [Disk.enter, Disk.enter, h.requireFolder_eq]

theorem resolve_eq (p : Path) : dict'.disk.resolve p = dict.disk.resolve p := by
  have henter : dict'.disk.enter = dict.disk.enter :=
    funext fun loc => funext fun piece => h.enter_eq loc piece
  rw [Disk.resolve, Disk.resolve, henter, Disk.start, Disk.start, h.here]

theorem holds_eq (p : Path) : dict'.disk.holds p = dict.disk.holds p := by
  rw [Disk.holds, Disk.holds, h.resolve_eq]
  cases dict.disk.resolve p with
  | error fault => rfl
  | ok loc =>
    simp only
    generalize dict.disk.entry? loc = entry, dict'.disk.entry? loc = entry', h.entries loc = hentry
    cases hentry with
    | same => rfl
    | text => rfl

/-- What can be read of the one dictionary can be read of the other, without some of the lines. -/
theorem readText (p : Path) :
    (∃ e, dict.disk.readText p = .error e ∧ dict'.disk.readText p = .error e) ∨
    ∃ text text', dict.disk.readText p = .ok text ∧ dict'.disk.readText p = .ok text' ∧
      dict.Prunes (Text.lines text) (Text.lines text') := by
  simp only [Disk.readText, h.resolve_eq]
  cases dict.disk.resolve p with
  | error fault => exact Or.inl ⟨_, rfl, rfl⟩
  | ok loc =>
    simp only
    generalize dict.disk.entry? loc = entry, dict'.disk.entry? loc = entry', h.entries loc = hentry
    cases hentry with
    | text htext => exact Or.inr ⟨_, _, rfl, rfl, htext⟩
    | same =>
      match entry with
      | none => exact Or.inl ⟨_, rfl, rfl⟩
      | some .folder => exact Or.inl ⟨_, rfl, rfl⟩
      | some (.file (.bytes _)) => exact Or.inl ⟨_, rfl, rfl⟩
      | some (.file (.text text)) => exact Or.inr ⟨text, text, rfl, rfl, .refl _⟩

theorem enters_iff {openFiles : List Path} {file : String} {isOptional : Bool} :
    dict'.Enters openFiles file isOptional ↔ dict.Enters openFiles file isOptional := by
  simp only [Enters, isOpen, h.pathOf_eq, h.holds_eq]

end PrunedTo

/-! ### Lines -/

section Lines

variable {nested nested' : String → Session → Outcome} {s : Session}

/-- A line does alike if the file that it enters is read alike. -/
theorem alike_interpretLine (h : dict.PrunedTo dict') {line : Line}
    (hfile : ∀ inner isOptional, line = .directive (.inclusion inner isOptional) →
      dict.Enters s.openFiles inner isOptional → (nested inner s).Alike (nested' inner s))
    (origin origin' : Origin) :
    (dict.interpretLine nested origin line s).Alike
      (dict'.interpretLine nested' origin' line s) := by
  cases line with
  | blank => exact ⟨rfl, rfl⟩
  | malformed => exact ⟨rfl, rfl⟩
  | directive d =>
    cases d with
    | statement statement => exact ⟨s.apply_origin origin origin' statement, rfl⟩
    | inclusion inner isOptional =>
      simp only [interpretLine, interpretInclusion, h.pathOf_eq, h.holds_eq, h.options]
      by_cases hopen : s.openFiles.any (dict.pathOf inner).same = true
      · simp only [if_pos hopen]
        exact ⟨rfl, rfl⟩
      by_cases habsent : (isOptional && !dict.disk.holds (dict.pathOf inner)) = true
      · simp only [if_neg hopen, if_pos habsent]
        exact ⟨rfl, rfl⟩
      obtain ⟨hsession, hfailure⟩ := hfile inner isOptional rfl (.of_not hopen habsent)
      simp only [if_neg hopen, if_neg habsent, Outcome.after]
      cases hcause : (nested' inner s).failure with
      | none =>
        rw [hcause] at hfailure
        by_cases hextension : inner = extensionFile
        · simp only [hfailure, if_pos hextension]
          exact ⟨congrArg (·.move .noteExtension) hsession, rfl⟩
        · simp only [hfailure, if_neg hextension]
          exact ⟨hsession, rfl⟩
      | some cause =>
        rw [hcause] at hfailure
        by_cases hstrict : dict.options.strictIncludes = true
        · simp only [hfailure, if_pos hstrict]
          exact ⟨hsession, rfl⟩
        · simp only [hfailure, if_neg hstrict]
          exact ⟨hsession, rfl⟩

/-- A futile line does nothing in a lenient reading, if the file that it enters is not read. -/
theorem alike_of_futile (hlenient : dict.options.strictIncludes = false) {line inner : String}
    {isOptional : Bool} (hread : Line.read line = .directive (.inclusion inner isOptional))
    (hfile : dict.Enters s.openFiles inner isOptional → ∃ e, nested inner s = ⟨s, [], some e⟩)
    (origin : Origin) : (dict.interpretLine nested origin (.read line) s).Alike (.still s) := by
  simp only [hread, interpretLine, interpretInclusion]
  by_cases hopen : s.openFiles.any (dict.pathOf inner).same = true
  · simp only [if_pos hopen]
    exact ⟨rfl, rfl⟩
  by_cases habsent : (isOptional && !dict.disk.holds (dict.pathOf inner)) = true
  · simp only [if_neg hopen, if_pos habsent]
    exact ⟨rfl, rfl⟩
  obtain ⟨e, he⟩ := hfile (.of_not hopen habsent)
  simp only [if_neg hopen, if_neg habsent, he, hlenient, Outcome.after]
  exact ⟨rfl, rfl⟩

end Lines

/-! ### Readings -/

/-- **Two readings keep step**, if the second one goes through what is left of the lines of the
first one. -/
theorem Ends.alike (hlenient : dict.options.strictIncludes = false) (hpruned : dict.PrunedTo dict')
    {task : Task} {s : Session} {o : Outcome} (h : dict.Ends task s o) :
    ∀ {task' : Task} {o' : Outcome}, dict.PrunesTask task task' → dict'.Ends task' s o' →
      o.Alike o' := by
  induction h with
  | @unread file s e htext =>
    rintro _ o' ⟨⟩ h'
    rcases hpruned.readText (dict.pathOf file) with ⟨e', he, he'⟩ | ⟨text, text', he, -, -⟩
    · obtain rfl := Except.error.inj (htext.symm.trans he)
      rw [← hpruned.pathOf_eq] at he'
      exact h'.unique (.unread he') ▸ ⟨rfl, rfl⟩
    · cases htext.symm.trans he
  | @read file text s o htext _ ih =>
    rintro _ o' ⟨⟩ h'
    rcases hpruned.readText (dict.pathOf file) with ⟨e, he, -⟩ | ⟨_, text', he, he', hprunes⟩
    · cases htext.symm.trans he
    obtain rfl := Except.ok.inj (htext.symm.trans he)
    rw [← hpruned.pathOf_eq] at he'
    cases h' with
    | unread htext' => cases he'.symm.trans htext'
    | read htext' hlines' =>
      obtain rfl := Except.ok.inj (he'.symm.trans htext')
      rw [hpruned.pathOf_eq] at hlines'
      obtain ⟨hsession, hfailure⟩ := ih (.lines hprunes) hlines'
      exact ⟨congrArg (·.move .closeFile) hsession, hfailure⟩
  | nil =>
    intro _ o' htask h'
    cases htask with
    | lines hprunes =>
      cases hprunes
      cases h'
      exact ⟨rfl, rfl⟩
  | @line file line number rest s o nested hfile _ ihfile ihrest =>
    intro _ o' htask h'
    cases htask with
    | @lines _ file' _ number' _ _ hprunes =>
      cases hprunes with
      | keep _ hprunes =>
        cases h' with
        | @line _ _ _ _ _ o' nested' hfile' hrest' =>
          -- what both have read in the line's place is alike, so that both go on in one session
          have hline : (dict.interpretLine nested ⟨file, number⟩ (.read line) s).Alike
              (dict'.interpretLine nested' ⟨file', number'⟩ (.read line) s) :=
            alike_interpretLine hpruned (fun inner isOptional hread henters =>
              ihfile inner isOptional hread henters (.file inner)
                (hfile' inner isOptional hread (hpruned.enters_iff.mpr henters))) _ _
          obtain ⟨hsession, hfailure⟩ := hline
          cases hnone : (dict.interpretLine nested ⟨file, number⟩ (.read line) s).failure with
          | some e =>
            simp only [Outcome.andThen, hnone, ← hfailure]
            exact ⟨hsession, hfailure⟩
          | none =>
            rw [← hfailure, ← hsession] at hrest'
            obtain ⟨hsession', hfailure'⟩ := ihrest hnone (.lines hprunes) (hrest' hnone)
            simp only [Outcome.andThen, hnone, ← hfailure]
            exact ⟨hsession', hfailure'⟩
      | drop hline hprunes =>
        obtain ⟨inner, isOptional, e, hread, htext⟩ := hline
        have hline : (dict.interpretLine nested ⟨file, number⟩ (.read line) s).Alike (.still s) :=
          alike_of_futile hlenient hread (fun henters =>
            ⟨.file e, (hfile inner isOptional hread henters).unique (.unread htext)⟩) _
        obtain ⟨hsession, hnone⟩ := hline
        -- the second reading has not got the line, and is where the first one still is
        rw [hsession] at ihrest
        obtain ⟨hsession', hfailure'⟩ := ihrest hnone (.lines hprunes) h'
        simp only [Outcome.andThen, hnone]
        exact ⟨hsession', hfailure'⟩
  | unmerged => rintro _ _ ⟨⟩
  | merged => rintro _ _ ⟨⟩
  | builtin => rintro _ _ ⟨⟩
  | load => rintro _ _ ⟨⟩

theorem lenient_eq_self (hlenient : dict.options.strictIncludes = false) : dict.lenient = dict := by
  obtain ⟨disk, root, strictIncludes, mergeExtension⟩ := dict
  obtain rfl : strictIncludes = false := hlenient
  rfl

theorem failure_interpretString (hlenient : dict.options.strictIncludes = false) (text : String)
    (s : Session) : (dict.interpretString text s).failure = none := by
  rw [← lenient_eq_self hlenient]
  exact failure_interpretLines_lenient "<string>" 1 (Text.lines text) s

/-- What cannot be read is all that breaks off the reading of a file. -/
theorem interpretFile_cases (hlenient : dict.options.strictIncludes = false) (file : String)
    (s : Session) :
    (∃ e, dict.disk.readText (dict.pathOf file) = .error e ∧
      dict.interpretFile file s = ⟨s, [], some (.file e)⟩) ∨
    ∃ text, dict.disk.readText (dict.pathOf file) = .ok text ∧
      (dict.interpretFile file s).failure = none := by
  cases htext : dict.disk.readText (dict.pathOf file) with
  | error e =>
    exact Or.inl ⟨e, rfl, (ends_interpretFile file s).unique (.unread htext)⟩
  | ok text =>
    refine Or.inr ⟨text, rfl, ?_⟩
    rw [interpretFile, depthFrom, interpretFileTo_of_ok htext, ← lenient_eq_self hlenient]
    exact failure_interpretLines_lenient file 1 (Text.lines text) _

/-- **Failing inclusions leave no trace.** Let failing inclusions be forgiven. A text is read
without an error, in whatever session. A file fails if and only if it cannot be read itself, and
then it leaves the session as it was, with all that is known in it. After a line whose inclusion
fails, wherever it stands, the further lines do what they do without this line. So lines of this
kind can be taken out of a text and of all files of the dictionary: what is read then leaves the
same session, and fails if and only if it failed before. -/
theorem lenient_reading (dict : Dictionary) (hlenient : dict.options.strictIncludes = false) :
    (∀ text s, (dict.interpretString text s).failure = none) ∧
    (∀ file s, ((dict.interpretFile file s).failure ≠ none ↔
        ∃ e, dict.disk.readText (dict.pathOf file) = .error e) ∧
      ((dict.interpretFile file s).failure ≠ none → (dict.interpretFile file s).session = s)) ∧
    (∀ {line inner : String} {isOptional : Bool} {s : Session},
      Line.read line = .directive (.inclusion inner isOptional) →
      (dict.interpretFile inner s).failure ≠ none →
      ∀ {file file' : String} {number number' : ℕ} {rest : List String} {o o' : Outcome},
        dict.Ends (.lines file number (line :: rest)) s o →
        dict.Ends (.lines file' number' rest) s o' → o.Alike o') ∧
    ∀ dict', dict.PrunedTo dict' →
      (∀ {text text'}, dict.Prunes (Text.lines text) (Text.lines text') →
        ∀ s, (dict.interpretString text s).Alike (dict'.interpretString text' s)) ∧
      ∀ file s, (dict.interpretFile file s).Alike (dict'.interpretFile file s) := by
  refine ⟨failure_interpretString hlenient, fun file s => ?_, ?_, fun dict' hpruned => ?_⟩
  · rcases interpretFile_cases hlenient file s with ⟨e, htext, heq⟩ | ⟨text, htext, hnone⟩
    · rw [heq]
      exact ⟨⟨fun _ => ⟨e, htext⟩, fun _ => Option.some_ne_none _⟩, fun _ => rfl⟩
    · refine ⟨⟨fun hfailure => absurd hnone hfailure, fun ⟨e, he⟩ => ?_⟩,
        fun hfailure => absurd hnone hfailure⟩
      cases htext.symm.trans he
  · intro line inner isOptional s hread hfailure file file' number number' rest o o' h h'
    rcases interpretFile_cases hlenient inner s with ⟨e, htext, -⟩ | ⟨-, -, hnone⟩
    · exact h.alike hlenient (.refl dict) (.lines (.drop ⟨inner, isOptional, e, hread, htext⟩
        (.refl rest))) h'
    · exact absurd hnone hfailure
  · refine ⟨fun {text text'} hprunes s => ?_, fun file s => ?_⟩
    · exact (ends_interpretSource "<string>" text s).alike hlenient hpruned (.lines hprunes)
        (ends_interpretSource "<string>" text' s)
    · exact (ends_interpretFile file s).alike hlenient hpruned (.file file)
        (ends_interpretFile file s)

/-- The dictionary without the lines that include the file that is not there. -/
def mendedDictionary : Dictionary :=
  { brokenDictionary with
    disk := (Disk.empty.put ["a"] (.file (.text "ATTRIBUTE X 1 string\n$INCLUDE b\n"))).put ["b"]
      (.file (.text "ATTRIBUTE Y 2 string\n")) }

theorem prunedTo_mendedDictionary : brokenDictionary.PrunedTo mendedDictionary := by
  have hfutile : ∀ line isOptional, Line.read line = .directive (.inclusion "c" isOptional) →
      brokenDictionary.Futile line :=
    fun line isOptional hread => ⟨"c", isOptional, _, hread, rfl⟩
  have hlines : Text.lines "$INCLUDE- c\n$INCLUDE c\nATTRIBUTE Y 2 string\n" =
      ["$INCLUDE- c", "$INCLUDE c", "ATTRIBUTE Y 2 string"] := by decide +kernel
  have hlines' : Text.lines "ATTRIBUTE Y 2 string\n" = ["ATTRIBUTE Y 2 string"] := by
    decide +kernel
  refine .put (List.cons_ne_nil _ _) rfl ?_
  rw [hlines, hlines']
  exact .drop (hfutile _ true (by decide +kernel)) (.drop (hfutile _ false (by decide +kernel))
    (.refl _))

/-- The missing file makes no difference to what is found in `a` and `b`, nor to a text that
includes it; only a reading of the file itself fails. -/
theorem lenient_reading_of_missing :
    let o := brokenDictionary.interpretFile "a" .start
    brokenDictionary.options.strictIncludes = false ∧
      o.failure = none ∧ o.session.registry.attributes.keys = ["X", "Y"] ∧
      o.Alike (mendedDictionary.interpretFile "a" .start) ∧
      (brokenDictionary.interpretString "$INCLUDE c\n" o.session).failure = none ∧
      (brokenDictionary.interpretFile "c" o.session).failure ≠ none ∧
      (brokenDictionary.interpretFile "c" o.session).session = o.session ∧
      ∀ {rest : List String} {o₁ o₂ : Outcome},
        brokenDictionary.Ends (.lines "d" 1 ("$INCLUDE c" :: rest)) o.session o₁ →
        brokenDictionary.Ends (.lines "d" 2 rest) o.session o₂ → o₁.Alike o₂ := by
  intro o
  obtain ⟨hnone, hkeys⟩ : o.failure = none ∧ o.session.registry.attributes.keys = ["X", "Y"] := by
    decide +kernel
  obtain ⟨hstrings, hfiles, hlines, hpruned⟩ := lenient_reading brokenDictionary rfl
  obtain ⟨hunread, hsame⟩ := hfiles "c" o.session
  have hfailure : (brokenDictionary.interpretFile "c" o.session).failure ≠ none :=
    hunread.mpr ⟨_, rfl⟩
  have hread : Line.read "$INCLUDE c" = .directive (.inclusion "c" false) := by decide +kernel
  exact ⟨rfl, hnone, hkeys, (hpruned mendedDictionary prunedTo_mendedDictionary).2 "a" .start,
    hstrings _ _, hfailure, hsame hfailure, hlines hread hfailure⟩

end Dictionary

end RadiusDictionary
