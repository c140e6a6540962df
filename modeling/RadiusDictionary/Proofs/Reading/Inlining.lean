import RadiusDictionary.Proofs.Reading.Depth
import RadiusDictionary.Proofs.Reading.Plain

/-! # Inclusion is inlining

`Inlines` puts the lines of included files in the place of the inclusions, down to lines that
include nothing (`Inlines.isInclusion_eq_false`). An inclusion is passed over, and leaves no line,
if its file is open already, may be missing and is missing, or cannot be read.

A reading that forgives failing inclusions does what reading the inlined lines does: `Follows` says
so of a part of a reading, `follows_interpretLines` shows it of lines from that of the files that
they include, `follows_interpretFileTo` of files by induction on the depth, which is never used
up. -/

namespace RadiusDictionary

namespace Dictionary

variable (dict : Dictionary)

/-- Whether an inclusion that is met while `openFiles` are being read leaves no line. -/
def PassesOver (openFiles : List Path) (file : String) (isOptional : Bool) : Prop :=
  dict.isOpen openFiles file = true ∨
    (isOptional = true ∧ dict.disk.holds (dict.pathOf file) = false) ∨
    ∃ e, dict.disk.readText (dict.pathOf file) = .error e

/-- The lines `flat` are `lines` with the lines of a file in the place of each inclusion, and so on
in the file. -/
inductive Inlines : (openFiles : List Path) → (lines flat : List String) → Prop
  | nil {openFiles : List Path} : Inlines openFiles [] []
  | keep {openFiles : List Path} {line : String} {rest flat : List String}
    (hline : (Line.read line).isInclusion = false) (hrest : Inlines openFiles rest flat) :
    Inlines openFiles (line :: rest) (line :: flat)
  | pass {openFiles : List Path} {line file : String} {isOptional : Bool} {rest flat : List String}
    (hline : Line.read line = .directive (.inclusion file isOptional))
    (hpass : dict.PassesOver openFiles file isOptional) (hrest : Inlines openFiles rest flat) :
    Inlines openFiles (line :: rest) flat
  | inline {openFiles : List Path} {line file text : String} {isOptional : Bool}
    {rest inner flat : List String}
    (hline : Line.read line = .directive (.inclusion file isOptional))
    (hpass : ¬ dict.PassesOver openFiles file isOptional)
    (htext : dict.disk.readText (dict.pathOf file) = .ok text)
    (hinner : Inlines (dict.pathOf file :: openFiles) (Text.lines text) inner)
    (hrest : Inlines openFiles rest flat) :
    Inlines openFiles (line :: rest) (inner ++ flat)

variable {dict} {openFiles : List Path} {lines lines' flat flat' : List String}

/-! ### Inlined lines -/

namespace Inlines

/-- **There is one way to inline.** -/
theorem unique (h : dict.Inlines openFiles lines flat) (h' : dict.Inlines openFiles lines flat') :
    flat = flat' := by
  induction h generalizing flat' with
  | nil => cases h'; rfl
  | keep hline _ ih =>
    cases h' with
    | keep _ hrest' => rw [ih hrest']
    | pass hline' => rw [hline'] at hline; cases hline
    | inline hline' => rw [hline'] at hline; cases hline
  | pass hline hpass _ ih =>
    cases h' with
    | keep hline' => rw [hline] at hline'; cases hline'
    | pass _ _ hrest' => exact ih hrest'
    | inline hline' hpass' =>
      rw [hline] at hline'
      cases hline'
      exact absurd hpass hpass'
  | inline hline hpass htext _ _ ihinner ih =>
    cases h' with
    | keep hline' => rw [hline] at hline'; cases hline'
    | pass hline' hpass' =>
      rw [hline] at hline'
      cases hline'
      exact absurd hpass' hpass
    | inline hline' _ htext' hinner' hrest' =>
      rw [hline] at hline'
      cases hline'
      obtain rfl := Except.ok.inj (htext.symm.trans htext')
      rw [ihinner hinner', ih hrest']

theorem append (h : dict.Inlines openFiles lines flat) (h' : dict.Inlines openFiles lines' flat') :
    dict.Inlines openFiles (lines ++ lines') (flat ++ flat') := by
  induction lines generalizing flat with
  | nil => cases h; exact h'
  | cons line rest ih =>
    cases h with
    | keep hline hrest => exact .keep hline (ih hrest)
    | pass hline hpass hrest => exact .pass hline hpass (ih hrest)
    | inline hline hpass htext hinner hrest =>
      rw [List.append_assoc]
      exact .inline hline hpass htext hinner (ih hrest)

/-- Lines are inlined part by part. -/
theorem exists_append (h : dict.Inlines openFiles (lines ++ lines') flat) : ∃ front back,
    dict.Inlines openFiles lines front ∧ dict.Inlines openFiles lines' back ∧
      flat = front ++ back := by
  induction lines generalizing flat with
  | nil => exact ⟨[], flat, .nil, h, rfl⟩
  | cons line rest ih =>
    cases h with
    | keep hline hrest =>
      obtain ⟨front, back, hfront, hback, rfl⟩ := ih hrest
      exact ⟨line :: front, back, .keep hline hfront, hback, rfl⟩
    | pass hline hpass hrest =>
      obtain ⟨front, back, hfront, hback, rfl⟩ := ih hrest
      exact ⟨front, back, .pass hline hpass hfront, hback, rfl⟩
    | inline hline hpass htext hinner hrest =>
      obtain ⟨front, back, hfront, hback, rfl⟩ := ih hrest
      exact ⟨_, back, .inline hline hpass htext hinner hfront, hback,
        (List.append_assoc _ _ _).symm⟩

/-- No inclusion is left. -/
theorem isInclusion_eq_false (h : dict.Inlines openFiles lines flat) :
    ∀ line ∈ flat, (Line.read line).isInclusion = false := by
  induction h with
  | nil => simp
  | keep hline _ ih => exact List.forall_mem_cons.mpr ⟨hline, ih⟩
  | pass _ _ _ ih => exact ih
  | inline _ _ _ _ _ ihinner ih => exact List.forall_mem_append.mpr ⟨ihinner, ih⟩

/-- Inlined lines are lines: there is no line feed in them. -/
theorem not_mem_of_forall_not_mem (h : dict.Inlines openFiles lines flat)
    (hlines : ∀ line ∈ lines, '\n' ∉ line.toList) : ∀ line ∈ flat, '\n' ∉ line.toList := by
  induction h with
  | nil => exact hlines
  | keep _ _ ih =>
    obtain ⟨hline, hrest⟩ := List.forall_mem_cons.mp hlines
    exact List.forall_mem_cons.mpr ⟨hline, ih hrest⟩
  | pass _ _ _ ih => exact ih (List.forall_mem_cons.mp hlines).2
  | inline _ _ _ _ _ ihinner ih =>
    refine List.forall_mem_append.mpr ⟨ihinner ?_, ih (List.forall_mem_cons.mp hlines).2⟩
    exact fun line hline => Text.not_mem_of_mem_lines hline

end Inlines

/-! ### Readings -/

variable (dict) in
/-- The outcome of lines that are read in `s` is that of the inlined lines. -/
def Follows (openFiles : List Path) (lines : List String) (s : Session) (o : Outcome) : Prop :=
  ∃ flat, dict.Inlines openFiles lines flat ∧ o.Obeys flat s

variable (dict) in
/-- What `nested` makes of a file that lenient readings come to. -/
structure FollowsFile (nested : String → Session → Outcome) (file : String) (s : Session) :
    Prop where
  unread : ∀ {e}, dict.disk.readText (dict.pathOf file) = .error e →
    nested file s = ⟨s, [], some (.file e)⟩
  read : ∀ {text}, dict.disk.readText (dict.pathOf file) = .ok text →
    dict.Follows (dict.pathOf file :: s.openFiles) (Text.lines text) s (nested file s)

section Lines

variable {nested : String → Session → Outcome}

theorem follows_interpretInclusion (hlenient : dict.options.strictIncludes = false)
    {line file : String} {isOptional : Bool} {s : Session}
    (hline : Line.read line = .directive (.inclusion file isOptional))
    (hfile : dict.isOpen s.openFiles file = false → dict.FollowsFile nested file s)
    (origin : Origin) :
    dict.Follows s.openFiles [line] s
      (dict.interpretInclusion nested origin file isOptional s) := by
  -- the three ways to pass over an inclusion leave the session as it is
  have passed : dict.PassesOver s.openFiles file isOptional → ∀ events,
      dict.Follows s.openFiles [line] s ⟨s, events, none⟩ :=
    fun hpass events => ⟨[], .pass hline hpass .nil, .nothing s events⟩
  unfold interpretInclusion
  by_cases hopen : s.openFiles.any (dict.pathOf file).same = true
  · simp only [if_pos hopen]
    exact passed (Or.inl hopen) _
  by_cases habsent : (isOptional && !dict.disk.holds (dict.pathOf file)) = true
  · simp only [if_neg hopen, if_pos habsent]
    exact passed (Or.inr (Or.inl (by simpa using habsent))) _
  simp only [if_neg hopen, if_neg habsent]
  have hnested := hfile (Bool.not_eq_true _ ▸ hopen)
  cases htext : dict.disk.readText (dict.pathOf file) with
  | error e =>
    simp only [hnested.unread htext, Outcome.after, hlenient, Bool.false_eq_true, if_false]
    exact passed (Or.inr (Or.inr ⟨e, htext⟩)) _
  | ok text =>
    obtain ⟨inner, hinner, hobeys⟩ := hnested.read htext
    have hpass : ¬ dict.PassesOver s.openFiles file isOptional := by
      rintro (h | ⟨hoptional, hmissing⟩ | ⟨e, he⟩)
      · exact hopen h
      · exact habsent (by simp [hoptional, hmissing])
      · cases htext.symm.trans he
    refine ⟨inner ++ [], .inline hline hpass htext hinner .nil, ?_⟩
    rw [List.append_nil]
    simp only [Outcome.after, hobeys.failure]
    -- the extension may be noted, which is knowledge about files
    split
    · exact ⟨rfl, hobeys.openFiles, hobeys.withoutFiles⟩
    · exact ⟨rfl, hobeys.openFiles, hobeys.withoutFiles⟩

/-- A line is followed if the file that it includes is followed. -/
theorem follows_interpretLine (hlenient : dict.options.strictIncludes = false) {line : String}
    {s : Session} (hfile : ∀ {file isOptional},
      Line.read line = .directive (.inclusion file isOptional) →
      dict.isOpen s.openFiles file = false → dict.FollowsFile nested file s) (origin : Origin) :
    dict.Follows s.openFiles [line] s (dict.interpretLine nested origin (.read line) s) := by
  cases hinclusion : (Line.read line).isInclusion with
  | false => exact ⟨[line], .keep hinclusion .nil, obeys_interpretLine hinclusion origin s⟩
  | true =>
    obtain ⟨file, isOptional, hline⟩ := Line.isInclusion_eq_true_iff.mp hinclusion
    obtain ⟨flat, hflat, hobeys⟩ :=
      follows_interpretInclusion hlenient hline (hfile hline) origin
    rw [hline]
    exact ⟨flat, hflat, hobeys.after _⟩

/-- **Lines are followed if the files that they include are followed.** -/
theorem follows_interpretLines (hlenient : dict.options.strictIncludes = false)
    (openFiles : List Path) (file : String) : ∀ {lines : List String} (number : Nat) {s : Session},
    s.openFiles = openFiles →
    (∀ line ∈ lines, ∀ {file isOptional s},
      Line.read line = .directive (.inclusion file isOptional) → s.openFiles = openFiles →
      dict.isOpen openFiles file = false → dict.FollowsFile nested file s) →
    dict.Follows openFiles lines s (dict.interpretLines nested file number lines s)
  | [], _, s, _, _ => ⟨[], .nil, .nothing s []⟩
  | line :: rest, number, s, hs, hfiles => by
    obtain ⟨hfile, hrestFiles⟩ := List.forall_mem_cons.mp hfiles
    obtain ⟨front, hfront, hobeys⟩ := follows_interpretLine hlenient
      (fun hline hopen => hfile hline hs (hs ▸ hopen)) ⟨file, number⟩
    obtain ⟨back, hback, hobeys'⟩ := follows_interpretLines hlenient openFiles file (number + 1)
      (hobeys.openFiles.trans hs) hrestFiles
    rw [hs] at hfront
    exact ⟨front ++ back, hfront.append hback, hobeys.andThen hobeys'⟩

end Lines

/-! ### Files -/

/-- **A file is followed** if the depth is enough for all files that can still be opened in it. -/
theorem follows_interpretFileTo (hlenient : dict.options.strictIncludes = false) :
    ∀ {depth : Nat} {file : String} {s : Session},
    (dict.unopened (dict.pathOf file :: s.openFiles)).length < depth →
    dict.FollowsFile (dict.interpretFileTo depth) file s
  | 0, _, _, hdepth => absurd hdepth (Nat.not_lt_zero _)
  | depth + 1, file, s, hdepth => by
    refine ⟨interpretFileTo_of_error, fun {text} htext => ?_⟩
    rw [interpretFileTo_of_ok htext]
    have hfiles : ∀ line ∈ Text.lines text, ∀ {inner isOptional s'},
        Line.read line = .directive (.inclusion inner isOptional) →
        s'.openFiles = dict.pathOf file :: s.openFiles →
        dict.isOpen (dict.pathOf file :: s.openFiles) inner = false →
        dict.FollowsFile (dict.interpretFileTo depth) inner s' := by
      intro line hline inner isOptional s' hinclusion hs' hopen
      have hmem : inner ∈ dict.mentioned := mem_mentioned htext (mem_inclusions hline hinclusion)
      -- one file fewer is unopened now, and there is one level fewer to go down
      have hless := length_unopened_lt hmem hopen
      apply follows_interpretFileTo hlenient
      rw [hs']
      omega
    have hopened : (s.move (.openFile (dict.pathOf file))).openFiles =
        dict.pathOf file :: s.openFiles := rfl
    obtain ⟨flat, hflat, hobeys⟩ := follows_interpretLines hlenient _ file 1 hopened hfiles
    exact ⟨flat, hflat, hobeys.closeFile⟩

/-- Without the extension, loading is reading the root file. -/
theorem load_of_failure_eq_none {dict : Dictionary} (hplain : dict.options.mergeExtension = false)
    (h : (dict.interpretFile rootFile .start).failure = none) :
    dict.load.1 = .ok (dict.interpretFile rootFile .start).session.registry := by
  have hfinish : dict.finish (dict.interpretFile rootFile .start).session =
      ((dict.interpretFile rootFile .start).session, []) := by
    rw [finish, hplain, Bool.false_and, if_neg Bool.false_ne_true]
  rw [load]
  simp only [h, hfinish]

/-- **Loading a dictionary reads the inlined lines of its root file**, and whoever reads these lines
as a text needs no disk for it. Where the root file is cut in two, so are the inlined lines, and
what is declared and open after the front is so for the back, whichever file it comes from. -/
theorem load_eq_inlined (dict : Dictionary) (hlenient : dict.options.strictIncludes = false)
    (hplain : dict.options.mergeExtension = false) {text : String}
    (htext : dict.disk.readText (dict.pathOf rootFile) = .ok text) :
    ∃ flat, (∀ lines, dict.Inlines [dict.pathOf rootFile] (Text.lines text) lines ↔ lines = flat) ∧
      ∀ reader : Dictionary,
        let read := reader.interpretString (Text.unlines flat) .start
        read.failure = none ∧ dict.load.1 = .ok read.session.registry ∧
        (dict.interpretFile rootFile .start).session.withoutFiles = read.session.withoutFiles ∧
        ∀ before after, Text.lines text = before ++ after → ∃ front back,
          dict.Inlines [dict.pathOf rootFile] before front ∧
          dict.Inlines [dict.pathOf rootFile] after back ∧ flat = front ++ back ∧
          let opened := (reader.interpretString (Text.unlines front) .start).session
          (reader.interpretString (Text.unlines back) opened).session.withoutFiles =
            read.session.withoutFiles := by
  have hdepth : (dict.unopened [dict.pathOf rootFile]).length < dict.depthFrom "" := by
    have hle := length_unopened_le dict [dict.pathOf rootFile]
    rw [mentioned] at hle
    rw [depthFrom]
    omega
  have hroot : dict.FollowsFile (dict.interpretFileTo (dict.depthFrom "")) rootFile .start :=
    follows_interpretFileTo hlenient hdepth
  obtain ⟨flat, hflat, hobeys⟩ := hroot.read htext
  rw [← interpretFile] at hobeys
  have hlines : ∀ line ∈ flat, '\n' ∉ line.toList :=
    hflat.not_mem_of_forall_not_mem fun line hline => Text.not_mem_of_mem_lines hline
  refine ⟨flat, fun lines => ⟨fun h => h.unique hflat, fun h => h ▸ hflat⟩, fun reader => ?_⟩
  have hread := obeys_interpretString hflat.isInclusion_eq_false hlines reader .start
  have hsame := hobeys.withoutFiles.trans hread.withoutFiles.symm
  have hregistry := congrArg Session.registry hsame
  rw [Session.registry_withoutFiles, Session.registry_withoutFiles] at hregistry
  refine ⟨hread.failure, ?_, hsame, fun before after hcut => ?_⟩
  · rw [load_of_failure_eq_none hplain hobeys.failure]
    rw [hregistry]
  · rw [hcut] at hflat
    obtain ⟨front, back, hfront, hback, rfl⟩ := hflat.exists_append
    have happend :=
      withoutFiles_interpretString_append hflat.isInclusion_eq_false hlines reader .start
    exact ⟨front, back, hfront, hback, rfl, happend⟩

/-- A dictionary with an included file that opens a scope, includes the first file once more and
does not end its last line. -/
def scopeDictionary : Dictionary :=
  let root := "$INCLUDE a\nATTRIBUTE X 1 string\n"
  let included := "VENDOR V 9\r\nBEGIN-VENDOR V\r\n$INCLUDE dictionary"
  { disk := (Disk.empty.put ["dictionary"] (.file (.text root))).put ["a"] (.file (.text included))
    root := .ofText "."
    options := ⟨false, false⟩ }

/-- The attribute after the inclusion belongs to the vendor of the scope that the included file
leaves open. -/
theorem load_scopeDictionary :
    scopeDictionary.options.strictIncludes = false ∧
    scopeDictionary.options.mergeExtension = false ∧
    scopeDictionary.disk.readText (scopeDictionary.pathOf rootFile) =
      .ok "$INCLUDE a\nATTRIBUTE X 1 string\n" ∧
    let read := scopeDictionary.interpretString
      (Text.unlines ["VENDOR V 9", "BEGIN-VENDOR V", "ATTRIBUTE X 1 string"]) .start
    scopeDictionary.load.1 = .ok read.session.registry ∧
    (read.session.registry.attributesOf (some "V")).keys = ["X"] := by
  have htext : scopeDictionary.disk.readText (scopeDictionary.pathOf rootFile) =
      .ok "$INCLUDE a\nATTRIBUTE X 1 string\n" := by rfl
  have hincluded : scopeDictionary.disk.readText (scopeDictionary.pathOf "a") =
      .ok "VENDOR V 9\r\nBEGIN-VENDOR V\r\n$INCLUDE dictionary" := by rfl
  have hlines : Text.lines "$INCLUDE a\nATTRIBUTE X 1 string\n" =
      ["$INCLUDE a", "ATTRIBUTE X 1 string"] := by decide +kernel
  have hlines' : Text.lines "VENDOR V 9\r\nBEGIN-VENDOR V\r\n$INCLUDE dictionary" =
      ["VENDOR V 9", "BEGIN-VENDOR V", "$INCLUDE dictionary"] := by decide +kernel
  have hinclusion : Line.read "$INCLUDE a" = .directive (.inclusion "a" false) := by
    decide +kernel
  have hrecursive :
      Line.read "$INCLUDE dictionary" = .directive (.inclusion "dictionary" false) := by
    decide +kernel
  have hread : ¬ scopeDictionary.PassesOver [scopeDictionary.pathOf rootFile] "a" false := by
    rintro (hopen | ⟨hoptional, -⟩ | ⟨e, he⟩)
    · exact absurd hopen (by decide +kernel)
    · cases hoptional
    · cases hincluded.symm.trans he
  have hinner : scopeDictionary.Inlines
      [scopeDictionary.pathOf "a", scopeDictionary.pathOf rootFile]
      (Text.lines "VENDOR V 9\r\nBEGIN-VENDOR V\r\n$INCLUDE dictionary")
      ["VENDOR V 9", "BEGIN-VENDOR V"] := by
    rw [hlines']
    exact .keep (by decide +kernel) (.keep (by decide +kernel)
      (.pass hrecursive (Or.inl (by decide +kernel)) .nil))
  have hflat : scopeDictionary.Inlines [scopeDictionary.pathOf rootFile]
      (Text.lines "$INCLUDE a\nATTRIBUTE X 1 string\n")
      (["VENDOR V 9", "BEGIN-VENDOR V"] ++ ["ATTRIBUTE X 1 string"]) := by
    rw [hlines]
    exact .inline hinclusion hread hincluded hinner (.keep (by decide +kernel) .nil)
  obtain ⟨flat, hunique, hload⟩ := load_eq_inlined scopeDictionary rfl rfl htext
  obtain rfl := (hunique _).mp hflat
  obtain ⟨-, hload, -⟩ := hload scopeDictionary
  exact ⟨rfl, rfl, htext, hload, by decide +kernel⟩

end Dictionary

end RadiusDictionary
