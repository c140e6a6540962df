import RadiusDictionary.Proofs.Disk.Contents
import RadiusDictionary.Proofs.Reading.Attempts
import RadiusDictionary.Proofs.Reading.Extension

/-! # The extension file is read once if it is named

The extension file is not read at the end if it was included before. An inclusion notes this by the
name that it gives, whereas files that are being read are told apart by the components of their
paths. So there are inclusions of the extension file, such as that of `./dictionary.jradius`, after
which it is read once more.

* `notes_requests`: the extension is noted exactly if an attempt that gives its name reads it whole;
  every file that is read whole can be read.
* `readText_of_same`: a path with the same components as that of the extension file leads to the
  same text.
* `extension_left_out_iff`: if the extension file was included, under any name, the end of the
  reading leaves the registry alone exactly if it was included under its own name or merging it
  once more changes nothing. -/

namespace RadiusDictionary

/-! ### The note -/

namespace Session

theorem Effect.hasExtension_eq {s s' : Session} (h : Effect s s') :
    s'.hasExtension = s.hasExtension := by
  cases h with
  | scope kind name => cases kind <;> rfl
  | nothing => rfl
  | vendor name number extra => rfl
  | declaration h => rfl
  | value name number h => rfl

/-- **The extension is noted by a move that notes it**, and no move takes the note back. -/
theorem hasExtension_run : ∀ (moves : List Move) (s : Session),
    (s.run moves).hasExtension = true ↔ s.hasExtension = true ∨ .noteExtension ∈ moves
  | [], s => by simp
  | m :: moves, s => by
    rw [run_cons, hasExtension_run moves, List.mem_cons, ← or_assoc]
    refine or_congr_left ?_
    cases m with
    | statement origin statement =>
      rw [move, (effect_apply s origin statement).hasExtension_eq]
      simp
    | openFile path => simp [move]
    | closeFile => simp [move]
    | noteExtension => simp [move]

end Session

/-- The attempt reads the extension file, under its own name. -/
def Attempt.NamesExtension (a : Attempt) : Prop := a.fate = .whole ∧ a.file = extensionFile

instance (a : Attempt) : Decidable a.NamesExtension :=
  inferInstanceAs (Decidable (a.fate = .whole ∧ a.file = extensionFile))

namespace Dictionary

variable (dict : Dictionary)

/-- There is a text where the path of the file leads. -/
def Readable (file : String) : Prop := ∃ text, dict.disk.readText (dict.pathOf file) = .ok text

/-- The moves note the extension exactly if one of the attempts reads it under its own name, and
what the attempts read can be read. -/
structure Notes (moves : List Move) (attempts : List Attempt) : Prop where
  noted : .noteExtension ∈ moves ↔ ∃ a ∈ attempts, a.NamesExtension
  readable : ∀ a ∈ attempts, a.fate = .whole → dict.Readable a.file

namespace Notes

variable {dict} {moves moves' : List Move} {attempts attempts' : List Attempt}

theorem nil : dict.Notes [] [] := ⟨by simp, nofun⟩

theorem append (h : dict.Notes moves attempts) (h' : dict.Notes moves' attempts') :
    dict.Notes (moves ++ moves') (attempts ++ attempts') := by
  refine ⟨?_, List.forall_mem_append.mpr ⟨h.readable, h'.readable⟩⟩
  simp only [List.mem_append, h.noted, h'.noted, or_and_right, exists_or]

theorem swap (h : dict.Notes moves (attempts ++ attempts')) :
    dict.Notes moves (attempts' ++ attempts) := by
  refine ⟨h.noted.trans ?_, List.forall_mem_append.mpr (List.forall_mem_append.mp h.readable).symm⟩
  simp only [List.mem_append, or_and_right, exists_or]
  exact or_comm

/-- An inclusion that reads nothing. -/
theorem unread {a : Attempt} (h : a.fate ≠ .whole) : dict.Notes [] [a] :=
  ⟨by simp [Attempt.NamesExtension, h], by simp [h]⟩

/-- An inclusion whose file is read. -/
theorem read (origin : Origin) {file : String} (isOptional : Bool) {failure : Option LoadError}
    (h : failure = none → dict.Readable file) :
    dict.Notes (if failure.isNone && file = extensionFile then [.noteExtension] else [])
      [⟨origin, file, isOptional, .ofFailure failure⟩] := by
  cases failure with
  | some cause => exact unread (by simp [Fate.ofFailure])
  | none =>
    refine ⟨?_, List.forall_mem_singleton.mpr fun _ => h rfl⟩
    by_cases hfile : file = extensionFile <;> simp [Attempt.NamesExtension, Fate.ofFailure, hfile]

end Notes

/-! ### Lines and files -/

section Lines

variable {nested : String → Session → Outcome} {nestedMoves : String → Session → List Move}
  {nestedAttempts : String → Session → List Attempt}
variable (hread : ∀ file s, (nested file s).failure = none → dict.Readable file)
  (hnested : ∀ file s, dict.Notes (nestedMoves file s) (nestedAttempts file s))
include hread hnested

theorem notes_inclusion (origin : Origin) (file : String) (isOptional : Bool) (s : Session) :
    dict.Notes (dict.inclusionMoves nested nestedMoves file isOptional s)
      (dict.inclusionAttempts nested nestedAttempts origin file isOptional s) := by
  simp only [inclusionMoves, inclusionAttempts]
  by_cases hopen : s.openFiles.any (dict.pathOf file).same = true
  · simp only [if_pos hopen]
    exact .unread (by simp)
  by_cases habsent : (isOptional && !dict.disk.holds (dict.pathOf file)) = true
  · simp only [if_neg hopen, if_pos habsent]
    exact .unread (by simp)
  · simp only [if_neg hopen, if_neg habsent]
    exact ((hnested file s).append (.read origin isOptional (hread file s))).swap

theorem notes_line (origin : Origin) (line : Line) (s : Session) :
    dict.Notes (dict.lineMoves nested nestedMoves origin line s)
      (dict.lineAttempts nested nestedAttempts origin line s) := by
  cases line with
  | blank => exact .nil
  | malformed => exact .nil
  | directive d =>
    cases d with
    | inclusion file isOptional => exact dict.notes_inclusion hread hnested origin file isOptional s
    | statement statement => exact ⟨by simp [lineMoves, lineAttempts], nofun⟩

theorem notes_lines (file : String) : ∀ (number : Nat) (lines : List String) (s : Session),
    dict.Notes (dict.linesMoves nested nestedMoves file number lines s)
      (dict.linesAttempts nested nestedAttempts file number lines s)
  | _, [], _ => .nil
  | number, line :: rest, s => by
    simp only [linesMoves, linesAttempts]
    refine (dict.notes_line hread hnested ⟨file, number⟩ (.read line) s).append ?_
    split
    · exact notes_lines file (number + 1) rest _
    · exact .nil

end Lines

/-- A file that is read to its end can be read. -/
theorem readable_of_whole : ∀ (depth : Nat) (file : String) (s : Session),
    (dict.interpretFileTo depth file s).failure = none → dict.Readable file
  | 0, _, _, h => nomatch h
  | depth + 1, file, s, h => by
    cases htext : dict.disk.readText (dict.pathOf file) with
    | ok text => exact ⟨text, htext⟩
    | error e =>
      rw [interpretFileTo_of_error htext] at h
      cases h

/-- **Files note the extension when it is included under its own name**, to any depth. -/
theorem notes_file : ∀ (depth : Nat) (file : String) (s : Session),
    dict.Notes (dict.fileMovesTo depth file s) (dict.fileAttemptsTo depth file s)
  | 0, _, _ => .nil
  | depth + 1, file, s => by
    cases htext : dict.disk.readText (dict.pathOf file) with
    | error e =>
      rw [fileMovesTo_of_error htext, fileAttemptsTo_of_error htext]
      exact .nil
    | ok text =>
      have hlines := dict.notes_lines (dict.readable_of_whole depth) (notes_file depth) file 1
        (Text.lines text) (s.move (.openFile (dict.pathOf file)))
      rw [fileMovesTo_of_ok htext, fileAttemptsTo_of_ok htext]
      exact ⟨by simpa using hlines.noted, hlines.readable⟩

/-! ### Requests -/

/-- The attempts of a request. -/
def requestAttempts : Request → Session → List Attempt
  | .text text, s =>
    dict.linesAttempts (dict.interpretFileTo (dict.depthFrom text))
      (dict.fileAttemptsTo (dict.depthFrom text)) "<string>" 1 (Text.lines text) s
  | .file file, s => dict.fileAttempts file s

/-- The attempts of requests. -/
def requestsAttempts : List Request → Session → List Attempt
  | [], _ => []
  | q :: rest, s => dict.requestAttempts q s ++ requestsAttempts rest (dict.answer q s).session

theorem notes_request (q : Request) (s : Session) :
    dict.Notes (dict.requestMoves q s) (dict.requestAttempts q s) := by
  cases q with
  | text text =>
    exact dict.notes_lines (dict.readable_of_whole _) (dict.notes_file _) "<string>" 1
      (Text.lines text) s
  | file file => exact dict.notes_file _ file s

/-- **Requests note the extension exactly if an inclusion on the way reads it under its own name.**
-/
theorem notes_requests : ∀ (requests : List Request) (s : Session),
    dict.Notes (dict.requestsMoves requests s) (dict.requestsAttempts requests s)
  | [], _ => .nil
  | q :: rest, s => (dict.notes_request q s).append (notes_requests rest _)

theorem hasExtension_sessionAfter (requests : List Request) :
    (dict.sessionAfter requests .start).hasExtension = true ↔
      ∃ a ∈ dict.requestsAttempts requests .start, a.NamesExtension := by
  rw [sessionAfter_eq_run, Session.hasExtension_run, ← (dict.notes_requests requests .start).noted]
  exact or_iff_right Bool.false_ne_true

end Dictionary

/-! ### Paths with the same components -/

namespace Disk

open RadiusDictionary.Path (Proper)

variable {d : Disk} {p folder : Path} {name : String} {loc : Location}

/-- What has the same components leads to the same place, if it ends with a name. -/
theorem resolve_of_same (hname : Proper name) (hsame : p.same (folder.joinText name) = true)
    (hrefusal : refusal? (folder.joinText name) = none) (h : d.resolve p = .ok loc) :
    d.resolve (folder.joinText name) = .ok loc := by
  have hkey : p.key = (folder.joinText name).key := eq_of_beq hsame
  have hnames : p.names = folder.names ++ [name] := by
    rw [← Path.names_joinText hname.toPlain]
    exact List.reverse_inj.mp (congrArg Path.Key.names hkey)
  have habsolute : p.isAbsolute = (folder.joinText name).isAbsolute :=
    congrArg Path.Key.isAbsolute hkey
  have hreaches := reaches_of_resolve h
  unfold Reaches start at hreaches
  rw [hnames, habsolute, List.foldlM_append] at hreaches
  obtain ⟨around, haround, hlast⟩ := bind_eq_ok_iff.mp hreaches
  obtain ⟨there, hlast, hthere⟩ := bind_eq_ok_iff.mp hlast
  cases hthere
  refine resolve_of_leadsTo hname ⟨hrefusal, name, folder.names.reverse, ?_, hname.up, ?_⟩
  · rw [Path.names_joinText hname.toPlain, List.reverse_append]
    rfl
  · unfold enter at hlast
    rw [if_neg (by simp [hname.empty, hname.here]), if_neg hname.up] at hlast
    unfold locate
    rw [List.reverse_reverse]
    exact bind_eq_ok_iff.mpr ⟨around, haround, hlast⟩

/-- **What has the same components leads to the same text.** -/
theorem readText_of_same {text : String} (hname : Proper name)
    (hsame : p.same (folder.joinText name) = true)
    (hrefusal : refusal? (folder.joinText name) = none) (h : d.readText p = .ok text) :
    d.readText (folder.joinText name) = .ok text := by
  unfold readText at h ⊢
  cases hresolve : d.resolve p with
  | error fault => rw [hresolve] at h; cases h
  | ok loc =>
    rw [hresolve] at h
    rw [resolve_of_same hname hsame hrefusal hresolve]
    dsimp only at h ⊢
    split at h
    · cases h
    · cases h
    · cases h
    · exact h

end Disk

theorem proper_extensionFile : Path.Proper extensionFile :=
  ⟨⟨by decide, by decide, by decide⟩, by decide⟩

/-! ### The end of a reading -/

namespace Outcome

variable {o : Outcome} {fallback : Session → Outcome}

/-- The session that is left, or the one that another reading leaves after a failure. -/
def sessionOr (o : Outcome) (fallback : Session → Outcome) : Session :=
  match o.failure with
  | none => o.session
  | some _ => (fallback o.session).session

theorem sessionOr_of_none (h : o.failure = none) : o.sessionOr fallback = o.session := by
  simp only [sessionOr, h]

theorem sessionOr_of_some {cause : LoadError} (h : o.failure = some cause) :
    o.sessionOr fallback = (fallback o.session).session := by
  simp only [sessionOr, h]

end Outcome

namespace Dictionary

variable (dict : Dictionary)

/-- The session after the extension file, or after the built-in text in its place. -/
def merged (s : Session) : Session :=
  (dict.interpretFile extensionFile s).sessionOr dict.interpretBuiltin

theorem finish_eq_merged {dict : Dictionary} {s : Session}
    (hwanted : (dict.options.mergeExtension && !s.hasExtension) = true) :
    (dict.finish s).1 = dict.merged s := by
  obtain ⟨read, hread⟩ : ∃ o, dict.interpretFile extensionFile s = o := ⟨_, rfl⟩
  cases hfailure : read.failure with
  | none =>
    rw [finish_of_read hwanted hread hfailure, merged, hread, Outcome.sessionOr_of_none hfailure]
  | some cause =>
    obtain ⟨builtin, hbuiltin⟩ : ∃ o, dict.interpretBuiltin read.session = o := ⟨_, rfl⟩
    rw [finish_of_unread hwanted hread hfailure hbuiltin, merged, hread,
      Outcome.sessionOr_of_some hfailure, hbuiltin]

/-- **Whether the extension file that was included is merged once more.** Suppose that an inclusion
has read the file under any name. If there was such an inclusion under the file's own name, the end
of the reading leaves everything as it is. If there was none, the end of the reading merges the
extension: it reads the same text once more. So the registry stays as it is if and only if the file
was included under its own name or merging it changes nothing. -/
theorem extension_left_out_iff (dict : Dictionary) (requests : List Request) {a : Attempt}
    (hwanted : dict.options.mergeExtension = true)
    (ha : a ∈ dict.requestsAttempts requests .start) (hwhole : a.fate = .whole)
    (hsame : (dict.pathOf a.file).same (dict.pathOf extensionFile) = true) :
    let s := dict.sessionAfter requests .start
    let named := ∃ a ∈ dict.requestsAttempts requests .start, a.NamesExtension
    (named → Reading.session ⟨dict, requests, true⟩ = s) ∧
    (¬ named → Reading.session ⟨dict, requests, true⟩ = dict.merged s) ∧
    (Reading.registry ⟨dict, requests, true⟩ = s.registry ↔
      named ∨ (dict.merged s).registry = s.registry) ∧
    ∃ text, dict.disk.readText (dict.pathOf a.file) = .ok text ∧
      (Disk.refusal? (dict.pathOf extensionFile) = none →
        dict.disk.readText (dict.pathOf extensionFile) = .ok text) := by
  intro s named
  have hnamed : s.hasExtension = true ↔ named := dict.hasExtension_sessionAfter requests
  have hsession : Reading.session ⟨dict, requests, true⟩ = (dict.finish s).1 := rfl
  have hleft : named → Reading.session ⟨dict, requests, true⟩ = s := by
    intro h
    rw [hsession, finish_of_unwanted (by rw [hnamed.mpr h, Bool.not_true, Bool.and_false])]
  have hmerged : ¬ named → Reading.session ⟨dict, requests, true⟩ = dict.merged s := by
    intro h
    have hnot : s.hasExtension = false := Bool.not_eq_true _ ▸ mt hnamed.mp h
    rw [hsession, finish_eq_merged (by rw [hwanted, hnot]; rfl)]
  obtain ⟨text, htext⟩ := (dict.notes_requests requests .start).readable a ha hwhole
  refine ⟨hleft, hmerged, ?_, text, htext, fun hrefusal =>
    Disk.readText_of_same proper_extensionFile hsame hrefusal htext⟩
  unfold Reading.registry
  by_cases h : named
  · rw [hleft h]
    exact ⟨fun _ => .inl h, fun _ => rfl⟩
  · rw [hmerged h, or_iff_right h]

/-- A dictionary that includes its extension file as `./dictionary.jradius` and gives the vendor
another number afterwards. -/
def renumberedVendor : Dictionary where
  disk := (Disk.empty.put ["dictionary"]
    (.file (.text "$INCLUDE ./dictionary.jradius\nVENDOR JRadius 1\n"))).put ["dictionary.jradius"]
    (.file (.text "VENDOR JRadius 19211\n"))
  root := .ofText "."
  options := ⟨false, true⟩

/-- The end of its reading takes the other number back. -/
theorem number_of_renumberedVendor :
    let s := renumberedVendor.sessionAfter [.file rootFile] .start
    let registry := Reading.registry ⟨renumberedVendor, [.file rootFile], true⟩
    renumberedVendor.options.mergeExtension = true ∧
    (∃ a ∈ renumberedVendor.requestsAttempts [.file rootFile] .start, a.fate = .whole ∧
      (renumberedVendor.pathOf a.file).same (renumberedVendor.pathOf extensionFile) = true) ∧
    s.registry.vendorNumber? "JRadius" = some 1 ∧
    registry.vendorNumber? "JRadius" = some 19211 ∧ registry ≠ s.registry := by
  intro s registry
  let a : Attempt := ⟨⟨"dictionary", 1⟩, "./dictionary.jradius", false, .whole⟩
  have hattempts : renumberedVendor.requestsAttempts [.file rootFile] .start = [a] := by
    decide +kernel
  have ha : a ∈ renumberedVendor.requestsAttempts [.file rootFile] .start := by
    rw [hattempts]
    exact List.mem_singleton_self a
  have hsame : (renumberedVendor.pathOf a.file).same (renumberedVendor.pathOf extensionFile) =
      true := by decide +kernel
  have hnamed : ¬ ∃ a ∈ renumberedVendor.requestsAttempts [.file rootFile] .start,
      a.NamesExtension := by
    rw [hattempts]
    decide +kernel
  have hbefore : s.registry.vendorNumber? "JRadius" = some 1 := by decide +kernel
  have hafter : (renumberedVendor.merged s).registry.vendorNumber? "JRadius" = some 19211 := by
    decide +kernel
  obtain ⟨-, hmerged, hiff, -⟩ :=
    extension_left_out_iff renumberedVendor [.file rootFile] rfl ha rfl hsame
  refine ⟨rfl, ⟨a, ha, rfl, hsame⟩, hbefore, ?_, fun heq => ?_⟩
  · have hregistry : registry =
        (Reading.session ⟨renumberedVendor, [.file rootFile], true⟩).registry := rfl
    rw [hregistry, hmerged hnamed]
    exact hafter
  · rcases hiff.mp heq with h | h
    · exact hnamed h
    · rw [h, hbefore] at hafter
      cases hafter

end Dictionary

end RadiusDictionary
