import Mathlib.Data.List.Dedup
import Mathlib.Data.List.Perm.Subperm
import RadiusDictionary.Proofs.Reading.Builtin
import RadiusDictionary.Proofs.Reading.Depth

/-! # The open files on the way

`Session.Always` says of a list of moves that something holds before, between and after them. A list
of moves is `Tidy` if a property of the open files always holds along it and the same files are open
after it as before it. Lines are tidy if the files that they include are, and a file is tidy by
induction on the depth, whatever becomes of it (`tidy_fileMovesTo`): all that is asked of the
property is that it survives the opening of a file that is included and not open yet.

For the property that holds of everything, this says that every part of a reading closes what it
opens (`openFiles_answer`, `openFiles_finish`). For `DistinctIn`, it says that no file is open twice,
so that there are never more open files than files included, and one (`Reading.tidy_moves`). -/

namespace RadiusDictionary

namespace Session

/-- The property holds now and after each of the moves. -/
def Always (P : Session → Prop) : Session → List Move → Prop
  | s, [] => P s
  | s, m :: moves => P s ∧ Always P (s.move m) moves

variable {P : Session → Prop} {s : Session} {moves moves' : List Move}

theorem Always.append (h : s.Always P moves) (h' : (s.run moves).Always P moves') :
    s.Always P (moves ++ moves') := by
  induction moves generalizing s with
  | nil => exact h'
  | cons m moves ih => exact ⟨h.1, ih h.2 h'⟩

/-- What always holds, holds after any number of the moves. -/
theorem Always.take (h : s.Always P moves) (n : ℕ) : P (s.run (moves.take n)) := by
  induction moves generalizing s n with
  | nil =>
    rw [List.take_nil]
    exact h
  | cons m moves ih =>
    cases n with
    | zero => exact h.1
    | succ n => exact ih h.2 n

/-- The property of the open files always holds along the moves, which close what they open. -/
structure Tidy (P : List Path → Prop) (s : Session) (moves : List Move) : Prop where
  always : s.Always (fun s => P s.openFiles) moves
  restored : (s.run moves).openFiles = s.openFiles

namespace Tidy

variable {P : List Path → Prop}

theorem nil (h : P s.openFiles) : s.Tidy P [] := ⟨h, rfl⟩

theorem append (h : s.Tidy P moves) (h' : (s.run moves).Tidy P moves') :
    s.Tidy P (moves ++ moves') := by
  refine ⟨h.always.append h'.always, ?_⟩
  rw [run_append, h'.restored, h.restored]

/-- A move that opens and closes nothing. -/
theorem single {m : Move} (hm : (s.move m).openFiles = s.openFiles) (h : P s.openFiles) :
    s.Tidy P [m] := by
  refine ⟨⟨h, ?_⟩, hm⟩
  show P (s.move m).openFiles
  rw [hm]
  exact h

theorem statement (origin : Origin) (statement : Statement) (h : P s.openFiles) :
    s.Tidy P [.statement origin statement] :=
  single (s.openFiles_apply origin statement) h

theorem noteExtension (h : P s.openFiles) : s.Tidy P [.noteExtension] := single rfl h

/-- Tidy moves between the opening of a file and its closing. -/
theorem enclose {path : Path} (h : P s.openFiles) (hmoves : (s.move (.openFile path)).Tidy P moves) :
    s.Tidy P (.openFile path :: moves ++ [.closeFile]) := by
  have hclosed : ((s.run (.openFile path :: moves)).move .closeFile).openFiles = s.openFiles :=
    congrArg List.tail hmoves.restored
  have hfront : s.Always (fun s => P s.openFiles) (.openFile path :: moves) := ⟨h, hmoves.always⟩
  refine ⟨hfront.append ⟨?_, ?_⟩, ?_⟩
  · show P ((s.move (.openFile path)).run moves).openFiles
    rw [hmoves.restored]
    exact hmoves.always.take 0
  · show P ((s.run (.openFile path :: moves)).move .closeFile).openFiles
    rw [hclosed]
    exact h
  · rw [run_append]
    exact hclosed

end Tidy

end Session

/-- The files that the request itself includes. -/
def Request.inclusions : Request → List String
  | .text source => RadiusDictionary.inclusions source
  | .file _ => []

namespace Dictionary

variable {dict : Dictionary} {P : List Path → Prop}

/-! ### Lines -/

section Lines

variable {nested : String → Session → Outcome} {nestedMoves : String → Session → List Move}

theorem tidy_inclusionMoves {file : String} {isOptional : Bool} {s : Session}
    (hs : P s.openFiles)
    (hfile : dict.isOpen s.openFiles file = false → s.Tidy P (nestedMoves file s)) :
    s.Tidy P (dict.inclusionMoves nested nestedMoves file isOptional s) := by
  unfold inclusionMoves
  by_cases hopen : s.openFiles.any (dict.pathOf file).same = true
  · simp only [if_pos hopen]
    exact .nil hs
  by_cases habsent : (isOptional && !dict.disk.holds (dict.pathOf file)) = true
  · simp only [if_neg hopen, if_pos habsent]
    exact .nil hs
  simp only [if_neg hopen, if_neg habsent]
  have hread : s.Tidy P (nestedMoves file s) := hfile (Bool.not_eq_true _ ▸ hopen)
  have hafter : P (s.run (nestedMoves file s)).openFiles := by
    rw [hread.restored]
    exact hs
  refine hread.append ?_
  split
  · exact .noteExtension hafter
  · exact .nil hafter

theorem tidy_lineMoves {line : Line} {s : Session} (hs : P s.openFiles)
    (hfile : ∀ {file isOptional}, line = .directive (.inclusion file isOptional) →
      dict.isOpen s.openFiles file = false → s.Tidy P (nestedMoves file s)) (origin : Origin) :
    s.Tidy P (dict.lineMoves nested nestedMoves origin line s) := by
  cases line with
  | blank => exact .nil hs
  | malformed => exact .nil hs
  | directive d =>
    cases d with
    | inclusion file isOptional => exact tidy_inclusionMoves hs (hfile rfl)
    | statement statement => exact .statement origin statement hs

/-- **Lines are tidy if the files that they include are.** -/
theorem tidy_linesMoves (h : ∀ file s, (nested file s).session = s.run (nestedMoves file s))
    (file : String) : ∀ {lines : List String} (number : Nat) {s : Session}, P s.openFiles →
    (∀ line ∈ lines, ∀ {inner : String} {isOptional : Bool} {s : Session},
      Line.read line = .directive (.inclusion inner isOptional) → P s.openFiles →
      dict.isOpen s.openFiles inner = false → s.Tidy P (nestedMoves inner s)) →
    s.Tidy P (dict.linesMoves nested nestedMoves file number lines s)
  | [], _, _, hs, _ => .nil hs
  | line :: rest, number, s, hs, hfiles => by
    obtain ⟨hfile, hrestFiles⟩ := List.forall_mem_cons.mp hfiles
    have hline : s.Tidy P (dict.lineMoves nested nestedMoves ⟨file, number⟩ (.read line) s) :=
      tidy_lineMoves hs (fun hread hopen => hfile hread hs hopen) _
    have hafter := session_interpretLine dict h ⟨file, number⟩ (.read line) s
    have hs' : P (dict.interpretLine nested ⟨file, number⟩ (.read line) s).session.openFiles := by
      rw [hafter, hline.restored]
      exact hs
    refine hline.append ?_
    rw [← hafter]
    split
    · exact tidy_linesMoves h file (number + 1) hs' hrestFiles
    · exact .nil hs'

end Lines

/-! ### Files -/

section Files

variable {names : List String} (hmentioned : dict.mentioned ⊆ names)
  (hnames : ∀ {openFiles file}, file ∈ names → P openFiles → dict.isOpen openFiles file = false →
    P (dict.pathOf file :: openFiles))
include hmentioned hnames

/-- **A file is tidy**, if the property holds while it is open. -/
theorem tidy_fileMovesTo : ∀ (depth : Nat) {file : String} {s : Session}, P s.openFiles →
    P (dict.pathOf file :: s.openFiles) → s.Tidy P (dict.fileMovesTo depth file s)
  | 0, _, _, hs, _ => .nil hs
  | depth + 1, file, s, hs, hfile => by
    cases htext : dict.disk.readText (dict.pathOf file) with
    | error e =>
      rw [fileMovesTo_of_error htext]
      exact .nil hs
    | ok text =>
      rw [fileMovesTo_of_ok htext]
      refine .enclose hs (tidy_linesMoves (session_interpretFileTo depth) file 1 hfile ?_)
      intro line hline inner isOptional s' hread hs' hopen
      have hmem : inner ∈ dict.mentioned := mem_mentioned htext (mem_inclusions hline hread)
      exact tidy_fileMovesTo depth hs' (hnames (hmentioned hmem) hs' hopen)

theorem tidy_textMoves {text : String} (htext : inclusions text ⊆ names) (file : String)
    {s : Session} (hs : P s.openFiles) : s.Tidy P (dict.textMoves file text s) := by
  refine tidy_linesMoves (session_interpretFileTo _) file 1 hs ?_
  intro line hline inner isOptional s' hread hs' hopen
  have hmem : inner ∈ inclusions text := mem_inclusions hline hread
  exact tidy_fileMovesTo hmentioned hnames _ hs' (hnames (htext hmem) hs' hopen)

theorem tidy_requestMoves {q : Request} {s : Session} (htext : q.inclusions ⊆ names)
    (hs : P s.openFiles) (hfile : ∀ file, P (dict.pathOf file :: s.openFiles)) :
    s.Tidy P (dict.requestMoves q s) := by
  cases q with
  | text text => exact tidy_textMoves hmentioned hnames htext "<string>" hs
  | file file => exact tidy_fileMovesTo hmentioned hnames _ hs (hfile file)

theorem tidy_finishMoves {s : Session} (hs : P s.openFiles)
    (hfile : ∀ file, P (dict.pathOf file :: s.openFiles)) : s.Tidy P (dict.finishMoves s) := by
  have hread : s.Tidy P (dict.requestMoves (.file extensionFile) s) :=
    tidy_requestMoves hmentioned hnames (List.nil_subset _) hs hfile
  have hsession : (dict.answer (.file extensionFile) s).session =
      s.run (dict.requestMoves (.file extensionFile) s) := session_answer _ s
  unfold finishMoves
  split
  · -- the reading gets a name, lest checking the proof carry it out
    obtain ⟨read, hinterpret⟩ : ∃ o, dict.interpretFile extensionFile s = o := ⟨_, rfl⟩
    rw [answer_file, hinterpret] at hsession
    simp only [hinterpret]
    refine hread.append ?_
    rw [← hsession]
    have hafter : P read.session.openFiles := by
      rw [hsession, hread.restored]
      exact hs
    split
    · exact .nil hafter
    · refine tidy_textMoves hmentioned hnames ?_ "<built-in>" hafter
      rw [inclusions_builtinExtension]
      exact List.nil_subset _
  · exact .nil hs

end Files

/-! ### What is opened is closed again -/

theorem openFiles_interpretLine (depth : Nat) (origin : Origin) (line : Line) (s : Session) :
    (dict.interpretLine (dict.interpretFileTo depth) origin line s).session.openFiles =
      s.openFiles := by
  have htidy : s.Tidy (fun _ => True)
      (dict.lineMoves (dict.interpretFileTo depth) (dict.fileMovesTo depth) origin line s) :=
    tidy_lineMoves trivial (fun {file _} _ _ => tidy_fileMovesTo (List.Subset.refl dict.mentioned)
      (fun _ _ _ => trivial) depth trivial trivial) origin
  rw [session_interpretLine dict (session_interpretFileTo depth), htidy.restored]

/-- **A request leaves the open files as they were**, whether it fails or not. -/
theorem openFiles_answer (q : Request) (s : Session) :
    (dict.answer q s).session.openFiles = s.openFiles := by
  have htidy : s.Tidy (fun _ => True) (dict.requestMoves q s) :=
    tidy_requestMoves (List.subset_append_left dict.mentioned q.inclusions)
      (fun _ _ _ => trivial) (List.subset_append_right _ _) trivial fun _ => trivial
  rw [session_answer, htidy.restored]

/-- **The end of a reading leaves the open files as they were.** -/
theorem openFiles_finish (s : Session) : (dict.finish s).1.openFiles = s.openFiles := by
  have htidy : s.Tidy (fun _ => True) (dict.finishMoves s) :=
    tidy_finishMoves (List.Subset.refl dict.mentioned) (fun _ _ _ => trivial) trivial
      fun _ => trivial
  rw [session_finish, htidy.restored]

/-! ### No file is open twice -/

/-- No two open files have the same components, and all but the first that was opened are among
those named. -/
structure DistinctIn (dict : Dictionary) (names : List String) (openFiles : List Path) : Prop where
  nodup : (openFiles.map Path.key).Nodup
  included : ∀ p ∈ openFiles.dropLast, p.key ∈ names.map fun file => (dict.pathOf file).key

namespace DistinctIn

variable {names : List String} {openFiles : List Path} {file : String}

theorem nil : dict.DistinctIn names [] := ⟨List.nodup_nil, nofun⟩

theorem first (file : String) : dict.DistinctIn names [dict.pathOf file] :=
  ⟨List.nodup_singleton _, nofun⟩

theorem openFile (hfile : file ∈ names) (h : dict.DistinctIn names openFiles)
    (hopen : dict.isOpen openFiles file = false) :
    dict.DistinctIn names (dict.pathOf file :: openFiles) := by
  refine ⟨List.nodup_cons.mpr ⟨?_, h.nodup⟩, ?_⟩
  · rintro hmem
    obtain ⟨p, hp, hkey⟩ := List.mem_map.mp hmem
    have hnot := List.any_eq_false.mp hopen p hp
    rw [Path.same, hkey, beq_self_eq_true] at hnot
    exact hnot rfl
  · cases openFiles with
    | nil =>
      intro q hq
      cases hq
    | cons p openFiles =>
      intro q hq
      rw [List.dropLast_cons_cons] at hq
      rcases List.mem_cons.mp hq with rfl | hq
      · exact List.mem_map_of_mem hfile
      · exact h.included q hq

/-- There are at most as many open files as there are different files named, and one. -/
theorem length_le (h : dict.DistinctIn names openFiles) :
    openFiles.length ≤ (names.map fun file => (dict.pathOf file).key).dedup.length + 1 := by
  have hnodup : (openFiles.dropLast.map Path.key).Nodup :=
    h.nodup.sublist ((List.dropLast_sublist openFiles).map Path.key)
  have hsubset : openFiles.dropLast.map Path.key ⊆
      (names.map fun file => (dict.pathOf file).key).dedup := by
    intro key hkey
    obtain ⟨p, hp, rfl⟩ := List.mem_map.mp hkey
    exact List.mem_dedup.mpr (h.included p hp)
  have hle := (List.subperm_of_subset hnodup hsubset).length_le
  rw [List.length_map, List.length_dropLast] at hle
  omega

end DistinctIn

theorem tidy_requestsMoves {names : List String} (hmentioned : dict.mentioned ⊆ names) :
    ∀ {requests : List Request} {s : Session}, s.openFiles = [] →
    (∀ q ∈ requests, q.inclusions ⊆ names) →
    s.Tidy (dict.DistinctIn names) (dict.requestsMoves requests s)
  | [], s, hs, _ => .nil (hs ▸ .nil)
  | q :: rest, s, hs, hrequests => by
    obtain ⟨hq, hrest⟩ := List.forall_mem_cons.mp hrequests
    have hanswer : s.Tidy (dict.DistinctIn names) (dict.requestMoves q s) :=
      tidy_requestMoves hmentioned .openFile hq (hs ▸ .nil) fun file => hs ▸ .first file
    refine hanswer.append ?_
    rw [← session_answer]
    exact tidy_requestsMoves hmentioned ((openFiles_answer q s).trans hs) hrest

theorem openFiles_sessionAfter : ∀ (requests : List Request) (s : Session),
    (dict.sessionAfter requests s).openFiles = s.openFiles
  | [], _ => rfl
  | q :: rest, s => by
    rw [sessionAfter, openFiles_sessionAfter rest, openFiles_answer]

end Dictionary

namespace Reading

/-- All that is included, in the texts that are given or in those on the disk. -/
def included (r : Reading) : List String :=
  r.requests.flatMap Request.inclusions ++ r.dict.mentioned

/-- The different files that are included. -/
def includedFiles (r : Reading) : List Path.Key :=
  (r.included.map fun file => (r.dict.pathOf file).key).dedup

/-- **Along a reading no file is open twice.** -/
theorem tidy_moves (r : Reading) : Session.start.Tidy (r.dict.DistinctIn r.included) r.moves := by
  have hmentioned : r.dict.mentioned ⊆ r.included := List.subset_append_right _ _
  have hrequests : Session.start.Tidy (r.dict.DistinctIn r.included)
      (r.dict.requestsMoves r.requests .start) :=
    Dictionary.tidy_requestsMoves hmentioned rfl fun q hq _ hfile =>
      List.mem_append_left _ (List.mem_flatMap.mpr ⟨q, hq, hfile⟩)
  have hclosed : (r.dict.sessionAfter r.requests .start).openFiles = [] :=
    Dictionary.openFiles_sessionAfter r.requests .start
  unfold moves
  refine hrequests.append ?_
  rw [← Dictionary.sessionAfter_eq_run]
  split
  · exact Dictionary.tidy_finishMoves hmentioned .openFile (hclosed ▸ .nil) fun file =>
      hclosed ▸ .first file
  · exact .nil (hclosed ▸ .nil)

end Reading

end RadiusDictionary
