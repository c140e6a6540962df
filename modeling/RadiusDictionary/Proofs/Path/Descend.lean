import RadiusDictionary.Proofs.Identifier
import RadiusDictionary.Proofs.Path.Below

/-! # From a folder down to a file

The files of a run lie some names below one folder, and these names are of two kinds: those of
folders are `Bare`, without a dot, and that of the file itself is `Dotted`. So no folder is ever in
the place of a file. `Path.descend` goes down from a folder by names that are given as in a
location, the innermost first; the folder of what it leads to is one name less
(`names_parent_joinText`, `isAbsolute_parent_joinText`). -/

namespace RadiusDictionary

namespace Path

/-- The path some names further down, the innermost first. -/
def descend (base : Path) : List String → Path
  | [] => base
  | name :: outer => (base.descend outer).joinText name

/-- The segment is the name of a folder. -/
structure Bare (segment : String) : Prop extends Plain segment where
  dot : '.' ∉ segment.toList

/-- The segment is the name of a file. -/
structure Dotted (segment : String) : Prop extends Proper segment where
  dot : '.' ∈ segment.toList

theorem Bare.proper {segment : String} (h : Bare segment) : Proper segment :=
  h.toPlain.proper h.dot

/-- The names lead to a file: folders, and then the file in the innermost of them. -/
inductive LeadToFile : List String → Prop
  | intro {name : String} {outer : List String} (hname : Dotted name)
    (houter : ∀ s ∈ outer, Bare s) : LeadToFile (name :: outer)

theorem LeadToFile.proper {names : List String} (h : LeadToFile names) : ∀ s ∈ names, Proper s := by
  obtain ⟨hname, houter⟩ := h
  exact List.forall_mem_cons.mpr ⟨hname.toProper, fun s hs => (houter s hs).proper⟩

theorem LeadToFile.plain {names : List String} (h : LeadToFile names) : ∀ s ∈ names, Plain s :=
  fun s hs => (h.proper s hs).toPlain

theorem LeadToFile.outer {name : String} {outer : List String} (h : LeadToFile (name :: outer)) :
    ∀ s ∈ outer, Bare s := by
  cases h
  assumption

/-- No names lead to a file and to a folder. -/
theorem LeadToFile.not_bare {names : List String} (h : LeadToFile names) :
    ¬ ∀ s ∈ names, Bare s := by
  obtain ⟨hname, -⟩ := h
  intro hbare
  exact (hbare _ List.mem_cons_self).dot hname.dot

/-- Nothing below a file is a folder. -/
theorem LeadToFile.not_suffix_of_bare {names outer : List String} (h : LeadToFile names)
    (houter : ∀ s ∈ outer, Bare s) : ¬ names <:+ outer :=
  fun hsuffix => h.not_bare fun s hs => houter s (hsuffix.subset hs)

/-- Nothing below a file is another file. -/
theorem LeadToFile.eq_of_suffix {names names' : List String} (h : LeadToFile names)
    (h' : LeadToFile names') (hsuffix : names <:+ names') : names = names' := by
  obtain ⟨-, houter⟩ := h'
  rcases List.suffix_cons_iff.mp hsuffix with heq | hsuffix
  · exact heq
  · exact absurd hsuffix (h.not_suffix_of_bare houter)

/-! ### Going down -/

section Descend

variable {base : Path} {names names' : List String}

theorem descend_eq_foldl : ∀ names : List String,
    base.descend names = names.reverse.foldl joinText base
  | [] => rfl
  | name :: outer => by
    rw [descend, descend_eq_foldl outer, List.reverse_cons, List.foldl_append]
    rfl

theorem foldl_descend (segments : List String) : segments.foldl joinText (base.descend names) =
    base.descend (segments.reverse ++ names) := by
  rw [descend_eq_foldl, descend_eq_foldl, List.reverse_append, List.reverse_reverse,
    List.foldl_append]

theorem names_descend (h : ∀ s ∈ names, Plain s) :
    (base.descend names).names = base.names ++ names.reverse := by
  rw [descend_eq_foldl, names_foldl_joinText _ _ fun s hs => h s (List.mem_reverse.mp hs)]

theorem isAbsolute_descend (h : ∀ s ∈ names, Plain s) :
    (base.descend names).isAbsolute = base.isAbsolute := by
  rw [descend_eq_foldl, isAbsolute_foldl_joinText _ _ fun s hs => h s (List.mem_reverse.mp hs)]

/-- Paths below one folder with the same components are reached by the same names. -/
theorem eq_of_key_descend (h : ∀ s ∈ names, Plain s) (h' : ∀ s ∈ names', Plain s)
    (hkey : (base.descend names).key = (base.descend names').key) : names = names' := by
  have hnames := congrArg Key.names hkey
  unfold key at hnames
  dsimp only at hnames
  rw [names_descend h, names_descend h', List.reverse_append, List.reverse_append,
    List.reverse_reverse, List.reverse_reverse] at hnames
  exact List.append_cancel_right hnames

end Descend

/-- The path leads to a folder below another, or to that one. -/
def HasFolder (base p : Path) : Prop := ∃ outer, (∀ s ∈ outer, Bare s) ∧ p = base.descend outer

/-- The path leads to a file below a folder, however deep. -/
def HasFile (base p : Path) : Prop := ∃ names, LeadToFile names ∧ p = base.descend names

theorem HasFolder.self (base : Path) : base.HasFolder base := ⟨[], List.forall_mem_nil _, rfl⟩

theorem HasFolder.joinText {base p : Path} (h : base.HasFolder p) {name : String}
    (hname : Bare name) : base.HasFolder (p.joinText name) := by
  obtain ⟨outer, houter, rfl⟩ := h
  exact ⟨name :: outer, List.forall_mem_cons.mpr ⟨hname, houter⟩, rfl⟩

theorem HasFolder.foldl {base p : Path} (h : base.HasFolder p) {segments : List String}
    (hsegments : ∀ s ∈ segments, Bare s) : base.HasFolder (segments.foldl Path.joinText p) := by
  obtain ⟨outer, houter, rfl⟩ := h
  refine ⟨segments.reverse ++ outer, fun s hs => ?_, foldl_descend segments⟩
  exact (List.mem_append.mp hs).elim (fun hs => hsegments s (List.mem_reverse.mp hs)) (houter s)

theorem HasFolder.hasFile {base p : Path} (h : base.HasFolder p) {name : String}
    (hname : Dotted name) : base.HasFile (p.joinText name) := by
  obtain ⟨outer, houter, rfl⟩ := h
  exact ⟨name :: outer, .intro hname houter, rfl⟩

/-! ### The folder of a path -/

section Parent

variable {p : Path} {segment : String}

theorem trimEnd_isPrefix (pieces : List String) : trimEnd pieces <+: pieces := by
  have hsuffix := List.dropWhile_suffix (l := pieces.reverse)
    fun piece => decide (piece = "") || decide (piece = ".")
  have hprefix := List.reverse_prefix.mpr hsuffix
  rwa [List.reverse_reverse] at hprefix

theorem trimEnd_append_singleton (pieces : List String) (h : Plain segment) :
    trimEnd (pieces ++ [segment]) = pieces ++ [segment] := by
  unfold trimEnd
  rw [List.reverse_append, List.reverse_singleton, List.singleton_append,
    List.dropWhile_cons_of_neg (by simp [h.empty, h.here]), List.reverse_cons, List.reverse_reverse]

/-- Only pieces that do not count are cut off. -/
theorem names_trimEnd (pieces : List String) :
    (⟨trimEnd pieces⟩ : Path).names = (⟨pieces⟩ : Path).names := by
  have hdrop : ∀ l : List String,
      (l.dropWhile fun piece => piece = "" || piece = ".").filter
        (fun piece => piece ≠ "" && piece ≠ ".") =
      l.filter fun piece => piece ≠ "" && piece ≠ "." := by
    intro l
    induction l with
    | nil => rfl
    | cons piece rest ih =>
      by_cases hpiece : piece = "" ∨ piece = "."
      · rw [List.dropWhile_cons_of_pos (by simpa using hpiece), ih, List.filter_cons_of_neg]
        rcases hpiece with rfl | rfl <;> simp
      · rw [List.dropWhile_cons_of_neg (by simpa using hpiece)]
  unfold names trimEnd
  dsimp only
  rw [List.filter_reverse, hdrop, ← List.filter_reverse, List.reverse_reverse]

theorem pieces_parent_joinText (h : Plain segment) : (p.joinText segment).parent =
    ⟨if p.isAbsolute && (trimEnd p.stem).all (· = "") then ["", ""] else trimEnd p.stem⟩ := by
  unfold parent
  rw [isAbsolute_joinText h, joinText_eq h]
  dsimp only
  rw [trimEnd_append_singleton p.stem h, List.dropLast_concat]

theorem names_parent_joinText (h : Plain segment) :
    (p.joinText segment).parent.names = p.names := by
  rw [pieces_parent_joinText h, ← names_stem p, ← names_trimEnd p.stem]
  by_cases hroot : (p.isAbsolute && (trimEnd p.stem).all (· = "")) = true
  · -- Nothing but empty pieces is left.
    rw [if_pos hroot]
    have hempty : ∀ piece ∈ trimEnd p.stem, piece = "" := by
      simpa using (Bool.and_eq_true_iff.mp hroot).2
    have hcounts : (trimEnd p.stem).filter (fun piece => piece ≠ "" && piece ≠ ".") = [] :=
      List.filter_eq_nil_iff.mpr fun piece hpiece => by simp [hempty piece hpiece]
    unfold names
    rw [hcounts]
    rfl
  · rw [if_neg hroot]

theorem isAbsolute_eq_true_iff :
    p.isAbsolute = true ↔ ∃ second rest, p.pieces = "" :: second :: rest := by
  unfold isAbsolute
  constructor
  · intro h
    split at h
    · next second rest heq => exact ⟨second, rest, heq⟩
    · cases h
  · rintro ⟨second, rest, heq⟩
    simp only [heq]

theorem isAbsolute_parent_joinText (h : Plain segment) :
    (p.joinText segment).parent.isAbsolute = p.isAbsolute := by
  rw [pieces_parent_joinText h]
  have hstem : p.stem <+: p.pieces := by
    unfold stem
    split
    · exact List.dropLast_prefix _
    · exact List.prefix_rfl
  obtain ⟨rest, hrest⟩ := (trimEnd_isPrefix p.stem).trans hstem
  cases habsolute : p.isAbsolute with
  | true =>
    by_cases hroot : (trimEnd p.stem).all (· = "") = true
    · rw [hroot]
      rfl
    · rw [Bool.true_and, if_neg hroot, isAbsolute_eq_true_iff]
      -- What is left starts with the empty piece before the first slash, and goes on.
      obtain ⟨second, more, hpieces⟩ := isAbsolute_eq_true_iff.mp habsolute
      rw [hpieces] at hrest
      rcases htrim : trimEnd p.stem with _ | ⟨first, _ | ⟨next, tail⟩⟩
      · rw [htrim] at hroot
        exact absurd rfl hroot
      · rw [htrim] at hroot hrest
        obtain ⟨rfl, -⟩ := List.cons.inj hrest
        exact absurd rfl hroot
      · rw [htrim] at hrest
        obtain ⟨rfl, -⟩ := List.cons.inj hrest
        exact ⟨next, tail, rfl⟩
  | false =>
    rw [Bool.false_and, if_neg Bool.false_ne_true]
    refine Bool.eq_false_iff.mpr fun htrim => ?_
    obtain ⟨second, more, hpieces⟩ := isAbsolute_eq_true_iff.mp htrim
    have htrue : p.isAbsolute = true := by
      refine isAbsolute_eq_true_iff.mpr ⟨second, more ++ rest, ?_⟩
      rw [← hrest, show trimEnd p.stem = "" :: second :: more from hpieces]
      rfl
    rw [htrue] at habsolute
    cases habsolute

end Parent

/-! ### The names of a run -/

theorem bare_of_spelled {s : String} (hspelled : Identifier.Spelled s) (hplain : Plain s) :
    Bare s :=
  ⟨hplain, fun hdot => absurd (hspelled _ hdot) (by decide)⟩

theorem bare_moduleName (name : String) : Bare (moduleName name) :=
  bare_of_spelled (Identifier.segment_moduleName name).spelled (proper_moduleName name).toPlain

theorem bare_ofVendor {vendorName s : String} (hs : s ∈ (Namespace.ofVendor vendorName).segments) :
    Bare s :=
  bare_of_spelled (fun _ hc => Namespace.isIdentifierChar_ofVendor hs hc)
    (Namespace.proper_ofVendor hs).toPlain

theorem dotted_file (name : String) : Dotted (moduleName name ++ ".rs") where
  toProper := proper_file name
  dot := by
    rw [String.toList_append]
    exact List.mem_append_right _ (by decide)

theorem dotted_loaderFile : Dotted "mod.rs" := ⟨proper_loaderFile, by decide⟩

end Path

end RadiusDictionary
