import RadiusDictionary.Proofs.Path

/-! # Paths below a folder

A name is proper if it stands for something in a folder: it is plain, and it is not `..`. A path is
`Within` another if it leads some proper names further, and `Below` it if it leads one further at
least. All files that are generated lie below the output folder: what is made from names of the
dictionary is proper (`Namespace.proper_ofVendor`, `proper_file`), and so is every segment of the
root namespace that has no slash in it (`Namespace.proper_parse`). -/

namespace RadiusDictionary

namespace Path

/-- The segment is the name of something in a folder. -/
structure Proper (segment : String) : Prop extends Plain segment where
  up : segment ≠ ".."

/-- The path leads some names further than another, or not further at all. -/
def Within (base p : Path) : Prop :=
  ∃ names : List String, (∀ s ∈ names, Proper s) ∧ p = names.foldl joinText base

/-- The path leads to something in or below a folder. -/
def Below (base p : Path) : Prop :=
  ∃ folder name, Within base folder ∧ Proper name ∧ p = folder.joinText name

variable {base p q : Path} {segment : String}

theorem within_foldl_joinText {names : List String} (h : ∀ s ∈ names, Proper s) :
    Within base (names.foldl joinText base) :=
  ⟨names, h, rfl⟩

theorem Within.trans {folder : Path} (h : Within base folder) (h' : Within folder p) :
    Within base p := by
  obtain ⟨names, hnames, rfl⟩ := h
  obtain ⟨names', hnames', rfl⟩ := h'
  refine ⟨names ++ names', fun s hs => ?_, List.foldl_append.symm⟩
  exact (List.mem_append.mp hs).elim (hnames s) (hnames' s)

theorem Within.joinText (h : Within base p) (hsegment : Proper segment) :
    Within base (p.joinText segment) :=
  h.trans ⟨[segment], List.forall_mem_singleton.mpr hsegment, rfl⟩

theorem Within.below (h : Within base p) (hsegment : Proper segment) :
    Below base (p.joinText segment) :=
  ⟨p, segment, h, hsegment, rfl⟩

theorem isAbsolute_append_singleton (front : List String) (last last' : String) :
    (⟨front ++ [last]⟩ : Path).isAbsolute = (⟨front ++ [last']⟩ : Path).isAbsolute := by
  obtain _ | ⟨first, _ | ⟨second, rest⟩⟩ := front
  · simp [isAbsolute]
  · by_cases hfirst : first = "" <;> simp [isAbsolute, hfirst]
  · by_cases hfirst : first = "" <;> simp [isAbsolute, hfirst]

theorem isAbsolute_joinText (h : Plain segment) :
    (p.joinText segment).isAbsolute = p.isAbsolute := by
  rw [joinText_eq h]
  obtain ⟨pieces⟩ := p
  unfold stem
  by_cases hlast : pieces.getLast? = some ""
  · obtain ⟨front, rfl⟩ := List.getLast?_eq_some_iff.mp hlast
    rw [if_pos hlast, List.dropLast_concat]
    exact isAbsolute_append_singleton front segment ""
  · rw [if_neg hlast]
    obtain _ | ⟨first, _ | ⟨second, rest⟩⟩ := pieces
    · simp [isAbsolute]
    · have hfirst : first ≠ "" := by simpa using hlast
      simp [isAbsolute, hfirst]
    · by_cases hfirst : first = "" <;> simp [isAbsolute, hfirst]

theorem isAbsolute_foldl_joinText : ∀ (names : List String) (p : Path), (∀ s ∈ names, Plain s) →
    (names.foldl joinText p).isAbsolute = p.isAbsolute
  | [], _, _ => rfl
  | s :: rest, p, h => by
    obtain ⟨hs, hrest⟩ := List.forall_mem_cons.mp h
    rw [List.foldl_cons, isAbsolute_foldl_joinText rest _ hrest, isAbsolute_joinText hs]

/-! ### Proper names -/

theorem Plain.proper (h : Plain segment) (hdot : '.' ∉ segment.toList) : Proper segment where
  toPlain := h
  up heq := hdot (by rw [heq]; decide)

theorem moduleName_ne {name s : String} (hs : s.toList.head? ≠ some 'a') : moduleName name ≠ s := by
  rintro rfl
  rw [moduleName, String.toList_append] at hs
  exact hs rfl

/-- The module of an attribute is a proper name, and so is its file. -/
theorem proper_moduleName (name : String) : Proper (moduleName name) where
  slash hmem := (plain_file name).1.slash (by
    rw [String.toList_append]
    exact List.mem_append_left _ hmem)
  empty := moduleName_ne (by decide)
  here := moduleName_ne (by decide)
  up := moduleName_ne (by decide)

theorem proper_file (name : String) : Proper (moduleName name ++ ".rs") where
  toPlain := (plain_file name).1
  up heq := by
    have hchars := congrArg String.toList heq
    rw [moduleName, String.toList_append, String.toList_append] at hchars
    cases hchars

theorem proper_loaderFile : Proper "mod.rs" :=
  ⟨⟨by decide, by decide, by decide⟩, by decide⟩

end Path

namespace Namespace

/-- The segments of a vendor's namespace hold identifier characters only. -/
theorem isIdentifierChar_ofVendor {vendorName s : String} (hs : s ∈ (ofVendor vendorName).segments)
    {c : Char} (hc : c ∈ s.toList) : isIdentifierChar c = true := by
  have hguard : ∀ part : String, c ∈ (guardSegment (sanitize part)).toList →
      isIdentifierChar c = true := by
    intro part hpart
    unfold guardSegment at hpart
    split at hpart
    · rw [String.toList_append, List.mem_append] at hpart
      rcases hpart with hpart | hpart
      · exact isIdentifierChar_of_mem_sanitize hpart
      · rw [List.mem_singleton.mp hpart]
        decide
    · exact isIdentifierChar_of_mem_sanitize hpart
  unfold ofVendor at hs
  split at hs
  · rw [List.mem_singleton.mp hs] at hc
    exact isIdentifierChar_of_mem_sanitize hc
  · rcases List.mem_cons.mp hs with rfl | hs
    · exact isIdentifierChar_of_mem_sanitize hc
    · obtain ⟨part, -, rfl⟩ := List.mem_map.mp hs
      exact hguard part hc

theorem proper_ofVendor {vendorName s : String} (hs : s ∈ (ofVendor vendorName).segments) :
    Path.Proper s :=
  ((ofVendor_spec vendorName).2 s hs).proper fun hdot =>
    absurd (isIdentifierChar_ofVendor hs hdot) (by decide)

/-- The segments of a namespace that users write are not empty, and without dots. -/
theorem dot_not_mem_parse {text s : String} (hs : s ∈ (parse text).segments) :
    s ≠ "" ∧ '.' ∉ s.toList := by
  obtain ⟨cs, hcs, rfl⟩ := List.mem_map.mp hs
  obtain ⟨hcs, hempty⟩ := List.mem_filter.mp hcs
  obtain ⟨piece, hpiece, rfl⟩ := List.mem_map.mp hcs
  obtain ⟨part, -, hpiece⟩ := List.mem_flatMap.mp hpiece
  rw [String.toList_ofList]
  refine ⟨fun heq => ?_, fun hmem => ?_⟩
  · have hnil := congrArg String.toList heq
    rw [String.toList_ofList] at hnil
    rw [hnil] at hempty
    cases hempty
  · have hcut := Text.not_isCut_of_mem_piecesBy _ _ piece hpiece '.' (Text.mem_of_mem_trimChars hmem)
    simp at hcut

/-- A segment of a namespace that users write is proper unless a slash is in it. -/
theorem proper_parse {text s : String} (hs : s ∈ (parse text).segments) (hslash : '/' ∉ s.toList) :
    Path.Proper s := by
  obtain ⟨hempty, hdot⟩ := dot_not_mem_parse hs
  refine Path.Plain.proper ⟨hslash, hempty, fun heq => hdot ?_⟩ hdot
  rw [heq]
  decide

end Namespace

end RadiusDictionary
