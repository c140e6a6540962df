import RadiusDictionary.Proofs.Path.Below

/-! # Identifiers that differ stay different

Modules are declared under `Identifier.escape` of their names. For names that are spelled like
identifiers it is nearly injective: two names are written alike only if they are equal or one is a
word without a raw form and the other is that word with an underscore (`Identifier.escape_eq`). The
segments of vendors' namespaces are no path keywords, so that only `_` and `__` are left
(`Segment.eq_of_escape_eq`).

The folders of the namespaces and the files of the attributes have the names as they are. A module
is found there if what it is declared under stands for the same name (`IsFaithful`), and for all of
them that is so up to the vendors of which a part leaves only `_`
(`Namespace.modules_faithful_iff`). -/

namespace RadiusDictionary

namespace Identifier

/-- The name has no characters but those of identifiers. -/
def Spelled (name : String) : Prop := ∀ c ∈ name.toList, isIdentifierChar c = true

instance (name : String) : Decidable (Spelled name) :=
  List.decidableBAll (fun c => isIdentifierChar c = true) name.toList

/-- The words that are written with an underscore after them. -/
def IsGuarded (name : String) : Prop := name = "_" ∨ isPathKeyword name = true

theorem escape_of_isGuarded {name : String} (h : IsGuarded name) : escape name = name ++ "_" := by
  unfold escape
  rw [if_pos]
  rcases h with rfl | h
  · rfl
  · rw [h, Bool.or_true]

/-- Any other name is in raw form if it is a keyword. -/
theorem escape_of_not_isGuarded {name : String} (h : ¬ IsGuarded name) :
    escape name = if keywords.contains name then "r#" ++ name else name := by
  have hguard : ¬ (name = "_" || isPathKeyword name) = true := by
    intro hguard
    rw [Bool.or_eq_true, decide_eq_true_eq] at hguard
    exact h hguard
  unfold escape
  rw [if_neg hguard]

theorem escape_cases {name : String} (h : ¬ IsGuarded name) :
    escape name = name ∨ escape name = "r#" ++ name := by
  rw [escape_of_not_isGuarded h]
  by_cases hkeyword : keywords.contains name = true
  · rw [if_pos hkeyword]
    exact Or.inr rfl
  · rw [if_neg hkeyword]
    exact Or.inl rfl

theorem Spelled.append {name name' : String} (h : Spelled name) (h' : Spelled name') :
    Spelled (name ++ name') := by
  intro c hc
  rw [String.toList_append, List.mem_append] at hc
  exact hc.elim (h c) (h' c)

theorem not_spelled_raw (name : String) : ¬ Spelled ("r#" ++ name) := by
  intro h
  have hmem : '#' ∈ ("r#" ++ name).toList := by
    rw [String.toList_append]
    exact List.mem_append_left _ (by decide)
  exact absurd (h '#' hmem) (by decide)

/-- **Names that are written alike** are equal, or one is guarded and the other is what it is
written as. -/
theorem escape_eq {s s' : String} (hs : Spelled s) (hs' : Spelled s') (h : escape s = escape s') :
    s = s' ∨ (IsGuarded s ∧ s' = s ++ "_") ∨ (IsGuarded s' ∧ s = s' ++ "_") := by
  have hunderscore : Spelled "_" := by decide
  by_cases hguarded : IsGuarded s
  · rw [escape_of_isGuarded hguarded] at h
    by_cases hguarded' : IsGuarded s'
    · rw [escape_of_isGuarded hguarded'] at h
      exact Or.inl ((String.append_left_inj _).mp h)
    · rcases escape_cases hguarded' with hplain | hraw
      · exact Or.inr (Or.inl ⟨hguarded, (h.trans hplain).symm⟩)
      · exact absurd (h.trans hraw ▸ hs.append hunderscore) (not_spelled_raw s')
  · rcases escape_cases hguarded with hplain | hraw
    · rw [hplain] at h
      by_cases hguarded' : IsGuarded s'
      · exact Or.inr (Or.inr ⟨hguarded', h.trans (escape_of_isGuarded hguarded')⟩)
      · rcases escape_cases hguarded' with hplain' | hraw'
        · exact Or.inl (h.trans hplain')
        · exact absurd (h.trans hraw' ▸ hs) (not_spelled_raw s')
    · rw [hraw] at h
      by_cases hguarded' : IsGuarded s'
      · exact absurd ((h.trans (escape_of_isGuarded hguarded')).symm ▸ hs'.append hunderscore)
          (not_spelled_raw s)
      · rcases escape_cases hguarded' with hplain' | hraw'
        · exact absurd ((h.trans hplain').symm ▸ hs') (not_spelled_raw s)
        · exact Or.inl ((String.append_right_inj _).mp (h.trans hraw'))

/-! ### Segments -/

/-- What the name is written as stands for the name itself. -/
def IsFaithful (name : String) : Prop := escape name = name ∨ escape name = "r#" ++ name

/-- A name that is spelled like an identifier and is no path keyword. -/
structure Segment (name : String) : Prop where
  spelled : Spelled name
  free : isPathKeyword name = false

/-- The lone underscore is the only segment that is written as another name. -/
theorem Segment.isFaithful_iff {s : String} (h : Segment s) : IsFaithful s ↔ s ≠ "_" := by
  constructor
  · rintro (hplain | hraw) rfl
    · exact absurd hplain (by decide)
    · exact absurd hraw (by decide)
  · intro hne
    refine escape_cases ?_
    rintro (hunderscore | hkeyword)
    · exact hne hunderscore
    · rw [h.free] at hkeyword
      cases hkeyword

/-- Of two different segments that are written alike one is `_` and the other `__`. -/
theorem Segment.eq_of_escape_eq {s s' : String} (h : Segment s) (h' : Segment s')
    (heq : escape s = escape s') : s = s' ∨ (s = "_" ∧ s' = "__") ∨ (s = "__" ∧ s' = "_") := by
  have hguarded : ∀ {name : String}, Segment name → IsGuarded name → name = "_" := by
    intro name hname hguarded
    refine hguarded.resolve_right fun hkeyword => ?_
    rw [hname.free] at hkeyword
    cases hkeyword
  rcases escape_eq h.spelled h'.spelled heq with hsame | ⟨hs, hs'⟩ | ⟨hs', hs⟩
  · exact Or.inl hsame
  · obtain rfl := hguarded h hs
    exact Or.inr (Or.inl ⟨rfl, hs'⟩)
  · obtain rfl := hguarded h' hs'
    exact Or.inr (Or.inr ⟨hs, rfl⟩)

/-- Names without a doubtful underscore can be told by the way they are written. -/
theorem Segment.escape_eq_iff {s s' : String} (h : Segment s) (h' : Segment s')
    (hone : s' ≠ "_") (htwo : s' ≠ "__") : escape s = escape s' ↔ s = s' := by
  constructor
  · intro heq
    rcases h.eq_of_escape_eq h' heq with hsame | ⟨-, hs'⟩ | ⟨-, hs'⟩
    · exact hsame
    · exact absurd hs' htwo
    · exact absurd hs' hone
  · rintro rfl
    rfl

/-- Such a name stands among written segments where it stands among the segments. -/
theorem Segment.mem_map_escape_iff {names : List String} (hnames : ∀ s ∈ names, Segment s)
    {name : String} (h : Segment name) (hname : escape name = name) (hone : name ≠ "_")
    (htwo : name ≠ "__") : name ∈ names.map escape ↔ name ∈ names := by
  constructor
  · intro hmem
    obtain ⟨s, hs, heq⟩ := List.mem_map.mp hmem
    rw [← ((hnames s hs).escape_eq_iff h hone htwo).mp (heq.trans hname.symm)]
    exact hs
  · intro hmem
    exact List.mem_map.mpr ⟨name, hmem, hname⟩

theorem spelled_sanitize (name : String) : Spelled (sanitize name) :=
  fun _ hc => isIdentifierChar_of_mem_sanitize hc

theorem segment_moduleName (name : String) : Segment (moduleName name) where
  spelled := by
    have hlower : Spelled (Text.lowercaseAscii (sanitize name)) := by
      intro c hc
      rw [Text.lowercaseAscii, String.toList_ofList] at hc
      obtain ⟨d, hd, rfl⟩ := List.mem_map.mp hc
      rcases Text.asciiLower_cases d with hsame | ⟨n, hn, hn', -, hlower⟩
      · rw [hsame]
        exact spelled_sanitize name d hd
      · rw [hlower]
        have hletters : ∀ n < 91, 65 ≤ n → isIdentifierChar (Char.ofNat (n + 32)) = true := by decide
        exact hletters n hn hn'
    exact Spelled.append (by decide) hlower
  free := by
    rw [← Bool.not_eq_true, isPathKeyword, List.contains_iff_mem]
    exact fun hmem => Path.moduleName_ne
      ((by decide : ∀ k ∈ pathKeywords, k.toList.head? ≠ some 'a') _ hmem) rfl

/-- Keywords do not get in the way of modules of attributes. -/
theorem escape_moduleName (name : String) :
    escape (moduleName name) = moduleName name := by
  have hfront : (moduleName name).toList.take 5 = ['a', 't', 't', 'r', '_'] := by
    rw [moduleName, String.toList_append]
    rfl
  have hnot : ∀ words : List String, (∀ w ∈ words, w.toList.take 5 ≠ ['a', 't', 't', 'r', '_']) →
      words.contains (moduleName name) = false := by
    intro words hwords
    rw [← Bool.not_eq_true, List.contains_iff_mem]
    exact fun hmem => hwords _ hmem hfront
  have hplace : isPathKeyword (moduleName name) = false := hnot _ (by decide)
  have hword : keywords.contains (moduleName name) = false := hnot _ (by decide)
  have hunderscore : moduleName name ≠ "_" := by
    intro heq
    rw [heq] at hfront
    revert hfront
    decide
  unfold escape
  rw [hplace, hword]
  simp [hunderscore]

theorem map_escape_moduleNames {names : List String}
    (h : ∀ name ∈ names, ∃ s, name = moduleName s) : names.map escape = names := by
  refine (List.map_congr_left fun name hname => ?_).trans (List.map_id _)
  obtain ⟨s, rfl⟩ := h name hname
  exact escape_moduleName s

end Identifier

namespace Namespace

open Identifier (Segment isPathKeyword pathKeywords)

/-- An underscore makes a path keyword a segment. -/
theorem isPathKeyword_guardSegment (part : String) : isPathKeyword (guardSegment part) = false := by
  unfold guardSegment
  split
  · next h =>
    have hmem : part ∈ pathKeywords := List.contains_iff_mem.mp h
    exact (by decide : ∀ k ∈ pathKeywords, isPathKeyword (k ++ "_") = false) part hmem
  · next h => exact Bool.not_eq_true _ ▸ h

/-- What starts with an identifier that starts with a letter is not changed at the start. -/
theorem toList_sanitize_vendor (name : String) :
    (sanitize ("vsa_" ++ name)).toList = "vsa_".toList ++ identifierChars name.toList := by
  have hchars : identifierChars ("vsa_" ++ name).toList =
      "vsa_".toList ++ identifierChars name.toList := by
    unfold identifierChars
    rw [String.toList_append, List.map_append, List.filter_append]
    rfl
  rw [sanitize, String.toList_ofList, hchars]
  rfl

theorem isPathKeyword_sanitize_vendor (name : String) :
    isPathKeyword (sanitize ("vsa_" ++ name)) = false := by
  rw [← Bool.not_eq_true, isPathKeyword, List.contains_iff_mem]
  intro hmem
  have hfront := (by decide : ∀ k ∈ pathKeywords, k.toList.head? ≠ some 'v') _ hmem
  rw [toList_sanitize_vendor] at hfront
  exact hfront rfl

theorem segment_ofVendor {vendorName s : String} (hs : s ∈ (ofVendor vendorName).segments) :
    Segment s := by
  refine ⟨fun c hc => isIdentifierChar_ofVendor hs hc, ?_⟩
  unfold ofVendor at hs
  split at hs
  · rw [List.mem_singleton.mp hs]
    exact isPathKeyword_sanitize_vendor ""
  · rcases List.mem_cons.mp hs with rfl | hs
    · exact isPathKeyword_sanitize_vendor _
    · obtain ⟨part, -, rfl⟩ := List.mem_map.mp hs
      exact isPathKeyword_guardSegment _

/-! ### Names of folders and names of modules -/

/-- The parts of a vendor's name, in lower case, between its hyphens. -/
def vendorParts (vendorName : String) : List String :=
  (Text.pieces '-' (Text.lowercase vendorName)).filter (· ≠ "")

theorem segments_ofVendor (vendorName : String) : (ofVendor vendorName).segments =
    sanitize ("vsa_" ++ (vendorParts vendorName).headD "") ::
      (vendorParts vendorName).tail.map fun part => guardSegment (sanitize part) := by
  unfold ofVendor vendorParts
  split
  · next h =>
    rw [h]
    rfl
  · next h =>
    rw [h]
    rfl

theorem sanitize_vendor_ne_underscore (name : String) : sanitize ("vsa_" ++ name) ≠ "_" := by
  intro h
  have hchars := toList_sanitize_vendor name
  rw [h] at hchars
  exact absurd (congrArg List.head? hchars) (by simp)

/-- The guard of path keywords makes no lone underscore and leaves one as it is. -/
theorem guardSegment_eq_underscore_iff (segment : String) :
    guardSegment segment = "_" ↔ segment = "_" := by
  constructor
  · intro h
    unfold guardSegment at h
    split at h
    · next hkeyword =>
      have hmem : segment ∈ pathKeywords := List.contains_iff_mem.mp hkeyword
      exact absurd h ((by decide : ∀ k ∈ pathKeywords, k ++ "_" ≠ "_") segment hmem)
    · exact h
  · rintro rfl
    rfl

/-- Only an underscore is left of a name without identifier characters but one underscore. -/
theorem sanitize_eq_underscore_iff (name : String) :
    sanitize name = "_" ↔
      identifierChars name.toList = [] ∨ identifierChars name.toList = ['_'] := by
  have hguard : ∀ cs : List Char, guardStart cs = ['_'] ↔ cs = [] ∨ cs = ['_'] := by
    intro cs
    cases cs with
    | nil => simp [guardStart]
    | cons c cs =>
      by_cases hdigit : c.isDigit = true
      · have hne : c ≠ '_' := by
          rintro rfl
          exact absurd hdigit (by decide)
        simp [guardStart, hdigit, hne]
      · simp [guardStart, hdigit]
  rw [sanitize, ← String.toList_inj, String.toList_ofList]
  exact hguard _

theorem underscore_mem_ofVendor_iff (vendorName : String) :
    "_" ∈ (ofVendor vendorName).segments ↔ ∃ part ∈ (vendorParts vendorName).tail,
      identifierChars part.toList = [] ∨ identifierChars part.toList = ['_'] := by
  rw [segments_ofVendor, List.mem_cons, List.mem_map]
  constructor
  · rintro (h | ⟨part, hpart, h⟩)
    · exact absurd h.symm (sanitize_vendor_ne_underscore _)
    · rw [guardSegment_eq_underscore_iff, sanitize_eq_underscore_iff] at h
      exact ⟨part, hpart, h⟩
  · rintro ⟨part, hpart, h⟩
    refine Or.inr ⟨part, hpart, ?_⟩
    rw [guardSegment_eq_underscore_iff, sanitize_eq_underscore_iff]
    exact h

/-- **The modules of a vendor's namespace are found in its folders**, each in the folder of its own
name, exactly if no part of the vendor's name after the first leaves nothing or an underscore only.
The one segment that is written as another name is `_`; the modules of attributes are always
found. -/
theorem modules_faithful_iff (vendorName attributeName : String) :
    ((∀ s ∈ (ofVendor vendorName).segments, Identifier.IsFaithful s) ↔
      ∀ part ∈ (vendorParts vendorName).tail,
        identifierChars part.toList ≠ [] ∧ identifierChars part.toList ≠ ['_']) ∧
    (∀ s ∈ (ofVendor vendorName).segments, Identifier.IsFaithful s ↔ s ≠ "_") ∧
    Identifier.IsFaithful (moduleName attributeName) := by
  have hsegment : ∀ s ∈ (ofVendor vendorName).segments, Identifier.IsFaithful s ↔ s ≠ "_" :=
    fun s hs => (segment_ofVendor hs).isFaithful_iff
  refine ⟨?_, hsegment, Or.inl (Identifier.escape_moduleName attributeName)⟩
  have hnone : (∀ s ∈ (ofVendor vendorName).segments, Identifier.IsFaithful s) ↔
      "_" ∉ (ofVendor vendorName).segments := by
    constructor
    · intro h hmem
      exact (hsegment "_" hmem).mp (h "_" hmem) rfl
    · intro h s hs
      refine (hsegment s hs).mpr ?_
      rintro rfl
      exact h hs
  rw [hnone, underscore_mem_ofVendor_iff]
  constructor
  · intro h part hpart
    exact not_or.mp fun hleft => h ⟨part, hpart, hleft⟩
  · rintro h ⟨part, hpart, hleft⟩
    exact not_or.mpr (h part hpart) hleft

/-- The module of the vendor `A-.` below `vsa_a` is declared as `__`; its folder is `_`. -/
theorem modules_unfaithful_of_dot :
    ofVendor "A-." = ⟨["vsa_a", "_"]⟩ ∧ Identifier.escape "_" = "__" ∧
      ¬ ∀ s ∈ (ofVendor "A-.").segments, Identifier.IsFaithful s := by
  refine ⟨by decide +kernel, by decide, fun h => ?_⟩
  exact ((modules_faithful_iff "A-." "").1.mp h "." (by decide +kernel)).1 (by decide)

end Namespace

end RadiusDictionary
