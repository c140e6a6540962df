import RadiusDictionary.Namespace

/-! # Paths of plain segments

A segment is plain if a path takes it for one piece that counts: a name without slashes, neither
empty nor `.`. Every segment that is made from a name of the dictionary is plain, and joining plain
segments to a path adds them to its names (`names_foldl_joinText`), so that they can be read off its
key. -/

namespace RadiusDictionary

/-- The segment is one piece that counts. -/
structure Path.Plain (segment : String) : Prop where
  slash : '/' ∉ segment.toList
  empty : segment ≠ ""
  here : segment ≠ "."

/-! ### Segments from names -/

/-- A text that starts with a plain one and goes on without a slash is plain. -/
theorem Path.Plain.append {segment rest : String} (h : Path.Plain segment)
    (hrest : '/' ∉ rest.toList) : Path.Plain (segment ++ rest) where
  slash hmem := by
    rw [String.toList_append, List.mem_append] at hmem
    exact hmem.elim h.slash hrest
  empty heq := h.empty (String.append_eq_empty_iff.mp heq).1
  here heq := by
    have hchars := congrArg String.toList heq
    rw [String.toList_append] at hchars
    rcases List.append_eq_singleton_iff.mp hchars with ⟨hnil, -⟩ | ⟨hone, -⟩
    · exact h.empty (String.toList_injective hnil)
    · exact h.here (String.toList_injective hone)

theorem isIdentifierChar_of_mem_sanitize {name : String} {c : Char}
    (hc : c ∈ (sanitize name).toList) : isIdentifierChar c = true := by
  have hall : ∀ cs : List Char, ∀ c ∈ identifierChars cs, isIdentifierChar c = true :=
    fun cs c hc => (List.mem_filter.mp hc).2
  rw [sanitize, String.toList_ofList] at hc
  cases hchars : identifierChars name.toList with
  | nil =>
    rw [hchars, guardStart] at hc
    rw [List.mem_singleton.mp hc]
    rfl
  | cons first rest =>
    rw [hchars, guardStart, ← hchars] at hc
    split at hc
    · rcases List.mem_cons.mp hc with rfl | hc
      · rfl
      · exact hall _ c hc
    · exact hall _ c hc

theorem plain_sanitize (name : String) : Path.Plain (sanitize name) where
  slash hmem := absurd (isIdentifierChar_of_mem_sanitize hmem) (by decide)
  empty heq := by
    have hchars := congrArg String.toList heq
    rw [sanitize, String.toList_ofList] at hchars
    unfold guardStart at hchars
    split at hchars
    · cases hchars
    · split at hchars <;> cases hchars
  here heq := by
    have hmem : '.' ∈ (sanitize name).toList := by rw [heq]; decide
    exact absurd (isIdentifierChar_of_mem_sanitize hmem) (by decide)

/-- The file of an attribute's module is plain, and it is not that of a loader. -/
theorem plain_file (name : String) :
    Path.Plain (moduleName name ++ ".rs") ∧ moduleName name ++ ".rs" ≠ "mod.rs" := by
  have hattr : Path.Plain "attr_" := ⟨by decide, by decide, by decide⟩
  have hslash : '/' ∉ (Text.lowercaseAscii (sanitize name)).toList := by
    rw [Text.lowercaseAscii, String.toList_ofList]
    intro hmem
    obtain ⟨c, hc, hlower⟩ := List.mem_map.mp hmem
    obtain rfl := Text.eq_of_asciiLower_eq (by decide) hlower
    exact (plain_sanitize name).slash hc
  refine ⟨(hattr.append hslash).append (by decide), fun heq => ?_⟩
  have hchars := congrArg String.toList heq
  rw [moduleName, String.toList_append, String.toList_append] at hchars
  cases hchars

namespace Namespace

theorem plain_guardSegment {segment : String} (h : Path.Plain segment) :
    Path.Plain (guardSegment segment) := by
  unfold guardSegment
  split
  · exact h.append (by decide)
  · exact h

/-- The namespace of a vendor has a segment at least, and plain ones only. -/
theorem ofVendor_spec (vendorName : String) :
    (ofVendor vendorName).segments ≠ [] ∧ ∀ s ∈ (ofVendor vendorName).segments, Path.Plain s := by
  unfold ofVendor
  split
  · refine ⟨by simp, fun s hs => ?_⟩
    rw [List.mem_singleton.mp hs]
    exact plain_sanitize _
  · refine ⟨by simp, fun s hs => ?_⟩
    rcases List.mem_cons.mp hs with rfl | hs
    · exact plain_sanitize _
    · obtain ⟨part, -, rfl⟩ := List.mem_map.mp hs
      exact plain_guardSegment (plain_sanitize part)

end Namespace

/-! ### Joining them to a path -/

namespace Path

variable {p q : Path} {segment : String}

theorem pieces_ofText (h : Plain segment) : (ofText segment).pieces = [segment] := by
  have hcut : ∀ c ∈ segment.toList, (c == '/') = false := by
    intro c hc
    rw [beq_eq_false_iff_ne]
    rintro rfl
    exact h.slash hc
  have hpieces := Text.piecesBy_append hcut (rfl : Text.piecesBy (· == '/') [] = [] :: [])
  rw [List.append_nil] at hpieces
  rw [ofText, Text.pieces, hpieces]
  simp

theorem joinText_eq (h : Plain segment) : p.joinText segment = ⟨p.stem ++ [segment]⟩ := by
  have habsolute : (ofText segment).isAbsolute = false := by
    unfold isAbsolute
    rw [pieces_ofText h]
    split
    · next hpieces => cases hpieces
    · rfl
  rw [joinText, join, habsolute, pieces_ofText h]
  rfl

theorem names_stem (p : Path) : (⟨p.stem⟩ : Path).names = p.names := by
  unfold stem names
  split
  · next hlast =>
    obtain ⟨front, hfront⟩ := List.getLast?_eq_some_iff.mp hlast
    rw [hfront]
    simp
  · rfl

theorem names_joinText (h : Plain segment) : (p.joinText segment).names = p.names ++ [segment] := by
  rw [joinText_eq h, ← names_stem p]
  unfold names
  rw [List.filter_append]
  simp [h.empty, h.here]

theorem names_foldl_joinText : ∀ (segments : List String) (p : Path),
    (∀ s ∈ segments, Plain s) → (segments.foldl joinText p).names = p.names ++ segments
  | [], p, _ => (List.append_nil _).symm
  | s :: rest, p, h => by
    obtain ⟨hs, hrest⟩ := List.forall_mem_cons.mp h
    rw [List.foldl_cons, names_foldl_joinText rest _ hrest, names_joinText hs, List.append_assoc]
    rfl

end Path

end RadiusDictionary
