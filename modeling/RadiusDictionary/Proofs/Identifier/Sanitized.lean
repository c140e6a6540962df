import RadiusDictionary.Proofs.Identifier.Legal

/-! # Identifiers made of names

Everything that is generated is named after something in the dictionary, in two steps: `sanitize`
makes an identifier of any text, and `escape` writes it so that the language accepts it. The first
step lands on the texts that match `[A-Za-z_][A-Za-z0-9_]*` (`isIdent_sanitize`) and leaves those
alone (`sanitize_eq_self_iff`). The second step loses hardly anything: a word without a raw form is
written like the same word with an underscore, and no others meet (`escape_eq_iff`). Both together
are said by `identifiers_of_names`. -/

namespace RadiusDictionary

theorem isIdentifierChar_iff {c : Char} :
    isIdentifierChar c = true ↔ c.isAlphanum = true ∨ c = '_' := by
  simp [isIdentifierChar]

theorem isDigit_of_isAlpha {c : Char} (h : c.isAlpha = true) : c.isDigit = false := by
  have hletter : 65 ≤ c.val := by
    rcases Bool.or_eq_true_iff.mp h with hupper | hlower
    · have hrange : 65 ≤ c.val ∧ c.val ≤ 90 := of_decide_eq_true hupper
      exact hrange.1
    · have hfirst : 97 ≤ c.val := of_decide_eq_true (Bool.and_eq_true_iff.mp hlower).1
      exact UInt32.le_trans (by decide) hfirst
  rw [← Bool.not_eq_true]
  intro hdigit
  have hlast : c.val ≤ 57 := of_decide_eq_true (Bool.and_eq_true_iff.mp hdigit).2
  exact absurd (UInt32.le_trans hletter hlast) (by decide)

/-- The characters with which an identifier starts. -/
theorem isIdentifierChar_and_not_isDigit_iff {c : Char} :
    isIdentifierChar c = true ∧ c.isDigit = false ↔ c.isAlpha = true ∨ c = '_' := by
  rw [isIdentifierChar_iff]
  constructor
  · rintro ⟨halphanum | hunderscore, hdigit⟩
    · left
      simpa [Char.isAlphanum, hdigit] using halphanum
    · exact Or.inr hunderscore
  · rintro (halpha | rfl)
    · exact ⟨Or.inl (by simp [Char.isAlphanum, halpha]), isDigit_of_isAlpha halpha⟩
    · decide

namespace Identifier

/-! ### Sanitized names -/

/-- The name has only characters of identifiers, and the first one is no digit. -/
structure IsIdent (name : String) : Prop where
  spelled : Spelled name
  start : ∃ c ∈ name.toList.head?, c.isDigit = false

/-- The name matches `[A-Za-z_][A-Za-z0-9_]*`. -/
theorem isIdent_iff {name : String} : IsIdent name ↔
    ∃ first rest, name.toList = first :: rest ∧ (first.isAlpha = true ∨ first = '_') ∧
      ∀ c ∈ rest, c.isAlphanum = true ∨ c = '_' := by
  constructor
  · rintro ⟨hspelled, first, hhead, hdigit⟩
    obtain ⟨rest, hchars⟩ := List.head?_eq_some_iff.mp hhead
    rw [Spelled, hchars] at hspelled
    obtain ⟨hfirst, hrest⟩ := List.forall_mem_cons.mp hspelled
    exact ⟨first, rest, hchars, isIdentifierChar_and_not_isDigit_iff.mp ⟨hfirst, hdigit⟩,
      fun c hc => isIdentifierChar_iff.mp (hrest c hc)⟩
  · rintro ⟨first, rest, hchars, hfirst, hrest⟩
    obtain ⟨hident, hdigit⟩ := isIdentifierChar_and_not_isDigit_iff.mpr hfirst
    have hhead : first ∈ name.toList.head? := by
      rw [hchars]
      rfl
    refine ⟨?_, first, hhead, hdigit⟩
    rw [Spelled, hchars]
    exact List.forall_mem_cons.mpr ⟨hident, fun c hc => isIdentifierChar_iff.mpr (hrest c hc)⟩

theorem isIdent_sanitize (name : String) : IsIdent (sanitize name) :=
  ⟨spelled_sanitize name, start_sanitize name⟩

/-- There is nothing to drop or to replace among characters of identifiers. -/
theorem identifierChars_eq_self {cs : List Char} (h : ∀ c ∈ cs, isIdentifierChar c = true) :
    identifierChars cs = cs := by
  have hyphen : ∀ c ∈ cs, (if c = '-' then '_' else c) = c := by
    intro c hc
    rw [if_neg]
    rintro rfl
    exact absurd (h '-' hc) (by decide)
  rw [identifierChars, List.map_congr_left hyphen, List.map_id']
  exact List.filter_eq_self.mpr h

theorem IsIdent.sanitize_eq {name : String} (h : IsIdent name) : sanitize name = name := by
  obtain ⟨hspelled, first, hhead, hdigit⟩ := h
  obtain ⟨rest, hchars⟩ := List.head?_eq_some_iff.mp hhead
  have hguard : guardStart name.toList = name.toList := by
    rw [hchars, guardStart, if_neg]
    rw [hdigit]
    exact Bool.false_ne_true
  rw [sanitize, identifierChars_eq_self hspelled, hguard, String.ofList_toList]

/-- **Identifiers are left as they are**, and nothing else is. -/
theorem sanitize_eq_self_iff {name : String} : sanitize name = name ↔ IsIdent name := by
  constructor
  · intro h
    rw [← h]
    exact isIdent_sanitize name
  · exact IsIdent.sanitize_eq

/-! ### Legal identifiers -/

theorem spelled_reservedWords : ∀ word ∈ reservedWords, Spelled word := by decide

namespace IsLegal

variable {ident : String}

theorem ne_underscore (h : IsLegal ident) : ident ≠ "_" := by
  rcases h with ⟨hword, -⟩ | ⟨word, rfl, -, -⟩
  · exact hword.ne_underscore
  · intro heq
    exact not_spelled_raw word (heq ▸ (by decide : Spelled "_"))

/-- A raw form is no reserved word, not even that of a reserved word. -/
theorem not_mem_reservedWords (h : IsLegal ident) : ident ∉ reservedWords := by
  rcases h with ⟨-, hfree⟩ | ⟨word, rfl, -, -⟩
  · exact hfree
  · exact fun hmem => not_spelled_raw word (spelled_reservedWords _ hmem)

/-- The raw forms that do not exist are not used. -/
theorem ne_raw (h : IsLegal ident) {word : String} (hword : word ∈ "_" :: rawlessWords) :
    ident ≠ "r#" ++ word := by
  rintro rfl
  rcases h with ⟨hident, -⟩ | ⟨word', heq, hword', hraw⟩
  · exact not_spelled_raw word hident.spelled
  · obtain rfl := (String.append_right_inj _).mp heq
    rcases List.mem_cons.mp hword with rfl | hmem
    · exact hword'.ne_underscore rfl
    · exact hraw hmem

end IsLegal

/-! ### Identifiers that are written alike -/

/-- The guarded words are the lone underscore and the reserved words without a raw form. -/
theorem isGuarded_iff {name : String} : IsGuarded name ↔ name ∈ "_" :: rawlessWords := by
  have hplaces : ∀ w ∈ pathKeywords, w ∈ rawlessWords := by decide
  have hrawless : ∀ w ∈ rawlessWords, w ∈ pathKeywords := by decide
  rw [IsGuarded, isPathKeyword, List.contains_iff_mem, List.mem_cons]
  exact or_congr_right ⟨hplaces name, hrawless name⟩

/-- **Names that are written alike** are equal, or one is a word without a raw form and the other is
this word with an underscore. -/
theorem escape_eq_iff {s s' : String} (hs : Spelled s) (hs' : Spelled s') :
    escape s = escape s' ↔ s = s' ∨ (s ∈ "_" :: rawlessWords ∧ s' = s ++ "_") ∨
      (s' ∈ "_" :: rawlessWords ∧ s = s' ++ "_") := by
  have hmeet : ∀ {w : String}, IsGuarded w → escape w = escape (w ++ "_") := by
    intro w hw
    rw [escape_of_isGuarded hw, (guarded_append hw).2.2]
  rw [← isGuarded_iff, ← isGuarded_iff]
  constructor
  · exact escape_eq hs hs'
  · rintro (rfl | ⟨hguarded, rfl⟩ | ⟨hguarded, rfl⟩)
    · rfl
    · exact hmeet hguarded
    · exact (hmeet hguarded).symm

/-- `Self` and `Self-` are written alike, `self` is not. -/
example : escape (sanitize "Self") = "Self_" ∧ escape (sanitize "Self-") = "Self_" ∧
    escape (sanitize "self") = "self_" := by decide

/-- **What names become.** A sanitized name is not empty and matches `[A-Za-z_][A-Za-z0-9_]*`; a
name that matches is left as it is, so that sanitizing twice is sanitizing once. As it is written,
it is accepted in every edition of the language: it is not `_`, it is a reserved word in raw form
only, and never in a raw form that does not exist. Two sanitized names are written alike only if
they are equal or one is `_`, `self`, `Self`, `super` or `crate` and the other is this word with an
underscore. -/
theorem identifiers_of_names (name name' : String) :
    (∃ first rest, (sanitize name).toList = first :: rest ∧
      (first.isAlpha = true ∨ first = '_') ∧ ∀ c ∈ rest, c.isAlphanum = true ∨ c = '_') ∧
    (sanitize name = name ↔ IsIdent name) ∧
    sanitize (sanitize name) = sanitize name ∧
    IsLegal (escape (sanitize name)) ∧
    escape (sanitize name) ≠ "_" ∧
    escape (sanitize name) ∉ reservedWords ∧
    (∀ word ∈ "_" :: rawlessWords, escape (sanitize name) ≠ "r#" ++ word) ∧
    (escape (sanitize name) = escape (sanitize name') ↔
      sanitize name = sanitize name' ∨
      (sanitize name ∈ "_" :: rawlessWords ∧ sanitize name' = sanitize name ++ "_") ∨
      (sanitize name' ∈ "_" :: rawlessWords ∧ sanitize name = sanitize name' ++ "_")) := by
  have hident := isIdent_sanitize name
  have hlegal := isLegal_escape_sanitize name
  exact ⟨isIdent_iff.mp hident, sanitize_eq_self_iff, hident.sanitize_eq, hlegal,
    hlegal.ne_underscore, hlegal.not_mem_reservedWords, fun _ hword => hlegal.ne_raw hword,
    escape_eq_iff hident.spelled (isIdent_sanitize name').spelled⟩

end Identifier

end RadiusDictionary
