import Mathlib.Data.List.Basic
import RadiusDictionary.Proofs.Identifier
import RadiusDictionary.Text.Front

/-! # Identifiers that the language accepts

The language of the generated source has words of its own (`reservedWords`), more of them with every
edition. A name that is one of them has to be written in raw form, and a few have no raw form. What
`escape` makes of a sanitized name is accepted in every edition (`isLegal_escape_sanitize`), and in
raw form or not, two such identifiers are the same only if they are written alike
(`escape_eq_of_word_eq`). -/

namespace RadiusDictionary.Identifier

/-- The words that the language keeps for itself in some edition: those in use, then those set aside
for later. -/
def reservedWords : List String :=
  ["as", "async", "await", "break", "const", "continue", "crate", "dyn", "else", "enum", "extern",
   "false", "fn", "for", "if", "impl", "in", "let", "loop", "match", "mod", "move", "mut", "pub",
   "ref", "return", "self", "Self", "static", "struct", "super", "trait", "true", "type", "unsafe",
   "use", "where", "while",
   "abstract", "become", "box", "do", "final", "gen", "macro", "override", "priv", "try", "typeof",
   "unsized", "virtual", "yield"]

/-- The reserved words that have no raw form. -/
def rawlessWords : List String := ["crate", "self", "Self", "super"]

/-- The name is spelled like an identifier: it starts with a letter or an underscore, goes on with
letters, digits and underscores, and is not an underscore alone. -/
structure IsWord (name : String) : Prop where
  spelled : Spelled name
  start : ∃ c ∈ name.toList.head?, c.isDigit = false
  ne_underscore : name ≠ "_"

/-- The identifier is accepted in every edition: it is a word that is not reserved, or the raw form
of a word that has one. -/
def IsLegal (ident : String) : Prop :=
  (IsWord ident ∧ ident ∉ reservedWords) ∨
    ∃ word, ident = "r#" ++ word ∧ IsWord word ∧ word ∉ rawlessWords

/-! ### What is written is accepted -/

theorem start_sanitize (name : String) : ∃ c ∈ (sanitize name).toList.head?, c.isDigit = false := by
  rw [sanitize, String.toList_ofList]
  cases identifierChars name.toList with
  | nil => exact ⟨'_', rfl, by decide⟩
  | cons c cs =>
    by_cases hdigit : c.isDigit = true
    · rw [guardStart, if_pos hdigit]
      exact ⟨'_', rfl, by decide⟩
    · rw [guardStart, if_neg hdigit]
      exact ⟨c, rfl, Bool.not_eq_true _ ▸ hdigit⟩

/-- A guarded word with its underscore is a word of its own, and it is not escaped again. -/
theorem guarded_append {name : String} (h : IsGuarded name) :
    IsWord (name ++ "_") ∧ name ++ "_" ∉ reservedWords ∧ escape (name ++ "_") = name ++ "_" := by
  have htable : ∀ w ∈ "_" :: pathKeywords,
      (Spelled (w ++ "_") ∧ (w ++ "_").toList.head?.any (fun c => !c.isDigit) = true ∧
        w ++ "_" ≠ "_") ∧ w ++ "_" ∉ reservedWords ∧ escape (w ++ "_") = w ++ "_" := by decide
  have hmem : name ∈ "_" :: pathKeywords := by
    rcases h with rfl | hkeyword
    · exact List.mem_cons_self
    · exact List.mem_cons_of_mem _ (List.contains_iff_mem.mp hkeyword)
  obtain ⟨⟨hspelled, hany, hne⟩, hfree, hescape⟩ := htable name hmem
  have hstart : ∃ c ∈ (name ++ "_").toList.head?, c.isDigit = false := by simpa using hany
  exact ⟨⟨hspelled, hstart, hne⟩, hfree, hescape⟩

theorem not_mem_reservedWords {name : String} (hguarded : ¬ IsGuarded name)
    (hkeyword : ¬ keywords.contains name = true) : name ∉ reservedWords := by
  have htable : ∀ w ∈ reservedWords, isPathKeyword w = true ∨ keywords.contains w = true := by
    decide
  intro hmem
  rcases htable name hmem with hplace | hword
  · exact hguarded (Or.inr hplace)
  · exact hkeyword hword

theorem not_mem_rawlessWords {name : String} (hguarded : ¬ IsGuarded name) :
    name ∉ rawlessWords := by
  have htable : ∀ w ∈ rawlessWords, isPathKeyword w = true := by decide
  exact fun hmem => hguarded (Or.inr (htable name hmem))

/-- **What is made of a name is accepted.** -/
theorem isLegal_escape_sanitize (name : String) : IsLegal (escape (sanitize name)) := by
  by_cases hguarded : IsGuarded (sanitize name)
  · rw [escape_of_isGuarded hguarded]
    obtain ⟨hword, hfree, -⟩ := guarded_append hguarded
    exact Or.inl ⟨hword, hfree⟩
  · have hword : IsWord (sanitize name) :=
      ⟨spelled_sanitize name, start_sanitize name, fun h => hguarded (Or.inl h)⟩
    rw [escape_of_not_isGuarded hguarded]
    by_cases hkeyword : keywords.contains (sanitize name) = true
    · rw [if_pos hkeyword]
      exact Or.inr ⟨_, rfl, hword, not_mem_rawlessWords hguarded⟩
    · rw [if_neg hkeyword]
      exact Or.inl ⟨hword, not_mem_reservedWords hguarded hkeyword⟩

/-! ### What is written stays apart -/

/-- The word for which an identifier stands: the raw form of a word stands for the word. -/
def word (ident : String) : String := (Text.after? "r#" ident).getD ident

theorem after?_append (front text : String) : Text.after? front (front ++ text) = some text := by
  have hrest : front.toList.isPrefixOf? (front ++ text).toList = some text.toList :=
    List.isPrefixOf?_eq_some_iff_append_eq.mpr (String.toList_append ..).symm
  rw [Text.after?, hrest, Option.map_some, String.ofList_toList]

theorem word_raw (name : String) : word ("r#" ++ name) = name := by
  rw [word, after?_append, Option.getD_some]

/-- A name that is spelled like an identifier is no raw form. -/
theorem word_of_spelled {name : String} (h : Spelled name) : word name = name := by
  have hnone : "r#".toList.isPrefixOf? name.toList = none := by
    rw [Option.eq_none_iff_forall_ne_some]
    intro rest hrest
    have happend : "r#".toList ++ rest = name.toList :=
      List.isPrefixOf?_eq_some_iff_append_eq.mp hrest
    have hname : "r#" ++ .ofList rest = name := by
      rw [← String.toList_inj, ← happend]
      simp
    exact not_spelled_raw _ (hname ▸ h)
  rw [word, Text.after?, hnone, Option.map_none, Option.getD_none]

/-- The identifier can be told from its word. -/
theorem escape_word_escape {name : String} (h : Spelled name) :
    escape (word (escape name)) = escape name := by
  by_cases hguarded : IsGuarded name
  · obtain ⟨hword, -, hescape⟩ := guarded_append hguarded
    rw [escape_of_isGuarded hguarded, word_of_spelled hword.spelled, hescape]
  · rcases escape_cases hguarded with hplain | hraw
    · rw [hplain, word_of_spelled h, hplain]
    · rw [hraw, word_raw, hraw]

/-- **Identifiers that stand for one word are written alike.** -/
theorem escape_eq_of_word_eq {s s' : String} (hs : Spelled s) (hs' : Spelled s')
    (h : word (escape s) = word (escape s')) : escape s = escape s' := by
  rw [← escape_word_escape hs, h, escape_word_escape hs']

end RadiusDictionary.Identifier
