import RadiusDictionary.Proofs.Directive.Phrases

/-! # A line by its words

`Line.byWords` cuts a line into words and looks at the first one in lower case, and at how many
others there are. The rules of the grammar go through the characters instead, and the first one that
succeeds decides, also where its keyword is only the beginning of a word. Three things make the two
the same: no keyword is the beginning of another one (`form_eq_of_same`); where a keyword is glued
to more characters no operand follows (`operand_of_not_apart`), and what is left is not empty; and
where it ends with its word, the operands are the other words (`operands_of_apart`). -/

namespace RadiusDictionary

/-- The line with a keyword and operands. -/
def Line.ofWords (keyword : String) (operands : List String) : Line :=
  match Text.lowercaseAscii keyword, operands with
  | "$include", [file] => .directive (.inclusion file false)
  | "$include-", [file] => .directive (.inclusion file true)
  | "begin-tlv", name :: _ => .directive (.statement (.beginTlv name))
  | "end-tlv", names => .directive (.statement (.endTlv names.head?))
  | "begin-vendor", name :: _ => .directive (.statement (.beginVendor name))
  | "end-vendor", names => .directive (.statement (.endVendor names.head?))
  | "attribute", name :: number :: typeTag :: trailing =>
    .directive (.statement (.declareAttribute { name, number, typeTag, trailing }))
  | "value", attributeName :: name :: number :: _ =>
    .directive (.statement (.declareValue { attributeName, name, number }))
  | "vendor", name :: number :: more =>
    .directive (.statement (.declareVendor { name, number, extra := more.head? }))
  | _, _ => .malformed

/-- Reads a line by its words. -/
def Line.byWords (text : String) : Line :=
  match Text.trimChars text.toList with
  | [] => .blank
  | '#' :: _ => .blank
  | cs =>
    match Grammar.words cs with
    | [] => .malformed
    | keyword :: operands => .ofWords keyword operands

namespace Grammar

-- The characters of the word are gone through, not all that there are.
instance (w : List Char) : Decidable (IsWord w) :=
  @instDecidableAnd _ _ inferInstance (List.decidableBAll _ w)

/-! ### Texts that differ in case only -/

/-- The characters differ at most in the case of the letters `A` to `Z`. -/
def Same (v w : List Char) : Prop := v.map Text.asciiLower = w.map Text.asciiLower

variable {v w k r rest front more cs : List Char}

theorem Same.map_eq (h : Same v w) : v.map Text.asciiLower = w.map Text.asciiLower := h

theorem isSeparator_asciiLower (c : Char) : isSeparator (Text.asciiLower c) = isSeparator c := by
  have hletters : ∀ n < 91, 65 ≤ n →
      isSeparator (Char.ofNat (n + 32)) = isSeparator (Char.ofNat n) := by decide
  rcases Text.asciiLower_cases c with h | ⟨n, hn, hn', hc, h⟩
  · rw [h]
  · rw [h, hc, hletters n hn hn']

theorem Same.isWord (h : Same v w) (hv : IsWord v) : IsWord w := by
  refine ⟨?_, fun c hc => ?_⟩
  · rintro rfl
    exact hv.1 (List.map_eq_nil_iff.mp h)
  · have hmem : Text.asciiLower c ∈ v.map Text.asciiLower := by
      rw [h.map_eq]
      exact List.mem_map_of_mem hc
    obtain ⟨d, hd, hdc⟩ := List.mem_map.mp hmem
    rw [← isSeparator_asciiLower c, ← hdc, isSeparator_asciiLower, hv.2 d hd]

theorem lowercaseAscii_ofList (w : List Char) :
    Text.lowercaseAscii (.ofList w) = .ofList (w.map Text.asciiLower) := by
  rw [Text.lowercaseAscii, String.toList_ofList]

theorem lowercaseAscii_eq_of_same {word : String} (h : Same word.toList w) :
    Text.lowercaseAscii (.ofList w) = Text.lowercaseAscii word := by
  rw [lowercaseAscii_ofList, Text.lowercaseAscii, h.map_eq]

theorem same_of_lowercaseAscii_eq {word : String}
    (h : Text.lowercaseAscii (.ofList w) = Text.lowercaseAscii word) : Same word.toList w := by
  rw [lowercaseAscii_ofList, Text.lowercaseAscii] at h
  exact (String.ofList_injective h).symm

/-! ### Keywords -/

theorem afterKeyword?_eq_some (h : afterKeyword? v cs = some rest) :
    ∃ front, cs = front ++ rest ∧ Same v front := by
  induction v generalizing cs with
  | nil =>
    cases h
    exact ⟨[], rfl, rfl⟩
  | cons c v ih =>
    cases cs with
    | nil => cases h
    | cons d cs =>
      rw [afterKeyword?] at h
      split at h
      · next hcd =>
        obtain ⟨front, rfl, hsame⟩ := ih h
        exact ⟨d :: front, rfl, congrArg₂ List.cons hcd hsame⟩
      · cases h

theorem afterKeyword?_append (h : Same v front) : afterKeyword? v (front ++ rest) = some rest := by
  induction v generalizing front with
  | nil =>
    obtain rfl : front = [] := List.map_eq_nil_iff.mp h.symm
    rfl
  | cons c v ih =>
    cases front with
    | nil => cases h
    | cons d front =>
      obtain ⟨hcd, hsame⟩ := List.cons.inj h
      rw [List.cons_append, afterKeyword?, if_pos hcd, ih hsame]

/-- A keyword is read from the front of a line only if it is the beginning of the first word. -/
theorem keyword_eq_some {word : String} (hword : IsWord word.toList)
    (hr : Apart r) (h : keyword word (k ++ r) = some rest) :
    ∃ front more, k = front ++ more ∧ Same word.toList front ∧ rest = more ++ r := by
  obtain ⟨front, hfront, hsame⟩ := afterKeyword?_eq_some h
  rcases List.append_eq_append_iff.mp hfront with ⟨more, rfl, hr'⟩ | ⟨more, rfl, rfl⟩
  · -- the keyword would go on after the word, with a separator
    cases more with
    | nil => exact ⟨k, [], by simp, by simpa using hsame, hr'.symm⟩
    | cons c more =>
      have hsep : isSeparator c = true := hr c (by simp [hr'])
      have hnot : isSeparator c = false := (hsame.isWord hword).2 c (by simp)
      rw [hsep] at hnot
      cases hnot
  · exact ⟨front, more, rfl, hsame, rfl⟩

/-- The forms that a keyword introduces. -/
def worded : List Form := .inclusion :: statementForms

theorem isWord_word : ∀ form ∈ worded, IsWord form.word.toList := by decide

/-- No two keywords are the beginnings of one word. -/
theorem form_eq_of_same {form form' : Form} {front' more' : List Char} (hform : form ∈ worded)
    (hform' : form' ∈ worded) (hsame : Same form.word.toList front)
    (hsame' : Same form'.word.toList front') (h : front ++ more = front' ++ more') :
    form = form' := by
  have htable : ∀ form ∈ worded, ∀ form' ∈ worded,
      form.word.toList.map Text.asciiLower <+: form'.word.toList.map Text.asciiLower →
      form = form' := by decide
  have hfront : front <+: front ++ more := List.prefix_append _ _
  have hfront' : front' <+: front ++ more := h ▸ List.prefix_append _ _
  rcases List.prefix_or_prefix_of_prefix hfront hfront' with hle | hle
  · refine htable form hform form' hform' ?_
    rw [hsame.map_eq, hsame'.map_eq]
    exact hle.map _
  · refine (htable form' hform' form hform ?_).symm
    rw [hsame.map_eq, hsame'.map_eq]
    exact hle.map _

/-! ### Where the keyword is a word -/

theorem findSome?_eq_of_forall {α β : Type} {f : α → Option β} {l : List α} {a : α} (ha : a ∈ l)
    (h : ∀ b ∈ l, f b = none ∨ f b = f a) : l.findSome? f = f a := by
  cases hfind : l.findSome? f with
  | none => exact (List.findSome?_eq_none_iff.mp hfind a ha).symm
  | some y =>
    obtain ⟨b, hb, hfb⟩ := List.exists_of_findSome?_eq_some hfind
    rcases h b hb with hnone | heq
    · rw [hnone] at hfb
      cases hfb
    · rw [← heq, hfb]

theorem not_all_isSeparator (hk : IsWord k) : (k ++ r).all isSeparator = false := by
  obtain ⟨hne, hword⟩ := hk
  obtain ⟨c, k, rfl⟩ := List.exists_cons_of_ne_nil hne
  simp [hword c]

theorem comment_eq_none (hk : IsWord k) (hhash : k.head? ≠ some '#') :
    comment (k ++ r) = none := by
  obtain ⟨c, k, rfl⟩ := List.exists_cons_of_ne_nil hk.1
  unfold comment
  split
  · next h =>
    cases h
    exact absurd rfl hhash
  · rfl

/-- The phrase of a form with a keyword. -/
def phraseOf (form : Form) : Rule Parse :=
  if form = .inclusion then recognizeInclusion else form.recognize

theorem phrases_eq : phrases = recognizeComment :: worded.map phraseOf := rfl

/-- Without its keyword in front, no form is recognized. -/
theorem phraseOf_eq_none {form : Form} (h : keyword form.word cs = none) :
    phraseOf form cs = none := by
  unfold phraseOf
  split
  · next hform =>
    subst hform
    rw [recognizeInclusion, h, Option.bind_none]
  · rw [Form.recognize, h, Option.bind_none]

theorem head?_ne_hash {form : Form} (hform : form ∈ worded) (hsame : Same form.word.toList front) :
    (front ++ more).head? ≠ some '#' := by
  have htable : ∀ form ∈ worded, (form.word.toList.map Text.asciiLower).head? ≠ some '#' := by decide
  obtain ⟨c, front, rfl⟩ := List.exists_cons_of_ne_nil (hsame.isWord (isWord_word form hform)).1
  intro hhash
  obtain rfl : c = '#' := Option.some.inj hhash
  apply htable form hform
  rw [hsame.map_eq]
  rfl

/-- The keyword at the beginning of a word decides which phrase is tried. -/
theorem findSome?_phrases {form : Form} (hform : form ∈ worded)
    (hsame : Same form.word.toList front) (hk : IsWord (front ++ more)) (hr : Apart r) :
    (phrases.findSome? fun phrase => phrase (front ++ more ++ r)) =
      phraseOf form (front ++ more ++ r) := by
  rw [phrases_eq, List.findSome?_cons, recognizeComment,
    comment_eq_none hk (head?_ne_hash hform hsame), Option.map_none]
  rw [List.findSome?_map]
  refine findSome?_eq_of_forall (f := fun form => phraseOf form (front ++ more ++ r)) hform ?_
  intro form' hform'
  cases hkey : keyword form'.word (front ++ more ++ r) with
  | none => exact Or.inl (phraseOf_eq_none hkey)
  | some rest =>
    obtain ⟨front', more', hsplit, hsame', -⟩ := keyword_eq_some (isWord_word _ hform') hr hkey
    obtain rfl := form_eq_of_same hform hform' hsame hsame' hsplit
    exact Or.inr rfl

/-- Without a phrase a line that has a word is malformed. -/
theorem read_of_findSome?_eq_none (hk : IsWord k)
    (h : (phrases.findSome? fun phrase => phrase (k ++ r)) = none) :
    read (k ++ r) = .malformed := by
  rw [read_eq_recognize, recognize?, h]
  simp [not_all_isSeparator hk]

theorem all_isSeparator_iff (h : Apart cs) : cs.all isSeparator = true ↔ words cs = [] := by
  rw [words_eq_nil_iff h, List.all_eq_true]

theorem read_statement {form : Form} (hform : form ∈ statementForms)
    (hsame : Same form.word.toList k) (hr : Apart r) :
    read (k ++ r) = Parse.line ⟨form, false, words r⟩ := by
  have hworded : form ∈ worded := List.mem_cons_of_mem _ hform
  have hk : IsWord k := hsame.isWord (isWord_word form hworded)
  obtain ⟨hwords, hrest⟩ := operands_of_apart hr
  have hphrase : phraseOf form = form.recognize :=
    if_neg (by rintro rfl; exact absurd hform (by decide))
  have hkey : keyword form.word (k ++ r) = some r := afterKeyword?_append hsame
  have hglued : IsWord (k ++ []) := by rwa [List.append_nil]
  have hfind := findSome?_phrases hworded hsame hglued hr
  rw [List.append_nil, hphrase, Form.recognize, hkey, Option.bind_some, operandsFrom, hwords]
    at hfind
  by_cases hfew : (words r).length < form.least
  · rw [if_pos hfew] at hfind
    rw [read_of_findSome?_eq_none hk hfind, Parse.line_of_few hfew]
  · rw [if_neg hfew] at hfind
    have hall : (operands r).2.all isSeparator = true := List.all_eq_true.mpr hrest
    rw [read_eq_recognize, recognize?, hfind]
    simp only [Option.map_some, hall, hwords, if_true]

theorem optionMark_of_apart (hr : Apart r) : optionMark r = (false, r) := by
  unfold optionMark
  split
  · exact absurd (hr '-' rfl) (by decide)
  · rfl

theorem read_inclusion {mark : List Char} (hsame : Same Form.inclusion.word.toList front)
    (hmark : mark = [] ∨ mark = ['-']) (hr : Apart r) : read (front ++ mark ++ r) =
      match words r with
      | [file] => .directive (.inclusion file (!mark.isEmpty))
      | _ => .malformed := by
  have hfront : IsWord front := hsame.isWord (isWord_word _ (List.mem_cons_self ..))
  have hk : IsWord (front ++ mark) := by
    refine ⟨by simp [hfront.1], fun c hc => ?_⟩
    rcases List.mem_append.mp hc with hc | hc
    · exact hfront.2 c hc
    · rcases hmark with rfl | rfl
      · cases hc
      · obtain rfl := List.mem_singleton.mp hc
        rfl
  have hkey : keyword Form.inclusion.word (front ++ mark ++ r) = some (mark ++ r) := by
    rw [List.append_assoc]
    exact afterKeyword?_append hsame
  have hoption : optionMark (mark ++ r) = (!mark.isEmpty, r) := by
    rcases hmark with rfl | rfl
    · exact optionMark_of_apart hr
    · rfl
  have hfind := findSome?_phrases (List.mem_cons_self ..) hsame hk hr
  rw [phraseOf, if_pos rfl, recognizeInclusion, hkey, Option.bind_some, hoption] at hfind
  rcases operand_of_apart hr with ⟨hnil, hop⟩ | ⟨file, rest, hop, hwords, hrest⟩
  · rw [hop] at hfind
    rw [read_of_findSome?_eq_none hk hfind, hnil]
  · rw [hop] at hfind
    rw [read_eq_recognize, recognize?, hfind, hwords]
    have hall := all_isSeparator_iff hrest
    cases hmore : words rest with
    | nil => simp [hall.mpr hmore, Parse.line, Parse.build, Parse.operand]
    | cons file' files =>
      have hnot : rest.all isSeparator = false := by
        rw [hmore] at hall
        simpa using hall
      simp [hnot]

theorem not_apart_append (hmore : IsWord more) : ¬ Apart (more ++ r) := by
  obtain ⟨c, more, rfl⟩ := List.exists_cons_of_ne_nil hmore.1
  intro h
  have hsep : isSeparator c = true := h c rfl
  rw [hmore.2 c (List.mem_cons_self ..)] at hsep
  cases hsep

/-- An inclusion is not recognized where its keyword goes on with more than a minus sign. -/
theorem inclusion_eq_none_of_glued (hmore : IsWord more) (hmark : more ≠ ['-']) :
    operand (optionMark (more ++ r)).2 = none := by
  obtain ⟨c, more, rfl⟩ := List.exists_cons_of_ne_nil hmore.1
  by_cases hc : c = '-'
  · subst hc
    have hne : more ≠ [] := by
      rintro rfl
      exact hmark rfl
    have hmore' : IsWord more := ⟨hne, fun d hd => hmore.2 d (List.mem_cons_of_mem _ hd)⟩
    exact operand_of_not_apart (not_apart_append hmore')
  · have hoption : optionMark (c :: more ++ r) = (false, c :: more ++ r) := by
      unfold optionMark
      split
      · next h =>
        cases h
        exact absurd rfl hc
      · rfl
    rw [hoption]
    exact operand_of_not_apart (not_apart_append hmore)

/-- Where the keyword goes on there is no operand, and what goes on is left over. -/
theorem phraseOf_glued {form : Form} {p : Parse} (hsame : Same form.word.toList front)
    (hmore : IsWord more) (hmark : form = .inclusion → more ≠ ['-'])
    (hp : phraseOf form (front ++ more ++ r) = some (p, rest)) : rest = more ++ r := by
  have hkey : keyword form.word (front ++ more ++ r) = some (more ++ r) := by
    rw [List.append_assoc]
    exact afterKeyword?_append hsame
  unfold phraseOf at hp
  split at hp
  · next hform =>
    subst hform
    rw [recognizeInclusion, hkey, Option.bind_some, inclusion_eq_none_of_glued hmore (hmark rfl)]
      at hp
    cases hp
  · rw [Form.recognize, hkey, Option.bind_some, operandsFrom,
      operands_of_not_apart (not_apart_append hmore)] at hp
    split at hp
    · cases hp
    · cases hp
      rfl

theorem read_unknown (hk : IsWord k) (hr : Apart r) (hhash : k.head? ≠ some '#')
    (hforms : ∀ form ∈ worded, ¬ Same form.word.toList k)
    (hoptional : ¬ Same "$INCLUDE-".toList k) : read (k ++ r) = .malformed := by
  cases hfind : phrases.findSome? fun phrase => phrase (k ++ r) with
  | none => exact read_of_findSome?_eq_none hk hfind
  | some found =>
    obtain ⟨p, rest⟩ := found
    obtain ⟨phrase, hphrase, hp⟩ := List.exists_of_findSome?_eq_some hfind
    rw [phrases_eq, List.mem_cons, List.mem_map] at hphrase
    rcases hphrase with rfl | ⟨form, hform, rfl⟩
    · rw [recognizeComment, comment_eq_none hk hhash] at hp
      cases hp
    cases hkey : keyword form.word (k ++ r) with
    | none =>
      rw [phraseOf_eq_none hkey] at hp
      cases hp
    | some after =>
      obtain ⟨front, more, rfl, hsame, -⟩ := keyword_eq_some (isWord_word form hform) hr hkey
      have hne : more ≠ [] := by
        rintro rfl
        exact hforms form hform (by simpa using hsame)
      have hmore : IsWord more :=
        ⟨hne, fun c hc => hk.2 c (List.mem_append_right _ hc)⟩
      have hmark : form = .inclusion → more ≠ ['-'] := by
        rintro rfl rfl
        refine hoptional ?_
        show (Form.inclusion.word.toList ++ ['-']).map Text.asciiLower = _
        rw [List.map_append, List.map_append, hsame.map_eq]
      have hrest := phraseOf_glued hsame hmore hmark hp
      rw [read_eq_recognize, recognize?, hfind, hrest]
      simp [not_all_isSeparator hmore]

/-! ### The words of a line in lower case -/

theorem ofWords_statement {form : Form} (hform : form ∈ statementForms)
    (hsame : Same form.word.toList k) (operands : List String) :
    Line.ofWords (.ofList k) operands = Parse.line ⟨form, false, operands⟩ := by
  unfold Line.ofWords
  rw [lowercaseAscii_eq_of_same hsame]
  match form, hform, operands with
  | .comment, h, _ | .inclusion, h, _ => exact absurd h (by decide)
  | .endTlv, _, _ | .endVendor, _, _ => rfl
  | .beginTlv, _, [] | .beginTlv, _, _ :: _ | .beginVendor, _, [] | .beginVendor, _, _ :: _ => rfl
  | .declareVendor, _, [] | .declareVendor, _, [_] | .declareVendor, _, _ :: _ :: _ => rfl
  | .declareAttribute, _, [] | .declareAttribute, _, [_] | .declareAttribute, _, [_, _]
  | .declareAttribute, _, _ :: _ :: _ :: _ => rfl
  | .declareValue, _, [] | .declareValue, _, [_] | .declareValue, _, [_, _]
  | .declareValue, _, _ :: _ :: _ :: _ => rfl

theorem ofWords_inclusion {mark : List Char} (hsame : Same Form.inclusion.word.toList front)
    (hmark : mark = [] ∨ mark = ['-']) (operands : List String) :
    Line.ofWords (.ofList (front ++ mark)) operands =
      match operands with
      | [file] => .directive (.inclusion file (!mark.isEmpty))
      | _ => .malformed := by
  unfold Line.ofWords
  rw [lowercaseAscii_ofList, List.map_append, ← hsame.map_eq]
  match mark, hmark, operands with
  | _, .inl rfl, [] | _, .inl rfl, [_] | _, .inl rfl, _ :: _ :: _ => rfl
  | _, .inr rfl, [] | _, .inr rfl, [_] | _, .inr rfl, _ :: _ :: _ => rfl

theorem ofWords_unknown (hforms : ∀ form ∈ worded, ¬ Same form.word.toList k)
    (hoptional : ¬ Same "$INCLUDE-".toList k) (operands : List String) :
    Line.ofWords (.ofList k) operands = .malformed := by
  have hnot : ∀ form ∈ worded, Text.lowercaseAscii (.ofList k) ≠ Text.lowercaseAscii form.word :=
    fun form hform h => hforms form hform (same_of_lowercaseAscii_eq h)
  have hnot' : Text.lowercaseAscii (.ofList k) ≠ Text.lowercaseAscii "$INCLUDE-" :=
    fun h => hoptional (same_of_lowercaseAscii_eq h)
  unfold Line.ofWords
  split
  case h_1 h => exact absurd h (hnot .inclusion (by decide))
  case h_2 h => exact absurd h hnot'
  case h_3 h => exact absurd h (hnot .beginTlv (by decide))
  case h_4 h => exact absurd h (hnot .endTlv (by decide))
  case h_5 h => exact absurd h (hnot .beginVendor (by decide))
  case h_6 h => exact absurd h (hnot .endVendor (by decide))
  case h_7 h => exact absurd h (hnot .declareAttribute (by decide))
  case h_8 h => exact absurd h (hnot .declareValue (by decide))
  case h_9 h => exact absurd h (hnot .declareVendor (by decide))
  case h_10 => rfl

theorem exists_of_same_optional (h : Same "$INCLUDE-".toList k) :
    ∃ front, k = front ++ ['-'] ∧ Same Form.inclusion.word.toList front := by
  have hmap : k.map Text.asciiLower = Form.inclusion.word.toList.map Text.asciiLower ++ ['-'] :=
    h.map_eq.symm
  obtain ⟨front, mark, rfl, hfront, hmark⟩ := List.map_eq_append_iff.mp hmap
  obtain ⟨c, rfl, hc⟩ := List.map_eq_singleton_iff.mp hmark
  obtain rfl := Text.eq_of_asciiLower_eq (by decide) hc
  exact ⟨front, rfl, hfront.symm⟩

/-! ### Trimmed lines -/

/-- A trimmed line starts with a word, unless it is empty. -/
theorem trimChars_cases (cs : List Char) : Text.trimChars cs = [] ∨
    ∃ k r, Text.trimChars cs = k ++ r ∧ IsWord k ∧ Apart r := by
  cases htrim : Text.trimChars cs with
  | nil => exact Or.inl rfl
  | cons c rest =>
    have hprefix : c :: rest <+: cs.dropWhile Text.isBlank := by
      rw [← htrim, ← List.reverse_suffix, Text.trimChars, List.reverse_reverse]
      exact List.dropWhile_suffix _
    have hblank : Text.isBlank c = false := by
      obtain ⟨after, hafter⟩ := hprefix
      have h := List.head?_dropWhile_not Text.isBlank cs
      rw [← hafter] at h
      exact h
    have hc : isSeparator c = false := by
      by_contra hsep
      have hor : c = ' ' ∨ c = '\t' := by
        simpa [isSeparator, or_iff_not_imp_left] using hsep
      rcases hor with rfl | rfl
      · exact absurd hblank (by decide)
      · exact absurd hblank (by decide)
    refine Or.inr ⟨_, _, (List.takeWhile_append_dropWhile (p := (!isSeparator ·))).symm,
      isWord_takeWhile hc, apart_dropWhile _⟩

theorem byWords_of_word {text : String} (htext : Text.trimChars text.toList = k ++ r)
    (hk : IsWord k) (hr : Apart r) (hhash : k.head? ≠ some '#') :
    Line.byWords text = .ofWords (.ofList k) (words r) := by
  have hwords := words_append_word hk hr
  obtain ⟨c, k, rfl⟩ := List.exists_cons_of_ne_nil hk.1
  unfold Line.byWords
  rw [htext]
  split
  · next h => cases h
  · next h =>
    cases h
    exact absurd rfl hhash
  · rw [hwords]

/-- **Characters and words give the same line.** -/
theorem read_eq_ofWords (hk : IsWord k) (hr : Apart r) (hhash : k.head? ≠ some '#') :
    read (k ++ r) = .ofWords (.ofList k) (words r) := by
  by_cases hstatement : ∃ form ∈ statementForms, Same form.word.toList k
  · obtain ⟨form, hform, hsame⟩ := hstatement
    rw [read_statement hform hsame hr, ofWords_statement hform hsame]
  by_cases hinclusion : ∃ front mark, k = front ++ mark ∧ Same Form.inclusion.word.toList front ∧
      (mark = [] ∨ mark = ['-'])
  · obtain ⟨front, mark, rfl, hsame, hmark⟩ := hinclusion
    rw [read_inclusion hsame hmark hr, ofWords_inclusion hsame hmark]
  have hforms : ∀ form ∈ worded, ¬ Same form.word.toList k := by
    intro form hform hsame
    rcases List.mem_cons.mp hform with rfl | hform
    · exact hinclusion ⟨k, [], by simp, hsame, Or.inl rfl⟩
    · exact hstatement ⟨form, hform, hsame⟩
  have hoptional : ¬ Same "$INCLUDE-".toList k := by
    intro hsame
    obtain ⟨front, hfront, hsame⟩ := exists_of_same_optional hsame
    exact hinclusion ⟨front, ['-'], hfront, hsame, Or.inr rfl⟩
  rw [read_unknown hk hr hhash hforms hoptional, ofWords_unknown hforms hoptional]

/-- A keyword that goes on is none. -/
theorem ofWords_glued {form : Form} (hform : form ∈ worded) (hsame : Same form.word.toList front)
    (hmore : more ≠ []) (hmark : form = .inclusion → more ≠ ['-']) (operands : List String) :
    Line.ofWords (.ofList (front ++ more)) operands = .malformed := by
  refine ofWords_unknown ?_ ?_ operands
  · intro form' hform' hsame'
    obtain rfl := form_eq_of_same hform hform' hsame hsame' (List.append_nil _).symm
    have hlength := congrArg List.length (hsame.map_eq.symm.trans hsame'.map_eq)
    have hpos := List.length_pos_iff.mpr hmore
    simp only [List.length_map, List.length_append] at hlength
    omega
  · intro hsame'
    obtain ⟨front', hsplit, hsame'⟩ := exists_of_same_optional hsame'
    obtain rfl := form_eq_of_same hform (List.mem_cons_self ..) hsame hsame' hsplit
    have hlength := congrArg List.length (hsame.map_eq.symm.trans hsame'.map_eq)
    simp only [List.length_map] at hlength
    exact hmark rfl (List.append_inj hsplit hlength).2

end Grammar

open Grammar in
/-- **A line is what its words make of it.** A keyword that goes on makes it malformed, and what is
recognized in it can be built: no operand is missing. -/
theorem Line.read_eq_byWords (text : String) :
    Line.read text = Line.byWords text ∧
    (∀ form ∈ worded, ∀ front more operands, Same form.word.toList front → more ≠ [] →
      (form = .inclusion → more ≠ ['-']) →
      words (Text.trimChars text.toList) = .ofList (front ++ more) :: operands →
      Line.read text = .malformed) ∧
    Line.read text = (match recognize? (Text.trimChars text.toList) with
      | none => .malformed
      | some none => .blank
      | some (some p) => match p.build with
        | .ok line => line
        | .error _ => .malformed) ∧
    ∀ p, recognize? (Text.trimChars text.toList) = some (some p) → ∃ line, p.build = .ok line := by
  have hread : Line.read text = Line.byWords text := by
    rcases trimChars_cases text.toList with hnil | ⟨k, r, htext, hk, hr⟩
    · rw [Line.read, Line.byWords, hnil]
      rfl
    · by_cases hhash : k.head? = some '#'
      · obtain ⟨k, rfl⟩ := List.head?_eq_some_iff.mp hhash
        rw [Line.read, Line.byWords, htext]
        rfl
      · rw [Line.read, htext, read_eq_ofWords hk hr hhash, byWords_of_word htext hk hr hhash]
  refine ⟨hread, ?_, read_eq_recognize _, fun p hp =>
    Parse.exists_build_eq_ok (least_le_of_recognize?_eq_some hp)⟩
  intro form hform front more operands hsame hmore hmark hwords
  rcases trimChars_cases text.toList with hnil | ⟨k, r, htext, hk, hr⟩
  · rw [hnil] at hwords
    cases hwords
  · rw [htext, words_append_word hk hr] at hwords
    obtain ⟨hfirst, rfl⟩ := List.cons.inj hwords
    obtain rfl := String.ofList_injective hfirst
    rw [hread, byWords_of_word htext hk hr (head?_ne_hash hform hsame),
      ofWords_glued hform hsame hmore hmark]

/-- `VENDOR` goes on here, so nothing is declared. -/
theorem Line.read_vendorX : Line.read "VENDORX Acme 9" = .malformed :=
  (Line.read_eq_byWords "VENDORX Acme 9").2.1 .declareVendor (by decide) "VENDOR".toList ['X']
    ["Acme", "9"] rfl (by decide) (by decide) (by decide)

end RadiusDictionary
