import Mathlib.Data.List.TakeWhile
import RadiusDictionary.Directive.Grammar
import RadiusDictionary.Text.Pieces

/-! # The words of a line

`words` cuts characters at the separators and leaves out the empty pieces, so that a run of
separators counts as one. The grammar takes operands one after the other from the front of a line
instead. Both come to the same where a word has just ended (`Apart`): there `operand` takes the
first of the words (`operand_of_apart`) and `operands` takes all of them (`operands_of_apart`). In
the middle of a word there is no operand at all (`operand_of_not_apart`). -/

namespace RadiusDictionary.Grammar

/-- The pieces between separators that are not empty. -/
def words (cs : List Char) : List String :=
  ((Text.piecesBy isSeparator cs).filter (!·.isEmpty)).map .ofList

/-- No word goes on here: nothing follows, or a separator. -/
def Apart (cs : List Char) : Prop := ∀ c ∈ cs.head?, isSeparator c = true

/-- The characters are a word. -/
def IsWord (w : List Char) : Prop := w ≠ [] ∧ ∀ c ∈ w, isSeparator c = false

variable {gap w rest cs : List Char} {c : Char}

/-! ### Cutting at separators -/

theorem words_cons_separator (h : isSeparator c = true) : words (c :: cs) = words cs := by
  unfold words
  rw [Text.piecesBy_cons, Text.pushFront.eq_def]
  cases hpieces : Text.piecesBy isSeparator cs with
  | nil => exact absurd hpieces (Text.piecesBy_ne_nil _ _)
  | cons first rest => simp [h]

theorem words_append_gap (hgap : ∀ c ∈ gap, isSeparator c = true) :
    words (gap ++ cs) = words cs := by
  induction gap with
  | nil => rfl
  | cons c gap ih =>
    obtain ⟨hc, hgap⟩ := List.forall_mem_cons.mp hgap
    rw [List.cons_append, words_cons_separator hc, ih hgap]

theorem words_append_word (hw : IsWord w) (hrest : Apart rest) :
    words (w ++ rest) = .ofList w :: words rest := by
  have hne : w.isEmpty = false := by simpa using hw.1
  unfold words
  cases rest with
  | nil =>
    have hcut : Text.piecesBy isSeparator [] = [] :: [] := rfl
    rw [Text.piecesBy_append hw.2 hcut, hcut]
    simp [hne]
  | cons c rest =>
    have hc : isSeparator c = true := hrest c rfl
    cases hpieces : Text.piecesBy isSeparator rest with
    | nil => exact absurd hpieces (Text.piecesBy_ne_nil _ _)
    | cons first pieces =>
      have hcut : Text.piecesBy isSeparator (c :: rest) = [] :: first :: pieces := by
        rw [Text.piecesBy_cons, hpieces, Text.pushFront, if_pos hc]
      rw [Text.piecesBy_append hw.2 hcut, hcut]
      simp [hne]

/-! ### Gaps and words in turn -/

theorem isWord_takeWhile (hc : isSeparator c = false) :
    IsWord ((c :: cs).takeWhile (!isSeparator ·)) := by
  refine ⟨by simp [hc], fun d hd => ?_⟩
  simpa using List.mem_takeWhile_imp hd

theorem apart_dropWhile (cs : List Char) : Apart (cs.dropWhile (!isSeparator ·)) := by
  intro c hc
  have h := List.head?_dropWhile_not (!isSeparator ·) cs
  rw [Option.mem_def.mp hc] at h
  simpa using h

/-- Where no word goes on, there are separators up to the end or up to a word. -/
theorem Apart.cases (h : Apart cs) : (∀ c ∈ cs, isSeparator c = true) ∨
    ∃ gap w rest, cs = gap ++ (w ++ rest) ∧ gap ≠ [] ∧ (∀ c ∈ gap, isSeparator c = true) ∧
      IsWord w ∧ Apart rest := by
  have hgap : ∀ c ∈ cs.takeWhile isSeparator, isSeparator c = true :=
    fun c hc => List.mem_takeWhile_imp hc
  have hcs := List.takeWhile_append_dropWhile (p := isSeparator) (l := cs)
  cases hafter : cs.dropWhile isSeparator with
  | nil =>
    rw [hafter, List.append_nil] at hcs
    exact Or.inl (hcs ▸ hgap)
  | cons c after =>
    have hc : isSeparator c = false := by
      have h := List.head?_dropWhile_not isSeparator cs
      rw [hafter] at h
      exact h
    refine Or.inr ⟨cs.takeWhile isSeparator, (c :: after).takeWhile (!isSeparator ·),
      (c :: after).dropWhile (!isSeparator ·), ?_, ?_, hgap, isWord_takeWhile hc,
      apart_dropWhile (c :: after)⟩
    · rw [List.takeWhile_append_dropWhile, ← hafter, hcs]
    · intro hnil
      rw [hnil, List.nil_append, hafter] at hcs
      rw [← hcs] at h
      rw [h c rfl] at hc
      cases hc

theorem words_eq_nil_iff (h : Apart cs) : words cs = [] ↔ ∀ c ∈ cs, isSeparator c = true := by
  constructor
  · intro hnil
    rcases h.cases with hall | ⟨gap, w, rest, rfl, -, hgap, hw, hrest⟩
    · exact hall
    · rw [words_append_gap hgap, words_append_word hw hrest] at hnil
      cases hnil
  · intro hall
    rw [← List.append_nil cs, words_append_gap hall]
    rfl

/-! ### Taking operands -/

theorem operand_of_not_apart (h : ¬ Apart cs) : operand cs = none := by
  cases cs with
  | nil => exact absurd (fun c hc => nomatch hc) h
  | cons c cs =>
    have hc : isSeparator c = false := by
      by_contra hsep
      refine h fun d hd => ?_
      cases hd
      simpa using hsep
    simp [operand, hc]

theorem operand_of_gap (h : ∀ c ∈ cs, isSeparator c = true) : operand cs = none := by
  have hafter : cs.dropWhile isSeparator = [] := by simpa using h
  simp [operand, hafter]

theorem operand_append (hne : gap ≠ []) (hgap : ∀ c ∈ gap, isSeparator c = true) (hw : IsWord w)
    (hrest : Apart rest) : operand (gap ++ (w ++ rest)) = some (.ofList w, rest) := by
  obtain ⟨hw, hword⟩ := hw
  have hword' : ∀ c ∈ w, (!isSeparator c) = true := fun c hc => by rw [hword c hc]; rfl
  have hstop : (w ++ rest).dropWhile isSeparator = w ++ rest := by
    cases w with
    | nil => exact absurd rfl hw
    | cons c w => rw [List.cons_append, List.dropWhile_cons_of_neg (by simp [hword c])]
  have hend : rest.takeWhile (!isSeparator ·) = [] ∧ rest.dropWhile (!isSeparator ·) = rest := by
    cases rest with
    | nil => exact ⟨rfl, rfl⟩
    | cons c rest => simp [hrest c rfl]
  have hlead : (gap ++ (w ++ rest)).takeWhile isSeparator ≠ [] := by
    rw [List.takeWhile_append_of_pos hgap]
    exact fun h => hne (List.append_eq_nil_iff.mp h).1
  unfold operand
  simp only [List.dropWhile_append_of_pos hgap, hstop, List.takeWhile_append_of_pos hword',
    List.dropWhile_append_of_pos hword', hend, List.append_nil]
  rw [if_neg (by simp [hlead, hw])]

/-- **An operand is the next word.** -/
theorem operand_of_apart (h : Apart cs) : words cs = [] ∧ operand cs = none ∨
    ∃ word rest, operand cs = some (word, rest) ∧ words cs = word :: words rest ∧ Apart rest := by
  rcases h.cases with hall | ⟨gap, w, rest, rfl, hne, hgap, hw, hrest⟩
  · exact Or.inl ⟨(words_eq_nil_iff h).mpr hall, operand_of_gap hall⟩
  · refine Or.inr ⟨_, rest, operand_append hne hgap hw hrest, ?_, hrest⟩
    rw [words_append_gap hgap, words_append_word hw hrest]

theorem operandsUpTo_eq {limit limit' : Nat} (h : cs.length ≤ limit) (h' : cs.length ≤ limit') :
    operandsUpTo limit cs = operandsUpTo limit' cs := by
  induction limit generalizing cs limit' with
  | zero =>
    obtain rfl := List.length_eq_zero_iff.1 (Nat.le_zero.1 h)
    cases limit' <;> rfl
  | succ limit ih =>
    cases limit' with
    | zero =>
      obtain rfl := List.length_eq_zero_iff.1 (Nat.le_zero.1 h')
      rfl
    | succ limit' =>
      rw [operandsUpTo, operandsUpTo]
      cases hop : operand cs with
      | none => rfl
      | some next =>
        obtain ⟨word, rest⟩ := next
        have hlt := length_lt_of_operand hop
        have hrest : operandsUpTo limit rest = operandsUpTo limit' rest := ih (by omega) (by omega)
        simp only [hrest]

/-- Taking all operands is taking one and then all others. -/
theorem operands_eq (cs : List Char) : operands cs = match operand cs with
    | none => ([], cs)
    | some (word, rest) => (word :: (operands rest).1, (operands rest).2) := by
  have hsucc : operands cs = operandsUpTo (cs.length + 1) cs :=
    operandsUpTo_eq (Nat.le_refl _) (Nat.le_succ _)
  rw [hsucc, operandsUpTo]
  cases hop : operand cs with
  | none => rfl
  | some next =>
    obtain ⟨word, rest⟩ := next
    have hlt := length_lt_of_operand hop
    have hrest : operandsUpTo cs.length rest = operands rest :=
      operandsUpTo_eq (Nat.le_of_lt hlt) (Nat.le_refl _)
    simp only [hrest]

theorem operands_of_not_apart (h : ¬ Apart cs) : operands cs = ([], cs) := by
  rw [operands_eq, operand_of_not_apart h]

/-- **The operands are the words,** and only separators follow them. -/
theorem operands_of_apart {cs : List Char} (h : Apart cs) :
    (operands cs).1 = words cs ∧ ∀ c ∈ (operands cs).2, isSeparator c = true := by
  rw [operands_eq]
  rcases operand_of_apart h with ⟨hnil, hop⟩ | ⟨word, rest, hop, hwords, hrest⟩
  · rw [hop]
    exact ⟨hnil.symm, (words_eq_nil_iff h).mp hnil⟩
  · have hlt := length_lt_of_operand hop
    obtain ⟨hfirst, hlast⟩ := operands_of_apart hrest
    rw [hop, hwords]
    exact ⟨congrArg (word :: ·) hfirst, hlast⟩
termination_by cs.length

end RadiusDictionary.Grammar
