import Mathlib.Data.List.DropRight
import RadiusDictionary.Proofs.Path.Below
import RadiusDictionary.Proofs.Text.Pairs

/-! # Namespaces as text

The text of a namespace has `::` between the segments, and cuts at `::` are made from the left. When
the text is read again, every segment is found whole as long as none of them has a colon at its end,
which makes a pair with the first colon of the `::` behind it.

`parse_text_iff`: a namespace that is read from a text is what is read from its own text again, if
and only if no segment but the last ends in a colon. The other direction depends on lengths: pieces
that are trimmed, without the empty ones, weigh less than before or are the same (`weight_kept`), and
what joined pieces weigh is the length of their text (`length_intercalate`). -/

namespace RadiusDictionary

namespace Text

/-! ### Trimmed pieces -/

theorem trimChars_eq_rdropWhile (cs : List Char) :
    trimChars cs = (cs.dropWhile isBlank).rdropWhile isBlank := rfl

theorem isInfix_trimChars (cs : List Char) : trimChars cs <:+: cs := by
  have hback : trimChars cs <+: cs.dropWhile isBlank := List.rdropWhile_prefix _ _
  exact hback.isInfix.trans (List.dropWhile_suffix _).isInfix

/-- No blanks are left. -/
theorem trimChars_trimChars (cs : List Char) : trimChars (trimChars cs) = trimChars cs := by
  have hfront : (trimChars cs).dropWhile isBlank = trimChars cs := by
    rw [List.dropWhile_eq_self_iff]
    intro hlength
    have hback : trimChars cs <+: cs.dropWhile isBlank := List.rdropWhile_prefix _ _
    have hnonempty := Nat.lt_of_lt_of_le hlength hback.length_le
    rw [hback.getElem hlength]
    exact List.dropWhile_eq_self_iff.mp (List.dropWhile_idempotent _ cs) hnonempty
  rw [trimChars_eq_rdropWhile (trimChars cs), hfront, trimChars_eq_rdropWhile cs,
    List.rdropWhile_idempotent]

/-- Pieces without the blanks around them, empty ones left out. -/
def kept (pieces : List (List Char)) : List (List Char) :=
  (pieces.map trimChars).filter (!·.isEmpty)

theorem kept_cons (piece : List Char) (pieces : List (List Char)) : kept (piece :: pieces) =
    if trimChars piece = [] then kept pieces else trimChars piece :: kept pieces := by
  simp only [kept, List.map_cons, List.filter_cons, Bool.not_eq_true', List.isEmpty_eq_false_iff,
    ite_not]

theorem kept_eq_self {pieces : List (List Char)}
    (h : ∀ piece ∈ pieces, piece ≠ [] ∧ trimChars piece = piece) : kept pieces = pieces := by
  induction pieces with
  | nil => rfl
  | cons piece pieces ih =>
    obtain ⟨⟨hne, htrim⟩, hrest⟩ := List.forall_mem_cons.mp h
    rw [kept_cons, htrim, if_neg hne, ih hrest]

/-- The length of the pieces with two more characters for each. -/
def weight : List (List Char) → Nat
  | [] => 0
  | piece :: pieces => piece.length + 2 + weight pieces

/-- Joined pieces are as long as they weigh, but for the cut that is missing after the last. -/
theorem length_intercalate (cut : Char) {pieces : List (List Char)} (hne : pieces ≠ []) :
    ([cut, cut].intercalate pieces).length + 2 = weight pieces := by
  induction pieces with
  | nil => exact absurd rfl hne
  | cons piece pieces ih =>
    cases pieces with
    | nil => rw [List.intercalate_singleton, weight]; rfl
    | cons second rest =>
      rw [List.intercalate_cons_cons, weight, ← ih (List.cons_ne_nil _ _),
        List.length_append, List.length_append]
      simp only [List.length_cons, List.length_nil]
      omega

/-- **Pieces that are kept weigh less than before, or are the same.** -/
theorem weight_kept (pieces : List (List Char)) :
    weight (kept pieces) < weight pieces ∨ kept pieces = pieces := by
  induction pieces with
  | nil => exact .inr rfl
  | cons piece pieces ih =>
    have hle : weight (kept pieces) ≤ weight pieces := by
      rcases ih with hlt | heq
      · exact hlt.le
      · rw [heq]
    have hsub := (isInfix_trimChars piece).sublist
    rw [kept_cons]
    split
    · left
      rw [weight]
      omega
    · simp only [weight]
      rcases Nat.lt_or_eq_of_le hsub.length_le with hshorter | hsame
      · left
        omega
      · rw [hsub.eq_of_length hsame]
        rcases ih with hlt | heq
        · left
          omega
        · right
          rw [heq]

/-! ### Characters of joined pieces -/

theorem isInfix_intercalate {piece : List Char} {pieces : List (List Char)} (sep : List Char)
    (h : piece ∈ pieces) : piece <:+: sep.intercalate pieces := by
  induction pieces with
  | nil => cases h
  | cons first rest ih =>
    cases rest with
    | nil =>
      have hone : sep.intercalate [first] = piece := by
        rw [List.intercalate_singleton, List.mem_singleton.mp h]
      exact hone ▸ List.infix_rfl
    | cons second rest =>
      rw [List.intercalate_cons_cons]
      rcases List.mem_cons.mp h with rfl | h
      · exact ((List.prefix_append _ _).trans (List.prefix_append _ _)).isInfix
      · exact (ih h).trans (List.suffix_append _ _).isInfix

theorem mem_intercalate {sep : List Char} {pieces : List (List Char)} {c : Char}
    (h : c ∈ sep.intercalate pieces) : c ∈ sep ∨ ∃ piece ∈ pieces, c ∈ piece := by
  induction pieces with
  | nil => cases h
  | cons first rest ih =>
    cases rest with
    | nil =>
      rw [List.intercalate_singleton] at h
      exact .inr ⟨first, List.mem_cons_self, h⟩
    | cons second rest =>
      rw [List.intercalate_cons_cons, List.mem_append, List.mem_append] at h
      rcases h with (h | h) | h
      · exact .inr ⟨first, List.mem_cons_self, h⟩
      · exact .inl h
      · exact (ih h).imp_right fun ⟨piece, hpiece, hc⟩ =>
          ⟨piece, List.mem_cons_of_mem _ hpiece, hc⟩

/-- **Joined pieces are found again, if and only if none but the last ends in the cut.** -/
theorem kept_piecesAtPair_intercalate {cut : Char} {pieces : List (List Char)}
    (hkept : ∀ piece ∈ pieces, piece ≠ [] ∧ trimChars piece = piece)
    (hfree : ∀ piece ∈ pieces, PairFree cut piece) :
    kept (piecesAtPair cut ([cut, cut].intercalate pieces)) = pieces ↔
      ∀ piece ∈ pieces.dropLast, piece.getLast? ≠ some cut := by
  by_cases hnil : pieces = []
  · subst hnil
    exact ⟨fun _ => nofun, fun _ => rfl⟩
  constructor
  · intro hsame
    -- Both lists of pieces make the same text, so that none is trimmed or left out.
    have hlength := length_intercalate cut
      (piecesAtPair_ne_nil cut ([cut, cut].intercalate pieces))
    rw [intercalate_piecesAtPair, length_intercalate cut hnil] at hlength
    obtain hless | hall := weight_kept (piecesAtPair cut ([cut, cut].intercalate pieces))
    · rw [hsame] at hless
      omega
    · rw [← hsame, hall]
      exact (separated_piecesAtPair cut _).ends
  · intro hends
    rw [piecesAtPair_intercalate ⟨hfree, hends⟩ hnil, kept_eq_self hkept]

end Text

namespace Namespace

open Text

variable {t : String} {s : String}

/-! ### The segments that a text writes -/

theorem toList_segments_parse (t : String) : (parse t).segments.map String.toList =
    kept ((piecesAtPair ':' t.toList).flatMap (piecesBy (· == '.'))) := by
  have hid : String.toList ∘ String.ofList = id := by
    funext cs
    exact String.toList_ofList
  rw [parse, List.map_map, hid, List.map_id, kept]

/-- Without dots, a text is cut at `::` only. -/
theorem toList_segments_parse_of_not_mem (h : '.' ∉ t.toList) :
    (parse t).segments.map String.toList = kept (piecesAtPair ':' t.toList) := by
  have hone : ∀ piece ∈ piecesAtPair ':' t.toList, piecesBy (· == '.') piece = [piece] := by
    intro piece hpiece
    have hwithin := isInfix_intercalate [':', ':'] hpiece
    rw [intercalate_piecesAtPair] at hwithin
    have hdot : ∀ c ∈ piece, (c == '.') = false := fun c hc =>
      beq_eq_false_iff_ne.mpr fun heq => h (heq ▸ hwithin.subset hc)
    have hpieces := piecesBy_append hdot (rfl : piecesBy (· == '.') [] = [] :: [])
    rwa [List.append_nil] at hpieces
  rw [toList_segments_parse, List.flatMap_congr hone, List.flatMap_singleton']

/-- A segment has no blanks around it, and no `::` in it. -/
theorem trimmed_of_mem_parse (hs : s ∈ (parse t).segments) :
    trimChars s.toList = s.toList ∧ PairFree ':' s.toList := by
  have hmem : s.toList ∈ (parse t).segments.map String.toList := List.mem_map_of_mem hs
  rw [toList_segments_parse] at hmem
  obtain ⟨piece, hpiece, htrim⟩ := List.mem_map.mp (List.mem_filter.mp hmem).1
  obtain ⟨part, hpart, hpiece⟩ := List.mem_flatMap.mp hpiece
  rw [← htrim]
  refine ⟨trimChars_trimChars piece, fun hpair => ?_⟩
  have hwithin := isInfix_intercalate ['.'] hpiece
  rw [intercalate_piecesBy] at hwithin
  exact (separated_piecesAtPair ':' t.toList).pairFree part hpart
    (hpair.trans ((isInfix_trimChars piece).trans hwithin))

/-! ### Reading a namespace's own text -/

theorem toList_text (ns : Namespace) :
    ns.text.toList = [':', ':'].intercalate (ns.segments.map String.toList) :=
  String.toList_intercalate

/-- The segments that the text of a namespace writes. -/
theorem toList_segments_parse_text (t : String) :
    (parse (parse t).text).segments.map String.toList =
      kept (piecesAtPair ':' (parse t).text.toList) := by
  refine toList_segments_parse_of_not_mem fun hdot => ?_
  rw [toList_text] at hdot
  rcases mem_intercalate hdot with hcolon | ⟨piece, hpiece, hdot⟩
  · exact absurd hcolon (by decide)
  · obtain ⟨segment, hsegment, rfl⟩ := List.mem_map.mp hpiece
    exact (dot_not_mem_parse hsegment).2 hdot

theorem eq_iff_toList_segments {ns other : Namespace} :
    ns = other ↔ ns.segments.map String.toList = other.segments.map String.toList := by
  obtain ⟨segments⟩ := ns
  obtain ⟨others⟩ := other
  rw [Namespace.mk.injEq]
  exact (List.map_inj_right fun _ _ h => String.toList_injective h).symm

/-- **A namespace that is read from a text is recovered from its own text, if and only if no segment
but the last ends in a colon.** -/
theorem parse_text_iff (t : String) : parse (parse t).text = parse t ↔
    ∀ s ∈ (parse t).segments.dropLast, s.toList.getLast? ≠ some ':' := by
  have hkept : ∀ piece ∈ (parse t).segments.map String.toList,
      piece ≠ [] ∧ trimChars piece = piece := by
    refine List.forall_mem_map.mpr fun s hs => ⟨fun hnil => ?_, (trimmed_of_mem_parse hs).1⟩
    exact (dot_not_mem_parse hs).1 (String.toList_injective hnil)
  have hfree : ∀ piece ∈ (parse t).segments.map String.toList, PairFree ':' piece :=
    List.forall_mem_map.mpr fun s hs => (trimmed_of_mem_parse hs).2
  rw [eq_iff_toList_segments, toList_segments_parse_text, toList_text,
    kept_piecesAtPair_intercalate hkept hfree, ← List.map_dropLast, List.forall_mem_map]

/-- A colon at the end of a segment makes a pair with the cut behind it. -/
theorem parse_text_ne : parse (parse "a:.b").text ≠ parse "a:.b" := by decide +kernel

end Namespace

end RadiusDictionary
