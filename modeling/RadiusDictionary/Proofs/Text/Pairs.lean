import RadiusDictionary.Text.Pieces

/-! # Cuts at pairs

The pieces of a text that is cut at two equal characters in a row make the text again
(`intercalate_piecesAtPair`). No piece has such a pair in it, and none but the last ends in the
character itself (`separated_piecesAtPair`), because cuts are made from the left.

`piecesAtPair_intercalate`: conversely, pieces of this kind are what their text is cut into. -/

namespace RadiusDictionary.Text

variable {cut : Char} {cs : List Char} {ps : List (List Char)}

/-! ### Pieces make the text -/

theorem piecesAtPair_ne_nil (cut : Char) (cs : List Char) : piecesAtPair cut cs ≠ [] := by
  fun_cases piecesAtPair cut cs <;> exact List.cons_ne_nil _ _

/-- A pair is a cut, and any other character goes to the first piece. -/
theorem piecesAtPair_cons (cut c : Char) (cs : List Char) : piecesAtPair cut (c :: cs) =
    if c = cut ∧ cs.head? = some cut then [] :: piecesAtPair cut cs.tail
    else (piecesAtPair cut cs).modifyHead (c :: ·) := by
  cases cs with
  | nil => simp [piecesAtPair]
  | cons d cs =>
    rw [piecesAtPair]
    by_cases hpair : c = cut ∧ d = cut
    · simp [hpair]
    · rw [if_neg (by simpa using hpair), if_neg (by simpa using hpair)]
      cases hpieces : piecesAtPair cut (d :: cs) with
      | nil => exact absurd hpieces (piecesAtPair_ne_nil _ _)
      | cons first rest => rfl

/-- **Cutting loses nothing:** with the pairs between them the pieces make the text. -/
theorem intercalate_piecesAtPair (cut : Char) (cs : List Char) :
    [cut, cut].intercalate (piecesAtPair cut cs) = cs := by
  fun_induction piecesAtPair cut cs with
  | case1 => rfl
  | case2 c => rfl
  | case3 c d cs hpair ih =>
    obtain ⟨hc, hd⟩ : c = cut ∧ d = cut := by simpa using hpair
    cases hpieces : piecesAtPair cut cs with
    | nil => exact absurd hpieces (piecesAtPair_ne_nil _ _)
    | cons first rest =>
      rw [hpieces] at ih
      rw [List.intercalate_cons_cons, ih, hc, hd]
      rfl
  | case4 c d cs hpair hpieces ih => exact absurd hpieces (piecesAtPair_ne_nil _ _)
  | case5 c d cs hpair first rest hpieces ih =>
    rw [hpieces] at ih
    cases rest with
    | nil => rw [List.intercalate_singleton] at ih ⊢; rw [ih]
    | cons second rest => rw [List.intercalate_cons_cons] at ih ⊢; simp [← ih]

/-- The first piece is the whole text, or what stands before a pair. -/
theorem eq_of_piecesAtPair_eq_cons {first : List Char} {rest : List (List Char)}
    (h : piecesAtPair cut cs = first :: rest) :
    (rest = [] ∧ cs = first) ∨ ∃ tail, cs = first ++ cut :: cut :: tail := by
  have htext := intercalate_piecesAtPair cut cs
  rw [h] at htext
  cases rest with
  | nil => exact .inl ⟨rfl, by rw [← htext, List.intercalate_singleton]⟩
  | cons second rest =>
    refine .inr ⟨[cut, cut].intercalate (second :: rest), ?_⟩
    rw [← htext, List.intercalate_cons_cons, List.append_assoc]
    rfl

/-! ### Which pieces there are -/

/-- There are no two `cut` in a row. -/
def PairFree (cut : Char) (piece : List Char) : Prop := ¬ [cut, cut] <:+: piece

theorem pairFree_nil : PairFree cut [] := by
  simp [PairFree]

theorem pairFree_cons {c : Char} :
    PairFree cut (c :: cs) ↔ ¬ (c = cut ∧ cs.head? = some cut) ∧ PairFree cut cs := by
  have hfront : [cut, cut] <+: c :: cs ↔ c = cut ∧ cs.head? = some cut := by
    rw [List.cons_prefix_cons, eq_comm]
    cases cs with
    | nil => simp
    | cons d cs => simp [List.cons_prefix_cons, eq_comm]
  rw [PairFree, List.infix_cons_iff, hfront, not_or]
  rfl

/-- No piece has two `cut` in a row, and none but the last ends in `cut`. -/
structure Separated (cut : Char) (pieces : List (List Char)) : Prop where
  pairFree : ∀ piece ∈ pieces, PairFree cut piece
  ends : ∀ piece ∈ pieces.dropLast, piece.getLast? ≠ some cut

theorem separated_singleton {piece : List Char} (h : PairFree cut piece) :
    Separated cut [piece] :=
  ⟨by simpa using h, by simp⟩

/-- One more piece in front. -/
theorem Separated.cons {piece : List Char} (h : Separated cut ps) (hfree : PairFree cut piece)
    (hends : ps ≠ [] → piece.getLast? ≠ some cut) : Separated cut (piece :: ps) := by
  refine ⟨List.forall_mem_cons.mpr ⟨hfree, h.pairFree⟩, ?_⟩
  cases ps with
  | nil => exact nofun
  | cons second rest =>
    rw [List.dropLast_cons_cons]
    exact List.forall_mem_cons.mpr ⟨hends (List.cons_ne_nil _ _), h.ends⟩

theorem Separated.tail {piece : List Char} (h : Separated cut (piece :: ps)) :
    Separated cut ps := by
  refine ⟨(List.forall_mem_cons.mp h.pairFree).2, fun other hother => h.ends other ?_⟩
  cases ps with
  | nil => cases hother
  | cons second rest => exact List.mem_cons_of_mem _ hother

/-- **The pieces of a text are separated.** -/
theorem separated_piecesAtPair (cut : Char) (cs : List Char) :
    Separated cut (piecesAtPair cut cs) := by
  fun_induction piecesAtPair cut cs with
  | case1 => exact separated_singleton pairFree_nil
  | case2 c => exact separated_singleton (pairFree_cons.mpr ⟨by simp, pairFree_nil⟩)
  | case3 c d cs hpair ih => exact ih.cons pairFree_nil (by simp)
  | case4 c d cs hpair hpieces ih => exact absurd hpieces (piecesAtPair_ne_nil _ _)
  | case5 c d cs hpair first rest hpieces ih =>
    rw [hpieces] at ih
    have hnot : ¬ (c = cut ∧ d = cut) := by simpa using hpair
    -- The first piece starts like the text, so that `c` makes no pair with it.
    have htext := eq_of_piecesAtPair_eq_cons hpieces
    refine ih.tail.cons (pairFree_cons.mpr ⟨?_, ih.pairFree first List.mem_cons_self⟩)
      fun hrest => ?_
    · rintro ⟨rfl, hhead⟩
      obtain ⟨more, rfl⟩ := List.head?_eq_some_iff.mp hhead
      obtain ⟨-, hcs⟩ | ⟨tail, hcs⟩ := htext
      · exact hnot ⟨rfl, (List.cons.inj hcs).1⟩
      · exact hnot ⟨rfl, (List.cons.inj hcs).1⟩
    · obtain ⟨hnil, -⟩ | ⟨tail, hcs⟩ := htext
      · exact absurd hnil hrest
      cases first with
      | nil =>
        intro hlast
        exact hnot ⟨Option.some.inj hlast, (List.cons.inj hcs).1⟩
      | cons x first =>
        rw [List.getLast?_cons_cons]
        refine ih.ends _ ?_
        obtain ⟨second, rest, rfl⟩ := List.exists_cons_of_ne_nil hrest
        exact List.mem_cons_self

/-! ### Cutting what is joined -/

theorem piecesAtPair_of_pairFree (h : PairFree cut cs) : piecesAtPair cut cs = [cs] := by
  induction cs with
  | nil => rfl
  | cons c cs ih =>
    obtain ⟨hpair, hrest⟩ := pairFree_cons.mp h
    rw [piecesAtPair_cons, if_neg hpair, ih hrest]
    rfl

/-- What ends before a pair is a piece, unless it could have part in an earlier pair. -/
theorem piecesAtPair_append {piece : List Char} (h : PairFree cut piece)
    (hends : piece.getLast? ≠ some cut) (cs : List Char) :
    piecesAtPair cut (piece ++ cut :: cut :: cs) = piece :: piecesAtPair cut cs := by
  induction piece with
  | nil => simp [piecesAtPair_cons]
  | cons c piece ih =>
    obtain ⟨hpair, hrest⟩ := pairFree_cons.mp h
    have hfront : ¬ (c = cut ∧ (piece ++ cut :: cut :: cs).head? = some cut) := by
      cases piece with
      | nil => exact fun hc => hends (congrArg some hc.1)
      | cons d piece => exact hpair
    have hlater : piece.getLast? ≠ some cut := by
      cases piece with
      | nil => exact nofun
      | cons d piece => rwa [List.getLast?_cons_cons] at hends
    rw [List.cons_append, piecesAtPair_cons, if_neg hfront, ih hrest hlater]
    rfl

/-- **Separated pieces are what their text is cut into.** -/
theorem piecesAtPair_intercalate (h : Separated cut ps) (hne : ps ≠ []) :
    piecesAtPair cut ([cut, cut].intercalate ps) = ps := by
  induction ps with
  | nil => exact absurd rfl hne
  | cons piece ps ih =>
    have hfree := h.pairFree piece List.mem_cons_self
    cases ps with
    | nil => rw [List.intercalate_singleton, piecesAtPair_of_pairFree hfree]
    | cons second rest =>
      have hends := h.ends piece List.mem_cons_self
      rw [List.intercalate_cons_cons, List.append_assoc, List.cons_append, List.cons_append,
        List.nil_append, piecesAtPair_append hfree hends, ih h.tail (List.cons_ne_nil _ _)]

end RadiusDictionary.Text
