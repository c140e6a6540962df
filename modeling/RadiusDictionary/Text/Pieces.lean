/-! # Cutting a text into pieces

`piecesBy` cuts at every character of a class, `pieces` at one character, `piecesAtPair` at two
equal characters in a row, from the left. There is always at least one piece, and pieces may be
empty; with the cuts between them they make the text again (`intercalate_pieces`). `lines` are the
pieces at the line feeds, and `unlines` makes a text that has given lines (`lines_unlines`). -/

namespace RadiusDictionary.Text

/-- Puts a character in front of pieces that are cut already. -/
def pushFront (isCut : Char → Bool) (c : Char) : List (List Char) → List (List Char)
  | [] => [[c]]
  | first :: rest => if isCut c then [] :: first :: rest else (c :: first) :: rest

/-- The pieces between the characters that satisfy `isCut`. -/
def piecesBy (isCut : Char → Bool) (cs : List Char) : List (List Char) :=
  cs.foldr (pushFront isCut) [[]]

/-- A cut starts a further piece, and any other character goes to the first one. -/
theorem piecesBy_cons (isCut : Char → Bool) (c : Char) (cs : List Char) :
    piecesBy isCut (c :: cs) = pushFront isCut c (piecesBy isCut cs) := rfl

theorem piecesBy_ne_nil (isCut : Char → Bool) (cs : List Char) : piecesBy isCut cs ≠ [] := by
  induction cs with
  | nil => simp [piecesBy]
  | cons c cs ih =>
    rw [piecesBy_cons]
    unfold pushFront
    split
    · simp
    · split <;> simp

/-- What has no cut goes to the front of the first piece. -/
theorem piecesBy_append {isCut : Char → Bool} {w cs first : List Char} {rest : List (List Char)}
    (hw : ∀ c ∈ w, isCut c = false) (h : piecesBy isCut cs = first :: rest) :
    piecesBy isCut (w ++ cs) = (w ++ first) :: rest := by
  induction w with
  | nil => exact h
  | cons c w ih =>
    obtain ⟨hc, hw⟩ := List.forall_mem_cons.mp hw
    rw [List.cons_append, piecesBy_cons, ih hw, pushFront, hc]
    rfl

/-- There is no cut in a piece. -/
theorem not_isCut_of_mem_piecesBy (isCut : Char → Bool) (cs : List Char) :
    ∀ piece ∈ piecesBy isCut cs, ∀ c ∈ piece, isCut c = false := by
  induction cs with
  | nil => simp [piecesBy]
  | cons c cs ih =>
    rw [piecesBy_cons]
    cases hpieces : piecesBy isCut cs with
    | nil => exact absurd hpieces (piecesBy_ne_nil _ _)
    | cons first rest =>
      rw [hpieces] at ih
      obtain ⟨hfirst, hrest⟩ := List.forall_mem_cons.1 ih
      rw [pushFront]
      split
      · exact List.forall_mem_cons.2 ⟨by simp, ih⟩
      · next hc =>
        have hfront : ∀ d ∈ c :: first, isCut d = false :=
          List.forall_mem_cons.2 ⟨Bool.not_eq_true _ ▸ hc, hfirst⟩
        exact List.forall_mem_cons.2 ⟨hfront, hrest⟩

/-- The characters of a piece are those of the text. -/
theorem mem_of_mem_piecesBy (isCut : Char → Bool) : ∀ cs : List Char,
    ∀ piece ∈ piecesBy isCut cs, ∀ c ∈ piece, c ∈ cs
  | [] => by simp [piecesBy]
  | c :: cs => by
    have ih := mem_of_mem_piecesBy isCut cs
    rw [piecesBy_cons]
    cases hpieces : piecesBy isCut cs with
    | nil => exact absurd hpieces (piecesBy_ne_nil _ _)
    | cons first rest =>
      rw [hpieces] at ih
      have hmore : ∀ piece ∈ first :: rest, ∀ d ∈ piece, d ∈ c :: cs := fun piece hpiece d hd =>
        List.mem_cons_of_mem _ (ih piece hpiece d hd)
      obtain ⟨hfirst, hrest⟩ := List.forall_mem_cons.1 hmore
      rw [pushFront]
      split
      · exact List.forall_mem_cons.2 ⟨by simp, hmore⟩
      · exact List.forall_mem_cons.2 ⟨List.forall_mem_cons.2 ⟨List.mem_cons_self, hfirst⟩, hrest⟩

/-- Cutting loses nothing: with the cuts between them the pieces make the text. -/
theorem intercalate_piecesBy (cut : Char) (cs : List Char) :
    [cut].intercalate (piecesBy (· == cut) cs) = cs := by
  induction cs with
  | nil => rfl
  | cons c cs ih =>
    rw [piecesBy_cons]
    cases h : piecesBy (· == cut) cs with
    | nil => exact absurd h (piecesBy_ne_nil _ _)
    | cons first rest =>
      rw [h] at ih
      rw [pushFront]
      split
      · next hc => rw [List.intercalate_cons_cons, ih, beq_iff_eq.1 hc]; rfl
      · cases rest with
        | nil => simp_all
        | cons second rest => rw [List.intercalate_cons_cons] at ih ⊢; simp_all

/-- The pieces of a text between the occurrences of `cut`. -/
def pieces (cut : Char) (text : String) : List String :=
  (piecesBy (· == cut) text.toList).map .ofList

theorem intercalate_pieces (cut : Char) (text : String) :
    (String.singleton cut).intercalate (pieces cut text) = text := by
  apply String.toList_injective
  rw [String.toList_intercalate, pieces, List.map_map, String.toList_singleton]
  have h : String.toList ∘ String.ofList = id := by funext cs; simp
  rw [h, List.map_id, intercalate_piecesBy]

/-- The pieces between the occurrences of two `cut` characters in a row. -/
def piecesAtPair (cut : Char) : List Char → List (List Char)
  | [] => [[]]
  | [c] => [[c]]
  | c :: d :: cs =>
    if c == cut && d == cut then [] :: piecesAtPair cut cs
    else match piecesAtPair cut (d :: cs) with
      | [] => [[c]]
      | first :: rest => (c :: first) :: rest

/-- A line without the carriage return at its end. -/
def dropReturn (line : List Char) : List Char :=
  if line.getLast? = some '\r' then line.dropLast else line

theorem mem_of_mem_dropReturn {line : List Char} {c : Char} (h : c ∈ dropReturn line) :
    c ∈ line := by
  unfold dropReturn at h
  split at h
  · exact (List.dropLast_sublist line).subset h
  · exact h

/-- The lines of a text: each ends before a line feed, together with one carriage return if there is
one. What follows the last line feed is a line of its own unless it is empty. -/
def lines (text : String) : List String :=
  let all := piecesBy (· == '\n') text.toList
  let ended := all.dropLast.map dropReturn
  let unended := all.getLast?.toList.filter (!·.isEmpty)
  (ended ++ unended).map .ofList

/-- The text of lines, each ended by a line feed. -/
def unlines (lines : List String) : String := String.join (lines.map (· ++ "\n"))

/-- There is no line feed in a line. -/
theorem not_mem_of_mem_lines {text line : String} (h : line ∈ lines text) :
    '\n' ∉ line.toList := by
  obtain ⟨cs, hcs, rfl⟩ := List.mem_map.1 h
  rw [String.toList_ofList]
  intro hmem
  have hpiece : ∃ piece ∈ piecesBy (· == '\n') text.toList, '\n' ∈ piece := by
    rcases List.mem_append.1 hcs with hcs | hcs
    · obtain ⟨piece, hpiece, rfl⟩ := List.mem_map.1 hcs
      exact ⟨piece, (List.dropLast_sublist _).subset hpiece, mem_of_mem_dropReturn hmem⟩
    · have hlast := Option.mem_toList.1 (List.mem_filter.1 hcs).1
      exact ⟨cs, List.mem_of_getLast? hlast, hmem⟩
  obtain ⟨piece, hpiece, hmem⟩ := hpiece
  have hnot := not_isCut_of_mem_piecesBy _ _ piece hpiece '\n' hmem
  simp at hnot

/-- The line feeds of `unlines` are the cuts of `lines`, and after the last there is nothing. -/
theorem piecesBy_unlines : ∀ {ls : List String}, (∀ line ∈ ls, '\n' ∉ line.toList) →
    piecesBy (· == '\n') (unlines ls).toList = ls.map String.toList ++ [[]]
  | [], _ => rfl
  | line :: ls, h => by
    obtain ⟨hline, hls⟩ := List.forall_mem_cons.1 h
    have htext : (unlines (line :: ls)).toList =
        line.toList ++ '\n' :: (unlines ls).toList := by
      simp [unlines, String.join_cons]
    have hcut : ∀ c ∈ line.toList, (c == '\n') = false := by
      intro c hc
      exact beq_eq_false_iff_ne.2 fun heq => hline (heq ▸ hc)
    have hrest : piecesBy (· == '\n') ('\n' :: (unlines ls).toList) =
        [] :: (ls.map String.toList ++ [[]]) := by
      rw [piecesBy_cons, piecesBy_unlines hls]
      cases ls <;> rfl
    rw [htext, piecesBy_append hcut hrest, List.append_nil, List.map_cons, List.cons_append]

/-- A text made from lines has these lines, but for a carriage return at their ends. -/
theorem lines_unlines {ls : List String} (h : ∀ line ∈ ls, '\n' ∉ line.toList) :
    lines (unlines ls) = ls.map fun line => .ofList (dropReturn line.toList) := by
  simp [lines, piecesBy_unlines h, Function.comp_def]

end RadiusDictionary.Text
