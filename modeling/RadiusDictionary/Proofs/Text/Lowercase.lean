import RadiusDictionary.Text.Lowercase

/-! # Two lower cases

`lowercase` goes further than `lowercaseAscii`: it can be taken after it, with the same result
(`lowercase_lowercaseAscii`), so texts that are the same up to the ASCII letters have one lower case
(`lowercase_eq_of_sameAscii`). The converse fails, since letters beyond ASCII have a case too, and
holds for texts without such letters (`sameAscii_iff_of_isAscii`). -/

namespace RadiusDictionary.Text

theorem lowerChar_asciiLower (c : Char) : lowerChar (asciiLower c) = lowerChar c := by
  rcases asciiLower_cases c with h | ⟨n, hn, hn', rfl, h⟩
  · rw [h]
  · rw [h]
    revert n
    decide

theorem inRanges_asciiLower {ranges : List (Nat × Nat)}
    (h : ∀ n < 91, 65 ≤ n → inRanges ranges (Char.ofNat (n + 32)) = inRanges ranges (Char.ofNat n))
    (c : Char) : inRanges ranges (asciiLower c) = inRanges ranges c := by
  rcases asciiLower_cases c with hc | ⟨n, hn, hn', rfl, hc⟩
  · rw [hc]
  · rw [hc, h n hn hn']

theorem meetsCased_map_asciiLower (cs : List Char) :
    meetsCased (cs.map asciiLower) = meetsCased cs := by
  have hignorable : inRanges caseIgnorableRanges ∘ asciiLower = inRanges caseIgnorableRanges :=
    funext (inRanges_asciiLower (by decide +kernel))
  have hcased : ∀ c, inRanges casedRanges (asciiLower c) = inRanges casedRanges c :=
    inRanges_asciiLower (by decide +kernel)
  rw [meetsCased, meetsCased, List.dropWhile_map, hignorable]
  cases cs.dropWhile (inRanges caseIgnorableRanges) with
  | nil => rfl
  | cons c rest => exact hcased c

theorem asciiLower_eq_sigma_iff (c : Char) : asciiLower c = 'Σ' ↔ c = 'Σ' :=
  ⟨eq_of_asciiLower_eq (by decide), by rintro rfl; decide⟩

theorem lowerAfter_map_asciiLower : ∀ before cs : List Char,
    lowerAfter (before.map asciiLower) (cs.map asciiLower) = lowerAfter before cs
  | _, [] => rfl
  | before, c :: after => by
    have hafter := lowerAfter_map_asciiLower (c :: before) after
    rw [List.map_cons] at hafter
    simp only [List.map_cons, lowerAfter, hafter, asciiLower_eq_sigma_iff, lowerChar_asciiLower,
      lowerSigma, meetsCased_map_asciiLower]

/-- **The full lower case can be taken after that of the ASCII letters.** -/
theorem lowercase_lowercaseAscii (text : String) :
    lowercase (lowercaseAscii text) = lowercase text := by
  rw [lowercase, lowercaseAscii, String.toList_ofList]
  exact congrArg String.ofList (lowerAfter_map_asciiLower [] text.toList)

theorem sameAscii_iff {s t : String} :
    sameAscii s t = true ↔ lowercaseAscii s = lowercaseAscii t := by
  rw [sameAscii, lowercaseAscii, lowercaseAscii, beq_iff_eq, String.ofList_inj]

/-- What is the same up to the ASCII letters has one lower case. -/
theorem lowercase_eq_of_sameAscii {s t : String} (h : sameAscii s t = true) :
    lowercase s = lowercase t := by
  rw [← lowercase_lowercaseAscii s, sameAscii_iff.mp h, lowercase_lowercaseAscii]

/-- All characters of the text are ASCII characters. -/
def IsAscii (text : String) : Prop := ∀ c ∈ text.toList, c.toNat < 128

instance (text : String) : Decidable (IsAscii text) :=
  List.decidableBAll (fun c : Char => c.toNat < 128) text.toList

theorem lowerAfter_of_isAscii : ∀ {cs : List Char} (before : List Char),
    (∀ c ∈ cs, c.toNat < 128) → lowerAfter before cs = cs.map asciiLower
  | [], _, _ => rfl
  | c :: after, before, h => by
    obtain ⟨hc, hafter⟩ := List.forall_mem_cons.mp h
    have hsigma : c ≠ 'Σ' := by
      rintro rfl
      exact absurd hc (by decide)
    rw [lowerAfter, if_neg hsigma, lowerChar, if_pos hc, lowerAfter_of_isAscii _ hafter]
    rfl

theorem lowercase_of_isAscii {text : String} (h : IsAscii text) :
    lowercase text = lowercaseAscii text :=
  congrArg String.ofList (lowerAfter_of_isAscii [] h)

/-- **For ASCII texts there is one lower case.** -/
theorem sameAscii_iff_of_isAscii {s t : String} (hs : IsAscii s) (ht : IsAscii t) :
    sameAscii s t = true ↔ lowercase s = lowercase t := by
  rw [sameAscii_iff, lowercase_of_isAscii hs, lowercase_of_isAscii ht]

end RadiusDictionary.Text
