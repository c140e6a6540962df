import RadiusDictionary.Text.CharRange

/-! # Blanks

The white space of Unicode, and texts without the white space at their ends. -/

namespace RadiusDictionary.Text

/-- The ranges of the property `White_Space`. -/
def blankRanges : List (Nat × Nat) :=
  [(9, 13), (32, 32), (133, 133), (160, 160), (5760, 5760), (8192, 8202), (8232, 8233),
   (8239, 8239), (8287, 8287), (12288, 12288)]

/-- Whether `c` is white space. -/
def isBlank (c : Char) : Bool := inRanges blankRanges c

/-- The characters without the blanks at either end. -/
def trimChars (cs : List Char) : List Char :=
  ((cs.dropWhile isBlank).reverse.dropWhile isBlank).reverse

theorem trimChars_append_blank (cs : List Char) {c : Char} (hc : isBlank c = true) :
    trimChars (cs ++ [c]) = trimChars cs := by
  unfold trimChars
  rw [List.dropWhile_append]
  split
  · next h => simp [List.isEmpty_iff.1 h, hc]
  · simp [hc]

/-- Nothing is added to what is left. -/
theorem mem_of_mem_trimChars {cs : List Char} {c : Char} (h : c ∈ trimChars cs) : c ∈ cs := by
  unfold trimChars at h
  rw [List.mem_reverse] at h
  have hreverse := (List.dropWhile_suffix _).subset h
  rw [List.mem_reverse] at hreverse
  exact (List.dropWhile_suffix _).subset hreverse

/-- The text without the blanks at either end. -/
def trim (text : String) : String := .ofList (trimChars text.toList)

end RadiusDictionary.Text
