import RadiusDictionary.Text.CaseTables
import RadiusDictionary.Text.CharRange

/-! # Lower case

`lowercase` is the full lower case of Unicode: letter by letter, with the one expansion (`İ`) and
the one rule that looks at the neighbours, for a capital sigma at the end of a word. `asciiLower`
changes the letters `A` to `Z` only, and `sameAscii` compares texts up to that. -/

namespace RadiusDictionary.Text

/-- The lower case of the letters `A` to `Z`; every other character is its own. -/
def asciiLower (c : Char) : Char :=
  if 'A' ≤ c && c ≤ 'Z' then Char.ofNat (c.toNat + 32) else c

/-- Only the letters `A` to `Z` change. -/
theorem asciiLower_cases (c : Char) : asciiLower c = c ∨
    ∃ n < 91, 65 ≤ n ∧ c = Char.ofNat n ∧ asciiLower c = Char.ofNat (n + 32) := by
  by_cases hc : ('A' ≤ c && c ≤ 'Z') = true
  · have hlower : asciiLower c = Char.ofNat (c.toNat + 32) := if_pos hc
    simp only [Bool.and_eq_true, decide_eq_true_eq] at hc
    exact Or.inr ⟨c.toNat, Nat.lt_succ_of_le hc.2, hc.1, (Char.ofNat_toNat c).symm, hlower⟩
  · exact Or.inl (if_neg hc)

/-- What is no letter is the lower case of itself only. -/
theorem eq_of_asciiLower_eq {c d : Char} (hd : ∀ n < 91, 65 ≤ n → Char.ofNat (n + 32) ≠ d)
    (h : asciiLower c = d) : c = d := by
  rcases asciiLower_cases c with hsame | ⟨n, hn, hn', -, hlower⟩
  · rw [← hsame, h]
  · exact absurd (hlower.symm.trans h) (hd n hn hn')

/-- The text with the letters `A` to `Z` in lower case. -/
def lowercaseAscii (text : String) : String := .ofList (text.toList.map asciiLower)

/-- Whether two texts differ at most in the case of the letters `A` to `Z`. -/
def sameAscii (s t : String) : Bool := s.toList.map asciiLower == t.toList.map asciiLower

/-- The image of a code point in a row of `lowerRows`, if the row has it. -/
def lowerIn? (n : Nat) : Nat × Nat × Nat × Nat → Option Nat
  | (first, last, step, image) =>
    if first ≤ n && n ≤ last && (n - first) % step == 0 then some (image + (n - first)) else none

/-- The lower case of one character on its own. -/
def lowerChar (c : Char) : List Char :=
  if c.toNat < 128 then [asciiLower c]
  else if c = 'İ' then ['i', '\u0307']
  else match lowerRows.findSome? (lowerIn? c.toNat) with
    | some n => [Char.ofNat n]
    | none => [c]

/-- Whether the first character that is not ignorable is a letter with a case. -/
def meetsCased (cs : List Char) : Bool :=
  match cs.dropWhile (inRanges caseIgnorableRanges) with
  | [] => false
  | c :: _ => inRanges casedRanges c

/-- The lower case of a capital sigma, `before` being what precedes it (nearest first) and `after`
what follows. At the end of a word it has a form of its own. -/
def lowerSigma (before after : List Char) : Char :=
  if meetsCased before && !meetsCased after then 'ς' else 'σ'

/-- The lower case of characters that follow `before` (nearest first). -/
def lowerAfter (before : List Char) : List Char → List Char
  | [] => []
  | c :: after =>
    (if c = 'Σ' then [lowerSigma before after] else lowerChar c) ++ lowerAfter (c :: before) after

/-- The text in lower case. -/
def lowercase (text : String) : String := .ofList (lowerAfter [] text.toList)

end RadiusDictionary.Text
