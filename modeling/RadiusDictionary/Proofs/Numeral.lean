import Mathlib.Data.List.Forall2
import Mathlib.Data.Nat.Digits.Defs
import Mathlib.Data.UInt
import RadiusDictionary.Numeral

/-! # What numerals denote

A character is a digit of some value in a radix (`IsDigit`), and digits `Denote` a number by their
places. Around the digits a numeral has up to three things in front, one after the other: a minus
sign, a mark of the radix, and a second sign. `Written` is what stands after the first minus sign,
and `Signed` is the whole. A minus sign at the very front is always the first one.

`numerals_read` says which texts are numbers, for both kinds of numbers, and which number each is.
-/

namespace RadiusDictionary.Numeral

/-! ### Digits -/

/-- The character is the digit of this value: one of `0` to `9`, or from there on a letter in either
case. -/
def IsDigit (radix : Nat) (c : Char) (value : Nat) : Prop :=
  value < radix ∧ (c = Nat.digitChar value ∨ c = (Nat.digitChar value).toUpper)

/-- The characters are digits, and the number is their sum by places; without digits it is zero. -/
def SumsTo (radix : Nat) (cs : List Char) (n : Nat) : Prop :=
  ∃ values, List.Forall₂ (IsDigit radix) cs.reverse values ∧ Nat.ofDigits radix values = n

/-- The characters are digits, one at least, and the number is what they denote by their places. -/
def Denotes (radix : Nat) (cs : List Char) (n : Nat) : Prop := cs ≠ [] ∧ SumsTo radix cs n

section Digits

variable {radix : Nat} {c : Char} {cs : List Char}

/-- No character after `f` is a digit. -/
theorem toNat_lt_of_digit? {value : Nat} (h : digit? 16 c = some value) : c.toNat < 103 := by
  obtain ⟨hvalue, hlt⟩ := Option.filter_eq_some_iff.mp h
  rw [decide_eq_true_eq] at hlt
  by_cases hfigure : ('0' ≤ c && c ≤ '9') = true
  · have hle : c.toNat ≤ 57 := (Bool.and_eq_true_iff.mp hfigure |>.2 |> of_decide_eq_true)
    omega
  rw [if_neg hfigure] at hvalue
  by_cases hsmall : ('a' ≤ c && c ≤ 'z') = true
  · rw [if_pos hsmall] at hvalue
    cases hvalue
    omega
  rw [if_neg hsmall] at hvalue
  by_cases hcapital : ('A' ≤ c && c ≤ 'Z') = true
  · have hle : c.toNat ≤ 90 := (Bool.and_eq_true_iff.mp hcapital |>.2 |> of_decide_eq_true)
    omega
  · rw [if_neg hcapital] at hvalue
    cases hvalue

theorem digit?_eq_some_iff (h : radix ≤ 16) {value : Nat} :
    digit? radix c = some value ↔ IsDigit radix c value := by
  have hradix : digit? radix c = some value ↔ value < radix ∧ digit? 16 c = some value := by
    simp only [digit?, Option.filter_eq_some_iff, decide_eq_true_eq]
    constructor
    · rintro ⟨hvalue, hlt⟩
      exact ⟨hlt, hvalue, by omega⟩
    · rintro ⟨hlt, hvalue, -⟩
      exact ⟨hvalue, hlt⟩
  rw [hradix, IsDigit]
  refine and_congr_right fun hlt => ⟨fun hdigit => ?_, fun hc => ?_⟩
  · have htable : ∀ n < 103, ∀ v ∈ digit? 16 (Char.ofNat n),
        Char.ofNat n = Nat.digitChar v ∨ Char.ofNat n = (Nat.digitChar v).toUpper := by decide
    have hc := htable c.toNat (toNat_lt_of_digit? hdigit) value
    rw [Char.ofNat_toNat] at hc
    exact hc hdigit
  · have htable : ∀ v < 16, digit? 16 (Nat.digitChar v) = some v ∧
        digit? 16 (Nat.digitChar v).toUpper = some v := by decide
    obtain ⟨hlower, hupper⟩ := htable value (by omega)
    rcases hc with rfl | rfl
    · exact hlower
    · exact hupper

/-- One more digit at the end. -/
theorem sumsTo_concat {n : Nat} : SumsTo radix (cs ++ [c]) n ↔
    ∃ value front, IsDigit radix c value ∧ SumsTo radix cs front ∧ radix * front + value = n := by
  rw [SumsTo, List.reverse_append, List.reverse_singleton, List.singleton_append]
  constructor
  · rintro ⟨values, hvalues, rfl⟩
    obtain ⟨value, rest, hvalue, hrest, rfl⟩ := List.forall₂_cons_left_iff.mp hvalues
    exact ⟨value, _, hvalue, ⟨rest, hrest, rfl⟩, by rw [Nat.ofDigits_cons, Nat.add_comm]⟩
  · rintro ⟨value, _, hvalue, ⟨rest, hrest, rfl⟩, rfl⟩
    exact ⟨value :: rest, .cons hvalue hrest, by rw [Nat.ofDigits_cons, Nat.add_comm]⟩

/-- **Digits are read as what they denote.** -/
theorem natural?_eq_some_iff (h : radix ≤ 16) {n : Nat} :
    natural? radix cs = some n ↔ Denotes radix cs n := by
  have hfold : ∀ n, cs.foldlM (fun value c => (digit? radix c).map (radix * value + ·)) 0 = some n ↔
      SumsTo radix cs n := by
    induction cs using List.reverseRecOn with
    | nil => simp [SumsTo]
    | append_singleton cs c ih =>
      intro n
      rw [sumsTo_concat, List.foldlM_append]
      simp only [List.foldlM_cons, List.foldlM_nil, bind_pure, Option.bind_eq_bind,
        Option.bind_eq_some_iff, ih, Option.map_eq_some_iff, digit?_eq_some_iff h]
      constructor
      · rintro ⟨front, hfront, value, hvalue, rfl⟩
        exact ⟨value, front, hvalue, hfront, rfl⟩
      · rintro ⟨value, front, hvalue, hfront, rfl⟩
        exact ⟨front, hfront, value, hvalue, rfl⟩
  unfold natural? Denotes
  by_cases hempty : cs = []
  · simp [hempty]
  · rw [if_neg (by simpa using hempty), hfold]
    simp [hempty]

theorem Denotes.digit?_ne_none {n : Nat} (hdigits : Denotes radix cs n) (h : radix ≤ 16) :
    ∀ c ∈ cs, digit? radix c ≠ none := by
  obtain ⟨-, values, hvalues, -⟩ := hdigits
  have hboth := hvalues.imp fun c value hdigit =>
    And.intro (Option.ne_none_iff_exists'.mpr ⟨value, (digit?_eq_some_iff h).mpr hdigit⟩) hdigit
  exact fun c hc => ((List.forall₂_and_left _ _).mp hboth).1 c (List.mem_reverse.mpr hc)

/-- A sign is no digit. -/
theorem Denotes.ne_sign {n : Nat} (hdigits : Denotes radix cs n) (h : radix ≤ 16) :
    '+' ∉ cs ∧ '-' ∉ cs :=
  ⟨fun hc => hdigits.digit?_ne_none h _ hc rfl, fun hc => hdigits.digit?_ne_none h _ hc rfl⟩

end Digits

/-! ### What stands in front of digits -/

/-- How the radix is marked: not at all, or by one of `0x` and `0X`. -/
inductive Mark where
  | plain
  | lower
  | upper
deriving DecidableEq, Repr

def Mark.chars : Mark → List Char
  | plain => []
  | lower => ['0', 'x']
  | upper => ['0', 'X']

/-- The radix that a mark is for. -/
def Mark.radix : Mark → Nat
  | plain => 10
  | lower => 16
  | upper => 16

theorem Mark.radix_le (mark : Mark) : mark.radix ≤ 16 := by cases mark <;> decide

/-- A sign, or none. -/
inductive Sign where
  | absent
  | plus
  | minus
deriving DecidableEq, Repr

def Sign.chars : Sign → List Char
  | absent => []
  | plus => ['+']
  | minus => ['-']

/-- The number with a sign. -/
def Sign.apply : Sign → Nat → Int
  | absent, n => n
  | plus, n => n
  | minus, n => -n

/-- A numeral as it is written after the minus sign at the front, if there is one: a mark of the
radix, a sign, and digits of this radix. -/
structure Written where
  mark : Mark
  sign : Sign
  digits : List Char
  magnitude : Nat
  denotes : Denotes mark.radix digits magnitude

/-- The characters of the numeral. -/
def Written.chars (w : Written) : List Char := w.mark.chars ++ (w.sign.chars ++ w.digits)

/-- The number that the numeral denotes. -/
def Written.value (w : Written) : Int := w.sign.apply w.magnitude

/-- A numeral with a minus sign at the front, or without. A minus sign that could be this one is. -/
structure Signed where
  negated : Bool
  written : Written
  front : negated = false → written.chars.head? ≠ some '-'

/-- The characters of the numeral. -/
def Signed.chars (w : Signed) : List Char :=
  if w.negated then '-' :: w.written.chars else w.written.chars

/-- The number that the numeral denotes. -/
def Signed.value (w : Signed) : Int := if w.negated then -w.written.value else w.written.value

/-! ### Reading what is written -/

section Reading

variable {radix : Nat} {cs : List Char}

theorem splitRadix_of_denotes {n : Nat} (h : Denotes 10 cs n) : splitRadix cs = (10, cs) := by
  have hnot := h.digit?_ne_none (by decide)
  unfold splitRadix
  split
  · exact absurd rfl (hnot 'x' (by simp))
  · exact absurd rfl (hnot 'X' (by simp))
  · rfl

/-- The mark is split off. -/
theorem Written.splitRadix_chars (w : Written) :
    splitRadix w.chars = (w.mark.radix, w.sign.chars ++ w.digits) := by
  obtain ⟨mark, sign, digits, magnitude, hdenotes⟩ := w
  cases mark with
  | lower => rfl
  | upper => rfl
  | plain =>
    cases sign with
    | plus => rfl
    | minus => rfl
    | absent => exact splitRadix_of_denotes hdenotes

theorem exists_mark (cs : List Char) :
    ∃ mark body, cs = Mark.chars mark ++ body ∧ splitRadix cs = (mark.radix, body) := by
  unfold splitRadix
  split
  · exact ⟨.lower, _, rfl, rfl⟩
  · exact ⟨.upper, _, rfl, rfl⟩
  · exact ⟨.plain, _, rfl, rfl⟩

theorem positive?_eq_some_iff (h : radix ≤ 16) {n : Nat} : positive? radix cs = some n ↔
    ∃ sign digits, cs = Sign.chars sign ++ digits ∧ sign ≠ .minus ∧ Denotes radix digits n := by
  unfold positive?
  split
  · next cs =>
    rw [natural?_eq_some_iff h]
    refine ⟨fun hdigits => ⟨.plus, cs, rfl, nofun, hdigits⟩, ?_⟩
    rintro ⟨sign, digits, hcs, hsign, hdigits⟩
    cases sign with
    | plus => exact (List.cons.inj hcs).2 ▸ hdigits
    | minus => exact absurd rfl hsign
    | absent =>
      obtain rfl : '+' :: cs = digits := hcs
      exact absurd List.mem_cons_self (hdigits.ne_sign h).1
  · next hplus =>
    rw [natural?_eq_some_iff h]
    refine ⟨fun hdigits => ⟨.absent, cs, rfl, nofun, hdigits⟩, ?_⟩
    rintro ⟨sign, digits, hcs, hsign, hdigits⟩
    cases sign with
    | plus => exact absurd hcs (hplus digits)
    | minus => exact absurd rfl hsign
    | absent => exact hcs ▸ hdigits

theorem integer?_minus (cs : List Char) :
    integer? radix ('-' :: cs) = (natural? radix cs).map fun n : Nat => -(n : Int) := by
  rw [integer?]
  cases natural? radix cs with
  | none => rfl
  | some n => rfl

theorem integer?_of_ne_minus (h : cs.head? ≠ some '-') :
    integer? radix cs = (positive? radix cs).map Int.ofNat := by
  unfold integer?
  split
  · exact absurd rfl h
  · rfl

theorem integer?_eq_some_iff (h : radix ≤ 16) {z : Int} : integer? radix cs = some z ↔
    ∃ sign digits n,
      cs = Sign.chars sign ++ digits ∧ Denotes radix digits n ∧ sign.apply n = z := by
  by_cases hminus : cs.head? = some '-'
  · obtain ⟨rest, rfl⟩ := List.head?_eq_some_iff.mp hminus
    simp only [integer?_minus, Option.map_eq_some_iff, natural?_eq_some_iff h]
    constructor
    · rintro ⟨n, hdigits, rfl⟩
      exact ⟨.minus, rest, n, rfl, hdigits, rfl⟩
    · rintro ⟨sign, digits, n, hcs, hdigits, rfl⟩
      cases sign with
      | minus => exact ⟨n, (List.cons.inj hcs).2 ▸ hdigits, rfl⟩
      | plus => cases hcs
      | absent =>
        obtain rfl : '-' :: rest = digits := hcs
        exact absurd List.mem_cons_self (hdigits.ne_sign h).2
  · simp only [integer?_of_ne_minus hminus, Option.map_eq_some_iff, positive?_eq_some_iff h]
    constructor
    · rintro ⟨n, ⟨sign, digits, rfl, hsign, hdigits⟩, rfl⟩
      refine ⟨sign, digits, n, rfl, hdigits, ?_⟩
      cases sign with
      | minus => exact absurd rfl hsign
      | plus => rfl
      | absent => rfl
    · rintro ⟨sign, digits, n, rfl, hdigits, rfl⟩
      cases sign with
      | minus => exact absurd rfl hminus
      | plus => exact ⟨n, ⟨.plus, digits, rfl, nofun, hdigits⟩, rfl⟩
      | absent => exact ⟨n, ⟨.absent, digits, rfl, nofun, hdigits⟩, rfl⟩

/-- **A text after the first minus sign is read as what it denotes.** -/
theorem integer?_splitRadix_iff {z : Int} :
    integer? (splitRadix cs).1 (splitRadix cs).2 = some z ↔
      ∃ w : Written, w.chars = cs ∧ w.value = z := by
  constructor
  · intro h
    obtain ⟨mark, body, rfl, hsplit⟩ := exists_mark cs
    rw [hsplit] at h
    obtain ⟨sign, digits, n, rfl, hdigits, rfl⟩ := (integer?_eq_some_iff mark.radix_le).mp h
    exact ⟨⟨mark, sign, digits, n, hdigits⟩, rfl, rfl⟩
  · rintro ⟨w, rfl, rfl⟩
    rw [w.splitRadix_chars]
    exact (integer?_eq_some_iff w.mark.radix_le).mpr ⟨_, _, _, rfl, w.denotes, rfl⟩

theorem positive?_splitRadix_iff {n : Nat} :
    positive? (splitRadix cs).1 (splitRadix cs).2 = some n ↔
      ∃ w : Written, w.chars = cs ∧ w.sign ≠ .minus ∧ w.magnitude = n := by
  constructor
  · intro h
    obtain ⟨mark, body, rfl, hsplit⟩ := exists_mark cs
    rw [hsplit] at h
    obtain ⟨sign, digits, rfl, hsign, hdigits⟩ := (positive?_eq_some_iff mark.radix_le).mp h
    exact ⟨⟨mark, sign, digits, n, hdigits⟩, rfl, hsign, rfl⟩
  · rintro ⟨w, rfl, hsign, rfl⟩
    rw [w.splitRadix_chars]
    exact (positive?_eq_some_iff w.mark.radix_le).mpr ⟨_, _, rfl, hsign, w.denotes⟩

end Reading

/-! ### Numbers of 32 and of 64 bits -/

/-- The number has 64 bits with a sign. -/
def InInt64 (z : Int) : Prop := -2 ^ 63 ≤ z ∧ z < 2 ^ 63

theorem fitsInt64_eq_true_iff {z : Int} : fitsInt64 z = true ↔ InInt64 z := by
  have hmin : Int64.minValue.toInt = -2 ^ 63 := by decide
  have hmax : Int64.maxValue.toInt = 2 ^ 63 - 1 := by decide
  rw [fitsInt64, Bool.and_eq_true, decide_eq_true_eq, decide_eq_true_eq, hmin, hmax, InInt64]
  omega

theorem map_toNat_unsigned? {t : String} {n : Nat} :
    (unsigned? t).map UInt32.toNat = some n ↔
      n < 2 ^ 32 ∧ ∃ w : Written, w.chars = t.toList ∧ w.sign ≠ .minus ∧ w.magnitude = n := by
  have hnat : ∀ m < 2 ^ 32, (UInt32.ofNat m).toNat = m := fun m hm => UInt32.toNat_ofNat_of_lt hm
  rw [← positive?_splitRadix_iff, unsigned?, Option.map_map, Option.map_eq_some_iff]
  simp only [Option.filter_eq_some_iff, decide_eq_true_eq, Function.comp_apply]
  constructor
  · rintro ⟨m, ⟨hm, hlt⟩, rfl⟩
    rw [hnat m hlt]
    exact ⟨hlt, hm⟩
  · rintro ⟨hlt, hn⟩
    exact ⟨n, ⟨hn, hlt⟩, hnat n hlt⟩

/-- The minus sign at the front is split off. -/
theorem Signed.splitMinus_chars (w : Signed) :
    splitMinus w.chars = (w.negated, w.written.chars) := by
  obtain ⟨negated, written, hfront⟩ := w
  cases negated with
  | true => rfl
  | false =>
    unfold splitMinus Signed.chars
    split
    · next hchars =>
      have hminus : written.chars = '-' :: _ := hchars
      exact absurd (by rw [hminus]; rfl) (hfront rfl)
    · rfl

/-- **A signed numeral is a number if what stands after the first minus sign fits.** -/
theorem Signed.signed?_eq (w : Signed) {t : String} (ht : w.chars = t.toList) :
    signed? t = if fitsInt64 w.written.value then some (Int64.ofInt w.value) else none := by
  have hwritten := integer?_splitRadix_iff.mpr ⟨w.written, rfl, rfl⟩
  simp only [signed?, ← ht, w.splitMinus_chars, hwritten, Option.filter_some]
  by_cases hfits : fitsInt64 w.written.value = true
  · rw [if_pos hfits, if_pos hfits]
    rfl
  · rw [if_neg hfits, if_neg hfits]
    rfl

/-- What stands after the minus sign is part of a signed numeral. -/
theorem exists_signed {cs : List Char} {written : Written} (h : written.chars = (splitMinus cs).2) :
    ∃ w : Signed, w.chars = cs ∧ w.written = written := by
  unfold splitMinus at h
  split at h
  · next rest =>
    have hrest : written.chars = rest := h
    exact ⟨⟨true, written, nofun⟩, congrArg ('-' :: ·) hrest, rfl⟩
  · next hminus =>
    have hcs : written.chars = cs := h
    refine ⟨⟨false, written, fun _ hhead => ?_⟩, hcs, rfl⟩
    obtain ⟨rest, hrest⟩ := List.head?_eq_some_iff.mp hhead
    exact hminus rest (hcs ▸ hrest)

theorem exists_signed_of_isSome {t : String} (h : (signed? t).isSome = true) :
    ∃ w : Signed, w.chars = t.toList ∧ InInt64 w.written.value := by
  obtain ⟨v, hv⟩ := Option.isSome_iff_exists.mp h
  simp only [signed?, Option.map_eq_some_iff, Option.filter_eq_some_iff] at hv
  obtain ⟨z, ⟨hz, hfits⟩, -⟩ := hv
  obtain ⟨written, hchars, rfl⟩ := integer?_splitRadix_iff.mp hz
  obtain ⟨w, hw, rfl⟩ := exists_signed hchars
  exact ⟨w, hw, fitsInt64_eq_true_iff.mp hfits⟩

/-- Without a minus sign, both kinds of numbers are read from the same digits. -/
theorem signed?_of_not_minus {t : String} (h : '-' ∉ t.toList) :
    signed? t = (((positive? (splitRadix t.toList).1 (splitRadix t.toList).2).map Int.ofNat).filter
      fitsInt64).map Int64.ofInt := by
  have hminus : splitMinus t.toList = (false, t.toList) := by
    unfold splitMinus
    split
    · next hcs => exact absurd (by simp [hcs]) h
    · rfl
  have hbody : '-' ∉ (splitRadix t.toList).2 := by
    obtain ⟨mark, body, hcs, hsplit⟩ := exists_mark t.toList
    rw [hsplit]
    rw [hcs] at h
    exact fun hmem => h (List.mem_append_right _ hmem)
  have hhead : (splitRadix t.toList).2.head? ≠ some '-' :=
    fun hhead => hbody (List.mem_of_mem_head? hhead)
  simp only [signed?, hminus, integer?_of_ne_minus hhead]
  rfl

theorem unsigned?_eq_some_iff_signed? {t : String} (h : '-' ∉ t.toList) (n : UInt32) :
    unsigned? t = some n ↔ signed? t = some (Int64.ofNat n.toNat) := by
  have hsmall := n.toNat_lt
  have hword : (Int64.ofNat n.toNat).toInt = n.toNat :=
    Int64.toInt_ofNat_of_lt (by omega)
  rw [signed?_of_not_minus h, unsigned?]
  simp only [Option.map_eq_some_iff, Option.filter_eq_some_iff, decide_eq_true_eq,
    fitsInt64_eq_true_iff]
  constructor
  · rintro ⟨m, ⟨hm, hlt⟩, rfl⟩
    have hm' : (UInt32.ofNat m).toNat = m := UInt32.toNat_ofNat_of_lt hlt
    rw [hm'] at hword ⊢
    exact ⟨m, ⟨⟨m, hm, rfl⟩, by unfold InInt64; omega⟩, rfl⟩
  · rintro ⟨_, ⟨⟨m, hm, rfl⟩, hlow, hhigh⟩, hz⟩
    have hm' : (m : Int) = n.toNat := by
      rw [← hword, ← hz, Int64.toInt_ofInt_of_le hlow hhigh]
      rfl
    obtain rfl : m = n.toNat := by omega
    exact ⟨_, ⟨hm, n.toNat_lt⟩, UInt32.ofNat_toNat⟩

/-- **Which texts are numbers, and which number each is.** A 32-bit number is a mark of the radix, a
plus sign or none, and digits of the radix that denote less than `2 ^ 32`; no other text is one. A
64-bit number may have a minus sign at the front, and after the mark a sign of either kind; what
stands after the first minus sign has to fit 64 bits. It is the number that the whole denotes, where
it is one that fits. Without a minus sign anywhere, both are the same up to the size. -/
theorem numerals_read (t : String) :
    (∀ n : Nat, (unsigned? t).map UInt32.toNat = some n ↔
      n < 2 ^ 32 ∧ ∃ w : Written, w.chars = t.toList ∧ w.sign ≠ .minus ∧ w.magnitude = n) ∧
    ((signed? t).isSome = true → ∃ w : Signed, w.chars = t.toList ∧ InInt64 w.written.value) ∧
    (∀ w : Signed, w.chars = t.toList → InInt64 w.written.value →
      ¬ (w.negated = true ∧ w.written.value = -2 ^ 63) →
      (signed? t).map Int64.toInt = some w.value) ∧
    ('-' ∉ t.toList → ∀ n : UInt32,
      unsigned? t = some n ↔ signed? t = some (Int64.ofNat n.toNat)) := by
  refine ⟨fun n => map_toNat_unsigned?, exists_signed_of_isSome, fun w ht hrange hedge => ?_,
    fun hminus n => unsigned?_eq_some_iff_signed? hminus n⟩
  rw [w.signed?_eq ht, if_pos (fitsInt64_eq_true_iff.mpr hrange), Option.map_some]
  have hvalue : InInt64 w.value := by
    unfold Signed.value
    unfold InInt64 at hrange ⊢
    split
    · next hnegated =>
      have hne : w.written.value ≠ -2 ^ 63 := fun heq => hedge ⟨hnegated, heq⟩
      omega
    · exact hrange
  rw [Int64.toInt_ofInt_of_le hvalue.1 hvalue.2]

/-- Two minus signs, one on each side of the mark, leave a positive number. With none, the same
digits are this number in 32 bits too. -/
theorem minus_on_both_sides :
    ((signed? "-0x-1F").isSome = true ∧
      ∃ w : Signed, w.chars = "-0x-1F".toList ∧ InInt64 w.written.value) ∧
    (signed? "-0x-1F").map Int64.toInt = some 31 ∧
    '-' ∉ "0X+1f".toList ∧ (unsigned? "0X+1f" = some 31 ↔ signed? "0X+1f" = some 31) := by
  have hdigits : Denotes 16 ['1', 'F'] 31 := (natural?_eq_some_iff (by decide)).mp rfl
  have hrange : InInt64 (-31) := by unfold InInt64; decide
  have hedge : (-31 : Int) ≠ -2 ^ 63 := by decide
  have hnumber : (signed? "-0x-1F").isSome = true := by decide
  exact ⟨⟨hnumber, (numerals_read "-0x-1F").2.1 hnumber⟩,
    (numerals_read "-0x-1F").2.2.1 ⟨true, ⟨.lower, .minus, ['1', 'F'], 31, hdigits⟩, nofun⟩
      rfl hrange fun h => hedge h.2,
    by decide, (numerals_read "0X+1f").2.2.2 (by decide) 31⟩

end RadiusDictionary.Numeral
