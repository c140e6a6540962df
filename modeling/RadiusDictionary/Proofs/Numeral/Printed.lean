import RadiusDictionary.Proofs.Numeral

/-! # Printed numbers are read back

The digits of a number denote it, with any zeros in front (`denotes_padded`). A number that is
printed as a minus sign if it is negative, a mark of the radix and digits of its magnitude is
therefore read as itself, with one exception: the magnitude of the least 64-bit number does not fit
64 bits with a sign, and it is read before the sign is put back (`signed?_of_denotes`).

`printed_numbers_read` says so for both radices and both kinds of numbers. -/

namespace RadiusDictionary.Numeral

/-! ### Digits of a number -/

section Digits

variable {radix : Nat} {cs : List Char}

/-- One more digit at the end of digits. -/
theorem Denotes.concat {n value : Nat} {c : Char} (h : Denotes radix cs n)
    (hc : IsDigit radix c value) : Denotes radix (cs ++ [c]) (radix * n + value) :=
  ⟨List.append_ne_nil_of_right_ne_nil _ (List.cons_ne_nil _ _),
    sumsTo_concat.mpr ⟨value, n, hc, h.2, rfl⟩⟩

theorem denotes_singleton {value : Nat} {c : Char} (hc : IsDigit radix c value) :
    Denotes radix [c] value :=
  ⟨List.cons_ne_nil _ _, [value], .cons hc .nil, Nat.ofDigits_singleton⟩

/-- The digits of a number denote it. -/
theorem denotes_toDigits (h : 1 < radix) (n : Nat) : Denotes radix (Nat.toDigits radix n) n := by
  induction n using Nat.strongRecOn with
  | ind n ih =>
    have hdigit : ∀ value < radix, IsDigit radix (Nat.digitChar value) value :=
      fun value hvalue => ⟨hvalue, .inl rfl⟩
    rw [Nat.toDigits_eq_if h]
    split
    · next hsmall => exact denotes_singleton (hdigit n hsmall)
    · next hlarge =>
      have hfront := ih (n / radix) (Nat.div_lt_self (by omega) h)
      have hlast := hdigit (n % radix) (Nat.mod_lt n (by omega))
      have hboth := hfront.concat hlast
      rwa [Nat.div_add_mod] at hboth

/-- A zero in front changes nothing. -/
theorem Denotes.zero_cons {n : Nat} (h : Denotes radix cs n) (hradix : 0 < radix) :
    Denotes radix ('0' :: cs) n := by
  obtain ⟨-, values, hvalues, rfl⟩ := h
  refine ⟨List.cons_ne_nil _ _, values ++ [0], ?_, ?_⟩
  · rw [List.reverse_cons]
    exact List.rel_append hvalues (.cons ⟨hradix, .inl rfl⟩ .nil)
  · rw [Nat.ofDigits_append_zero]

/-- **The digits of a number denote it, with any zeros in front.** -/
theorem denotes_padded (h : 1 < radix) (zeros n : Nat) :
    Denotes radix (List.replicate zeros '0' ++ Nat.toDigits radix n) n := by
  induction zeros with
  | zero => exact denotes_toDigits h n
  | succ zeros ih => exact ih.zero_cons (by omega)

end Digits

/-! ### Reading back -/

theorem Mark.radix_eq (mark : Mark) (h : mark ≠ .plain) : mark.radix = 16 := by
  cases mark with
  | plain => exact absurd rfl h
  | lower => rfl
  | upper => rfl

/-- Neither a mark nor a digit is a minus sign. -/
theorem Written.head?_ne_minus (w : Written) (h : w.sign = .absent) :
    w.chars.head? ≠ some '-' := by
  obtain ⟨mark, sign, digits, magnitude, hdenotes⟩ := w
  cases h
  cases mark with
  | lower => exact nofun
  | upper => exact nofun
  | plain => exact fun hhead => (hdenotes.ne_sign (by decide)).2 (List.mem_of_mem_head? hhead)

/-- **A 64-bit number that is printed with the digits of its magnitude is read back, unless it is
the least one.** -/
theorem signed?_of_denotes {n : Int64} (mark : Mark) {digits : List Char} {t : String}
    (h : Denotes mark.radix digits n.toInt.natAbs)
    (ht : (if n < 0 then ['-'] else []) ++ (mark.chars ++ digits) = t.toList) :
    signed? t = if n = Int64.minValue then none else some n := by
  let written : Written := ⟨mark, .absent, digits, n.toInt.natAbs, h⟩
  let w : Signed := ⟨decide (n < 0), written, fun _ => written.head?_ne_minus rfl⟩
  have hchars : w.chars = t.toList := by
    rw [← ht]
    by_cases hneg : n < 0 <;> simp [w, written, Signed.chars, Written.chars, Sign.chars, hneg]
  have hneg : n < 0 ↔ n.toInt < 0 := Int64.lt_iff_toInt_lt
  have hvalue : w.value = n.toInt := by
    simp only [w, written, Signed.value, Written.value, Sign.apply, decide_eq_true_eq, hneg]
    split <;> omega
  have hmin : n = Int64.minValue ↔ n.toInt = -2 ^ 63 := by
    rw [← Int64.toInt_inj]
    rfl
  have hfits : fitsInt64 w.written.value = true ↔ ¬ n = Int64.minValue := by
    have hlow := n.le_toInt
    have hhigh := n.toInt_lt
    rw [fitsInt64_eq_true_iff, hmin]
    simp only [w, written, Written.value, Sign.apply, InInt64]
    omega
  rw [w.signed?_eq hchars, hvalue, Int64.ofInt_toInt]
  simp only [hfits, ite_not]

/-- A 32-bit number that is printed with its digits is read back. -/
theorem unsigned?_of_denotes {n : UInt32} (mark : Mark) {digits : List Char} {t : String}
    (h : Denotes mark.radix digits n.toNat) (ht : mark.chars ++ digits = t.toList) :
    unsigned? t = some n := by
  have hread : (unsigned? t).map UInt32.toNat = some n.toNat :=
    map_toNat_unsigned?.mpr
      ⟨n.toNat_lt, ⟨mark, .absent, digits, n.toNat, h⟩, ht, nofun, rfl⟩
  obtain ⟨m, hm, hmn⟩ := Option.map_eq_some_iff.mp hread
  rw [hm, UInt32.toNat_inj.mp hmn]

theorem signedDecimal_toList (n : Int64) : (signedDecimal n.toInt).toList =
    (if n < 0 then ['-'] else []) ++ Nat.toDigits 10 n.toInt.natAbs := by
  have hneg : n < 0 ↔ n.toInt < 0 := Int64.lt_iff_toInt_lt
  unfold signedDecimal decimal
  simp only [hneg]
  split
  · exact String.toList_append.trans (congrArg (['-'] ++ ·) String.toList_ofList)
  · exact String.toList_ofList

/-- **Printed numbers are read back, except for the least 64-bit number.** That one is not a number
when it is printed, neither in decimal nor in hexadecimal. In hexadecimal, the digits are any that
denote the magnitude: the letters in either case, and any zeros in front. -/
theorem printed_numbers_read (n : Int64) (m : UInt32) :
    signed? (signedDecimal n.toInt) = (if n = Int64.minValue then none else some n) ∧
    (∀ (mark : Mark) (digits : List Char), mark ≠ .plain → Denotes 16 digits n.toInt.natAbs →
      signed? (.ofList ((if n < 0 then ['-'] else []) ++ (mark.chars ++ digits))) =
        if n = Int64.minValue then none else some n) ∧
    unsigned? (decimal m.toNat) = some m ∧
    (∀ (mark : Mark) (digits : List Char), mark ≠ .plain → Denotes 16 digits m.toNat →
      unsigned? (.ofList (mark.chars ++ digits)) = some m) ∧
    ∀ zeros k : Nat, Denotes 16 (List.replicate zeros '0' ++ Nat.toDigits 16 k) k := by
  refine ⟨?_, fun mark digits hmark hdigits => ?_, ?_, fun mark digits hmark hdigits => ?_,
    denotes_padded (by decide)⟩
  · exact signed?_of_denotes .plain (denotes_toDigits (by decide) _) (signedDecimal_toList n).symm
  · rw [← mark.radix_eq hmark] at hdigits
    exact signed?_of_denotes mark hdigits String.toList_ofList.symm
  · exact unsigned?_of_denotes .plain (denotes_toDigits (by decide) _) String.toList_ofList.symm
  · rw [← mark.radix_eq hmark] at hdigits
    exact unsigned?_of_denotes mark hdigits String.toList_ofList.symm

/-- In hexadecimal, the number after the least one is read back and the least one is not. -/
theorem least_number_unread :
    (Denotes 16 "7fffFFFFffffFFFF".toList (Int64.minValue + 1).toInt.natAbs ∧
      signed? "-0X7fffFFFFffffFFFF" = some (Int64.minValue + 1)) ∧
    (Denotes 16 "8000000000000000".toList Int64.minValue.toInt.natAbs ∧
      signed? "-0x8000000000000000" = none) ∧
    (Denotes 16 "00fF".toList (255 : UInt32).toNat ∧ unsigned? "0x00fF" = some 255) := by
  have hbefore : Denotes 16 "7fffFFFFffffFFFF".toList (Int64.minValue + 1).toInt.natAbs :=
    (natural?_eq_some_iff (by decide)).mp (by decide)
  have hleast : Denotes 16 "8000000000000000".toList Int64.minValue.toInt.natAbs :=
    (natural?_eq_some_iff (by decide)).mp (by decide)
  have hsmall : Denotes 16 "00fF".toList (255 : UInt32).toNat :=
    (natural?_eq_some_iff (by decide)).mp (by decide)
  have hreadBefore := (printed_numbers_read (Int64.minValue + 1) 255).2.1 .upper _ nofun hbefore
  have hreadLeast := (printed_numbers_read Int64.minValue 255).2.1 .lower _ nofun hleast
  have hreadSmall := (printed_numbers_read 0 255).2.2.2.1 .lower _ nofun hsmall
  rw [if_pos (by decide), if_neg (by decide)] at hreadBefore
  rw [if_pos (by decide), if_pos rfl] at hreadLeast
  exact ⟨⟨hbefore, hreadBefore⟩, ⟨hleast, hreadLeast⟩, hsmall, hreadSmall⟩

end RadiusDictionary.Numeral
