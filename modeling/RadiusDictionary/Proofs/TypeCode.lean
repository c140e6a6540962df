import Mathlib.Data.UInt
import RadiusDictionary.TypeCode

/-! # What a type code says

A type code is made by shifts and ors, and is taken apart by shifts and masks. Said of numbers, the
code of a vendor's attribute is the vendor above the type (`toNat_vendorType`), and the type of a
nested attribute is its number above that of the one around it (`toNat_nestedType`). What is put in
is read off again as long as no part reaches into the next one:

* an attribute of a vendor has 16 bits for the vendor and 16 bits for its number
  (`fields_vendorType_iff`);
* a nested attribute has a byte for its number and one for that of the attribute around it
  (`fields_nested_iff`).

Attributes whose numbers are bytes can therefore be told by their codes (`TypeIds.typeId_eq_iff`).
Where the number of a nested attribute does not fit above the other one, its high bits are lost
(`toNat_nestedType_eq_iff`, `nestedType_mod`). -/

namespace RadiusDictionary

namespace TypeCode

/-! ### Codes as numbers -/

theorem toNat_and_byte (n : UInt32) : (n &&& 0xFF).toNat = n.toNat % 2 ^ 8 := by
  rw [UInt32.toNat_and]
  exact Nat.and_two_pow_sub_one_eq_mod _ 8

theorem toNat_and_word (n : UInt32) : (n &&& 0xFFFF).toNat = n.toNat % 2 ^ 16 := by
  rw [UInt32.toNat_and]
  exact Nat.and_two_pow_sub_one_eq_mod _ 16

/-- Where a number has low bits to spare, putting another one there is adding it. -/
theorem mul_or_of_lt {k n : Nat} (h : n < 2 ^ k) (m : Nat) : m * 2 ^ k ||| n = m * 2 ^ k + n := by
  rw [Nat.mul_comm, Nat.two_pow_add_eq_or_of_lt h]

theorem toNat_vendorType (vendor number : UInt32) : (vendorType vendor number).toNat =
    vendor.toNat % 2 ^ 16 * 2 ^ 16 ||| number.toNat := by
  have hshift : ((vendor &&& 0xFFFF).toUInt64 <<< 16).toNat = vendor.toNat % 2 ^ 16 * 2 ^ 16 := by
    rw [UInt64.toNat_shiftLeft, UInt32.toNat_toUInt64, toNat_and_word, Nat.shiftLeft_eq]
    show vendor.toNat % 2 ^ 16 * 2 ^ 16 % 2 ^ 64 = _
    omega
  rw [vendorType, UInt64.toNat_or, hshift, UInt32.toNat_toUInt64]

theorem toNat_nestedType (child parent : UInt32) : (nestedType child parent).toNat =
    child.toNat % 2 ^ 24 * 2 ^ 8 ||| parent.toNat := by
  have hshift : (child <<< 8).toNat = child.toNat % 2 ^ 24 * 2 ^ 8 := by
    rw [UInt32.toNat_shiftLeft, Nat.shiftLeft_eq]
    exact Nat.mul_mod_mul_right (2 ^ 8) child.toNat (2 ^ 24)
  rw [nestedType, UInt32.toNat_or, hshift]

theorem toNat_childKey (child parent : UInt32) :
    (childKey child parent).toNat = child.toNat * 256 + parent.toNat % 256 := by
  have hbyte : parent.toNat % 2 ^ 8 < 2 ^ 8 := Nat.mod_lt _ (by decide)
  have hchild := child.toNat_lt
  have hshift : (child.toUInt64 <<< 8).toNat = child.toNat * 2 ^ 8 := by
    rw [UInt64.toNat_shiftLeft, UInt32.toNat_toUInt64, Nat.shiftLeft_eq]
    show child.toNat * 2 ^ 8 % 2 ^ 64 = _
    omega
  rw [childKey, UInt64.toNat_or, UInt32.toNat_toUInt64, toNat_and_byte, hshift, mul_or_of_lt hbyte]
  rfl

theorem vendorType_lt (vendor number : UInt32) : vendorType vendor number < 2 ^ 32 := by
  have hvendor : vendor.toNat % 2 ^ 16 * 2 ^ 16 < 2 ^ 32 := by omega
  have hlt := Nat.or_lt_two_pow hvendor number.toNat_lt
  rw [← toNat_vendorType] at hlt
  exact hlt

section Numbers

variable {number child parent : UInt32}

theorem toNat_vendorType_of_lt (h : number.toNat < 2 ^ 16) (vendor : UInt32) :
    (vendorType vendor number).toNat = vendor.toNat % 2 ^ 16 * 2 ^ 16 + number.toNat := by
  rw [toNat_vendorType, mul_or_of_lt h]

theorem toNat_nestedType_of_lt (h : parent.toNat < 2 ^ 8) (child : UInt32) :
    (nestedType child parent).toNat = child.toNat % 2 ^ 24 * 2 ^ 8 + parent.toNat := by
  rw [toNat_nestedType, mul_or_of_lt h]

/-- The code of a nested attribute, if the numbers are bytes. -/
theorem toNat_vendorType_nestedType (hchild : child.toNat < 2 ^ 8) (hparent : parent.toNat < 2 ^ 8)
    (vendor : UInt32) : (vendorType vendor (nestedType child parent)).toNat =
      vendor.toNat % 2 ^ 16 * 2 ^ 16 + (child.toNat * 2 ^ 8 + parent.toNat) := by
  have htype := toNat_nestedType_of_lt hparent child
  rw [Nat.mod_eq_of_lt (by omega)] at htype
  rw [toNat_vendorType_of_lt (by omega), htype]

end Numbers

/-! ### The fields of a code -/

/-- The vendor in a type code. -/
def vendorField (code : UInt64) : UInt64 := code >>> 16

/-- The number in the code of a vendor's attribute. -/
def typeField (code : UInt64) : UInt64 := code &&& 0xFFFF

/-- The number in the code of a nested attribute. -/
def childField (code : UInt64) : UInt64 := (code >>> 8) &&& 0xFF

/-- The number of the attribute around it in the code of a nested attribute. -/
def parentField (code : UInt64) : UInt64 := code &&& 0xFF

section Fields

variable (code : UInt64)

theorem toNat_vendorField : (vendorField code).toNat = code.toNat / 2 ^ 16 := by
  rw [vendorField, UInt64.toNat_shiftRight]
  exact Nat.shiftRight_eq_div_pow _ 16

theorem toNat_typeField : (typeField code).toNat = code.toNat % 2 ^ 16 := by
  rw [typeField, UInt64.toNat_and]
  exact Nat.and_two_pow_sub_one_eq_mod _ 16

theorem toNat_shiftRight_byte : (code >>> 8).toNat = code.toNat / 2 ^ 8 := by
  rw [UInt64.toNat_shiftRight]
  exact Nat.shiftRight_eq_div_pow _ 8

theorem toNat_childField : (childField code).toNat = code.toNat / 2 ^ 8 % 2 ^ 8 := by
  rw [childField, UInt64.toNat_and, toNat_shiftRight_byte]
  exact Nat.and_two_pow_sub_one_eq_mod _ 8

theorem toNat_parentField : (parentField code).toNat = code.toNat % 2 ^ 8 := by
  rw [parentField, UInt64.toNat_and]
  exact Nat.and_two_pow_sub_one_eq_mod _ 8

end Fields

/-- A field has a number in it if it does as natural numbers. -/
theorem field_eq_iff {field : UInt64} {n : UInt32} :
    field = n.toUInt64 ↔ field.toNat = n.toNat := by
  rw [← UInt64.toNat_inj, UInt32.toNat_toUInt64]

/-- **A vendor's attribute is read off its code** exactly if its number fits 16 bits. -/
theorem fields_vendorType_iff (vendor number : UInt32) :
    (vendorField (vendorType vendor number) = (vendor &&& 0xFFFF).toUInt64 ∧
      typeField (vendorType vendor number) = number.toUInt64) ↔ number ≤ 0xFFFF := by
  simp only [field_eq_iff, toNat_vendorField, toNat_typeField, toNat_and_word]
  constructor
  · rintro ⟨-, htype⟩
    have hle : number.toNat ≤ 65535 := by omega
    exact hle
  · intro h
    have hle : number.toNat ≤ 65535 := h
    rw [toNat_vendorType_of_lt (by omega)]
    omega

/-- **A nested attribute is read off its code** exactly if both numbers fit a byte. -/
theorem fields_nested_iff (vendor parent child : UInt32) :
    let code := vendorType vendor (nestedType child parent)
    (vendorField code = (vendor &&& 0xFFFF).toUInt64 ∧ childField code = child.toUInt64 ∧
      parentField code = parent.toUInt64) ↔ child ≤ 0xFF ∧ parent ≤ 0xFF := by
  intro code
  simp only [field_eq_iff, toNat_vendorField, toNat_childField, toNat_parentField, toNat_and_word]
  constructor
  · rintro ⟨-, hchild, hparent⟩
    have hle : child.toNat ≤ 255 ∧ parent.toNat ≤ 255 := by omega
    exact hle
  · rintro ⟨hchild, hparent⟩
    have hle : child.toNat ≤ 255 := hchild
    have hle' : parent.toNat ≤ 255 := hparent
    rw [toNat_vendorType_nestedType (by omega) (by omega)]
    omega

/-! ### The largest number of a nested attribute -/

/-- **No bits are lost** in the type of a nested attribute exactly up to `maxChildNumber`. -/
theorem toNat_nestedType_eq_iff (child parent : UInt32) :
    (nestedType child parent).toNat = child.toNat <<< 8 ||| parent.toNat ↔
      child ≤ maxChildNumber := by
  rw [Nat.shiftLeft_eq]
  constructor
  · intro h
    have hchild : child.toNat * 2 ^ 8 ≤ (nestedType child parent).toNat := h ▸ Nat.left_le_or
    have hlt := (nestedType child parent).toNat_lt
    have hle : child.toNat ≤ 0x00FFFFFF := by omega
    exact hle
  · intro h
    have hle : child.toNat ≤ 0x00FFFFFF := h
    rw [toNat_nestedType, Nat.mod_eq_of_lt (by omega)]

/-- Numbers with the same low 24 bits make one type. -/
theorem nestedType_mod (child parent : UInt32) :
    nestedType child parent = nestedType (child % 2 ^ 24) parent := by
  rw [← UInt32.toNat_inj, toNat_nestedType, toNat_nestedType, UInt32.toNat_mod]
  show _ = child.toNat % 2 ^ 24 % 2 ^ 24 * 2 ^ 8 ||| parent.toNat
  rw [Nat.mod_mod]

theorem mod_ne_of_lt {child : UInt32} (h : maxChildNumber < child) : child % 2 ^ 24 ≠ child := by
  have hlt : 0x00FFFFFF < child.toNat := h
  intro heq
  have hnat := congrArg UInt32.toNat heq
  rw [UInt32.toNat_mod] at hnat
  have hmod : child.toNat % 2 ^ 24 = child.toNat := hnat
  omega

theorem mod_le (child : UInt32) : child % 2 ^ 24 ≤ maxChildNumber := by
  have hle : child.toNat % 2 ^ 24 ≤ 0x00FFFFFF := by omega
  have hmod : (child % 2 ^ 24).toNat = child.toNat % 2 ^ 24 := UInt32.toNat_mod child _
  rw [← hmod] at hle
  exact hle

section Fit

variable {child parent : UInt32} (hchild : child ≤ maxChildNumber)
include hchild

/-- The shift can be taken back. -/
theorem shiftRight_shiftLeft : (child <<< 8) >>> 8 = child := by
  have hle : child.toNat ≤ 0x00FFFFFF := hchild
  rw [← UInt32.toNat_inj, UInt32.toNat_shiftRight, UInt32.toNat_shiftLeft, Nat.shiftLeft_eq,
    Nat.shiftRight_eq_div_pow]
  show child.toNat * 2 ^ 8 % 2 ^ 32 / 2 ^ 8 = _
  omega

/-- **The key is the type**, and both numbers are read off it, if the number of the attribute around
is a byte. -/
theorem childKey_eq (hparent : parent ≤ maxWireType) :
    childKey child parent = (nestedType child parent).toUInt64 ∧
      (childKey child parent).toNat = 256 * child.toNat + parent.toNat ∧
      childKey child parent >>> 8 = child.toUInt64 ∧
      parentField (childKey child parent) = parent.toUInt64 := by
  have hle : child.toNat ≤ 0x00FFFFFF := hchild
  have hle' : parent.toNat ≤ 255 := hparent
  have hkey := toNat_childKey child parent
  have htype := toNat_nestedType_of_lt (show parent.toNat < 2 ^ 8 by omega) child
  simp only [field_eq_iff, toNat_shiftRight_byte, toNat_parentField]
  omega

end Fit

end TypeCode

namespace TypeIds

/-- The numbers are bytes, that of a nested attribute a positive one. -/
def IsBytes : TypeIds → Prop
  | plain _ => False
  | vendor _ number => number ≤ 0xFF
  | nested _ parentType number => 1 ≤ number ∧ number ≤ 0xFF ∧ parentType ≤ 0xFF

/-- The numbers are the same, and both attributes are nested or neither; of the vendors the low 16
bits count. -/
def Alike : TypeIds → TypeIds → Prop
  | vendor vendorId number, vendor vendorId' number' =>
    vendorId % 2 ^ 16 = vendorId' % 2 ^ 16 ∧ number = number'
  | nested vendorId parentType number, nested vendorId' parentType' number' =>
    vendorId % 2 ^ 16 = vendorId' % 2 ^ 16 ∧ number = number' ∧ parentType = parentType'
  | _, _ => False

section Bytes

variable {vendorId vendorId' parentType number : UInt32}

theorem toNat_typeId_vendor (h : (vendor vendorId number).IsBytes) : number.toNat < 2 ^ 8 ∧
    (vendor vendorId number).typeId.toNat =
      vendorId.toNat % 2 ^ 16 * 2 ^ 16 + number.toNat := by
  have hle : number.toNat ≤ 255 := h
  exact ⟨by omega, TypeCode.toNat_vendorType_of_lt (by omega) vendorId⟩

theorem toNat_typeId_nested (h : (nested vendorId parentType number).IsBytes) :
    1 ≤ number.toNat ∧ number.toNat < 2 ^ 8 ∧ parentType.toNat < 2 ^ 8 ∧
    (nested vendorId parentType number).typeId.toNat =
      vendorId.toNat % 2 ^ 16 * 2 ^ 16 + (number.toNat * 2 ^ 8 + parentType.toNat) := by
  obtain ⟨hpos, hnumber, hparent⟩ := h
  have hone : 1 ≤ number.toNat := hpos
  have hle : number.toNat ≤ 255 := hnumber
  have hle' : parentType.toNat ≤ 255 := hparent
  exact ⟨hone, by omega, by omega,
    TypeCode.toNat_vendorType_nestedType (by omega) (by omega) vendorId⟩

theorem mod_eq_mod_iff : vendorId % 2 ^ 16 = vendorId' % 2 ^ 16 ↔
    vendorId.toNat % 2 ^ 16 = vendorId'.toNat % 2 ^ 16 := by
  rw [← UInt32.toNat_inj, UInt32.toNat_mod, UInt32.toNat_mod]
  rfl

end Bytes

/-- **Attributes whose numbers are bytes can be told by their codes.** -/
theorem typeId_eq_iff {ids ids' : TypeIds} (h : ids.IsBytes) (h' : ids'.IsBytes) :
    ids.typeId = ids'.typeId ↔ ids.Alike ids' := by
  rw [← UInt64.toNat_inj]
  -- The second byte of a code is zero for an attribute that is not nested, and positive otherwise.
  match ids, ids', h, h' with
  | vendor _ _, vendor _ _, h, h' =>
    obtain ⟨hlt, hcode⟩ := toNat_typeId_vendor h
    obtain ⟨hlt', hcode'⟩ := toNat_typeId_vendor h'
    rw [hcode, hcode', Alike, mod_eq_mod_iff, ← UInt32.toNat_inj]
    omega
  | vendor _ _, nested _ _ _, h, h' =>
    obtain ⟨hlt, hcode⟩ := toNat_typeId_vendor h
    obtain ⟨hpos', hlt', hparent', hcode'⟩ := toNat_typeId_nested h'
    refine iff_of_false ?_ id
    rw [hcode, hcode']
    omega
  | nested _ _ _, vendor _ _, h, h' =>
    obtain ⟨hpos, hlt, hparent, hcode⟩ := toNat_typeId_nested h
    obtain ⟨hlt', hcode'⟩ := toNat_typeId_vendor h'
    refine iff_of_false ?_ id
    rw [hcode, hcode']
    omega
  | nested _ _ _, nested _ _ _, h, h' =>
    obtain ⟨hpos, hlt, hparent, hcode⟩ := toNat_typeId_nested h
    obtain ⟨hpos', hlt', hparent', hcode'⟩ := toNat_typeId_nested h'
    rw [hcode, hcode', Alike, mod_eq_mod_iff, ← UInt32.toNat_inj, ← UInt32.toNat_inj]
    omega

/-- **What can be read off type codes.** A code has 32 bits. The vendor and the number of a vendor's
attribute are its upper and its lower half exactly if the number fits 16 bits, and the numbers of a
nested attribute and of the one around it are bytes of it exactly if they are bytes. Two attributes
whose numbers are bytes, that of a nested one positive, have one code exactly if they are alike. -/
theorem codes_readable :
    (∀ vendor number : UInt32, TypeCode.vendorType vendor number < 2 ^ 32 ∧
      (TypeCode.vendorField (TypeCode.vendorType vendor number) = (vendor &&& 0xFFFF).toUInt64 ∧
        TypeCode.typeField (TypeCode.vendorType vendor number) = number.toUInt64 ↔
          number ≤ 0xFFFF)) ∧
    (∀ vendor parent child : UInt32, let code := (nested vendor parent child).typeId
      TypeCode.vendorField code = (vendor &&& 0xFFFF).toUInt64 ∧
        TypeCode.childField code = child.toUInt64 ∧ TypeCode.parentField code = parent.toUInt64 ↔
          child ≤ 0xFF ∧ parent ≤ 0xFF) ∧
    ∀ ids ids' : TypeIds, ids.IsBytes → ids'.IsBytes →
      (ids.typeId = ids'.typeId ↔ ids.Alike ids') :=
  ⟨fun vendor number => ⟨TypeCode.vendorType_lt vendor number,
      TypeCode.fields_vendorType_iff vendor number⟩,
    TypeCode.fields_nested_iff, fun _ _ => typeId_eq_iff⟩

/-- Vendors that differ above 16 bits share their codes, and an attribute and one nested in it do
not. -/
theorem codes_readable_of_wide_vendor :
    (vendor 9 5).typeId = (vendor 0x10009 5).typeId ∧
      (vendor 9 5).typeId ≠ (nested 9 5 1).typeId := by
  have hbytes : ∀ vendorId, (vendor vendorId 5).IsBytes := fun _ =>
    (by decide : (5 : UInt32) ≤ 0xFF)
  have hnested : (nested 9 5 1).IsBytes := ⟨by decide, by decide, by decide⟩
  refine ⟨(codes_readable.2.2 _ _ (hbytes 9) (hbytes 0x10009)).mpr ⟨by decide, rfl⟩, fun h => ?_⟩
  exact (codes_readable.2.2 _ _ (hbytes 9) hnested).mp h

end TypeIds

end RadiusDictionary
