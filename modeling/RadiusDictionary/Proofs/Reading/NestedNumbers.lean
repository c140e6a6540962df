import RadiusDictionary.Proofs.Registry.Spots
import RadiusDictionary.Proofs.TypeCode

/-! # The numbers of nested attributes

The type of a nested attribute has its number above that of the attribute around it, in a word of 32
bits, while the key in the loader is made in one of 64 bits. An `ATTRIBUTE` line in a TLV scope is
refused if its number is above `maxChildNumber`. So the types of what is read are never cut off, and
where the number of the attribute around is a byte they are the keys
(`Reading.nested_types_exact`). -/

namespace RadiusDictionary

/-- What was read nested in an attribute has a number that fits above that of the attribute. -/
theorem Reading.number_le_of_nested (r : Reading) {s : Spot} (hs : s ∈ r.registry.spots) :
    ∀ e ∈ s.subject.nested, e.2.number ≤ TypeCode.maxChildNumber := by
  intro e he
  rcases r.spot_cases hs with ⟨-, hmem⟩ | ⟨-, p, hp, hmem⟩
  · obtain ⟨entry, hentry, hsubject⟩ := List.mem_map.mp hmem
    exact ((r.wellFormed.attributesOf _ entry hentry).isChild e (hsubject ▸ he)).number_le
  · obtain ⟨entry, hentry, rfl⟩ := List.mem_map.mp hp
    obtain ⟨child, hchild, hsubject⟩ := List.mem_map.mp hmem
    have hbare := (r.wellFormed.attributesOf _ entry hentry).bare child hchild
    rw [← hsubject, Attribute.nested_of_children_eq_none hbare] at he
    cases he

open TypeCode in
/-- **The types of nested attributes are exact.** Whatever is read, no bits are lost in the type of
an attribute nested in another; if the number of that one is a byte, the key in the loader is the
type, the two numbers side by side. No larger number than `maxChildNumber` would do: of those above
it each makes the type of one that is not. -/
theorem Reading.nested_types_exact (r : Reading) :
    (∀ s ∈ r.registry.spots, ∀ e ∈ s.subject.nested,
      let child := e.2.number
      let parent := s.subject.number
      (child <<< 8) >>> 8 = child ∧
      (nestedType child parent).toNat = child.toNat <<< 8 ||| parent.toNat ∧
      (parent ≤ maxWireType → childKey child parent = (nestedType child parent).toUInt64 ∧
        (childKey child parent).toNat = 256 * child.toNat + parent.toNat ∧
        childKey child parent >>> 8 = child.toUInt64 ∧
        parentField (childKey child parent) = parent.toUInt64)) ∧
    ∀ child parent : UInt32,
      ((nestedType child parent).toNat = child.toNat <<< 8 ||| parent.toNat ↔
        child ≤ maxChildNumber) ∧
      (maxChildNumber < child →
        nestedType child parent = nestedType (child % 2 ^ 24) parent ∧
        child % 2 ^ 24 ≠ child ∧ child % 2 ^ 24 ≤ maxChildNumber) := by
  refine ⟨fun s hs e he => ?_, fun child parent => ⟨toNat_nestedType_eq_iff child parent,
    fun hlarge => ⟨nestedType_mod child parent, mod_ne_of_lt hlarge, mod_le child⟩⟩⟩
  have hchild := r.number_le_of_nested hs e he
  exact ⟨shiftRight_shiftLeft hchild, (toNat_nestedType_eq_iff _ _).mpr hchild, childKey_eq hchild⟩

/-- A reading of an attribute with one in it that has the largest number. -/
def largestReading : Reading :=
  ⟨default, [.text "ATTRIBUTE Group 5 tlv\nBEGIN-TLV Group\nATTRIBUTE Member 0xFFFFFF date\n"],
    false⟩

/-- The largest number fits, and the next one would have the type of zero. -/
theorem Reading.nested_types_exact_of_largest :
    (∃ s ∈ largestReading.registry.spots, ∃ e ∈ s.subject.nested,
      e.2.number = TypeCode.maxChildNumber ∧
      TypeCode.childKey e.2.number s.subject.number =
        (TypeCode.nestedType e.2.number s.subject.number).toUInt64) ∧
    TypeCode.nestedType 0x01000000 5 = TypeCode.nestedType 0 5 := by
  obtain ⟨s, hs, e, he, hnumber, hparent⟩ : ∃ s ∈ largestReading.registry.spots,
      ∃ e ∈ s.subject.nested, e.2.number = TypeCode.maxChildNumber ∧
        s.subject.number ≤ TypeCode.maxWireType := by decide +kernel
  obtain ⟨hfits, hlimit⟩ := largestReading.nested_types_exact
  obtain ⟨-, -, hkey⟩ := hfits s hs e he
  exact ⟨⟨s, hs, e, he, hnumber, (hkey hparent).1⟩, ((hlimit 0x01000000 5).2 (by decide)).1⟩

end RadiusDictionary
