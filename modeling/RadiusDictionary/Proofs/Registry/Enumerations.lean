import Mathlib.Data.List.Induction
import Mathlib.Data.List.Nodup
import RadiusDictionary.Attribute
import RadiusDictionary.Proofs.OrderedMap

/-! # Enumerations are groups of names

Values are added to an attribute one by one. `Enumeration.grouped` says at once what comes of a list
of them: the numbers in the order of their first occurrence, and with each number the names that
were given to it, later repetitions left out. A further value at the end of the list changes the
groups as it changes the attribute (`grouped_concat`), so this is what the attribute has
(`addValues_eq`). The name by which a number is known is the one whose first occurrence came last
(`getLast?_eraseDups_iff`). -/

namespace RadiusDictionary

/-- The attribute with named numbers added one after the other. -/
def Attribute.addValues (a : Attribute) (named : List (String × Int64)) : Attribute :=
  named.foldl (fun a entry => a.addValue entry.1 entry.2) a

/-- The names given to a number, in their order. -/
def namesOf (named : List (String × Int64)) (number : Int64) : List String :=
  (named.filter (·.2 = number)).map (·.1)

/-- Named numbers, grouped by number, without repetitions. -/
def Enumeration.grouped (named : List (String × Int64)) : Enumeration :=
  ⟨(named.map (·.2)).eraseDups.map fun number =>
    (number, ⟨number, (namesOf named number).eraseDups⟩)⟩

/-! ### Lists without repetitions -/

section EraseDups

variable {α : Type} [BEq α] [LawfulBEq α] {l : List α} {x y : α}

theorem eraseDups_concat_of_mem (h : x ∈ l) : (l ++ [x]).eraseDups = l.eraseDups := by
  have hgone : [x].removeAll l = [] := by simp [List.removeAll, h]
  rw [List.eraseDups_append, hgone, List.eraseDups_nil, List.append_nil]

theorem eraseDups_concat_of_not_mem (h : x ∉ l) : (l ++ [x]).eraseDups = l.eraseDups ++ [x] := by
  have hstays : [x].removeAll l = [x] := by simp [List.removeAll, h]
  rw [List.eraseDups_append, hstays]
  rfl

theorem nodup_eraseDups (l : List α) : l.eraseDups.Nodup := by
  induction l using List.reverseRecOn with
  | nil => exact List.nodup_nil
  | append_singleton l x ih =>
    by_cases hx : x ∈ l
    · rw [eraseDups_concat_of_mem hx]
      exact ih
    · rw [eraseDups_concat_of_not_mem hx]
      refine List.nodup_append.mpr ⟨ih, List.nodup_singleton x, fun y hy z hz heq => ?_⟩
      rw [heq, List.mem_singleton.mp hz] at hy
      exact hx (List.mem_eraseDups.mp hy)

/-- **What stands last without repetitions has its first occurrence last.** -/
theorem getLast?_eraseDups_iff (l : List α) :
    l.eraseDups.getLast? = some x ↔ x ∈ l ∧ ∀ y ∈ l, l.idxOf y ≤ l.idxOf x := by
  induction l using List.reverseRecOn with
  | nil => simp
  | append_singleton l z ih =>
    have hold : ∀ {y}, y ∈ l → (l ++ [z]).idxOf y = l.idxOf y := List.idxOf_append_of_mem
    by_cases hz : z ∈ l
    · rw [eraseDups_concat_of_mem hz, ih]
      -- the repetition at the end adds no element and no first occurrence
      have hmem : ∀ y, y ∈ l ++ [z] ↔ y ∈ l := by
        intro y
        simp only [List.mem_append, List.mem_singleton, or_iff_left_iff_imp]
        rintro rfl
        exact hz
      simp only [hmem]
      refine and_congr_right fun hx => forall₂_congr fun y hy => ?_
      rw [hold hy, hold hx]
    · have hlast : (l ++ [z]).idxOf z = l.length := by
        simp [List.idxOf_append_of_notMem hz]
      rw [eraseDups_concat_of_not_mem hz, List.getLast?_concat]
      constructor
      · rintro ⟨⟩
        refine ⟨List.mem_concat_self, fun y hy => ?_⟩
        rw [hlast]
        exact Nat.le_of_lt_succ (by simpa using List.idxOf_lt_length_of_mem hy)
      · rintro ⟨hx, hle⟩
        have hlen := hle z List.mem_concat_self
        rw [hlast] at hlen
        rcases List.mem_append.mp hx with hx | hx
        · rw [hold hx] at hlen
          exact absurd (List.idxOf_lt_length_of_mem hx) (Nat.not_lt.mpr hlen)
        · rw [List.mem_singleton.mp hx]

end EraseDups

/-! ### Groups -/

theorem namesOf_concat (named : List (String × Int64)) (name : String) (number n : Int64) :
    namesOf (named ++ [(name, number)]) n =
      if number = n then namesOf named n ++ [name] else namesOf named n := by
  unfold namesOf
  rw [List.filter_append, List.map_append]
  by_cases hn : number = n
  · simp [hn]
  · simp [hn]

theorem mem_namesOf_iff {named : List (String × Int64)} {name : String} {number : Int64} :
    name ∈ namesOf named number ↔ (name, number) ∈ named := by
  simp [namesOf]

theorem namesOf_eq_nil {named : List (String × Int64)} {number : Int64}
    (h : number ∉ named.map (·.2)) : namesOf named number = [] :=
  List.eq_nil_iff_forall_not_mem.mpr fun name hname =>
    h (List.mem_map.mpr ⟨(name, number), mem_namesOf_iff.mp hname, rfl⟩)

/-- One more name for names without repetitions. -/
theorem NamedValue.addName_eraseDups (number : Int64) (names : List String) (name : String) :
    (⟨number, names.eraseDups⟩ : NamedValue).addName name =
      ⟨number, (names ++ [name]).eraseDups⟩ := by
  unfold addName
  by_cases hname : name ∈ names
  · rw [eraseDups_concat_of_mem hname, if_pos]
    exact List.contains_iff_mem.mpr (List.mem_eraseDups.mpr hname)
  · rw [eraseDups_concat_of_not_mem hname, if_neg]
    exact fun h => hname (List.mem_eraseDups.mp (List.contains_iff_mem.mp h))

namespace Enumeration

theorem keys_grouped (named : List (String × Int64)) :
    (grouped named).keys = (named.map (·.2)).eraseDups := by
  rw [grouped, OrderedMap.keys, List.map_map]
  exact List.map_id' _

theorem values_grouped (named : List (String × Int64)) :
    (grouped named).values = (named.map (·.2)).eraseDups.map fun number =>
      ⟨number, (namesOf named number).eraseDups⟩ := by
  rw [grouped, OrderedMap.values, List.map_map]
  rfl

/-- The group of a number, which is empty if the number does not occur. -/
theorem getD_get?_grouped (named : List (String × Int64)) (number : Int64) :
    ((grouped named).get? number).getD ⟨number, []⟩ =
      ⟨number, (namesOf named number).eraseDups⟩ := by
  rw [grouped, OrderedMap.get?, OrderedMap.lookup_map]
  by_cases hnumber : number ∈ named.map (·.2)
  · rw [if_pos (List.mem_eraseDups.mpr hnumber)]
    rfl
  · rw [if_neg (mt List.mem_eraseDups.mp hnumber), namesOf_eq_nil hnumber]
    rfl

/-- **One more value goes to its group.** -/
theorem grouped_concat (named : List (String × Int64)) (name : String) (number : Int64) :
    grouped (named ++ [(name, number)]) = (grouped named).add name number := by
  rw [add, getD_get?_grouped, NamedValue.addName_eraseDups]
  have hnew : namesOf (named ++ [(name, number)]) number = namesOf named number ++ [name] := by
    rw [namesOf_concat, if_pos rfl]
  have hold : ∀ n, n ≠ number → namesOf (named ++ [(name, number)]) n = namesOf named n :=
    fun n hn => by rw [namesOf_concat, if_neg (Ne.symm hn)]
  rw [grouped, grouped, OrderedMap.insert, List.map_append, List.map_singleton]
  refine congrArg OrderedMap.mk ?_
  by_cases hnumber : number ∈ named.map (·.2)
  · rw [eraseDups_concat_of_mem hnumber,
      OrderedMap.put_map (nodup_eraseDups _) (List.mem_eraseDups.mpr hnumber)]
    refine List.map_congr_left fun n _ => ?_
    by_cases hn : n = number
    · rw [if_pos hn, hn, hnew]
    · rw [if_neg hn, hold n hn]
  · have hnone := OrderedMap.lookup_map
      (fun n => (⟨n, (namesOf named n).eraseDups⟩ : NamedValue)) number (named.map (·.2)).eraseDups
    rw [if_neg (mt List.mem_eraseDups.mp hnumber)] at hnone
    rw [eraseDups_concat_of_not_mem hnumber, OrderedMap.put_of_lookup_eq_none _ hnone,
      List.map_append, List.map_singleton, hnew]
    refine congrArg (· ++ _) (List.map_congr_left fun n hn => ?_)
    rw [hold n (by rintro rfl; exact hnumber (List.mem_eraseDups.mp hn))]

end Enumeration

namespace Attribute

theorem addValues_concat (a : Attribute) (named : List (String × Int64)) (name : String)
    (number : Int64) :
    a.addValues (named ++ [(name, number)]) = (a.addValues named).addValue name number := by
  rw [addValues, List.foldl_append]
  rfl

/-- **The values of an attribute to which values were added.** -/
theorem addValues_eq (d : Declaration) (named : List (String × Int64)) :
    d.toAttribute.addValues named =
      ⟨d, if named = [] then none else some (Enumeration.grouped named), none⟩ := by
  induction named using List.reverseRecOn with
  | nil => rfl
  | append_singleton named entry ih =>
    have hvalues : (if named = [] then none else some (Enumeration.grouped named)).getD ∅ =
        Enumeration.grouped named := by
      by_cases hnamed : named = []
      · rw [if_pos hnamed, hnamed]
        rfl
      · rw [if_neg hnamed]
        rfl
    rw [addValues_concat, ih, addValue, hvalues, ← Enumeration.grouped_concat,
      if_neg (List.concat_ne_nil _ _)]

end Attribute

end RadiusDictionary
