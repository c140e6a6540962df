import Mathlib.Tactic.SplitIfs
import RadiusDictionary.OrderedMap

/-! # The entries of a map

What the operations of an `OrderedMap` do to the list of its entries.

* `exists_split`: a key with a value stands at one place among the entries; `modify` and `insert`
  replace the value there and leave what is before and behind it.
* `entries_insert_of_get?_eq_none`, `modify_of_get?_eq_none`: a key without a value goes to the end
  when it is inserted, and cannot be modified.
* `get?_of_mem_entries`: with different keys, `get?` finds every entry.
* `get?_erase`: an erased key has no value, and others keep theirs.
* `mem_entries_insert`, `mem_entries_modify`: every entry afterwards is an old one or the new one.
* `lookup_map`, `put_map`: the same for entries whose values are given by a function of the key. -/

namespace RadiusDictionary.OrderedMap

variable {κ : Type u} {α : Type v} [DecidableEq κ]

theorem lookup_split {key : κ} {value : α} : ∀ {entries : List (κ × α)},
    lookup key entries = some value → ∃ front back, entries = front ++ (key, value) :: back ∧
      (∀ f, change key f entries = front ++ (key, f value) :: back) ∧
      ∀ w, put key w entries = front ++ (key, w) :: back
  | [], h => by simp [lookup] at h
  | (k, v) :: rest, h => by
    rw [lookup] at h
    by_cases hk : k = key
    · subst hk
      rw [if_pos rfl] at h
      cases h
      exact ⟨[], rest, rfl, fun f => by simp [change], fun w => by simp [put]⟩
    · rw [if_neg hk] at h
      obtain ⟨front, back, rfl, hchange, hput⟩ := lookup_split h
      refine ⟨(k, v) :: front, back, rfl, fun f => ?_, fun w => ?_⟩
      · rw [change, if_neg hk, hchange]; rfl
      · rw [put, if_neg hk, hput]; rfl

theorem put_of_lookup_eq_none {key : κ} (w : α) : ∀ {entries : List (κ × α)},
    lookup key entries = none → put key w entries = entries ++ [(key, w)]
  | [], _ => rfl
  | (k, v) :: rest, h => by
    rw [lookup] at h
    by_cases hk : k = key
    · rw [if_pos hk] at h; cases h
    · rw [if_neg hk] at h
      rw [put, if_neg hk, put_of_lookup_eq_none w h]; rfl

theorem change_of_lookup_eq_none {key : κ} (f : α → α) : ∀ {entries : List (κ × α)},
    lookup key entries = none → change key f entries = entries
  | [], _ => rfl
  | (k, v) :: rest, h => by
    rw [lookup] at h
    by_cases hk : k = key
    · rw [if_pos hk] at h; cases h
    · rw [if_neg hk] at h
      rw [change, if_neg hk, change_of_lookup_eq_none f h]

variable {m : OrderedMap κ α} {key : κ} {value : α}

/-- **The place of a key.** -/
theorem exists_split (h : m.get? key = some value) : ∃ front back,
    m = ⟨front ++ (key, value) :: back⟩ ∧
      (∀ f, m.modify key f = ⟨front ++ (key, f value) :: back⟩) ∧
      ∀ w, m.insert key w = ⟨front ++ (key, w) :: back⟩ := by
  obtain ⟨front, back, hm, hchange, hput⟩ := lookup_split h
  refine ⟨front, back, ?_, fun f => ?_, fun w => ?_⟩
  · rw [← hm]
  · rw [modify, hchange]
  · rw [insert, hput]

theorem entries_insert_of_get?_eq_none (h : m.get? key = none) (w : α) :
    (m.insert key w).entries = m.entries ++ [(key, w)] :=
  put_of_lookup_eq_none w h

theorem insert_of_get?_eq_none (h : m.get? key = none) (w : α) :
    m.insert key w = ⟨m.entries ++ [(key, w)]⟩ := by
  rw [← entries_insert_of_get?_eq_none h]

theorem modify_of_get?_eq_none (h : m.get? key = none) (f : α → α) : m.modify key f = m := by
  rw [modify, change_of_lookup_eq_none f h]

theorem mem_of_get?_eq_some (h : m.get? key = some value) : (key, value) ∈ m.entries := by
  obtain ⟨front, back, hm, -⟩ := exists_split h
  rw [hm]; simp

theorem mem_values_of_get?_eq_some (h : m.get? key = some value) : value ∈ m.values :=
  List.mem_map.mpr ⟨_, mem_of_get?_eq_some h, rfl⟩

/-- With different keys every entry is found. -/
theorem get?_of_mem_entries (h : m.keys.Nodup) {e : κ × α} (he : e ∈ m.entries) :
    m.get? e.1 = some e.2 := by
  obtain ⟨entries⟩ := m
  induction entries with
  | nil => cases he
  | cons first rest ih =>
    obtain ⟨hnot, hnodup⟩ := List.nodup_cons.mp h
    rw [get?, lookup]
    rcases List.mem_cons.mp he with rfl | he
    · rw [if_pos rfl]
    · rw [if_neg]
      · exact ih hnodup he
      · intro heq
        exact hnot (List.mem_map.mpr ⟨e, he, heq.symm⟩)

theorem mem_entries_insert {w : α} {e : κ × α} (he : e ∈ (m.insert key w).entries) :
    e ∈ m.entries ∨ e = (key, w) := by
  cases h : m.get? key with
  | none =>
    rw [entries_insert_of_get?_eq_none h] at he
    simpa using he
  | some value =>
    obtain ⟨front, back, hm, -, hput⟩ := exists_split h
    rw [hput] at he
    rw [hm]
    simp only [List.mem_append, List.mem_cons] at he ⊢
    rcases he with he | he | he
    · exact Or.inl (Or.inl he)
    · exact Or.inr he
    · exact Or.inl (Or.inr (Or.inr he))

theorem mem_entries_modify {f : α → α} {e : κ × α} (he : e ∈ (m.modify key f).entries) :
    e ∈ m.entries ∨ ∃ value, m.get? key = some value ∧ e = (key, f value) := by
  cases h : m.get? key with
  | none =>
    rw [modify_of_get?_eq_none h] at he
    exact Or.inl he
  | some value =>
    obtain ⟨front, back, hm, hchange, -⟩ := exists_split h
    rw [hchange] at he
    rw [hm]
    simp only [List.mem_append, List.mem_cons] at he ⊢
    rcases he with he | he | he
    · exact Or.inl (Or.inl he)
    · exact Or.inr ⟨value, rfl, he⟩
    · exact Or.inl (Or.inr (Or.inr he))

theorem entries_insert_ne_nil (w : α) : (m.insert key w).entries ≠ [] := by
  cases h : m.get? key with
  | none => rw [entries_insert_of_get?_eq_none h]; simp
  | some value =>
    obtain ⟨front, back, -, -, hput⟩ := exists_split h
    rw [hput]; simp

theorem lookup_filter_ne (key k : κ) : ∀ entries : List (κ × α),
    lookup k (entries.filter (·.1 ≠ key)) = if key = k then none else lookup k entries
  | [] => by simp [lookup]
  | (k', v) :: rest => by
    have ih := lookup_filter_ne key k rest
    by_cases hkey : k' = key
    · subst hkey
      rw [List.filter_cons_of_neg (by simp), ih]
      split_ifs with hk
      · rfl
      · rw [lookup, if_neg hk]
    · rw [List.filter_cons_of_pos (by simpa using hkey), lookup, lookup, ih]
      split_ifs with hk' hk
      · exact absurd (hk'.trans hk.symm) hkey
      · rfl
      · rfl
      · rfl

theorem get?_erase (m : OrderedMap κ α) (key k : κ) :
    (m.erase key).get? k = if key = k then none else m.get? k :=
  lookup_filter_ne key k m.entries

theorem contains_eq_false_iff : m.contains key = false ↔ m.get? key = none := by
  unfold contains
  cases m.get? key <;> simp

/-! ### Values given by a function -/

theorem lookup_map (f : κ → α) (key : κ) : ∀ keys : List κ,
    lookup key (keys.map fun k => (k, f k)) = if key ∈ keys then some (f key) else none
  | [] => rfl
  | k :: rest => by
    rw [List.map_cons, lookup, lookup_map f key rest]
    by_cases hk : k = key
    · simp [hk]
    · simp [hk, Ne.symm hk]

theorem put_map {f : κ → α} {keys : List κ} (hkeys : keys.Nodup) (hkey : key ∈ keys) (value : α) :
    put key value (keys.map fun k => (k, f k)) =
      keys.map fun k => (k, if k = key then value else f k) := by
  induction keys with
  | nil => cases hkey
  | cons k rest ih =>
    obtain ⟨hnot, hrest⟩ := List.nodup_cons.mp hkeys
    rw [List.map_cons, List.map_cons, put]
    by_cases hk : k = key
    · subst hk
      rw [if_pos rfl, if_pos rfl]
      refine congrArg _ (List.map_congr_left fun k' hk' => ?_)
      rw [if_neg]
      rintro rfl
      exact hnot hk'
    · rw [if_neg hk, if_neg hk, ih hrest (List.mem_of_ne_of_mem (Ne.symm hk) hkey)]

end RadiusDictionary.OrderedMap
