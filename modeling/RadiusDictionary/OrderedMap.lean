/-! # Maps in the order of first arrival

An `OrderedMap` is a list of entries with one entry a key. A new key goes to the end; a key that is
there keeps its place, whatever happens to its value. A map is seen through `get?` and `keys`:
`get?_insert` and `get?_modify` say what happens to the values, `keys_insert` and `keys_modify` what
happens to the keys. -/

namespace RadiusDictionary

/-- A map whose entries stand in the order in which their keys arrived. -/
structure OrderedMap (κ : Type u) (α : Type v) where
  entries : List (κ × α)
deriving DecidableEq, Repr

namespace OrderedMap

variable {κ : Type u} {α : Type v}

/-- The map without entries. -/
def empty : OrderedMap κ α := ⟨[]⟩

instance : EmptyCollection (OrderedMap κ α) := ⟨empty⟩

instance : Inhabited (OrderedMap κ α) := ⟨empty⟩

/-- The keys in their order. -/
def keys (m : OrderedMap κ α) : List κ := m.entries.map (·.1)

/-- The values in the order of their keys. -/
def values (m : OrderedMap κ α) : List α := m.entries.map (·.2)

/-- The number of entries. -/
def size (m : OrderedMap κ α) : Nat := m.entries.length

/-- Whether there are no entries. -/
def isEmpty (m : OrderedMap κ α) : Bool := m.entries.isEmpty

@[simp] theorem keys_empty : (∅ : OrderedMap κ α).keys = [] := rfl

variable [DecidableEq κ]

/-- The value of the first entry with a key. -/
def lookup (key : κ) : List (κ × α) → Option α
  | [] => none
  | (k, v) :: rest => if k = key then some v else lookup key rest

/-- The entries after the value of a key is replaced, or after a new key is added at the end. -/
def put (key : κ) (value : α) : List (κ × α) → List (κ × α)
  | [] => [(key, value)]
  | (k, v) :: rest => if k = key then (k, value) :: rest else (k, v) :: put key value rest

/-- The entries after the value of a key is changed. -/
def change (key : κ) (f : α → α) : List (κ × α) → List (κ × α)
  | [] => []
  | (k, v) :: rest => if k = key then (k, f v) :: rest else (k, v) :: change key f rest

/-- The value of a key. -/
def get? (m : OrderedMap κ α) (key : κ) : Option α := lookup key m.entries

/-- Whether a key has a value. -/
def contains (m : OrderedMap κ α) (key : κ) : Bool := (m.get? key).isSome

/-- The map with a value for a key: in the old one's place, or at the end. -/
def insert (m : OrderedMap κ α) (key : κ) (value : α) : OrderedMap κ α := ⟨put key value m.entries⟩

/-- The map with the value of a key changed by `f`; the same map if the key has none. -/
def modify (m : OrderedMap κ α) (key : κ) (f : α → α) : OrderedMap κ α := ⟨change key f m.entries⟩

/-- The map without a key. -/
def erase (m : OrderedMap κ α) (key : κ) : OrderedMap κ α :=
  ⟨m.entries.filter (·.1 ≠ key)⟩

/-- The map of the entries, inserted one after the other. -/
def ofList (entries : List (κ × α)) : OrderedMap κ α :=
  entries.foldl (fun m entry => m.insert entry.1 entry.2) ∅

/-! ### What the operations do to the values -/

theorem lookup_put (key k : κ) (value : α) (entries : List (κ × α)) :
    lookup k (put key value entries) = if key = k then some value else lookup k entries := by
  induction entries with
  | nil => rfl
  | cons entry rest ih => grind [lookup, put]

theorem lookup_change (key k : κ) (f : α → α) (entries : List (κ × α)) :
    lookup k (change key f entries) =
      if key = k then (lookup k entries).map f else lookup k entries := by
  induction entries with
  | nil => simp [lookup, change]
  | cons entry rest ih => grind [lookup, change]

@[simp] theorem get?_empty (k : κ) : (∅ : OrderedMap κ α).get? k = none := rfl

theorem get?_insert (m : OrderedMap κ α) (key k : κ) (value : α) :
    (m.insert key value).get? k = if key = k then some value else m.get? k :=
  lookup_put key k value m.entries

theorem get?_modify (m : OrderedMap κ α) (key k : κ) (f : α → α) :
    (m.modify key f).get? k = if key = k then (m.get? k).map f else m.get? k :=
  lookup_change key k f m.entries

/-! ### What the operations do to the keys -/

/-- A key that is there keeps its place, and a new one goes to the end. -/
theorem keys_insert (m : OrderedMap κ α) (key : κ) (value : α) :
    (m.insert key value).keys = if key ∈ m.keys then m.keys else m.keys ++ [key] := by
  obtain ⟨entries⟩ := m
  induction entries with
  | nil => simp [insert, put, keys]
  | cons entry rest ih => grind [insert, put, keys]

@[simp] theorem keys_modify (m : OrderedMap κ α) (key : κ) (f : α → α) :
    (m.modify key f).keys = m.keys := by
  obtain ⟨entries⟩ := m
  induction entries with
  | nil => rfl
  | cons entry rest ih => grind [modify, change, keys]

/-- No key is there twice, however often it is inserted. -/
theorem nodup_keys_insert {m : OrderedMap κ α} (h : m.keys.Nodup) (key : κ) (value : α) :
    (m.insert key value).keys.Nodup := by
  rw [keys_insert]
  split
  · exact h
  · next hk => exact List.nodup_append.2 ⟨h, by simp, by grind⟩

theorem contains_iff_mem_keys {m : OrderedMap κ α} {key : κ} :
    m.contains key = true ↔ key ∈ m.keys := by
  obtain ⟨entries⟩ := m
  induction entries with
  | nil => simp [contains, get?, lookup, keys]
  | cons entry rest ih => grind [contains, get?, lookup, keys]

end OrderedMap

end RadiusDictionary
