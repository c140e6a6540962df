import RadiusDictionary.Proofs.Reading.Moves
import RadiusDictionary.Proofs.Registry.Declared

/-! # The shape of what is read

Maps can be nested to any depth and hold anything; what a reading builds is more regular.
`Registry.WellFormed` says how: attributes are filed under their own vendor, vendors under their own
name, numbers under themselves; nested attributes have no values and nothing nested in them; and
what is absent until its first entry arrives is never there without an entry. That nested attributes
stay bare holds because values and parents are sought in the outermost maps only
(`wellFormed_modify`). Every effect keeps the shape (`wellFormed_effect`), so every reading has it
(`wellFormed_of_read`). -/

namespace RadiusDictionary

/-- An enumeration has values, each filed under its number with names that differ. -/
structure Enumeration.WellFormed (values : Enumeration) : Prop where
  entries_ne : values.entries ≠ []
  number_eq : ∀ e ∈ values.entries, e.1 = e.2.number
  names_ne : ∀ e ∈ values.entries, e.2.names ≠ []
  names_nodup : ∀ e ∈ values.entries, e.2.names.Nodup

/-- A nested attribute: of the vendor of its parent, with a number that can be shifted, and bare. -/
structure Attribute.IsChild (vendor : Option String) (a : Attribute) : Prop where
  vendor_eq : a.vendor = vendor
  number_le : a.number ≤ TypeCode.maxChildNumber
  values_eq : a.values = none
  children_eq : a.children = none

/-- An attribute that is not nested. -/
structure Attribute.WellFormed (vendor : Option String) (a : Attribute) : Prop where
  vendor_eq : a.vendor = vendor
  values : ∀ values, a.values = some values → Enumeration.WellFormed values
  children_ne : ∀ children, a.children = some children → children.entries ≠ []
  children : ∀ children, a.children = some children → ∀ e ∈ children.entries, e.2.IsChild vendor

/-- A vendor filed under `key`. -/
structure Vendor.WellFormed (key : String) (v : Vendor) : Prop where
  name_eq : v.name = key
  home_eq : v.home = Namespace.ofVendor v.name
  attributes : ∀ e ∈ v.attributes.entries, e.2.WellFormed (some key)

/-- The shape of a registry. -/
structure Registry.WellFormed (r : Registry) : Prop where
  attributes : ∀ e ∈ r.attributes.entries, e.2.WellFormed none
  vendors : ∀ e ∈ r.vendors.entries, e.2.WellFormed e.1

/-! ### Values -/

namespace NamedValue

theorem number_addName (value : NamedValue) (name : String) :
    (value.addName name).number = value.number := by
  unfold addName
  split <;> rfl

theorem names_addName_ne_nil (value : NamedValue) (name : String) :
    (value.addName name).names ≠ [] := by
  unfold addName
  by_cases h : value.names.contains name = true
  · rw [if_pos h]
    rintro hnil
    rw [hnil] at h; cases h
  · rw [if_neg h]
    simp

theorem nodup_names_addName {value : NamedValue} (h : value.names.Nodup) (name : String) :
    (value.addName name).names.Nodup := by
  unfold addName
  by_cases hname : value.names.contains name = true
  · rw [if_pos hname]; exact h
  · rw [if_neg hname]
    have hnew : name ∉ value.names := fun hmem => hname (List.contains_iff_mem.mpr hmem)
    exact List.nodup_append.mpr ⟨h, by simp, fun a ha b hb => by
      rw [List.mem_singleton.mp hb]
      rintro rfl
      exact hnew ha⟩

end NamedValue

/-- One more name makes an enumeration of what may have been empty. -/
theorem Enumeration.wellFormed_add {values : Enumeration}
    (h : values.entries = [] ∨ values.WellFormed) (name : String) (number : Int64) :
    (values.add name number).WellFormed := by
  have hold : ∀ e ∈ values.entries, e.1 = e.2.number ∧ e.2.names ≠ [] ∧ e.2.names.Nodup := by
    intro e he
    rcases h with h | h
    · rw [h] at he; cases he
    · exact ⟨h.number_eq e he, h.names_ne e he, h.names_nodup e he⟩
  have hnew : ((values.get? number).getD ⟨number, []⟩).number = number ∧
      ((values.get? number).getD ⟨number, []⟩).names.Nodup := by
    cases hget : values.get? number with
    | none => exact ⟨rfl, List.nodup_nil⟩
    | some value =>
      have hmem := hold _ (OrderedMap.mem_of_get?_eq_some hget)
      exact ⟨hmem.1.symm, hmem.2.2⟩
  have hall : ∀ e ∈ (values.add name number).entries,
      e.1 = e.2.number ∧ e.2.names ≠ [] ∧ e.2.names.Nodup := by
    intro e he
    rcases OrderedMap.mem_entries_insert he with he | rfl
    · exact hold e he
    · refine ⟨?_, NamedValue.names_addName_ne_nil _ _, NamedValue.nodup_names_addName hnew.2 _⟩
      rw [NamedValue.number_addName]
      exact hnew.1.symm
  exact ⟨OrderedMap.entries_insert_ne_nil _, fun e he => (hall e he).1, fun e he => (hall e he).2.1,
    fun e he => (hall e he).2.2⟩

/-! ### Attributes -/

namespace Attribute

variable {vendor : Option String} {a : Attribute}

theorem wellFormed_toAttribute (d : Declaration) : d.toAttribute.WellFormed d.vendor :=
  ⟨rfl, nofun, nofun, nofun⟩

theorem WellFormed.addValue (h : a.WellFormed vendor) (name : String) (number : Int64) :
    (a.addValue name number).WellFormed vendor := by
  refine ⟨h.vendor_eq, ?_, h.children_ne, h.children⟩
  rintro _ ⟨⟩
  refine Enumeration.wellFormed_add ?_ name number
  cases hvalues : a.values with
  | none => exact Or.inl rfl
  | some values => exact Or.inr (h.values values hvalues)

theorem WellFormed.addChild (h : a.WellFormed vendor) {d : Declaration} (hvendor : d.vendor = vendor)
    (hnumber : d.number ≤ TypeCode.maxChildNumber) :
    (a.addChild d.name d.toAttribute).WellFormed vendor := by
  refine ⟨h.vendor_eq, h.values, ?_, ?_⟩
  · rintro _ ⟨⟩
    exact OrderedMap.entries_insert_ne_nil _
  · rintro _ ⟨⟩ e he
    rcases OrderedMap.mem_entries_insert he with he | rfl
    · cases hchildren : a.children with
      | none => rw [hchildren] at he; cases he
      | some children =>
        rw [hchildren] at he
        exact h.children children hchildren e he
    · exact ⟨hvendor, hnumber, rfl, rfl⟩

end Attribute

/-! ### Registries -/

theorem Vendor.wellFormed_mk {name : String} {home : Namespace} {attributes : AttributeMap}
    (number : UInt32) (extra : Option String) (hhome : home = Namespace.ofVendor name)
    (h : ∀ e ∈ attributes.entries, e.2.WellFormed (some name)) :
    Vendor.WellFormed name ⟨name, number, home, extra, attributes⟩ :=
  ⟨rfl, hhome, h⟩

namespace Registry

variable {r : Registry} {vendor : Option String}

theorem wellFormed_empty : (∅ : Registry).WellFormed :=
  ⟨nofun, nofun⟩

theorem WellFormed.attributesOf (h : r.WellFormed) (vendor : Option String) :
    ∀ e ∈ (r.attributesOf vendor).entries, e.2.WellFormed vendor := by
  cases vendor with
  | none => exact h.attributes
  | some name =>
    cases hv : r.vendors.get? name with
    | none => rw [attributesOf_of_get?_eq_none hv]; exact fun _ he => nomatch he
    | some v =>
      rw [attributesOf_of_get?_eq_some hv]
      exact (h.vendors _ (OrderedMap.mem_of_get?_eq_some hv)).attributes

theorem WellFormed.modifyAttributes (h : r.WellFormed) {f : AttributeMap → AttributeMap}
    (hf : ∀ e ∈ (f (r.attributesOf vendor)).entries, e.2.WellFormed vendor) :
    (r.modifyAttributes vendor f).WellFormed := by
  cases vendor with
  | none => exact ⟨hf, h.vendors⟩
  | some name =>
    refine ⟨h.attributes, fun e he => ?_⟩
    rcases OrderedMap.mem_entries_modify he with he | ⟨v, hv, rfl⟩
    · exact h.vendors e he
    · rw [attributesOf_of_get?_eq_some hv] at hf
      have hold := h.vendors _ (OrderedMap.mem_of_get?_eq_some hv)
      exact ⟨hold.name_eq, hold.home_eq, hf⟩

/-- A change to one attribute of an outermost map. -/
theorem wellFormed_modify (h : r.WellFormed) {key : String} {f : Attribute → Attribute}
    (hf : ∀ a : Attribute, a.WellFormed vendor → (f a).WellFormed vendor) :
    ∀ e ∈ ((r.attributesOf vendor).modify key f).entries, e.2.WellFormed vendor := by
  intro e he
  rcases OrderedMap.mem_entries_modify he with he | ⟨a, ha, rfl⟩
  · exact h.attributesOf vendor e he
  · exact hf a (h.attributesOf vendor _ (OrderedMap.mem_of_get?_eq_some ha))

theorem WellFormed.declareVendor (h : r.WellFormed) (name : String) (number : UInt32)
    (extra : Option String) : (r.declareVendor name number extra).WellFormed := by
  refine ⟨h.attributes, fun e he => ?_⟩
  rcases OrderedMap.mem_entries_insert he with he | rfl
  · exact h.vendors e he
  · exact Vendor.wellFormed_mk number extra rfl (h.attributesOf (some name))

theorem WellFormed.declare (h : r.WellFormed) {parent : Option String} {d : Declaration}
    (hnumber : ∀ name, parent = some name → d.number ≤ TypeCode.maxChildNumber) :
    (r.declare parent d).WellFormed := by
  refine h.modifyAttributes ?_
  cases parent with
  | none =>
    intro e he
    rcases OrderedMap.mem_entries_insert he with he | rfl
    · exact h.attributesOf d.vendor e he
    · exact Attribute.wellFormed_toAttribute d
  | some name =>
    exact wellFormed_modify h fun a ha => ha.addChild rfl (hnumber name rfl)

end Registry

/-! ### Readings -/

namespace Session

/-- **Every effect keeps the shape.** -/
theorem wellFormed_effect {s s' : Session} (h : Effect s s') (hs : s.registry.WellFormed) :
    s'.registry.WellFormed := by
  cases h with
  | nothing => exact hs
  | scope kind name => cases kind <;> exact hs
  | vendor name number extra => exact hs.declareVendor name number extra
  | declaration h =>
    obtain ⟨number, -, rfl, -, hparent⟩ := check_eq_ok_iff.mp h
    exact hs.declare fun parent htlv => (hparent parent htlv).1
  | @value attributeName vendor name number h =>
    show (s.registry.modifyAttributes vendor fun attributes =>
      attributes.modify attributeName fun a => a.addValue name number).WellFormed
    refine hs.modifyAttributes ?_
    exact Registry.wellFormed_modify hs fun a ha => ha.addValue name number

theorem wellFormed_run (moves : List Move) {s : Session} (hs : s.registry.WellFormed) :
    (s.run moves).registry.WellFormed :=
  run_induction (P := fun s => s.registry.WellFormed) wellFormed_effect (fun _ hs => hs)
    (fun hs => hs) moves hs

end Session

theorem Reading.wellFormed (r : Reading) : r.registry.WellFormed := by
  unfold registry
  rw [r.session_eq_run]
  exact Session.wellFormed_run _ Registry.wellFormed_empty

/-! ### Vendors by name -/

namespace Session

theorem nodup_vendors_effect {s s' : Session} (h : Effect s s')
    (hs : s.registry.vendors.keys.Nodup) : s'.registry.vendors.keys.Nodup := by
  have hmodify : ∀ vendor f, (s.registry.modifyAttributes vendor f).vendors.keys.Nodup := by
    intro vendor f
    cases vendor with
    | none => exact hs
    | some name =>
      unfold Registry.modifyAttributes
      rw [OrderedMap.keys_modify]
      exact hs
  cases h with
  | nothing => exact hs
  | scope kind name => cases kind <;> exact hs
  | vendor name number extra => exact OrderedMap.nodup_keys_insert hs _ _
  | declaration h => exact hmodify _ _
  | value name number h => exact hmodify _ _

theorem nodup_vendors_run (moves : List Move) {s : Session} (hs : s.registry.vendors.keys.Nodup) :
    (s.run moves).registry.vendors.keys.Nodup :=
  run_induction (P := fun s => s.registry.vendors.keys.Nodup) nodup_vendors_effect
    (fun _ hs => hs) (fun hs => hs) moves hs

end Session

theorem Reading.nodup_vendorKeys (r : Reading) : r.registry.vendors.keys.Nodup := by
  unfold registry
  rw [r.session_eq_run]
  exact Session.nodup_vendors_run _ List.nodup_nil

/-- No two vendors have one name. -/
theorem Reading.nodup_vendorNames (r : Reading) :
    (r.registry.vendors.values.map (·.name)).Nodup := by
  have hnames : r.registry.vendors.values.map (·.name) = r.registry.vendors.keys := by
    unfold OrderedMap.values OrderedMap.keys
    rw [List.map_map]
    exact List.map_congr_left fun e he => (r.wellFormed.vendors e he).name_eq
  rw [hnames]
  exact r.nodup_vendorKeys

/-- **The shape of what is read.** Whatever is read, and however the reading ends, the registry has
the shape; so has one that is loaded. -/
theorem Registry.wellFormed_of_read : (∀ r : Reading, r.registry.WellFormed) ∧
    ∀ (dict : Dictionary) (registry : Registry), dict.load.1 = .ok registry →
      registry.WellFormed := by
  refine ⟨Reading.wellFormed, fun dict registry h => ?_⟩
  rw [Dictionary.load_eq] at h
  cases hfailure : (dict.interpretFile rootFile .start).failure with
  | some e => rw [hfailure] at h; cases h
  | none =>
    rw [hfailure] at h
    cases h
    exact Reading.wellFormed _

end RadiusDictionary
