import RadiusDictionary.Proofs.Reading.Names

/-! # Registries only grow

What is declared stays where it is. `OrderedMap.ExtendsBy` says of two maps that every entry of the
first has its place and its key in the second, with a value that is related to its own. Built on it,
`Attribute.Extends` allows an attribute further values, further names for a value, and further
nested attributes, and `Registry.Extends` allows a registry further vendors and attributes, and a
vendor everything but the loss of an attribute.

Every effect of a statement extends the registry (`extends_effect`): a declaration has a new name,
so it goes to the end of its map. Hence every sequence of moves does (`extends_run`). -/

namespace RadiusDictionary

/-! ### Maps -/

namespace OrderedMap

variable {κ : Type u} {α : Type v}

/-- Every entry of `m` is in `m'` at the same place with the same key, and `R` holds of the two
values. -/
def ExtendsBy (R : α → α → Prop) (m m' : OrderedMap κ α) : Prop :=
  ∀ (place : Nat) (key : κ) (value : α), m.entries[place]? = some (key, value) →
    ∃ value', m'.entries[place]? = some (key, value') ∧ R value value'

variable {R : α → α → Prop} {m m' m'' : OrderedMap κ α}

theorem ExtendsBy.refl (hR : ∀ value, R value value) (m : OrderedMap κ α) : m.ExtendsBy R m :=
  fun _ _ value h => ⟨value, h, hR value⟩

theorem ExtendsBy.trans (hR : ∀ {a b c}, R a b → R b c → R a c) (h : m.ExtendsBy R m')
    (h' : m'.ExtendsBy R m'') : m.ExtendsBy R m'' := by
  intro place key value hvalue
  obtain ⟨value', hvalue', hR'⟩ := h place key value hvalue
  obtain ⟨value'', hvalue'', hR''⟩ := h' place key value' hvalue'
  exact ⟨value'', hvalue'', hR hR' hR''⟩

/-- The value of one key is replaced by one that extends it. -/
theorem extendsBy_replace (hR : ∀ value, R value value) {key : κ} {front back : List (κ × α)}
    {value value' : α} (h : R value value') :
    ExtendsBy R ⟨front ++ (key, value) :: back⟩ ⟨front ++ (key, value') :: back⟩ := by
  intro place k v hv
  rcases Nat.lt_trichotomy place front.length with hlt | rfl | hlt
  · refine ⟨v, ?_, hR v⟩
    rw [List.getElem?_append_left hlt] at hv ⊢
    exact hv
  · rw [List.getElem?_append_right (Nat.le_refl _), Nat.sub_self] at hv
    obtain ⟨rfl, rfl⟩ := Prod.mk.inj (Option.some.inj hv)
    refine ⟨value', ?_, h⟩
    rw [List.getElem?_append_right (Nat.le_refl _), Nat.sub_self]
    rfl
  · refine ⟨v, ?_, hR v⟩
    obtain ⟨n, hplace⟩ : ∃ n, place - front.length = n + 1 :=
      ⟨place - front.length - 1, by omega⟩
    rw [List.getElem?_append_right (Nat.le_of_lt hlt), hplace, List.getElem?_cons_succ] at hv ⊢
    exact hv

theorem extendsBy_append (hR : ∀ value, R value value) (m : OrderedMap κ α)
    (more : List (κ × α)) : m.ExtendsBy R ⟨m.entries ++ more⟩ := by
  intro place k v hv
  refine ⟨v, ?_, hR v⟩
  obtain ⟨hlt, -⟩ := List.getElem?_eq_some_iff.mp hv
  rw [List.getElem?_append_left hlt]
  exact hv

variable [DecidableEq κ] {key : κ}

theorem extendsBy_modify (hR : ∀ value, R value value) {f : α → α}
    (h : ∀ value, m.get? key = some value → R value (f value)) :
    m.ExtendsBy R (m.modify key f) := by
  cases hvalue : m.get? key with
  | none =>
    rw [modify_of_get?_eq_none hvalue]
    exact .refl hR m
  | some value =>
    obtain ⟨front, back, hm, hchange, -⟩ := exists_split hvalue
    rw [hchange, hm]
    exact extendsBy_replace hR (h value hvalue)

theorem extendsBy_insert (hR : ∀ value, R value value) {new : α}
    (h : ∀ value, m.get? key = some value → R value new) : m.ExtendsBy R (m.insert key new) := by
  cases hvalue : m.get? key with
  | none =>
    rw [insert_of_get?_eq_none hvalue]
    exact extendsBy_append hR m _
  | some value =>
    obtain ⟨front, back, hm, -, hput⟩ := exists_split hvalue
    rw [hput, hm]
    exact extendsBy_replace hR (h value hvalue)

theorem lookup_of_extends : ∀ {entries entries' : List (κ × α)} {value : α},
    ExtendsBy R ⟨entries⟩ ⟨entries'⟩ → lookup key entries = some value →
      ∃ value', lookup key entries' = some value' ∧ R value value'
  | [], _, _, _, hvalue => by cases hvalue
  | (k, v) :: rest, entries', value, h, hvalue => by
    obtain ⟨v', hv', hR⟩ := h 0 k v rfl
    cases entries' with
    | nil => cases hv'
    | cons e' rest' =>
      obtain rfl : e' = (k, v') := Option.some.inj hv'
      have hrest : ExtendsBy R ⟨rest⟩ ⟨rest'⟩ := fun place => h (place + 1)
      rw [lookup] at hvalue ⊢
      by_cases hk : k = key
      · rw [if_pos hk] at hvalue ⊢
        cases hvalue
        exact ⟨v', rfl, hR⟩
      · rw [if_neg hk] at hvalue ⊢
        exact lookup_of_extends hrest hvalue

/-- A key that has a value keeps it, up to what is allowed. -/
theorem ExtendsBy.get? (h : m.ExtendsBy R m') {value : α} (hvalue : m.get? key = some value) :
    ∃ value', m'.get? key = some value' ∧ R value value' :=
  lookup_of_extends h hvalue

end OrderedMap

/-! ### Attributes -/

/-- The value may have further names, after those that it has. -/
structure NamedValue.Extends (value value' : NamedValue) : Prop where
  number_eq : value'.number = value.number
  names : value.names <+: value'.names

namespace NamedValue

theorem Extends.refl (value : NamedValue) : value.Extends value :=
  ⟨rfl, List.prefix_refl value.names⟩

theorem Extends.trans {a b c : NamedValue} (h : a.Extends b) (h' : b.Extends c) : a.Extends c :=
  ⟨h'.number_eq.trans h.number_eq, h.names.trans h'.names⟩

theorem extends_addName (value : NamedValue) (name : String) :
    value.Extends (value.addName name) := by
  unfold addName
  split
  · exact .refl value
  · exact ⟨rfl, List.prefix_append value.names [name]⟩

end NamedValue

/-- The attribute is declared as it was. It may have further values, and further attributes nested
in it. -/
structure Attribute.Extends (a a' : Attribute) : Prop where
  declaration_eq : a'.toDeclaration = a.toDeclaration
  values : (a.values.getD ∅).ExtendsBy NamedValue.Extends (a'.values.getD ∅)
  children : (a.children.getD ∅).ExtendsBy Eq (a'.children.getD ∅)

namespace Attribute

theorem Extends.refl (a : Attribute) : a.Extends a :=
  ⟨rfl, .refl NamedValue.Extends.refl _, .refl (fun _ => rfl) _⟩

theorem Extends.trans {a b c : Attribute} (h : a.Extends b) (h' : b.Extends c) : a.Extends c :=
  ⟨h'.declaration_eq.trans h.declaration_eq, h.values.trans NamedValue.Extends.trans h'.values,
    h.children.trans Eq.trans h'.children⟩

theorem extends_addValue (a : Attribute) (name : String) (number : Int64) :
    a.Extends (a.addValue name number) := by
  refine ⟨rfl, OrderedMap.extendsBy_insert NamedValue.Extends.refl fun value hvalue => ?_,
    .refl (fun _ => rfl) _⟩
  rw [hvalue]
  exact NamedValue.extends_addName value name

/-- A nested attribute with a new name comes last. -/
theorem extends_addChild {a : Attribute} {key : String} (child : Attribute)
    (hnew : (a.children.getD ∅).get? key = none) : a.Extends (a.addChild key child) := by
  refine ⟨rfl, .refl NamedValue.Extends.refl _, ?_⟩
  refine OrderedMap.extendsBy_insert (fun _ => rfl) fun value hvalue => ?_
  rw [hnew] at hvalue
  cases hvalue

end Attribute

/-! ### Registries -/

/-- The vendor may be declared anew, but it keeps its attributes. -/
def Vendor.Extends (v v' : Vendor) : Prop := v.attributes.ExtendsBy Attribute.Extends v'.attributes

theorem Vendor.Extends.refl (v : Vendor) : v.Extends v :=
  OrderedMap.ExtendsBy.refl Attribute.Extends.refl v.attributes

theorem Vendor.Extends.trans {v v' v'' : Vendor} (h : v.Extends v') (h' : v'.Extends v'') :
    v.Extends v'' :=
  OrderedMap.ExtendsBy.trans Attribute.Extends.trans h h'

/-- All vendors and attributes are where they were, attributes with the same declarations. -/
structure Registry.Extends (r r' : Registry) : Prop where
  attributes : r.attributes.ExtendsBy Attribute.Extends r'.attributes
  vendors : r.vendors.ExtendsBy Vendor.Extends r'.vendors

namespace Registry

variable {r r' : Registry} {vendor : Option String}

theorem Extends.refl (r : Registry) : r.Extends r :=
  ⟨.refl Attribute.Extends.refl _, .refl Vendor.Extends.refl _⟩

theorem Extends.trans {a b c : Registry} (h : a.Extends b) (h' : b.Extends c) : a.Extends c :=
  ⟨h.attributes.trans Attribute.Extends.trans h'.attributes,
    h.vendors.trans Vendor.Extends.trans h'.vendors⟩

theorem Extends.attributesOf (h : r.Extends r') (vendor : Option String) :
    (r.attributesOf vendor).ExtendsBy Attribute.Extends (r'.attributesOf vendor) := by
  cases vendor with
  | none => exact h.attributes
  | some name =>
    cases hv : r.vendors.get? name with
    | none =>
      rw [attributesOf_of_get?_eq_none hv]
      intro _ _ _ hvalue
      cases hvalue
    | some v =>
      obtain ⟨v', hv', hextends⟩ := h.vendors.get? hv
      rw [attributesOf_of_get?_eq_some hv, attributesOf_of_get?_eq_some hv']
      exact hextends

/-- What the target of a declaration has, it has with the same declaration afterwards. -/
theorem Extends.target? (h : r.Extends r') {parent : Option String} {target : AttributeMap}
    {key : String} {a : Attribute} (htarget : r.target? parent vendor = some target)
    (ha : target.get? key = some a) : ∃ target' a', r'.target? parent vendor = some target' ∧
      target'.get? key = some a' ∧ a'.toDeclaration = a.toDeclaration := by
  cases parent with
  | none =>
    cases htarget
    obtain ⟨a', ha', hextends⟩ := (h.attributesOf vendor).get? ha
    exact ⟨_, a', rfl, ha', hextends.declaration_eq⟩
  | some name =>
    obtain ⟨p, hp, rfl⟩ := Option.map_eq_some_iff.mp htarget
    obtain ⟨p', hp', hextends⟩ := (h.attributesOf vendor).get? hp
    obtain ⟨a', ha', rfl⟩ := hextends.children.get? ha
    refine ⟨p'.children.getD ∅, a, ?_, ha', rfl⟩
    rw [Registry.target?, hp']
    rfl

theorem extends_modifyAttributes {f : AttributeMap → AttributeMap}
    (hf : (r.attributesOf vendor).ExtendsBy Attribute.Extends (f (r.attributesOf vendor))) :
    r.Extends (r.modifyAttributes vendor f) := by
  cases vendor with
  | none => exact ⟨hf, .refl Vendor.Extends.refl _⟩
  | some name =>
    refine ⟨.refl Attribute.Extends.refl _, ?_⟩
    refine OrderedMap.extendsBy_modify Vendor.Extends.refl fun v hv => ?_
    rw [attributesOf_of_get?_eq_some hv] at hf
    exact hf

theorem extends_declareVendor (r : Registry) (name : String) (number : UInt32)
    (extra : Option String) : r.Extends (r.declareVendor name number extra) := by
  refine ⟨.refl Attribute.Extends.refl _, ?_⟩
  refine OrderedMap.extendsBy_insert Vendor.Extends.refl fun v hv => ?_
  show v.attributes.ExtendsBy Attribute.Extends (r.attributesOf (some name))
  rw [attributesOf_of_get?_eq_some hv]
  exact .refl Attribute.Extends.refl _

/-- A declaration with a new name comes last in its target. -/
theorem extends_declare {parent : Option String} {d : Declaration} {target : AttributeMap}
    (htarget : r.target? parent d.vendor = some target) (hnew : target.contains d.name = false) :
    r.Extends (r.declare parent d) := by
  have hnone := OrderedMap.contains_eq_false_iff.mp hnew
  refine extends_modifyAttributes ?_
  cases parent with
  | none =>
    cases htarget
    refine OrderedMap.extendsBy_insert Attribute.Extends.refl fun value hvalue => ?_
    rw [hnone] at hvalue
    cases hvalue
  | some name =>
    obtain ⟨p, hp, rfl⟩ := Option.map_eq_some_iff.mp htarget
    refine OrderedMap.extendsBy_modify Attribute.Extends.refl fun p' hp' => ?_
    obtain rfl : p = p' := Option.some.inj (hp.symm.trans hp')
    exact Attribute.extends_addChild d.toAttribute hnone

end Registry

/-! ### Readings -/

namespace Session

/-- **Every effect extends the registry.** -/
theorem extends_effect {s s' : Session} (h : Effect s s') (hs : s.NamesAgree) :
    s.registry.Extends s'.registry := by
  cases h with
  | nothing => exact .refl _
  | scope kind name => cases kind <;> exact .refl _
  | vendor name number extra => exact s.registry.extends_declareVendor name number extra
  | declaration h =>
    obtain ⟨target, htarget, hnew⟩ := exists_target hs h
    exact Registry.extends_declare htarget hnew
  | @value attributeName vendor name number h =>
    show s.registry.Extends (s.registry.modifyAttributes vendor fun attributes =>
      attributes.modify attributeName fun a => a.addValue name number)
    refine Registry.extends_modifyAttributes ?_
    exact OrderedMap.extendsBy_modify Attribute.Extends.refl fun a _ => a.extends_addValue name number

/-- **What is declared stays.** -/
theorem extends_run (moves : List Move) {s : Session} (hs : s.NamesAgree) :
    s.registry.Extends (s.run moves).registry := by
  have hrun : (s.run moves).NamesAgree ∧ s.registry.Extends (s.run moves).registry :=
    run_induction (P := fun s' => s'.NamesAgree ∧ s.registry.Extends s'.registry)
      (fun heffect h => ⟨namesAgree_effect heffect h.1, h.2.trans (extends_effect heffect h.1)⟩)
      (fun _ h => ⟨h.1.of_perm rfl (List.Perm.refl _), h.2⟩)
      (fun h => ⟨h.1.of_perm rfl (List.Perm.refl _), h.2⟩) moves ⟨hs, .refl _⟩
  exact hrun.2

end Session

end RadiusDictionary
