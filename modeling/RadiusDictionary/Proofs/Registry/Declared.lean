import RadiusDictionary.Session
import RadiusDictionary.Proofs.OrderedMap

/-! # All declarations of a registry

A registry keeps its declarations in maps at three levels: those without a vendor, those of the
vendors, and those nested in others. `Registry.declared` lists them all, each with the key it has in
its map. The number of attributes is the length of that list (`count_eq_length`), and what a session
does to the registry shows in it up to order:

* `perm_declared_declare`: a declaration whose target has no attribute of that name is added;
* `declared_declareVendor`, `perm_declared_addValue`: vendors and values change nothing. -/

namespace RadiusDictionary

namespace Attribute

/-- The attributes nested in one, with their keys. -/
def nested (a : Attribute) : List (String × Attribute) := (a.children.getD ∅).entries

theorem nested_addChild (a : Attribute) (key : String) (child : Attribute) :
    (a.addChild key child).nested = ((a.children.getD ∅).insert key child).entries := rfl

theorem nested_of_children_eq_none {a : Attribute} (h : a.children = none) : a.nested = [] := by
  rw [nested, h]; rfl

mutual

/-- What is declared below an attribute, with the keys it has there. -/
def declaredBelow : Attribute → List (String × Declaration)
  | ⟨_, _, none⟩ => []
  | ⟨_, _, some ⟨entries⟩⟩ => declaredIn entries

/-- What is declared by the entries of a map and below them. -/
def declaredIn : List (String × Attribute) → List (String × Declaration)
  | [] => []
  | (key, a) :: rest => (key, a.toDeclaration) :: (a.declaredBelow ++ declaredIn rest)

end

theorem declaredBelow_eq (a : Attribute) :
    a.declaredBelow = declaredIn a.nested := by
  obtain ⟨d, values, _ | ⟨⟨entries⟩⟩⟩ := a <;> rfl

theorem declaredIn_append : ∀ front back : List (String × Attribute),
    declaredIn (front ++ back) = declaredIn front ++ declaredIn back
  | [], _ => rfl
  | (key, a) :: front, back => by
    rw [List.cons_append, declaredIn, declaredIn, declaredIn_append front back, List.cons_append,
      List.append_assoc]

theorem declaredIn_cons (key : String) (a : Attribute) (rest : List (String × Attribute)) :
    declaredIn ((key, a) :: rest) = (key, a.toDeclaration) :: (a.declaredBelow ++ declaredIn rest) :=
  rfl

theorem declaredBelow_addValue (a : Attribute) (name : String) (number : Int64) :
    (a.addValue name number).declaredBelow = a.declaredBelow := by
  rw [declaredBelow_eq, declaredBelow_eq]; rfl

theorem mem_declaredIn {key : String} {a : Attribute} {entries : List (String × Attribute)}
    (h : (key, a) ∈ entries) : (key, a.toDeclaration) ∈ declaredIn entries ∧
      a.declaredBelow ⊆ declaredIn entries := by
  obtain ⟨front, back, rfl⟩ := List.append_of_mem h
  rw [declaredIn_append, declaredIn_cons]
  refine ⟨by simp, fun x hx => ?_⟩
  simp only [List.mem_append, List.mem_cons]
  exact Or.inr (Or.inr (Or.inl hx))

mutual

theorem count_eq_length : ∀ a : Attribute, a.count = 1 + a.declaredBelow.length
  | ⟨_, _, none⟩ => rfl
  | ⟨_, _, some ⟨entries⟩⟩ => by rw [count, declaredBelow, countAll_eq_length entries]

theorem countAll_eq_length : ∀ entries : List (String × Attribute),
    countAll entries = (declaredIn entries).length
  | [] => rfl
  | (_, a) :: rest => by
    rw [countAll, declaredIn, count_eq_length a, countAll_eq_length rest, List.length_cons,
      List.length_append]
    omega

end

end Attribute

namespace Registry

open Attribute (declaredIn)

/-- All declarations, with the keys of their maps. -/
def declared (r : Registry) : List (String × Declaration) :=
  declaredIn r.attributes.entries ++ r.vendors.values.flatMap fun v => declaredIn v.attributes.entries

theorem foldl_count (vendors : List Vendor) : ∀ n : Nat,
    vendors.foldl (fun n v => n + Attribute.countAll v.attributes.entries) n =
      n + (vendors.flatMap fun v => declaredIn v.attributes.entries).length := by
  induction vendors with
  | nil => intro n; simp
  | cons v vendors ih =>
    intro n
    rw [List.foldl_cons, ih, List.flatMap_cons, List.length_append, Attribute.countAll_eq_length]
    omega

/-- **The number of attributes is that of the declarations.** -/
theorem count_eq_length (r : Registry) : r.count = r.declared.length := by
  rw [count, declared, foldl_count, List.length_append, Attribute.countAll_eq_length]

/-! ### Vendors -/

theorem attributesOf_of_get?_eq_some {r : Registry} {name : String} {v : Vendor}
    (h : r.vendors.get? name = some v) : r.attributesOf (some name) = v.attributes := by
  simp [attributesOf, h]

theorem attributesOf_of_get?_eq_none {r : Registry} {name : String}
    (h : r.vendors.get? name = none) : r.attributesOf (some name) = ∅ := by
  simp [attributesOf, h]

/-- A declared vendor has the attributes that it had. -/
theorem attributesOf_declareVendor (r : Registry) (name : String) (number : UInt32)
    (extra : Option String) (vendor : Option String) :
    (r.declareVendor name number extra).attributesOf vendor = r.attributesOf vendor := by
  cases vendor with
  | none => rfl
  | some other =>
    simp only [attributesOf, declareVendor, OrderedMap.get?_insert]
    by_cases hname : name = other
    · rw [if_pos hname, hname]
      rfl
    · rw [if_neg hname]

/-- Only the attributes that are changed change. -/
theorem attributesOf_modifyAttributes {r : Registry} {vendor : Option String}
    (hvendor : ∀ name, vendor = some name → r.vendors.contains name = true)
    (f : AttributeMap → AttributeMap) (other : Option String) :
    (r.modifyAttributes vendor f).attributesOf other =
      if vendor = other then f (r.attributesOf other) else r.attributesOf other := by
  cases vendor with
  | none => cases other <;> rfl
  | some name =>
    cases other with
    | none => rfl
    | some other =>
      have hname := hvendor name rfl
      rw [OrderedMap.contains] at hname
      obtain ⟨v, hv⟩ := Option.isSome_iff_exists.mp hname
      simp only [attributesOf, modifyAttributes, OrderedMap.get?_modify, Option.some.injEq]
      by_cases heq : name = other
      · rw [if_pos heq, if_pos heq, ← heq, hv]
        rfl
      · rw [if_neg heq, if_neg heq]

theorem declared_declareVendor (r : Registry) (name : String) (number : UInt32)
    (extra : Option String) : (r.declareVendor name number extra).declared = r.declared := by
  unfold declared declareVendor
  cases h : r.vendors.get? name with
  | none =>
    simp only [OrderedMap.values, OrderedMap.entries_insert_of_get?_eq_none h,
      attributesOf_of_get?_eq_none h, List.map_append, List.flatMap_append]
    simp [declaredIn, EmptyCollection.emptyCollection, OrderedMap.empty]
  | some v =>
    obtain ⟨front, back, hm, -, hput⟩ := OrderedMap.exists_split h
    simp only [OrderedMap.values, hput, attributesOf_of_get?_eq_some h]
    rw [hm]
    simp

/-- What a change to the attributes of one vendor, or to those without one, adds to the
declarations. -/
theorem perm_declared_modifyAttributes {r : Registry} {vendor : Option String}
    {f : AttributeMap → AttributeMap} (new : List (String × Declaration))
    (hvendor : ∀ name, vendor = some name → r.vendors.contains name = true)
    (h : (declaredIn (f (r.attributesOf vendor)).entries).Perm
      (new ++ declaredIn (r.attributesOf vendor).entries)) :
    (r.modifyAttributes vendor f).declared.Perm (new ++ r.declared) := by
  cases vendor with
  | none =>
    unfold declared modifyAttributes
    rw [← List.append_assoc]
    exact h.append_right _
  | some name =>
    have hname := hvendor name rfl
    unfold OrderedMap.contains at hname
    obtain ⟨v, hv⟩ := Option.isSome_iff_exists.mp hname
    obtain ⟨front, back, hm, hchange, -⟩ := OrderedMap.exists_split hv
    rw [attributesOf_of_get?_eq_some hv] at h
    simp only [declared, modifyAttributes, OrderedMap.values, hchange]
    rw [hm]
    simp only [List.map_append, List.map_cons, List.flatMap_append, List.flatMap_cons]
    generalize declaredIn r.attributes.entries = top
    generalize (front.map (·.2)).flatMap (fun v => declaredIn v.attributes.entries) = before
    generalize (back.map (·.2)).flatMap (fun v => declaredIn v.attributes.entries) = behind
    refine (((h.append_right behind).append_left before).append_left top).trans ?_
    rw [← List.append_assoc top before, ← List.append_assoc top before, List.append_assoc new]
    exact List.perm_append_comm_assoc _ _ _

/-! ### Values -/

theorem declaredIn_modify_addValue (attributes : AttributeMap) (attributeName name : String)
    (number : Int64) :
    declaredIn (attributes.modify attributeName fun a => a.addValue name number).entries =
      declaredIn attributes.entries := by
  cases h : attributes.get? attributeName with
  | none => rw [OrderedMap.modify_of_get?_eq_none h]
  | some a =>
    obtain ⟨front, back, hm, hchange, -⟩ := OrderedMap.exists_split h
    rw [hchange, hm, Attribute.declaredIn_append, Attribute.declaredIn_append,
      Attribute.declaredIn_cons, Attribute.declaredIn_cons, Attribute.declaredBelow_addValue]
    rfl

theorem perm_declared_addValue {r : Registry} {vendor : Option String}
    (hvendor : ∀ name, vendor = some name → r.vendors.contains name = true)
    (attributeName name : String) (number : Int64) :
    (r.modifyAttributes vendor fun attributes =>
      attributes.modify attributeName fun a => a.addValue name number).declared.Perm r.declared :=
  perm_declared_modifyAttributes [] hvendor (by rw [declaredIn_modify_addValue]; rfl)

/-! ### Attributes -/

/-- The map to which a declaration goes: the attributes of the vendor, or those nested in the parent
if it is one of them. -/
def target? (r : Registry) (parent vendor : Option String) : Option AttributeMap :=
  match parent with
  | none => some (r.attributesOf vendor)
  | some name => ((r.attributesOf vendor).get? name).map fun a => a.children.getD ∅

/-- What is declared among the attributes of a vendor, or among those without one, is declared. -/
theorem declaredIn_attributesOf_subset (r : Registry) (vendor : Option String) :
    declaredIn (r.attributesOf vendor).entries ⊆ r.declared := by
  intro x hx
  cases vendor with
  | none => exact List.mem_append_left _ hx
  | some name =>
    cases hv : r.vendors.get? name with
    | none =>
      rw [attributesOf_of_get?_eq_none hv] at hx
      cases hx
    | some v =>
      rw [attributesOf_of_get?_eq_some hv] at hx
      exact List.mem_append_right _
        (List.mem_flatMap.mpr ⟨v, OrderedMap.mem_values_of_get?_eq_some hv, hx⟩)

/-- What the target has is declared. -/
theorem mem_declared_of_target?_get? {r : Registry} {parent vendor : Option String}
    {target : AttributeMap} {key : String} {a : Attribute}
    (htarget : r.target? parent vendor = some target) (ha : target.get? key = some a) :
    (key, a.toDeclaration) ∈ r.declared := by
  have hmap := r.declaredIn_attributesOf_subset vendor
  cases parent with
  | none =>
    cases htarget
    exact hmap (Attribute.mem_declaredIn (OrderedMap.mem_of_get?_eq_some ha)).1
  | some name =>
    obtain ⟨p, hp, rfl⟩ := Option.map_eq_some_iff.mp htarget
    have hbelow := (Attribute.mem_declaredIn (OrderedMap.mem_of_get?_eq_some hp)).2
    rw [Attribute.declaredBelow_eq] at hbelow
    exact hmap (hbelow (Attribute.mem_declaredIn (OrderedMap.mem_of_get?_eq_some ha)).1)

/-- **A declaration is added.** -/
theorem perm_declared_declare {r : Registry} {parent : Option String} {d : Declaration}
    {target : AttributeMap} (hvendor : ∀ name, d.vendor = some name → r.vendors.contains name = true)
    (htarget : r.target? parent d.vendor = some target) (hnew : target.contains d.name = false) :
    (r.declare parent d).declared.Perm ((d.name, d) :: r.declared) := by
  refine perm_declared_modifyAttributes [(d.name, d)] hvendor ?_
  have hnone := OrderedMap.contains_eq_false_iff.mp hnew
  cases parent with
  | none =>
    cases htarget
    simp only [OrderedMap.entries_insert_of_get?_eq_none hnone]
    rw [Attribute.declaredIn_append]
    exact List.perm_append_comm
  | some name =>
    obtain ⟨p, hp, rfl⟩ := Option.map_eq_some_iff.mp htarget
    obtain ⟨front, back, hm, hchange, -⟩ := OrderedMap.exists_split hp
    have hbelow : (p.addChild d.name d.toAttribute).declaredBelow =
        p.declaredBelow ++ [(d.name, d)] := by
      rw [Attribute.declaredBelow_eq, Attribute.declaredBelow_eq, Attribute.nested_addChild,
        OrderedMap.entries_insert_of_get?_eq_none hnone, Attribute.declaredIn_append]
      rfl
    simp only [hchange]
    simp only [hm, Attribute.declaredIn_append, Attribute.declaredIn_cons, hbelow]
    rw [show (p.addChild d.name d.toAttribute).toDeclaration = p.toDeclaration from rfl,
      List.append_assoc, ← List.cons_append, ← List.append_assoc (declaredIn front)]
    refine (List.perm_append_comm_assoc _ [(d.name, d)] _).trans ?_
    simp

end Registry

end RadiusDictionary
