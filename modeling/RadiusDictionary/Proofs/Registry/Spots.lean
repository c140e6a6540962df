import Mathlib.Data.List.Nodup
import RadiusDictionary.Proofs.Reading.Names
import RadiusDictionary.Proofs.Reading.Shape

/-! # Where attributes stand

A `Spot` is a place in a registry with the attribute there: among the attributes of a vendor or
those without one, or nested in one of them. What a registry that was read has nested is bare, so
its spots are its declarations (`declaration_spots`); and as no two declarations have one name, a
name has one spot (`spot_unique`), and its attribute is found again by vendor and name
(`get?_of_spot`). -/

namespace RadiusDictionary

/-- A place in a registry, and the attribute there. -/
structure Spot where
  vendor : Option Vendor
  /-- The attribute in which this one is nested, and those nested there before it. -/
  parent : Option (Attribute × List Attribute)
  subject : Attribute

/-- The spots of attributes that are nested in `p` after `elder`. -/
def nestedSpots (vendor : Option Vendor) (p : Attribute) : (elder : List Attribute) →
    List Attribute → List Spot
  | _, [] => []
  | elder, c :: rest => ⟨vendor, some (p, elder), c⟩ :: nestedSpots vendor p (elder ++ [c]) rest

/-- The spots of attributes and of those nested in them. -/
def spotsOf (vendor : Option Vendor) : List Attribute → List Spot
  | [] => []
  | a :: rest =>
    ⟨vendor, none, a⟩ :: (nestedSpots vendor a [] (a.nested.map (·.2)) ++ spotsOf vendor rest)

namespace Registry

/-- All spots. -/
def spots (r : Registry) : List Spot :=
  spotsOf none r.attributes.values ++
    r.vendors.values.flatMap fun v => spotsOf (some v) v.attributes.values

/-- Whether an attribute is among those of a vendor, or among those without one. -/
def Has (r : Registry) (vendor : Option Vendor) (a : Attribute) : Prop :=
  match vendor with
  | none => a ∈ r.attributes.values
  | some v => v ∈ r.vendors.values ∧ a ∈ v.attributes.values

end Registry

/-! ### Nested attributes have spots -/

theorem mem_nestedSpots (vendor : Option Vendor) (p c : Attribute) (younger : List Attribute) :
    ∀ front elder : List Attribute, (⟨vendor, some (p, elder ++ front), c⟩ : Spot) ∈
      nestedSpots vendor p elder (front ++ c :: younger)
  | [], elder => by
    rw [List.append_nil, List.nil_append, nestedSpots]
    exact List.mem_cons_self
  | e :: front, elder => by
    have h := mem_nestedSpots vendor p c younger front (elder ++ [e])
    rw [List.append_assoc, List.singleton_append] at h
    rw [List.cons_append, nestedSpots]
    exact List.mem_cons_of_mem _ h

theorem nestedSpots_subset_spotsOf {vendor : Option Vendor} {p : Attribute} :
    ∀ {attributes : List Attribute}, p ∈ attributes →
      nestedSpots vendor p [] (p.nested.map (·.2)) ⊆ spotsOf vendor attributes
  | a :: rest, hp => by
    rw [spotsOf]
    rcases List.mem_cons.mp hp with rfl | hp
    · exact fun s hs => List.mem_cons_of_mem _ (List.mem_append_left _ hs)
    · exact fun s hs => List.mem_cons_of_mem _
        (List.mem_append_right _ (nestedSpots_subset_spotsOf hp hs))

theorem Registry.mem_spots_of_nested {r : Registry} {vendor : Option Vendor} {p c : Attribute}
    {elder younger : List Attribute} (hp : r.Has vendor p)
    (hc : p.nested.map (·.2) = elder ++ c :: younger) :
    (⟨vendor, some (p, elder), c⟩ : Spot) ∈ r.spots := by
  have hspot := mem_nestedSpots vendor p c younger elder []
  rw [← hc] at hspot
  cases vendor with
  | none => exact List.mem_append_left _ (nestedSpots_subset_spotsOf hp hspot)
  | some v =>
    exact List.mem_append_right _
      (List.mem_flatMap.mpr ⟨v, hp.1, nestedSpots_subset_spotsOf hp.2 hspot⟩)

/-! ### Spots are of attributes -/

theorem mem_spotsOf_of_mem {vendor : Option Vendor} {a : Attribute} :
    ∀ {attributes : List Attribute}, a ∈ attributes →
      (⟨vendor, none, a⟩ : Spot) ∈ spotsOf vendor attributes
  | _ :: rest, ha => by
    rw [spotsOf]
    rcases List.mem_cons.mp ha with rfl | ha
    · exact List.mem_cons_self
    · exact List.mem_cons_of_mem _ (List.mem_append_right _ (mem_spotsOf_of_mem ha))

theorem nestedSpots_cases {vendor : Option Vendor} {p : Attribute} {s : Spot} :
    ∀ {elder attributes : List Attribute}, s ∈ nestedSpots vendor p elder attributes →
      s.vendor = vendor ∧ s.parent ≠ none ∧ s.subject ∈ attributes
  | elder, c :: rest, hs => by
    rw [nestedSpots] at hs
    rcases List.mem_cons.mp hs with rfl | hs
    · exact ⟨rfl, Option.some_ne_none _, List.mem_cons_self⟩
    · obtain ⟨hvendor, hparent, hsubject⟩ := nestedSpots_cases hs
      exact ⟨hvendor, hparent, List.mem_cons_of_mem _ hsubject⟩

/-- A spot is that of an attribute in the list, or of one nested in such an attribute. -/
theorem spotsOf_cases {vendor : Option Vendor} {s : Spot} :
    ∀ {attributes : List Attribute}, s ∈ spotsOf vendor attributes → s.vendor = vendor ∧
      (s.parent = none ∧ s.subject ∈ attributes ∨
        s.parent ≠ none ∧ ∃ p ∈ attributes, s.subject ∈ p.nested.map (·.2))
  | a :: rest, hs => by
    rw [spotsOf] at hs
    rcases List.mem_cons.mp hs with rfl | hs
    · exact ⟨rfl, Or.inl ⟨rfl, List.mem_cons_self⟩⟩
    rcases List.mem_append.mp hs with hs | hs
    · obtain ⟨hvendor, hparent, hsubject⟩ := nestedSpots_cases hs
      exact ⟨hvendor, Or.inr ⟨hparent, a, List.mem_cons_self, hsubject⟩⟩
    · obtain ⟨hvendor, ⟨hparent, hsubject⟩ | ⟨hparent, p, hp, hsubject⟩⟩ := spotsOf_cases hs
      · exact ⟨hvendor, Or.inl ⟨hparent, List.mem_cons_of_mem _ hsubject⟩⟩
      · exact ⟨hvendor, Or.inr ⟨hparent, p, List.mem_cons_of_mem _ hp, hsubject⟩⟩

theorem Registry.mem_spots_of_has {r : Registry} {vendor : Option Vendor} {a : Attribute}
    (h : r.Has vendor a) : (⟨vendor, none, a⟩ : Spot) ∈ r.spots := by
  cases vendor with
  | none => exact List.mem_append_left _ (mem_spotsOf_of_mem h)
  | some v =>
    exact List.mem_append_right _ (List.mem_flatMap.mpr ⟨v, h.1, mem_spotsOf_of_mem h.2⟩)

/-- The attribute stands in the registry, nested or not. -/
def Registry.Includes (r : Registry) (a : Attribute) : Prop :=
  ∃ vendor p, r.Has vendor p ∧ (a = p ∨ a ∈ p.nested.map (·.2))

/-- Whatever stands in the registry has a spot. -/
theorem Registry.Includes.exists_spot {r : Registry} {a : Attribute} (h : r.Includes a) :
    ∃ s ∈ r.spots, s.subject = a := by
  obtain ⟨vendor, p, hp, rfl | hnested⟩ := h
  · exact ⟨_, Registry.mem_spots_of_has hp, rfl⟩
  · obtain ⟨elder, younger, hsplit⟩ := List.append_of_mem hnested
    exact ⟨_, Registry.mem_spots_of_nested hp hsplit, rfl⟩

/-! ### Spots are declarations -/

/-- What is declared at a spot. -/
def Spot.declaration (s : Spot) : Declaration := s.subject.toDeclaration

theorem Attribute.declaredBelow_of_children_eq_none {a : Attribute} (h : a.children = none) :
    a.declaredBelow = [] := by
  rw [declaredBelow_eq, nested_of_children_eq_none h]; rfl

theorem declaration_nestedSpots (vendor : Option Vendor) (p : Attribute) :
    ∀ (entries : List (String × Attribute)) (elder : List Attribute),
      (∀ e ∈ entries, e.2.children = none) →
      (nestedSpots vendor p elder (entries.map (·.2))).map Spot.declaration =
        (Attribute.declaredIn entries).map (·.2)
  | [], _, _ => rfl
  | (key, c) :: rest, elder, h => by
    obtain ⟨hc, hrest⟩ := List.forall_mem_cons.mp h
    rw [List.map_cons, nestedSpots, List.map_cons, declaration_nestedSpots vendor p rest _ hrest,
      Attribute.declaredIn_cons, Attribute.declaredBelow_of_children_eq_none hc]
    rfl

theorem Attribute.WellFormed.isChild {vendor : Option String} {a : Attribute}
    (h : a.WellFormed vendor) : ∀ e ∈ a.nested, e.2.IsChild vendor := by
  intro e he
  cases hchildren : a.children with
  | none => rw [nested, hchildren] at he; cases he
  | some children =>
    rw [nested, hchildren] at he
    exact h.children children hchildren e he

theorem Attribute.WellFormed.bare {vendor : Option String} {a : Attribute}
    (h : a.WellFormed vendor) : ∀ e ∈ a.nested, e.2.children = none :=
  fun e he => (h.isChild e he).children_eq

theorem Registry.WellFormed.of_has {r : Registry} (h : r.WellFormed) {vendor : Option Vendor}
    {a : Attribute} (ha : r.Has vendor a) : ∃ owner, a.WellFormed owner := by
  cases vendor with
  | none =>
    obtain ⟨e, he, rfl⟩ := List.mem_map.mp ha
    exact ⟨none, h.attributes e he⟩
  | some v =>
    obtain ⟨hv, ha⟩ := ha
    obtain ⟨e, he, rfl⟩ := List.mem_map.mp hv
    obtain ⟨e', he', rfl⟩ := List.mem_map.mp ha
    exact ⟨some e.1, (h.vendors e he).attributes e' he'⟩

/-- What is nested in an attribute of the registry stands in it too. -/
theorem Registry.WellFormed.includes_nested {r : Registry} (h : r.WellFormed) {a : Attribute}
    (ha : r.Includes a) : ∀ e ∈ a.nested, r.Includes e.2 := by
  obtain ⟨vendor, p, hp, rfl | hnested⟩ := ha
  · exact fun e he => ⟨vendor, a, hp, Or.inr (List.mem_map_of_mem he)⟩
  · -- nothing is nested in a nested attribute
    obtain ⟨owner, hwell⟩ := h.of_has hp
    obtain ⟨entry, hentry, rfl⟩ := List.mem_map.mp hnested
    rw [Attribute.nested_of_children_eq_none (hwell.bare entry hentry)]
    exact List.forall_mem_nil _

theorem declaration_spotsOf (vendor : Option Vendor) {owner : Option String} :
    ∀ entries : List (String × Attribute), (∀ e ∈ entries, e.2.WellFormed owner) →
      (spotsOf vendor (entries.map (·.2))).map Spot.declaration =
        (Attribute.declaredIn entries).map (·.2)
  | [], _ => rfl
  | (key, a) :: rest, h => by
    obtain ⟨ha, hrest⟩ := List.forall_mem_cons.mp h
    rw [List.map_cons, spotsOf, List.map_cons, List.map_append,
      declaration_nestedSpots vendor a a.nested [] ha.bare, declaration_spotsOf vendor rest hrest,
      Attribute.declaredIn_cons, List.map_cons, List.map_append, Attribute.declaredBelow_eq]
    rfl

/-- **The spots of a well-formed registry are its declarations.** -/
theorem Registry.WellFormed.declaration_spots {r : Registry} (h : r.WellFormed) :
    r.spots.map Spot.declaration = r.declared.map (·.2) := by
  unfold spots declared
  rw [List.map_append, List.map_append]
  refine congrArg₂ _ (declaration_spotsOf none _ h.attributes) ?_
  rw [List.map_flatMap, List.map_flatMap]
  refine List.flatMap_congr fun v hv => ?_
  obtain ⟨e, he, rfl⟩ := List.mem_map.mp hv
  exact declaration_spotsOf (some e.2) _ (h.vendors e he).attributes

/-- The names seen are those of the spots. -/
theorem Reading.perm_spotNames (r : Reading) : r.session.seenNames.Perm
    (r.registry.spots.map fun s => Text.lowercase s.subject.name) := by
  have hperm := r.namesAgree.perm
  rw [show r.session.registry.declared.map (fun e => Text.lowercase e.2.name) =
    (r.registry.declared.map (·.2)).map fun d => Text.lowercase d.name by
      rw [List.map_map]; rfl, ← r.wellFormed.declaration_spots, List.map_map] at hperm
  exact hperm

/-- No two spots have the same name up to case. -/
theorem Reading.nodup_spotNames (r : Reading) :
    (r.registry.spots.map fun s => Text.lowercase s.subject.name).Nodup :=
  r.perm_spotNames.nodup_iff.mp r.namesAgree.nodup

/-- **A name has one spot**, in whatever case. -/
theorem Reading.spot_unique_lowercase (r : Reading) {s s' : Spot} (hs : s ∈ r.registry.spots)
    (hs' : s' ∈ r.registry.spots)
    (hname : Text.lowercase s.subject.name = Text.lowercase s'.subject.name) : s = s' :=
  List.inj_on_of_nodup_map r.nodup_spotNames hs hs' hname

theorem Reading.spot_unique (r : Reading) {s s' : Spot} (hs : s ∈ r.registry.spots)
    (hs' : s' ∈ r.registry.spots) (hname : s.subject.name = s'.subject.name) : s = s' :=
  r.spot_unique_lowercase hs hs' (congrArg Text.lowercase hname)

/-! ### Spots by vendor and name -/

namespace Reading

variable (r : Reading) {s : Spot}

theorem attributesOf_name {v : Vendor} (hv : v ∈ r.registry.vendors.values) :
    r.registry.attributesOf (some v.name) = v.attributes := by
  obtain ⟨e, he, rfl⟩ := List.mem_map.mp hv
  have hname := (r.wellFormed.vendors e he).name_eq
  refine Registry.attributesOf_of_get?_eq_some ?_
  rw [hname]
  exact OrderedMap.get?_of_mem_entries r.nodup_vendorKeys he

/-- The attributes around a spot: those of its vendor, or those without one. -/
theorem spot_cases (hs : s ∈ r.registry.spots) :
    let attributes := r.registry.attributesOf (s.vendor.map Vendor.name)
    s.parent = none ∧ s.subject ∈ attributes.values ∨
      s.parent ≠ none ∧ ∃ p ∈ attributes.values, s.subject ∈ p.nested.map (·.2) := by
  intro attributes
  rcases List.mem_append.mp hs with hs | hs
  · obtain ⟨hvendor, hcases⟩ := spotsOf_cases hs
    have hattributes : attributes = r.registry.attributes := by
      simp only [attributes, hvendor]
      rfl
    rw [hattributes]
    exact hcases
  · obtain ⟨v, hv, hs⟩ := List.mem_flatMap.mp hs
    obtain ⟨hvendor, hcases⟩ := spotsOf_cases hs
    have hattributes : attributes = v.attributes := by
      simp only [attributes, hvendor]
      exact r.attributesOf_name hv
    rw [hattributes]
    exact hcases

theorem spot_of_get? {vendor : Option String} {name : String} {a : Attribute}
    (h : (r.registry.attributesOf vendor).get? name = some a) :
    a.name = name ∧ ∃ s ∈ r.registry.spots, s.parent = none ∧ s.subject = a := by
  have htarget : r.session.registry.target? none vendor =
      some (r.registry.attributesOf vendor) := rfl
  have hname : name = a.name :=
    r.namesAgree.keyed _ (Registry.mem_declared_of_target?_get? htarget h)
  refine ⟨hname.symm, ?_⟩
  have ha := OrderedMap.mem_values_of_get?_eq_some h
  cases vendor with
  | none => exact ⟨⟨none, none, a⟩, Registry.mem_spots_of_has ha, rfl, rfl⟩
  | some key =>
    cases hv : r.registry.vendors.get? key with
    | none =>
      rw [Registry.attributesOf_of_get?_eq_none hv] at ha
      cases ha
    | some v =>
      rw [Registry.attributesOf_of_get?_eq_some hv] at ha
      exact ⟨⟨some v, none, a⟩, Registry.mem_spots_of_has
        ⟨OrderedMap.mem_values_of_get?_eq_some hv, ha⟩, rfl, rfl⟩

/-- **An attribute that is not nested is found by vendor and name**, and a nested one is not. -/
theorem get?_of_spot (hs : s ∈ r.registry.spots) :
    (r.registry.attributesOf (s.vendor.map Vendor.name)).get? s.subject.name =
      if s.parent = none then some s.subject else none := by
  cases ha : (r.registry.attributesOf (s.vendor.map Vendor.name)).get? s.subject.name with
  | some a =>
    obtain ⟨hname, s', hs', hparent, rfl⟩ := r.spot_of_get? ha
    obtain rfl := r.spot_unique hs' hs hname
    rw [if_pos hparent]
  | none =>
    rw [if_neg]
    intro hparent
    rcases r.spot_cases hs with ⟨-, hmem⟩ | ⟨hnested, -⟩
    · obtain ⟨e, he, hsubject⟩ := List.mem_map.mp hmem
      have hkey : e.1 = e.2.name := r.namesAgree.keyed _
        (r.registry.declaredIn_attributesOf_subset _ (Attribute.mem_declaredIn he).1)
      have hcontains : (r.registry.attributesOf (s.vendor.map Vendor.name)).contains
          s.subject.name = true :=
        OrderedMap.contains_iff_mem_keys.mpr (List.mem_map.mpr ⟨e, he, by rw [hkey, hsubject]⟩)
      rw [OrderedMap.contains, ha] at hcontains
      cases hcontains
    · exact hnested hparent

end Reading

end RadiusDictionary
