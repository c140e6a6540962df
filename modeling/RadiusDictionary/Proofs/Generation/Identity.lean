import RadiusDictionary.Compilation
import RadiusDictionary.Proofs.Generation.Tree
import RadiusDictionary.Proofs.Registry.Spots

/-! # What identifies a nested attribute

The module of a nested attribute holds the number of the attribute around it. That number is looked
up by sanitized name, where every attribute that is reached notes its own, so that the last one of
the name is found: the attribute around, or one that is nested in it before (`foundNumber`).

* `mem_written_nestedTrees`, `mem_written_attributeTree`: the modules that come of an attribute,
  each with the number that was found.
* `comesOf_generate`: the modules that come of a registry.
* `child_ids`: the numbers in the module of a nested attribute are those of the attribute around it
  exactly if the last one of the name has the same number. -/

namespace RadiusDictionary

/-- The last of the attributes `elder` that is noted under the name of `p`. -/
def lastNamesake? (p : Attribute) (elder : List Attribute) : Option Attribute :=
  elder.reverse.find? fun e => sanitize e.name = sanitize p.name

/-- The number that is found for `p` after the attributes `elder` nested in it. -/
def foundNumber (p : Attribute) (elder : List Attribute) : UInt32 :=
  ((lastNamesake? p elder).map (·.number)).getD p.number

theorem foundNumber_nil (p : Attribute) : foundNumber p [] = p.number := rfl

theorem foundNumber_append (p c : Attribute) (elder : List Attribute) :
    foundNumber p (elder ++ [c]) =
      if sanitize c.name = sanitize p.name then c.number else foundNumber p elder := by
  unfold foundNumber lastNamesake?
  rw [List.reverse_append, List.reverse_singleton, List.singleton_append]
  by_cases h : sanitize c.name = sanitize p.name
  · rw [List.find?_cons_of_pos (by simpa using h), if_pos h]; rfl
  · rw [List.find?_cons_of_neg (by simpa using h), if_neg h]

namespace Spot

/-- The number of the vendor, or zero. -/
def vendorId (s : Spot) : UInt32 := (s.vendor.map (·.number)).getD 0

/-- What identifies the attribute at a spot in its module. -/
def ids (s : Spot) : TypeIds :=
  match s.parent with
  | some (p, elder) => .nested s.vendorId (foundNumber p elder) s.subject.number
  | none =>
    if s.vendor.isSome || s.subject.hasChildren then .vendor s.vendorId s.subject.number
    else .plain s.subject.number

/-- The file is the module of the attribute at the spot. -/
def Makes (s : Spot) (f : WrittenFile) : Prop :=
  ∃ m, f.artifact = .attributeModule m ∧ m.subject = s.subject ∧ m.ids = s.ids

end Spot

namespace Generation

variable {t : Target} {scope : Scope} {place : Place} {a p c : Attribute} {g g' : Generation}
  {ids : TypeIds} {f : WrittenFile}

/-! ### What each way out notes and writes -/

theorem exists_ownArtifact {nested : NestedModules} : ∃ m,
    ownArtifact scope place a ids nested = .attributeModule m ∧ m.subject = a ∧ m.ids = ids :=
  ⟨attributeModule scope place a ids nested.modules, rfl, rfl, rfl⟩

/-- An attribute that is identified notes its number; it is given up, or closed after those nested
in it. -/
theorem attributeTree_of_ids (h : (g.reach a).idsAt scope place a = .ok ids) : ∃ g',
    g'.numbers = g.numbers.insert (sanitize a.name) a.number ∧ g'.written = g.written ∧
    ((attributeTree t scope place a g).1.numbers = g'.numbers ∧
        (attributeTree t scope place a g).1.written = g'.written ∨
      attributeTree t scope place a g = close t scope place a ids g'.written.length
        (nestedTrees t scope place a.toDeclaration a.nested g').2
        (nestedTrees t scope place a.toDeclaration a.nested g').1) := by
  cases hclaim : ((g.reach a).setNumber a.toDeclaration).claim? (place.file a.toDeclaration) with
  | none =>
    refine ⟨(g.reach a).setNumber a.toDeclaration, rfl, rfl, Or.inl ?_⟩
    obtain ⟨failures, events, hgiveUp⟩ := giveUp_eq ((g.reach a).setNumber a.toDeclaration) a
      (place.file a.toDeclaration)
    rw [attributeTree_of_taken h hclaim, hgiveUp]
    exact ⟨rfl, rfl⟩
  | some g' =>
    have hsame := (claim?_eq_some hclaim).2
    exact ⟨g', by rw [hsame]; rfl, by rw [hsame]; rfl, Or.inr (attributeTree_of_claimed h hclaim)⟩

/-! ### Nested attributes -/

/-- A nested attribute with nothing in it has the number that is found for its parent, and notes
its own. -/
theorem attributeTree_bare (hbare : c.children = none) {parent : String}
    (hparent : place.parent = some parent) {n : UInt32}
    (hn : g.numbers.get? (sanitize parent) = some n) :
    (attributeTree t scope place c g).1.numbers = g.numbers.insert (sanitize c.name) c.number ∧
      ∀ f ∈ (attributeTree t scope place c g).1.written, f ∈ g.written ∨
        ∃ m, f.artifact = .attributeModule m ∧ m.subject = c ∧
          m.ids = .nested scope.vendorId n c.number := by
  have hids : (g.reach c).idsAt scope place c = .ok (.nested scope.vendorId n c.number) := by
    have hreach : (g.reach c).numbers = g.numbers := rfl
    unfold idsAt
    simp only [hparent, hreach, hn]
  obtain ⟨g', hnumbers, hwritten, ⟨hnumbers', hwritten'⟩ | hclose⟩ :=
    attributeTree_of_ids (t := t) hids
  · rw [hnumbers', hwritten', hnumbers, hwritten]
    exact ⟨rfl, fun f hf => Or.inl hf⟩
  · rw [Attribute.nested_of_children_eq_none hbare, nestedTrees] at hclose
    dsimp only at hclose
    obtain ⟨hnumbers', -, hwritten'⟩ := close_spec t scope place c
      (.nested scope.vendorId n c.number) g'.written.length ⟨[], []⟩ g'
    rw [hclose, ← hnumbers, ← hwritten]
    refine ⟨hnumbers', fun f hf => (hwritten' f hf).imp_right fun hown => ?_⟩
    rw [hown]
    exact exists_ownArtifact

/-- The attributes nested in `p`: each has the number that is found after those before it. -/
theorem mem_written_nestedTrees (t : Target) (scope : Scope) (place : Place) (p : Attribute) :
    ∀ (entries : List (String × Attribute)) (elder : List Attribute) (g : Generation),
      (∀ e ∈ entries, e.2.children = none) →
      g.numbers.get? (sanitize p.name) = some (foundNumber p elder) →
      ∀ f ∈ (nestedTrees t scope place p.toDeclaration entries g).1.written, f ∈ g.written ∨
        ∃ s ∈ nestedSpots scope.vendor p elder (entries.map (·.2)), s.Makes f
  | [], _, _, _, _ => fun _ hf => Or.inl hf
  | (key, c) :: rest, elder, g, hbare, hn => by
    obtain ⟨hc, hrest⟩ := List.forall_mem_cons.mp hbare
    have hparent : (place.below p.toDeclaration c.toDeclaration).parent = some p.name := rfl
    obtain ⟨hnumbers, hwritten⟩ := attributeTree_bare (t := t) hc hparent hn
    have hn' : (attributeTree t scope (place.below p.toDeclaration c.toDeclaration) c
        g).1.numbers.get? (sanitize p.name) = some (foundNumber p (elder ++ [c])) := by
      rw [hnumbers, OrderedMap.get?_insert, foundNumber_append]
      by_cases h : sanitize c.name = sanitize p.name
      · rw [if_pos h, if_pos h]
      · rw [if_neg h, if_neg h, hn]
    intro f hf
    rw [nestedTrees_cons_fst] at hf
    rcases mem_written_nestedTrees t scope place p rest (elder ++ [c]) _ hrest hn' f hf with
      hf | ⟨s, hs, hmakes⟩
    · refine (hwritten f hf).imp_right fun ⟨m, hm, hsubject, hids⟩ => ?_
      exact ⟨⟨scope.vendor, some (p, elder), c⟩, List.mem_cons_self, m, hm, hsubject, hids⟩
    · exact Or.inr ⟨s, List.mem_cons_of_mem _ hs, hmakes⟩

/-! ### The attributes of a loader -/

theorem mem_written_attributeTree (t : Target) (scope : Scope) (place : Place)
    (hplace : place.parent = none) (a : Attribute) (g : Generation)
    (hbare : ∀ e ∈ a.nested, e.2.children = none) :
    ∀ f ∈ (attributeTree t scope place a g).1.written, f ∈ g.written ∨
      ∃ s ∈ spotsOf scope.vendor [a], s.Makes f := by
  have hids : (g.reach a).idsAt scope place a = .ok (Spot.ids ⟨scope.vendor, none, a⟩) := by
    unfold idsAt Spot.ids
    simp only [hplace]
    by_cases h : (scope.vendor.isSome || a.hasChildren) = true
    · rw [if_pos h, if_pos h]; rfl
    · rw [if_neg h, if_neg h]
  intro f hf
  obtain ⟨g', hnumbers, hwritten, ⟨-, hsame⟩ | hclose⟩ := attributeTree_of_ids (t := t) hids
  · rw [hsame, hwritten] at hf
    exact Or.inl hf
  · rw [hclose] at hf
    rcases (close_spec _ _ _ _ _ _ _ _).2.2 f hf with hf | hown
    · have hn : g'.numbers.get? (sanitize a.name) = some (foundNumber a []) := by
        rw [hnumbers, OrderedMap.get?_insert, if_pos rfl, foundNumber_nil]
      refine (mem_written_nestedTrees t scope place a _ [] g' hbare hn f hf).imp ?_ ?_
      · intro hf
        rw [hwritten] at hf
        exact hf
      · rintro ⟨s, hs, hmakes⟩
        exact ⟨s, List.mem_cons_of_mem _ (List.mem_append_left _ hs), hmakes⟩
    · refine Or.inr ⟨⟨scope.vendor, none, a⟩, List.mem_cons_self, ?_⟩
      unfold Spot.Makes
      rw [hown]
      exact exists_ownArtifact

theorem mem_written_attributeTrees (t : Target) (scope : Scope) :
    ∀ (attributes : List Attribute) (g : Generation),
      (∀ a ∈ attributes, ∀ e ∈ a.nested, e.2.children = none) →
      ∀ f ∈ (attributeTrees t scope attributes g).1.written, f ∈ g.written ∨
        ∃ s ∈ spotsOf scope.vendor attributes, s.Makes f
  | [], _, _ => fun _ hf => Or.inl hf
  | a :: rest, g, hbare => by
    obtain ⟨ha, hrest⟩ := List.forall_mem_cons.mp hbare
    intro f hf
    rcases mem_written_attributeTrees t scope rest _ hrest f hf with hf | ⟨s, hs, hmakes⟩
    · refine (mem_written_attributeTree t scope (.top scope a.toDeclaration) rfl a g ha f
        hf).imp_right fun ⟨s, hs, hmakes⟩ => ?_
      rw [spotsOf, spotsOf, List.append_nil] at hs
      refine ⟨s, ?_, hmakes⟩
      rw [spotsOf, ← List.cons_append]
      exact List.mem_append_left _ hs
    · refine Or.inr ⟨s, ?_, hmakes⟩
      rw [spotsOf]
      exact List.mem_cons_of_mem _ (List.mem_append_right _ hs)

/-! ### Whole registries -/

theorem mem_written_writeLoader {folder : Path} {m : LoaderModule} (f : WrittenFile)
    (hf : f ∈ (g.writeLoader t folder m).written) :
    f ∈ g.written ∨ f.artifact = .loaderModule m := by
  have hway := loaderWay t folder m g
  generalize g.writeLoader t folder m = g'', loaderWrites t folder m g = files at hway hf
  cases hway with
  | taken hclaim => exact Or.inl hf
  | failed hclaim hwrite =>
    obtain ⟨-, rfl⟩ := claim?_eq_some hclaim
    obtain ⟨disk, -, rfl⟩ := write_eq_some hwrite
    exact Or.inl hf
  | written hclaim hwrite =>
    obtain ⟨-, rfl⟩ := claim?_eq_some hclaim
    obtain ⟨disk, -, rfl⟩ := write_eq_none hwrite
    exact (List.mem_append.mp hf).imp_right fun hf => by rw [List.mem_singleton.mp hf]

/-- A file comes of a registry: it is the module of an attribute, or a loader. -/
def ComesOf (spots : List Spot) (f : WrittenFile) : Prop :=
  (∃ s ∈ spots, s.Makes f) ∨ ∃ m, f.artifact = .loaderModule m

theorem comesOf_vendors (t : Target) (tree : ModuleTree) : ∀ (vendors : List Vendor)
    (g : Generation), (∀ v ∈ vendors, ∀ a ∈ v.attributes.values, ∀ e ∈ a.nested,
      e.2.children = none) →
    ∀ f ∈ (vendors.foldl (vendor t tree) g).written, f ∈ g.written ∨
      ComesOf (vendors.flatMap fun v => spotsOf (some v) v.attributes.values) f
  | [], _, _ => fun _ hf => Or.inl hf
  | v :: rest, g, hbare => by
    obtain ⟨hv, hrest⟩ := List.forall_mem_cons.mp hbare
    intro f hf
    rw [List.flatMap_cons]
    rcases comesOf_vendors t tree rest _ hrest f hf with hf | ⟨s, hs, hmakes⟩ | hloader
    · rcases mem_written_writeLoader f hf with hf | hloader
      · refine (mem_written_attributeTrees t _ v.attributes.values g hv f hf).imp_right ?_
        rintro ⟨s, hs, hmakes⟩
        exact Or.inl ⟨s, List.mem_append_left _ hs, hmakes⟩
      · exact Or.inr (Or.inr ⟨_, hloader⟩)
    · exact Or.inr (Or.inl ⟨s, List.mem_append_right _ hs, hmakes⟩)
    · exact Or.inr (Or.inr hloader)

end Generation

theorem Registry.WellFormed.comesOf_generate {r : Registry} (h : r.WellFormed) (t : Target)
    (disk : Disk) : ∀ f ∈ (generate t r disk).written, Generation.ComesOf r.spots f := by
  have hbare : ∀ {m : AttributeMap} {owner : Option String},
      (∀ e ∈ m.entries, e.2.WellFormed owner) →
      ∀ a ∈ m.values, ∀ e ∈ a.nested, e.2.children = none := by
    intro m owner hm a ha
    obtain ⟨e, he, rfl⟩ := List.mem_map.mp ha
    exact (hm e he).bare
  intro f hf
  unfold spots
  rcases Generation.comesOf_vendors t r.moduleTree r.vendors.values _ (fun v hv => by
    obtain ⟨e, he, rfl⟩ := List.mem_map.mp hv
    exact hbare (h.vendors e he).attributes) f hf with hf | ⟨s, hs, hmakes⟩ | hloader
  · rcases Generation.mem_written_writeLoader f hf with hf | hloader
    · rcases Generation.mem_written_attributeTrees t _ r.attributes.values _
        (hbare h.attributes) f hf with hf | ⟨s, hs, hmakes⟩
      · cases hf
      · exact Or.inl ⟨s, List.mem_append_left _ hs, hmakes⟩
    · exact Or.inr ⟨_, hloader⟩
  · exact Or.inl ⟨s, List.mem_append_right _ hs, hmakes⟩
  · exact Or.inr hloader

/-! ### The numbers of the attribute around -/

/-- The number of the attribute around a nested one. -/
def TypeIds.parentType? : TypeIds → Option UInt32
  | nested _ parentType _ => some parentType
  | _ => none

theorem foundNumber_eq_iff {p : Attribute} {elder : List Attribute} :
    foundNumber p elder = p.number ↔ ∀ e, lastNamesake? p elder = some e → e.number = p.number := by
  unfold foundNumber
  cases h : lastNamesake? p elder with
  | none => simp
  | some e => simp

/-- **What identifies a nested attribute.** The module of an attribute that is nested in `p` after
`elder` has the number that is found for `p`. Its type codes are those of an attribute nested in `p`
exactly if the last of `elder` with the sanitized name of `p`, if there is one, has the number of
`p`. -/
theorem Reading.child_ids (r : Reading) (t : Target) (disk : Disk) {f : WrittenFile}
    {m : AttributeModule} (hf : f ∈ (generate t r.registry disk).written)
    (hm : f.artifact = .attributeModule m) {vendor : Option Vendor} {p c : Attribute}
    {elder younger : List Attribute} (hp : r.registry.Has vendor p)
    (hc : p.nested.map (·.2) = elder ++ c :: younger) (hname : m.subject.name = c.name) :
    m.subject = c ∧
    m.ids = .nested ((vendor.map (·.number)).getD 0) (foundNumber p elder) c.number ∧
    ((m.ids.parentType? = some p.number ∧
        m.ids.vsaType? = some (TypeCode.nestedType c.number p.number) ∧
        m.ids.typeId = TypeCode.vendorType ((vendor.map (·.number)).getD 0)
          (TypeCode.nestedType c.number p.number)) ↔
      ∀ e, lastNamesake? p elder = some e → e.number = p.number) := by
  rcases r.wellFormed.comesOf_generate t disk f hf with ⟨s, hs, m', hm', hsubject, hids⟩ | ⟨l, hl⟩
  · rw [hm] at hm'
    cases hm'
    have hspot : s = ⟨vendor, some (p, elder), c⟩ :=
      r.spot_unique hs (Registry.mem_spots_of_nested hp hc) (by rw [← hsubject, hname])
    rw [hspot] at hsubject hids
    have hids' : m.ids = .nested ((vendor.map (·.number)).getD 0) (foundNumber p elder) c.number :=
      hids
    refine ⟨hsubject, hids', ?_⟩
    rw [hids', ← foundNumber_eq_iff]
    constructor
    · rintro ⟨hparent, -, -⟩
      exact Option.some.inj hparent
    · intro hfound
      rw [hfound]
      exact ⟨rfl, rfl, rfl⟩
  · rw [hm] at hl
    cases hl

/-- A reading of an attribute with two others in it, the first of which has its sanitized name. -/
def namesakeReading : Reading :=
  ⟨default, [.text <| "ATTRIBUTE Foo-Bar 5 tlv\nBEGIN-TLV Foo-Bar\n" ++
    "ATTRIBUTE Foo_Bar 7 string\nATTRIBUTE X 1 string\n"], false⟩

/-- The attribute `Foo_Bar`. -/
def namesake : Attribute := Declaration.toAttribute ⟨"Foo_Bar", 7, "string", none, none⟩

/-- The attribute `X`. -/
def afterNamesake : Attribute := Declaration.toAttribute ⟨"X", 1, "string", none, none⟩

/-- The attribute `Foo-Bar`. -/
def namesakeParent : Attribute :=
  (Attribute.addChild (Declaration.toAttribute ⟨"Foo-Bar", 5, "tlv", none, none⟩)
    "Foo_Bar" namesake).addChild "X" afterNamesake

theorem registry_namesakeReading :
    namesakeReading.registry = ⟨⟨[("Foo-Bar", namesakeParent)]⟩, ∅⟩ := by
  decide +kernel

/-- The name of the attribute in whose module something goes. -/
def Artifact.subjectName? : Artifact → Option String
  | attributeModule m => some m.subject.name
  | loaderModule _ => none

/-- The module of `X`, in `Foo-Bar` with the number 5, has the number 7 of `Foo_Bar`. -/
theorem Reading.child_ids_of_namesake : ∃ f m,
    f ∈ (generate default namesakeReading.registry .empty).written ∧
    f.artifact = .attributeModule m ∧ m.subject.name = "X" ∧ m.ids = .nested 0 7 1 := by
  have hnames : "X" ∈ (generate default ⟨⟨[("Foo-Bar", namesakeParent)]⟩, ∅⟩
      .empty).written.filterMap fun f => f.artifact.subjectName? := by
    decide +kernel
  rw [← registry_namesakeReading] at hnames
  obtain ⟨f, hf, hX⟩ := List.mem_filterMap.mp hnames
  cases hm : f.artifact with
  | loaderModule l => rw [hm] at hX; cases hX
  | attributeModule m =>
    rw [hm] at hX
    have hname : m.subject.name = "X" := Option.some.inj hX
    have hp : namesakeReading.registry.Has none namesakeParent := by
      rw [registry_namesakeReading]
      exact List.mem_singleton_self _
    have hc : namesakeParent.nested.map (·.2) = [namesake] ++ afterNamesake :: [] := by
      decide +kernel
    have hfound : foundNumber namesakeParent [namesake] = 7 := by decide +kernel
    obtain ⟨-, hids, -⟩ := namesakeReading.child_ids default .empty hf hm hp hc hname
    rw [hfound] at hids
    exact ⟨f, m, hf, hm, hname, hids⟩

end RadiusDictionary
