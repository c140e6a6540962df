import Mathlib.Data.List.Nodup
import RadiusDictionary.Proofs.Generation.Plans
import RadiusDictionary.Proofs.Generation.Tree

/-! # The modules that are rendered

A module is rendered when the attributes nested in its own are done; then it is written, if the disk
allows, and it may be taken back. `treeRenderings` are the modules rendered on the way through an
attribute, written or not, and `renderings` those of a whole registry. Their paths differ, and what
is written is among them (`renders_generate`): a path stands for one module, whatever comes of it.
They are the modules of the registry's attributes (`subject_renderings`). -/

namespace RadiusDictionary

/-- A module that is rendered, and the path of its file. -/
structure Rendering where
  path : Path
  content : AttributeModule

namespace Generation

/-- The module that is rendered last for an attribute. -/
def ownRendering (scope : Scope) (place : Place) (a : Attribute) (ids : TypeIds)
    (nested : NestedModules) : Rendering :=
  ⟨place.file a.toDeclaration, attributeModule scope place a ids nested.modules⟩

@[simp] theorem path_ownRendering (scope : Scope) (place : Place) (a : Attribute) (ids : TypeIds)
    (nested : NestedModules) :
    (ownRendering scope place a ids nested).path = place.file a.toDeclaration := by
  dsimp only [ownRendering]

mutual

/-- The modules that generating an attribute renders. -/
def treeRenderings (t : Target) (scope : Scope) (place : Place) :
    Attribute → Generation → List Rendering
  | ⟨d, values, children⟩, g =>
    let a : Attribute := ⟨d, values, children⟩
    match (g.reach a).idsAt scope place a with
    | .error _ => []
    | .ok ids =>
      match ((g.reach a).setNumber d).claim? (place.file d) with
      | none => []
      | some g =>
        match children with
        | none => [ownRendering scope place a ids ⟨[], []⟩]
        | some ⟨entries⟩ =>
          nestedRenderings t scope place d entries g ++
            [ownRendering scope place a ids (nestedTrees t scope place d entries g).2]

/-- The modules that generating the attributes nested in `d` renders. -/
def nestedRenderings (t : Target) (scope : Scope) (place : Place) (d : Declaration) :
    List (String × Attribute) → Generation → List Rendering
  | [], _ => []
  | (_, child) :: rest, g =>
    let place' := place.below d child.toDeclaration
    treeRenderings t scope place' child g ++
      nestedRenderings t scope place d rest (attributeTree t scope place' child g).1

end

/-- The modules that generating the attributes of a loader renders. -/
def scopeRenderings (t : Target) (scope : Scope) : List Attribute → Generation → List Rendering
  | [], _ => []
  | a :: rest, g =>
    treeRenderings t scope (.top scope a.toDeclaration) a g ++
      scopeRenderings t scope rest (attributeTree t scope (.top scope a.toDeclaration) a g).1

/-- The modules that running plans renders. -/
def planRenderings (t : Target) : List Plan → Generation → List Rendering
  | [], _ => []
  | p :: rest, g => scopeRenderings t p.scope p.attributes g ++ planRenderings t rest (p.run t g)

/-- The modules that generating a registry renders. -/
def renderings (t : Target) (r : Registry) (disk : Disk) : List Rendering :=
  planRenderings t (plans t r) (.start disk)

/-! ### The ways through an attribute -/

section Ways

variable {t : Target} {scope : Scope} {place : Place} {a : Attribute} {g g' : Generation}
  {ids : TypeIds}

theorem treeRenderings_of_unresolved {e : GenerationError}
    (h : (g.reach a).idsAt scope place a = .error e) : treeRenderings t scope place a g = [] := by
  obtain ⟨d, values, children⟩ := a
  unfold treeRenderings
  simp only [h]

theorem treeRenderings_of_taken (hids : (g.reach a).idsAt scope place a = .ok ids)
    (h : ((g.reach a).setNumber a.toDeclaration).claim? (place.file a.toDeclaration) = none) :
    treeRenderings t scope place a g = [] := by
  obtain ⟨d, values, children⟩ := a
  unfold treeRenderings
  simp only [hids, h]

theorem treeRenderings_of_claimed (hids : (g.reach a).idsAt scope place a = .ok ids)
    (h : ((g.reach a).setNumber a.toDeclaration).claim? (place.file a.toDeclaration) = some g') :
    treeRenderings t scope place a g =
      nestedRenderings t scope place a.toDeclaration a.nested g' ++
        [ownRendering scope place a ids
          (nestedTrees t scope place a.toDeclaration a.nested g').2] := by
  obtain ⟨d, values, _ | ⟨⟨entries⟩⟩⟩ := a
  · unfold treeRenderings
    simp only [hids, h]
    rfl
  · unfold treeRenderings
    simp only [hids, h]
    rfl

end Ways

/-! ### What is rendered has its path to itself -/

/-- Generation renders modules on the way: under paths that were not claimed before, none twice, and
what it writes for attributes is among them. -/
structure Renders (rendered : List Rendering) (g g' : Generation) : Prop where
  claimed : g.claimed ⊆ g'.claimed
  key_claimed : ∀ p ∈ rendered, p.path.key ∈ g'.claimed ∧ p.path.key ∉ g.claimed
  nodup : (rendered.map fun p => p.path.key).Nodup
  written : ∀ f ∈ g'.written, ∀ m, f.artifact = .attributeModule m →
    f ∈ g.written ∨ ⟨f.path, m⟩ ∈ rendered

namespace Renders

variable {rendered rendered' : List Rendering} {g g' g'' : Generation}

/-- Nothing is rendered. -/
theorem of_eq (hwritten : g'.written = g.written) (hclaimed : g.claimed ⊆ g'.claimed) :
    Renders [] g g' := by
  refine ⟨hclaimed, List.forall_mem_nil _, List.nodup_nil, fun f hf m _ => Or.inl ?_⟩
  rwa [hwritten] at hf

theorem trans (h : Renders rendered g g') (h' : Renders rendered' g' g'') :
    Renders (rendered ++ rendered') g g'' := by
  refine ⟨fun key hkey => h'.claimed (h.claimed hkey), fun p hp => ?_, ?_, fun f hf m hm => ?_⟩
  · rcases List.mem_append.mp hp with hp | hp
    · obtain ⟨hnow, hbefore⟩ := h.key_claimed p hp
      exact ⟨h'.claimed hnow, hbefore⟩
    · obtain ⟨hnow, hbefore⟩ := h'.key_claimed p hp
      exact ⟨hnow, fun hkey => hbefore (h.claimed hkey)⟩
  · rw [List.map_append]
    refine List.nodup_append.mpr ⟨h.nodup, h'.nodup, fun key hkey key' hkey' => ?_⟩
    obtain ⟨p, hp, rfl⟩ := List.mem_map.mp hkey
    obtain ⟨p', hp', rfl⟩ := List.mem_map.mp hkey'
    intro heq
    exact (h'.key_claimed p' hp').2 (heq ▸ (h.key_claimed p hp).1)
  · rcases h'.written f hf m hm with hf | hf
    · exact (h.written f hf m hm).imp_right (List.mem_append_left _)
    · exact Or.inr (List.mem_append_right _ hf)

/-- What is rendered last was claimed first. -/
theorem close {t : Target} {scope : Scope} {place : Place} {a : Attribute} {ids : TypeIds}
    {mark : Nat} {nested : NestedModules}
    (hclaim : g.claim? (place.file a.toDeclaration) = some g') (h : Renders rendered g' g'') :
    Renders (rendered ++ [ownRendering scope place a ids nested]) g
      (Generation.close t scope place a ids mark nested g'').1 := by
  obtain ⟨-, hclaimed, hnew⟩ := close_spec t scope place a ids mark nested g''
  obtain ⟨hkey, rfl⟩ := claim?_eq_some hclaim
  have hown : (place.file a.toDeclaration).key ∈ g''.claimed := h.claimed List.mem_cons_self
  refine ⟨?_, fun p hp => ?_, ?_, fun f hf m hm => ?_⟩
  · rw [hclaimed]
    exact fun key hkey => h.claimed (List.mem_cons_of_mem _ hkey)
  · rw [hclaimed]
    rcases List.mem_append.mp hp with hp | hp
    · obtain ⟨hnow, hbefore⟩ := h.key_claimed p hp
      exact ⟨hnow, fun hkey => hbefore (List.mem_cons_of_mem _ hkey)⟩
    · rw [List.mem_singleton.mp hp, path_ownRendering]
      exact ⟨hown, hkey⟩
  · rw [List.map_append, List.map_singleton, path_ownRendering]
    refine List.nodup_append.mpr ⟨h.nodup, List.nodup_singleton _, fun key hkey key' hkey' => ?_⟩
    obtain ⟨p, hp, rfl⟩ := List.mem_map.mp hkey
    intro heq
    apply (h.key_claimed p hp).2
    rw [heq, List.mem_singleton.mp hkey']
    exact List.mem_cons_self
  · rcases hnew f hf with hf | rfl
    · exact (h.written f hf m hm).imp_right (List.mem_append_left _)
    · cases hm
      dsimp only [ownRendering]
      exact Or.inr (List.mem_append_right _ List.mem_cons_self)

theorem writeLoader (t : Target) (folder : Path) (m : LoaderModule) (g : Generation) :
    Renders [] g (g.writeLoader t folder m) := by
  have hway := loaderWay t folder m g
  generalize g.writeLoader t folder m = g'', loaderWrites t folder m g = files at hway ⊢
  cases hway with
  | taken hclaim => exact .of_eq rfl (List.Subset.refl _)
  | failed hclaim hwrite =>
    obtain ⟨-, rfl⟩ := claim?_eq_some hclaim
    obtain ⟨disk, -, rfl⟩ := write_eq_some hwrite
    exact .of_eq rfl (List.subset_cons_self _ _)
  | written hclaim hwrite =>
    obtain ⟨-, rfl⟩ := claim?_eq_some hclaim
    obtain ⟨disk, -, rfl⟩ := write_eq_none hwrite
    refine ⟨List.subset_cons_self _ _, List.forall_mem_nil _, List.nodup_nil, fun f hf m hm => ?_⟩
    rcases List.mem_append.mp hf with hf | hf
    · exact Or.inl hf
    · rw [List.mem_singleton.mp hf] at hm
      cases hm

end Renders

section Subjects

variable {S : Attribute → Prop} (hS : ∀ {a}, S a → ∀ e ∈ a.nested, S e.2)
include hS

theorem treeInvariant_subject (t : Target) (scope : Scope) : TreeInvariant t scope
    (fun place a g _ => S a → ∀ p ∈ treeRenderings t scope place a g, S p.content.subject)
    (fun place d entries g _ => (∀ e ∈ entries, S e.2) →
      ∀ p ∈ nestedRenderings t scope place d entries g, S p.content.subject) where
  unresolved h _ := by
    rw [treeRenderings_of_unresolved h]
    exact List.forall_mem_nil _
  taken hids h _ := by
    rw [treeRenderings_of_taken hids h]
    exact List.forall_mem_nil _
  claimed hids h hnested ha := by
    rw [treeRenderings_of_claimed hids h, List.forall_mem_append]
    exact ⟨hnested (hS ha), List.forall_mem_singleton.mpr ha⟩
  nil _ := List.forall_mem_nil _
  cons hchild hrest hentries := by
    obtain ⟨hfirst, hentries⟩ := List.forall_mem_cons.mp hentries
    exact List.forall_mem_append.mpr ⟨hchild hfirst, hrest hentries⟩

theorem subject_scopeRenderings (t : Target) (scope : Scope) : ∀ (attributes : List Attribute)
    (g : Generation), (∀ a ∈ attributes, S a) →
    ∀ p ∈ scopeRenderings t scope attributes g, S p.content.subject
  | [], _, _ => List.forall_mem_nil _
  | a :: rest, g, hattributes => by
    obtain ⟨ha, hrest⟩ := List.forall_mem_cons.mp hattributes
    exact List.forall_mem_append.mpr
      ⟨(treeInvariant_subject hS t scope).attributeTree a _ g ha,
        subject_scopeRenderings t scope rest _ hrest⟩

theorem subject_planRenderings (t : Target) : ∀ (ps : List Plan) (g : Generation),
    (∀ p ∈ ps, ∀ a ∈ p.attributes, S a) →
    ∀ p ∈ planRenderings t ps g, S p.content.subject
  | [], _, _ => List.forall_mem_nil _
  | plan :: rest, g, hplans => by
    obtain ⟨hplan, hrest⟩ := List.forall_mem_cons.mp hplans
    exact List.forall_mem_append.mpr
      ⟨subject_scopeRenderings hS t plan.scope plan.attributes g hplan,
        subject_planRenderings t rest _ hrest⟩

/-- **The modules of a registry are those of its attributes:** what holds of these, and of what is
nested in whatever it holds of, holds of all for which a module is rendered. -/
theorem subject_renderings (t : Target) {r : Registry} (disk : Disk)
    (hattributes : ∀ a ∈ r.attributes.values, S a)
    (hvendors : ∀ v ∈ r.vendors.values, ∀ a ∈ v.attributes.values, S a) :
    ∀ p ∈ renderings t r disk, S p.content.subject := by
  refine subject_planRenderings hS t (plans t r) _ fun plan hplan => ?_
  obtain rfl | ⟨v, hv, rfl⟩ := mem_plans hplan
  · exact hattributes
  · exact hvendors v hv

end Subjects

end Generation

end RadiusDictionary
