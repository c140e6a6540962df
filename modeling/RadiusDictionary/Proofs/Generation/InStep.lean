import Mathlib.Data.List.Nodup
import RadiusDictionary.Proofs.Generation.Tree

/-! # Files and registrations in step

Generating an attribute writes files, nested ones first, and returns registrations for the loader.
If the attribute's own file cannot be written, those of nested attributes are taken back. The loader
declares what the registrations name, so the two have to agree: the files that are left on record
are those of the registrations, none twice (`files_in_step`). It is all or nothing: with an
`obstacle?` nothing is recorded or registered, and no file that was written lies on the disk.

* `treeWrites`: all files that generating an attribute writes, those that are taken back included.
* `Advance`: what generation adds to what there was; `treeInvariant_agrees` says it of an
  attribute, by the ways through it. -/

namespace RadiusDictionary

/-! ### The files of registrations -/

/-- The file of a module, given by the modules on the way to it from the loader's folder. -/
def moduleFile (folder : Path) : List String → Path
  | [] => folder
  | [last] => folder.joinText (last ++ ".rs")
  | outer :: next :: rest => moduleFile (folder.joinText outer) (next :: rest)

/-- The file of the module that a registration names. -/
def Registration.file (folder : Path) (r : Registration) : Path := moduleFile folder r.path

theorem moduleFile_append : ∀ (around : List String) (folder : Path) (last : String),
    moduleFile folder (around ++ [last]) = (around.foldl Path.joinText folder).joinText (last ++ ".rs")
  | [], _, _ => rfl
  | [_], _, _ => rfl
  | outer :: next :: rest, folder, last => by
    have ih := moduleFile_append (next :: rest) (folder.joinText outer) last
    rw [List.cons_append, List.cons_append, moduleFile, ← List.cons_append, ih]
    rfl

namespace Place

/-- The folder of the place is that of the modules around it. -/
def Fits (place : Place) (scope : Scope) : Prop :=
  place.folder = place.around.foldl Path.joinText scope.folder

theorem folder_below (place : Place) (d child : Declaration) :
    (place.below d child).folder = place.folder.joinText (moduleName d.name) := by
  dsimp only [below]

theorem around_below (place : Place) (d child : Declaration) :
    (place.below d child).around = place.around ++ [moduleName d.name] := by
  dsimp only [below]

theorem fits_top (scope : Scope) (d : Declaration) : (top scope d).Fits scope := rfl

theorem Fits.below {place : Place} {scope : Scope} (h : place.Fits scope) (d child : Declaration) :
    (place.below d child).Fits scope := by
  unfold Fits
  rw [folder_below, around_below, List.foldl_append, ← h, List.foldl_cons, List.foldl_nil]

theorem Fits.file_ownRegistration {place : Place} {scope : Scope} (h : place.Fits scope)
    (a : Attribute) : (Generation.ownRegistration place a).file scope.folder =
      place.file a.toDeclaration := by
  unfold Registration.file Generation.ownRegistration modulePath file
  rw [moduleFile_append, ← h]

end Place

namespace Generation

/-! ### The files that are written -/

/-- The file that the last step of generating an attribute writes, if it can. -/
def closeWrites (t : Target) (scope : Scope) (place : Place) (a : Attribute) (ids : TypeIds)
    (nested : NestedModules) (g : Generation) : List WrittenFile :=
  let own : WrittenFile := ⟨place.file a.toDeclaration, ownArtifact scope place a ids nested⟩
  match (g.write t own.path own.artifact).2 with
  | none => [own]
  | some _ => []

mutual

/-- The files that generating an attribute writes, whether or not they are taken back. -/
def treeWrites (t : Target) (scope : Scope) (place : Place) :
    Attribute → Generation → List WrittenFile
  | ⟨d, values, children⟩, g =>
    let a : Attribute := ⟨d, values, children⟩
    match (g.reach a).idsAt scope place a with
    | .error _ => []
    | .ok ids =>
      match ((g.reach a).setNumber d).claim? (place.file d) with
      | none => []
      | some g =>
        match children with
        | none => closeWrites t scope place a ids ⟨[], []⟩ g
        | some ⟨entries⟩ =>
          let (after, nested) := nestedTrees t scope place d entries g
          nestedWrites t scope place d entries g ++ closeWrites t scope place a ids nested after

/-- The files that generating the attributes nested in `d` writes. -/
def nestedWrites (t : Target) (scope : Scope) (place : Place) (d : Declaration) :
    List (String × Attribute) → Generation → List WrittenFile
  | [], _ => []
  | (_, child) :: rest, g =>
    let place' := place.below d child.toDeclaration
    treeWrites t scope place' child g ++
      nestedWrites t scope place d rest (attributeTree t scope place' child g).1

end

/-- Why an attribute is not generated, if it is not. -/
def obstacle? (t : Target) (scope : Scope) (place : Place) (a : Attribute) (g : Generation) :
    Option GenerationError :=
  let path := place.file a.toDeclaration
  match (g.reach a).idsAt scope place a with
  | .error e => some e
  | .ok ids =>
    match ((g.reach a).setNumber a.toDeclaration).claim? path with
    | none => some (.alreadyGenerated path)
    | some g =>
      let (after, nested) := nestedTrees t scope place a.toDeclaration a.nested g
      (after.write t path (ownArtifact scope place a ids nested)).2

section Ways

variable {t : Target} {scope : Scope} {place : Place} {a : Attribute} {g g' : Generation}
  {ids : TypeIds}

theorem treeWrites_of_unresolved {e : GenerationError}
    (h : (g.reach a).idsAt scope place a = .error e) : treeWrites t scope place a g = [] := by
  obtain ⟨d, values, children⟩ := a
  unfold treeWrites
  simp only [h]

theorem treeWrites_of_taken (hids : (g.reach a).idsAt scope place a = .ok ids)
    (h : ((g.reach a).setNumber a.toDeclaration).claim? (place.file a.toDeclaration) = none) :
    treeWrites t scope place a g = [] := by
  obtain ⟨d, values, children⟩ := a
  unfold treeWrites
  simp only [hids, h]

theorem treeWrites_of_claimed (hids : (g.reach a).idsAt scope place a = .ok ids)
    (h : ((g.reach a).setNumber a.toDeclaration).claim? (place.file a.toDeclaration) = some g') :
    treeWrites t scope place a g = nestedWrites t scope place a.toDeclaration a.nested g' ++
      closeWrites t scope place a ids
        (nestedTrees t scope place a.toDeclaration a.nested g').2
        (nestedTrees t scope place a.toDeclaration a.nested g').1 := by
  obtain ⟨d, values, _ | ⟨⟨entries⟩⟩⟩ := a
  · rw [show Attribute.nested ⟨d, values, none⟩ = [] from rfl, nestedTrees, nestedWrites,
      List.nil_append]
    unfold treeWrites
    simp only [hids, h]
  · rw [show Attribute.nested ⟨d, values, some ⟨entries⟩⟩ = entries from rfl]
    unfold treeWrites
    simp only [hids, h]

theorem closeWrites_of_write_eq_none {nested : NestedModules}
    (h : g.write t (place.file a.toDeclaration) (ownArtifact scope place a ids nested) =
      (g', none)) :
    closeWrites t scope place a ids nested g =
      [⟨place.file a.toDeclaration, ownArtifact scope place a ids nested⟩] := by
  unfold closeWrites
  simp only [h]

theorem closeWrites_of_write_eq_some {nested : NestedModules} {e : GenerationError}
    (h : g.write t (place.file a.toDeclaration) (ownArtifact scope place a ids nested) =
      (g', some e)) :
    closeWrites t scope place a ids nested g = [] := by
  unfold closeWrites
  simp only [h]

theorem obstacle?_of_unresolved {e : GenerationError}
    (h : (g.reach a).idsAt scope place a = .error e) : obstacle? t scope place a g = some e := by
  unfold obstacle?
  simp only [h]

theorem obstacle?_of_taken (hids : (g.reach a).idsAt scope place a = .ok ids)
    (h : ((g.reach a).setNumber a.toDeclaration).claim? (place.file a.toDeclaration) = none) :
    obstacle? t scope place a g = some (.alreadyGenerated (place.file a.toDeclaration)) := by
  unfold obstacle?
  simp only [hids, h]

theorem obstacle?_of_claimed (hids : (g.reach a).idsAt scope place a = .ok ids)
    (h : ((g.reach a).setNumber a.toDeclaration).claim? (place.file a.toDeclaration) = some g') :
    obstacle? t scope place a g = ((nestedTrees t scope place a.toDeclaration a.nested g').1.write t
      (place.file a.toDeclaration) (ownArtifact scope place a ids
        (nestedTrees t scope place a.toDeclaration a.nested g').2)).2 := by
  unfold obstacle?
  simp only [hids, h]

end Ways

/-! ### What is added -/

/-- What generation adds: it writes the files `touched`, of which `new` are on record in the end.
Their paths were not claimed before, and nothing else that was written lies on the disk. -/
structure Advance (touched new : List WrittenFile) (g g' : Generation) : Prop where
  written_eq : g'.written = g.written ++ new
  subset : new ⊆ touched
  claimed : g.claimed ⊆ g'.claimed
  key_claimed : ∀ f ∈ new, f.path.key ∈ g'.claimed ∧ f.path.key ∉ g.claimed
  nodup : (new.map fun f => f.path.key).Nodup
  disk : Disk.Change (touched.map (·.path)) (new.map (·.path)) g.disk g'.disk

namespace Advance

variable {g g' g'' : Generation} {touched new touched' new' : List WrittenFile}

/-- Nothing is written. -/
theorem of_eq (hdisk : g'.disk = g.disk) (hwritten : g'.written = g.written)
    (hclaimed : g.claimed ⊆ g'.claimed) : Advance [] [] g g' :=
  ⟨by rw [hwritten, List.append_nil], List.Subset.refl _, hclaimed, List.forall_mem_nil _, List.nodup_nil,
    hdisk ▸ .refl g.disk⟩

/-- **What is added adds up.** -/
theorem trans (h : Advance touched new g g') (h' : Advance touched' new' g' g'') :
    Advance (touched ++ touched') (new ++ new') g g'' := by
  refine ⟨?_, ?_, fun key hkey => h'.claimed (h.claimed hkey), fun f hf => ?_, ?_, ?_⟩
  · rw [h'.written_eq, h.written_eq, List.append_assoc]
  · exact List.append_subset.mpr ⟨fun f hf => List.mem_append_left _ (h.subset hf),
      fun f hf => List.mem_append_right _ (h'.subset hf)⟩
  · rcases List.mem_append.mp hf with hf | hf
    · obtain ⟨hnow, hbefore⟩ := h.key_claimed f hf
      exact ⟨h'.claimed hnow, hbefore⟩
    · obtain ⟨hnow, hbefore⟩ := h'.key_claimed f hf
      exact ⟨hnow, fun hkey => hbefore (h.claimed hkey)⟩
  · -- What the second part records was not claimed after the first, which had its own claimed.
    rw [List.map_append]
    refine List.nodup_append.mpr ⟨h.nodup, h'.nodup, fun key hkey key' hkey' => ?_⟩
    obtain ⟨f, hf, rfl⟩ := List.mem_map.mp hkey
    obtain ⟨f', hf', rfl⟩ := List.mem_map.mp hkey'
    intro heq
    exact (h'.key_claimed f' hf').2 (heq ▸ (h.key_claimed f hf).1)
  · rw [List.map_append, List.map_append]
    exact h.disk.trans h'.disk

/-- What is recorded can be taken back. -/
theorem discardFrom (h : Advance touched new g g') :
    Advance touched [] g (g'.discardFrom g.written.length) := by
  obtain ⟨events, heq⟩ := discardFrom_eq g' g.written.length
  have hdisk := h.disk.foldl_without (List.map_subset _ h.subset)
  rw [h.written_eq, List.drop_left, List.take_left] at heq
  rw [heq]
  exact ⟨(List.append_nil _).symm, List.nil_subset _, h.claimed, List.forall_mem_nil _, List.nodup_nil, hdisk⟩

theorem claim? {path : Path} (h : g.claim? path = some g') : Advance [] [] g g' := by
  obtain ⟨-, rfl⟩ := claim?_eq_some h
  exact .of_eq rfl rfl (List.subset_cons_self _ _)

variable {t : Target} {path : Path} {artifact : Artifact} {after : Generation}

/-- A file that was claimed before others is added to them. -/
theorem write (hclaim : g.claim? path = some g') (h : Advance touched new g' after)
    (hwrite : after.write t path artifact = (g'', none)) :
    Advance (touched ++ [⟨path, artifact⟩]) (new ++ [⟨path, artifact⟩]) g g'' := by
  have hall := (claim? hclaim).trans h
  obtain ⟨hkey, rfl⟩ := claim?_eq_some hclaim
  obtain ⟨disk, hdisk, rfl⟩ := write_eq_none hwrite
  refine ⟨?_, ?_, hall.claimed, fun f hf => ?_, ?_, ?_⟩
  · show after.written ++ _ = _
    rw [hall.written_eq, List.nil_append, List.append_assoc]
  · exact List.append_subset.mpr ⟨fun f hf => List.mem_append_left _ (h.subset hf),
      List.subset_append_right _ _⟩
  · rcases List.mem_append.mp hf with hf | hf
    · exact hall.key_claimed f hf
    · rw [List.mem_singleton.mp hf]
      exact ⟨h.claimed List.mem_cons_self, hkey⟩
  · rw [List.map_append]
    refine List.nodup_append.mpr ⟨h.nodup, by simp, fun key hmem key' hmem' => ?_⟩
    obtain ⟨f, hf, rfl⟩ := List.mem_map.mp hmem
    rw [List.map_singleton, List.mem_singleton] at hmem'
    rw [hmem']
    intro heq
    exact (h.key_claimed f hf).2 (heq ▸ List.mem_cons_self)
  · rw [List.map_append, List.map_append]
    exact hall.disk.trans hdisk

/-- A file that cannot be written takes those back that were written since it was claimed. -/
theorem takeBack {e : GenerationError} (hclaim : g.claim? path = some g')
    (h : Advance touched new g' after) (hwrite : after.write t path artifact = (g'', some e))
    (name : String) :
    Advance touched [] g ((g''.fail name e).discardFrom g'.written.length) := by
  obtain ⟨disk, hdisk, rfl⟩ := write_eq_some hwrite
  have hfail : Advance [] [] after (({ after with disk } : Generation).fail name e) :=
    ⟨(List.append_nil _).symm, List.Subset.refl _, List.Subset.refl _, List.forall_mem_nil _, List.nodup_nil, hdisk⟩
  have hall := (h.trans hfail).discardFrom
  rw [List.append_nil] at hall
  exact (claim? hclaim).trans hall

end Advance

/-! ### The ways through an attribute -/

/-- The files that are added to the record and the registrations agree. -/
def Agrees (scope : Scope) (touched : List WrittenFile) (g g' : Generation)
    (registrations : List Registration) : Prop :=
  ∃ new, Advance touched new g g' ∧
    (new.map (·.path)).Perm (registrations.map (·.file scope.folder))

section Ways

variable {t : Target} {scope : Scope} {place : Place} {a : Attribute} {g g' after : Generation}
  {ids : TypeIds} {nested : NestedModules} {touched : List WrittenFile}

theorem agrees_of_eq (hdisk : g'.disk = g.disk) (hwritten : g'.written = g.written)
    (hclaimed : g.claimed ⊆ g'.claimed) : Agrees scope [] g g' [] :=
  ⟨[], .of_eq hdisk hwritten hclaimed, List.Perm.refl _⟩

/-- The last step: the attribute's own file is added to those of the nested attributes, or all are
taken back. -/
theorem agrees_close (hfits : place.Fits scope)
    (hclaim : g.claim? (place.file a.toDeclaration) = some g')
    (h : Agrees scope touched g' after nested.registrations) :
    Agrees scope (touched ++ closeWrites t scope place a ids nested after) g
      (close t scope place a ids g'.written.length nested after).1
      (close t scope place a ids g'.written.length nested after).2 := by
  obtain ⟨new, hadvance, hperm⟩ := h
  rcases hwrite : after.write t (place.file a.toDeclaration) (ownArtifact scope place a ids nested)
    with ⟨g'', _ | e⟩
  · have hall := hadvance.write hclaim hwrite
    rw [close_of_write_eq_none hwrite, closeWrites_of_write_eq_none hwrite]
    refine ⟨_, hall, ?_⟩
    rw [List.map_append, List.map_cons, List.map_nil, List.map_cons, hfits.file_ownRegistration]
    dsimp only
    exact (List.perm_append_singleton _ _).trans (hperm.cons _)
  · have hall := hadvance.takeBack hclaim hwrite a.name
    rw [close_of_write_eq_some hwrite, closeWrites_of_write_eq_some hwrite, List.append_nil]
    exact ⟨[], hall, List.Perm.refl _⟩

/-- **Every way through an attribute keeps files and registrations in step.** -/
theorem treeInvariant_agrees (t : Target) (scope : Scope) : TreeInvariant t scope
    (fun place a g r => place.Fits scope →
      Agrees scope (treeWrites t scope place a g) g r.1 r.2)
    (fun place d entries g r => place.Fits scope →
      Agrees scope (nestedWrites t scope place d entries g) g r.1 r.2.registrations) where
  unresolved h _ := by
    rw [treeWrites_of_unresolved h]
    exact agrees_of_eq rfl rfl (List.Subset.refl _)
  taken {place a g ids} hids h _ := by
    obtain ⟨failures, events, hgiveUp⟩ := giveUp_eq ((g.reach a).setNumber a.toDeclaration) a
      (place.file a.toDeclaration)
    rw [treeWrites_of_taken hids h, hgiveUp]
    exact agrees_of_eq rfl rfl (List.Subset.refl _)
  claimed {place a g g' ids} hids h hnested hfits := by
    rw [treeWrites_of_claimed hids h]
    obtain ⟨new, hadvance, hperm⟩ := agrees_close hfits h (hnested hfits)
    have hreach : Advance [] [] g ((g.reach a).setNumber a.toDeclaration) :=
      .of_eq rfl rfl (List.Subset.refl _)
    exact ⟨new, hreach.trans hadvance, hperm⟩
  nil _ := agrees_of_eq rfl rfl (List.Subset.refl _)
  cons {place d key child rest g} hchild hrest hfits := by
    obtain ⟨new, hadvance, hperm⟩ := hchild (hfits.below d child.toDeclaration)
    obtain ⟨new', hadvance', hperm'⟩ := hrest hfits
    refine ⟨new ++ new', hadvance.trans hadvance', ?_⟩
    rw [registrations_nestedTrees_cons, List.map_append, List.map_append]
    exact hperm.append hperm'

/-! ### All or nothing -/

/-- Without an obstacle the attribute is registered, and with one nothing is. -/
theorem treeInvariant_obstacle (t : Target) (scope : Scope) : TreeInvariant t scope
    (fun place a g r =>
      (obstacle? t scope place a g = none → ownRegistration place a ∈ r.2) ∧
      (obstacle? t scope place a g ≠ none → r.2 = []))
    (fun _ _ _ _ _ => True) where
  unresolved h := by
    rw [obstacle?_of_unresolved h]
    exact ⟨nofun, fun _ => rfl⟩
  taken hids h := by
    rw [obstacle?_of_taken hids h]
    exact ⟨nofun, fun _ => rfl⟩
  claimed {place a g g' ids} hids h _ := by
    rw [obstacle?_of_claimed hids h]
    rcases hwrite : (nestedTrees t scope place a.toDeclaration a.nested g').1.write t
      (place.file a.toDeclaration) (ownArtifact scope place a ids
        (nestedTrees t scope place a.toDeclaration a.nested g').2) with ⟨g'', _ | e⟩
    · rw [close_of_write_eq_none hwrite]
      exact ⟨fun _ => List.mem_cons_self, fun hne => absurd rfl hne⟩
    · rw [close_of_write_eq_some hwrite]
      exact ⟨nofun, fun _ => rfl⟩
  nil := trivial
  cons _ _ := trivial

theorem obstacle?_of_mem_claimed (h : (place.file a.toDeclaration).key ∈ g.claimed) :
    obstacle? t scope place a g ≠ none := by
  cases hids : (g.reach a).idsAt scope place a with
  | error e =>
    rw [obstacle?_of_unresolved hids]
    nofun
  | ok ids =>
    rw [obstacle?_of_taken hids (claim?_eq_none_iff.mpr h)]
    nofun

/-- **Files and registrations in step.** The files that generating an attribute adds to the record
are those of the registrations it returns, and none is there twice. A claimed path is an obstacle.
With an obstacle nothing is recorded or registered, every file on the disk was there before, and
none that was written on the way is left. -/
theorem files_in_step (t : Target) (a : Attribute) (g : Generation) (hfits : place.Fits scope) :
    (∃ new, (attributeTree t scope place a g).1.written = g.written ++ new ∧
      (new.map (·.path)).Perm
        ((attributeTree t scope place a g).2.map (·.file scope.folder)) ∧
      (new.map fun f => f.path.key).Nodup ∧ (attributeTree t scope place a g).2.Nodup ∧
      (obstacle? t scope place a g = none → place.file a.toDeclaration ∈ new.map (·.path))) ∧
    ((place.file a.toDeclaration).key ∈ g.claimed → obstacle? t scope place a g ≠ none) ∧
    (obstacle? t scope place a g ≠ none →
      (attributeTree t scope place a g).1.written = g.written ∧
      (attributeTree t scope place a g).2 = [] ∧
      (∀ loc content,
        Disk.entry? (attributeTree t scope place a g).1.disk loc = some (.file content) →
          Disk.entry? g.disk loc = some (.file content)) ∧
      ∀ f ∈ treeWrites t scope place a g,
        (attributeTree t scope place a g).1.disk.holdsFile f.path = false) := by
  obtain ⟨new, hadvance, hperm⟩ := (treeInvariant_agrees t scope).attributeTree a place g hfits
  obtain ⟨hregistered, hnone⟩ := (treeInvariant_obstacle t scope).attributeTree a place g
  refine ⟨⟨new, hadvance.written_eq, hperm, hadvance.nodup, ?_, fun h => ?_⟩,
    obstacle?_of_mem_claimed, fun h => ?_⟩
  · have hpaths : (new.map (·.path)).Nodup := by
      refine List.Nodup.of_map Path.key ?_
      rw [List.map_map]
      exact hadvance.nodup
    exact List.Nodup.of_map _ (hperm.nodup_iff.mp hpaths)
  · rw [hperm.mem_iff, ← hfits.file_ownRegistration]
    exact List.mem_map_of_mem (hregistered h)
  · have hnew : new = [] := by
      rw [hnone h, List.map_nil, List.perm_nil, List.map_eq_nil_iff] at hperm
      exact hperm
    subst hnew
    refine ⟨?_, hnone h, fun loc content hentry => ?_, fun f hf => ?_⟩
    · rw [hadvance.written_eq, List.append_nil]
    · rcases hadvance.disk.file loc content hentry with ⟨p, hp, -⟩ | ⟨hold, -⟩
      · cases hp
      · exact hold
    · exact hadvance.disk.holdsFile_eq_false (List.mem_map_of_mem hf)

end Ways

/-! ### A folder in the way -/

/-- The attributes without a vendor, generated in the folder `out`. -/
def outScope : Scope := ⟨none, ⟨["out"]⟩⟩

/-- The attribute `Outer` with `Inner` in it. -/
def outerAttribute : Attribute :=
  Attribute.addChild (Declaration.toAttribute ⟨"Outer", 10, "tlv", none, none⟩) "Inner"
    (Declaration.toAttribute ⟨"Inner", 1, "string", none, none⟩)

/-- A folder lies where the module of `Outer` goes. -/
def blockedDisk : Disk := ⟨⟨[(["out"], .folder), (["attr_outer.rs", "out"], .folder)]⟩, []⟩

/-- Where `Outer` goes. -/
def outerPlace : Place := .top outScope outerAttribute.toDeclaration

/-- The module of `Inner` is written and taken back. -/
theorem files_in_step_of_blocked :
    (treeWrites default outScope outerPlace outerAttribute (start blockedDisk)).map (·.path) =
      [⟨["out", "attr_outer", "attr_inner.rs"]⟩] ∧
    (attributeTree default outScope outerPlace outerAttribute (start blockedDisk)).2 = [] ∧
    ∀ f ∈ treeWrites default outScope outerPlace outerAttribute (start blockedDisk),
      (attributeTree default outScope outerPlace outerAttribute
        (start blockedDisk)).1.disk.holdsFile f.path = false := by
  have hfits : outerPlace.Fits outScope := Place.fits_top _ _
  obtain ⟨-, hnone, -, hgone⟩ := (files_in_step default outerAttribute (start blockedDisk)
    hfits).2.2 (by decide +kernel)
  exact ⟨by decide +kernel, hnone, hgone⟩

end Generation

end RadiusDictionary
