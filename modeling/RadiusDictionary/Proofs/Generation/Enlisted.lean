import RadiusDictionary.Proofs.Generation.InStep
import RadiusDictionary.Proofs.Generation.Plans
import RadiusDictionary.Proofs.Path

/-! # What a loader has to register

The registrations that come of the attributes of a loader list the files on record one by one: each
by its path, with its type, and with the vendor of the loader (`Enlisted`). On the way no path of a
loader is claimed and no failure is forgotten (`Keeps`). So, where the disk allows, a plan leaves the
files that its loader registers, and the loader itself unless its path was claimed by a plan before
(`Plan.run_spec`). -/

namespace RadiusDictionary

/-! ### Claims and failures -/

/-- Whether the path is that of a loader, going by the name of the file. -/
def Path.Key.IsLoader (key : Path.Key) : Prop := key.names.head? = some "mod.rs"

theorem Path.isLoader_joinText (p : Path) : (p.joinText "mod.rs").key.IsLoader := by
  have hplain : Plain "mod.rs" := ⟨by decide, by decide, by decide⟩
  unfold Key.IsLoader key
  dsimp only
  rw [names_joinText hplain, List.reverse_append]
  rfl

theorem Place.not_isLoader_file (place : Place) (d : Declaration) :
    ¬ (place.file d).key.IsLoader := by
  obtain ⟨hplain, hne⟩ := plain_file d.name
  unfold Path.Key.IsLoader Path.key file
  dsimp only
  rw [Path.names_joinText hplain, List.reverse_append]
  intro h
  exact hne (Option.some.inj h)

/-- Whether a folder or file could not be written. -/
def GenerationError.isFile : GenerationError → Bool
  | file _ => true
  | _ => false

namespace Generation

/-- Failures stay on record, and no path of a loader is claimed. -/
structure Keeps (g g' : Generation) : Prop where
  failures : g.failures ⊆ g'.failures
  loaders : ∀ key : Path.Key, key.IsLoader → (key ∈ g'.claimed ↔ key ∈ g.claimed)

namespace Keeps

variable {g g' g'' : Generation}

theorem of_eq (hfailures : g.failures ⊆ g'.failures) (hclaimed : g'.claimed = g.claimed) :
    Keeps g g' :=
  ⟨hfailures, fun _ _ => by rw [hclaimed]⟩

theorem trans (h : Keeps g g') (h' : Keeps g' g'') : Keeps g g'' :=
  ⟨fun _ hx => h'.failures (h.failures hx),
    fun key hkey => (h'.loaders key hkey).trans (h.loaders key hkey)⟩

theorem claim? {path : Path} (h : g.claim? path = some g') (hpath : ¬ path.key.IsLoader) :
    Keeps g g' := by
  obtain ⟨-, rfl⟩ := claim?_eq_some h
  refine ⟨List.Subset.refl _, fun key hkey => ?_⟩
  rw [List.mem_cons, or_iff_right]
  rintro rfl
  exact hpath hkey

end Keeps

theorem keeps_close (t : Target) (scope : Scope) (place : Place) (a : Attribute) (ids : TypeIds)
    (mark : Nat) (nested : NestedModules) (g : Generation) :
    Keeps g (close t scope place a ids mark nested g).1 := by
  rcases hwrite : g.write t (place.file a.toDeclaration) (ownArtifact scope place a ids nested)
    with ⟨after, _ | e⟩
  · obtain ⟨disk, -, rfl⟩ := write_eq_none hwrite
    rw [close_of_write_eq_none hwrite]
    exact .of_eq (List.Subset.refl _) rfl
  · obtain ⟨disk, -, rfl⟩ := write_eq_some hwrite
    rw [close_of_write_eq_some hwrite]
    obtain ⟨events, hdiscard⟩ := discardFrom_eq (fail { g with disk } a.name e) mark
    rw [hdiscard]
    exact .of_eq (List.subset_append_left _ _) rfl

theorem treeInvariant_keeps (t : Target) (scope : Scope) : TreeInvariant t scope
    (fun _ _ g r => Keeps g r.1) (fun _ _ _ g r => Keeps g r.1) where
  unresolved _ := .of_eq (List.subset_append_left _ _) rfl
  taken {place a g ids} _ _ := by
    refine .of_eq ?_ ?_
    · unfold giveUp
      split <;> exact List.subset_append_left _ _
    · obtain ⟨failures, events, hgiveUp⟩ := giveUp_eq ((g.reach a).setNumber a.toDeclaration) a
        (place.file a.toDeclaration)
      rw [hgiveUp]
      rfl
  claimed {place a g g' ids} _ h hnested := by
    have hreach : Keeps g ((g.reach a).setNumber a.toDeclaration) :=
      .of_eq (List.Subset.refl _) rfl
    have hclaim := Keeps.claim? h (place.not_isLoader_file a.toDeclaration)
    exact ((hreach.trans hclaim).trans hnested).trans (keeps_close ..)
  nil := .of_eq (List.Subset.refl _) rfl
  cons hchild hrest := hchild.trans hrest

theorem keeps_attributeTrees (t : Target) (scope : Scope) : ∀ (attributes : List Attribute)
    (g : Generation), Keeps g (attributeTrees t scope attributes g).1
  | [], _ => .of_eq (List.Subset.refl _) rfl
  | a :: rest, g =>
    ((treeInvariant_keeps t scope).attributeTree a (.top scope a.toDeclaration) g).trans
      (keeps_attributeTrees t scope rest _)

end Generation

/-! ### Files and registrations one by one -/

/-- What a loader says of a file: its path, the type in it and the vendor. -/
def WrittenFile.entry? (f : WrittenFile) : Option (Path × String × Option String) :=
  match f.artifact with
  | .attributeModule m => some (f.path, m.typeName, m.subject.vendor)
  | .loaderModule _ => none

namespace Generation

/-- The registrations list the files, all of which are of one vendor or of none. -/
structure Enlisted (owner : Option String) (folder : Path) (files : List WrittenFile)
    (registrations : List Registration) : Prop where
  perm : (files.map WrittenFile.entry?).Perm
    (registrations.map fun r => some (r.file folder, r.typeName, owner))
  path_ne : ∀ r ∈ registrations, r.path ≠ []

variable {owner : Option String} {folder : Path} {files files' : List WrittenFile}
  {registrations registrations' : List Registration}

theorem enlisted_nil : Enlisted owner folder [] [] :=
  ⟨List.Perm.refl _, List.forall_mem_nil _⟩

theorem Enlisted.append (h : Enlisted owner folder files registrations)
    (h' : Enlisted owner folder files' registrations') :
    Enlisted owner folder (files ++ files') (registrations ++ registrations') := by
  refine ⟨?_, fun r hr => (List.mem_append.mp hr).elim (h.path_ne r) (h'.path_ne r)⟩
  rw [List.map_append, List.map_append]
  exact h.perm.append h'.perm

theorem entry?_ownArtifact (path : Path) (scope : Scope) (place : Place) (a : Attribute)
    (ids : TypeIds) (nested : NestedModules) :
    WrittenFile.entry? ⟨path, ownArtifact scope place a ids nested⟩ =
      some (path, (ownRegistration place a).typeName, a.vendor) := rfl

/-- The attribute's own file is registered in front of those nested in it. -/
theorem Enlisted.own {scope : Scope} {place : Place} {a : Attribute} {nested : NestedModules}
    (h : Enlisted owner scope.folder files nested.registrations) (hfits : place.Fits scope)
    (hvendor : a.vendor = owner) (ids : TypeIds) :
    Enlisted owner scope.folder
      (files ++ [⟨place.file a.toDeclaration, ownArtifact scope place a ids nested⟩])
      (ownRegistration place a :: nested.registrations) := by
  refine ⟨?_, fun r hr => ?_⟩
  · rw [List.map_append, List.map_singleton, List.map_cons, hfits.file_ownRegistration,
      entry?_ownArtifact, hvendor]
    exact (List.perm_append_singleton _ _).trans (h.perm.cons _)
  · rcases List.mem_cons.mp hr with rfl | hr
    · exact List.append_ne_nil_of_right_ne_nil _ (List.cons_ne_nil _ _)
    · exact h.path_ne r hr

/-- Closing an attribute keeps its file and those nested in it, or takes all of them back. -/
theorem enlisted_close (t : Target) {scope : Scope} {place : Place} {a : Attribute} (ids : TypeIds)
    {nested : NestedModules} {g : Generation} {earlier : List WrittenFile}
    (hfits : place.Fits scope) (hvendor : a.vendor = owner) (hwritten : g.written = earlier ++ files)
    (h : Enlisted owner scope.folder files nested.registrations) :
    ∃ new, (close t scope place a ids earlier.length nested g).1.written = earlier ++ new ∧
      Enlisted owner scope.folder new (close t scope place a ids earlier.length nested g).2 := by
  rcases hwrite : g.write t (place.file a.toDeclaration) (ownArtifact scope place a ids nested)
    with ⟨after, _ | e⟩
  · obtain ⟨disk, -, rfl⟩ := write_eq_none hwrite
    rw [close_of_write_eq_none hwrite]
    refine ⟨_, ?_, h.own hfits hvendor ids⟩
    rw [← List.append_assoc, ← hwritten]
  · obtain ⟨disk, -, rfl⟩ := write_eq_some hwrite
    rw [close_of_write_eq_some hwrite]
    obtain ⟨events, hdiscard⟩ := discardFrom_eq (fail { g with disk } a.name e) earlier.length
    rw [hdiscard]
    refine ⟨[], ?_, enlisted_nil⟩
    show g.written.take _ = _
    rw [hwritten, List.take_left, List.append_nil]

/-- The attribute and those nested in it are of one vendor or of none; nothing is nested deeper. -/
def OwnedBy (owner : Option String) (a : Attribute) : Prop :=
  a.vendor = owner ∧ ∀ e ∈ a.nested, e.2.vendor = owner ∧ e.2.nested = []

theorem treeInvariant_enlisted (t : Target) (scope : Scope) (owner : Option String) :
    TreeInvariant t scope
      (fun place a g r => place.Fits scope → OwnedBy owner a →
        ∃ new, r.1.written = g.written ++ new ∧ Enlisted owner scope.folder new r.2)
      (fun place _ entries g r => place.Fits scope →
        (∀ e ∈ entries, e.2.vendor = owner ∧ e.2.nested = []) →
        ∃ new, r.1.written = g.written ++ new ∧
          Enlisted owner scope.folder new r.2.registrations) where
  unresolved _ _ _ := ⟨[], (List.append_nil _).symm, enlisted_nil⟩
  taken {place a g ids} _ _ _ _ := by
    obtain ⟨failures, events, hgiveUp⟩ := giveUp_eq ((g.reach a).setNumber a.toDeclaration) a
      (place.file a.toDeclaration)
    rw [hgiveUp]
    exact ⟨[], (List.append_nil _).symm, enlisted_nil⟩
  claimed {place a g g' ids} _ h hnested hfits howned := by
    obtain ⟨new, hwritten, henlisted⟩ := hnested hfits howned.2
    have hclaimed : g'.written = g.written := by
      rw [(claim?_eq_some h).2]
      rfl
    rw [hclaimed] at hwritten ⊢
    exact enlisted_close t ids hfits howned.1 hwritten henlisted
  nil _ _ := ⟨[], (List.append_nil _).symm, enlisted_nil⟩
  cons {place d key child rest g} hchild hrest hfits howned := by
    obtain ⟨⟨hvendor, hbare⟩, howned⟩ := List.forall_mem_cons.mp howned
    obtain ⟨new, hwritten, henlisted⟩ := hchild (hfits.below d child.toDeclaration)
      ⟨hvendor, by rw [hbare]; exact List.forall_mem_nil _⟩
    obtain ⟨new', hwritten', henlisted'⟩ := hrest hfits howned
    refine ⟨new ++ new', ?_, henlisted.append henlisted'⟩
    rw [nestedTrees_cons_fst, hwritten', hwritten, List.append_assoc]

theorem enlisted_attributeTrees (t : Target) (scope : Scope) (owner : Option String) :
    ∀ (attributes : List Attribute) (g : Generation), (∀ a ∈ attributes, OwnedBy owner a) →
      ∃ new, (attributeTrees t scope attributes g).1.written = g.written ++ new ∧
        Enlisted owner scope.folder new (attributeTrees t scope attributes g).2
  | [], _, _ => ⟨[], (List.append_nil _).symm, enlisted_nil⟩
  | a :: rest, g, howned => by
    obtain ⟨ha, hrest⟩ := List.forall_mem_cons.mp howned
    obtain ⟨new, hwritten, henlisted⟩ := (treeInvariant_enlisted t scope owner).attributeTree a
      (.top scope a.toDeclaration) g (Place.fits_top scope a.toDeclaration) ha
    obtain ⟨new', hwritten', henlisted'⟩ := enlisted_attributeTrees t scope owner rest
      (attributeTree t scope (.top scope a.toDeclaration) a g).1 hrest
    refine ⟨new ++ new', ?_, henlisted.append henlisted'⟩
    rw [← List.append_assoc, ← hwritten, ← hwritten']
    rfl

/-- The files that generating the attributes of a loader writes, whether or not they are taken
back. -/
def scopeWrites (t : Target) (scope : Scope) : List Attribute → Generation → List WrittenFile
  | [], _ => []
  | a :: rest, g =>
    treeWrites t scope (.top scope a.toDeclaration) a g ++
      scopeWrites t scope rest (attributeTree t scope (.top scope a.toDeclaration) a g).1

/-- The files that the attributes of a loader leave on record are those of their registrations. -/
theorem agrees_scopeWrites (t : Target) (scope : Scope) : ∀ (attributes : List Attribute)
    (g : Generation), Agrees scope (scopeWrites t scope attributes g) g
      (attributeTrees t scope attributes g).1 (attributeTrees t scope attributes g).2
  | [], _ => agrees_of_eq rfl rfl (List.Subset.refl _)
  | a :: rest, g => by
    obtain ⟨new, hadvance, hperm⟩ := (treeInvariant_agrees t scope).attributeTree a
      (.top scope a.toDeclaration) g (Place.fits_top scope a.toDeclaration)
    obtain ⟨new', hadvance', hperm'⟩ := agrees_scopeWrites t scope rest
      (attributeTree t scope (.top scope a.toDeclaration) a g).1
    refine ⟨new ++ new', hadvance.trans hadvance', ?_⟩
    show List.Perm _ (((attributeTree t scope (.top scope a.toDeclaration) a g).2 ++
      (attributeTrees t scope rest
        (attributeTree t scope (.top scope a.toDeclaration) a g).1).2).map _)
    rw [List.map_append, List.map_append]
    exact hperm.append hperm'

theorem advance_scopeWrites (t : Target) (scope : Scope) (attributes : List Attribute)
    (g : Generation) : ∃ new, Advance (scopeWrites t scope attributes g) new g
      (attributeTrees t scope attributes g).1 := by
  obtain ⟨new, hadvance, -⟩ := agrees_scopeWrites t scope attributes g
  exact ⟨new, hadvance⟩

/-! ### Loaders -/

/-- Whatever is on record or claimed stays so. -/
structure Grows (g g' : Generation) : Prop where
  written : g.written ⊆ g'.written
  claimed : g.claimed ⊆ g'.claimed
  failures : g.failures ⊆ g'.failures

theorem Grows.refl (g : Generation) : Grows g g :=
  ⟨List.Subset.refl _, List.Subset.refl _, List.Subset.refl _⟩

theorem Grows.trans {g g' g'' : Generation} (h : Grows g g') (h' : Grows g' g'') : Grows g g'' :=
  ⟨fun _ hf => h'.written (h.written hf), fun _ hkey => h'.claimed (h.claimed hkey),
    fun _ hx => h'.failures (h.failures hx)⟩

theorem grows_attributeTrees (t : Target) (scope : Scope) (attributes : List Attribute)
    (g : Generation) : Grows g (attributeTrees t scope attributes g).1 := by
  obtain ⟨new, hadvance⟩ := advance_scopeWrites t scope attributes g
  refine ⟨?_, hadvance.claimed, (keeps_attributeTrees t scope attributes g).failures⟩
  rw [hadvance.written_eq]
  exact List.subset_append_left _ _

/-- Whether no folder or file failed to be written. -/
def Undisturbed (g : Generation) : Prop := ∀ x ∈ g.failures, x.error.isFile = false

instance (g : Generation) : Decidable g.Undisturbed := inferInstanceAs (Decidable (∀ x ∈ _, _))

theorem Undisturbed.of_grows {g g' : Generation} (h : Grows g g') (hg' : g'.Undisturbed) :
    g.Undisturbed := fun x hx => hg' x (h.failures hx)

theorem isFile_of_write {t : Target} {path : Path} {artifact : Artifact} {g g' : Generation}
    {e : GenerationError} (h : g.write t path artifact = (g', some e)) : e.isFile = true := by
  unfold write at h
  split at h
  · cases h
    rfl
  · split at h
    · cases h
      rfl
    · cases h

section Loader

variable {t : Target} {folder : Path} {m : LoaderModule} {g : Generation}

theorem writeLoader_of_taken (h : (folder.joinText "mod.rs").key ∈ g.claimed) :
    g.writeLoader t folder m = g.fail m.ns (.alreadyGenerated (folder.joinText "mod.rs")) := by
  unfold writeLoader
  dsimp only
  rw [claim?_eq_none_iff.mpr h]

/-- A loader whose path is free is written, or else a file failed. -/
theorem writeLoader_of_free (h : (folder.joinText "mod.rs").key ∉ g.claimed) :
    (g.writeLoader t folder m).claimed = (folder.joinText "mod.rs").key :: g.claimed ∧
    g.failures ⊆ (g.writeLoader t folder m).failures ∧
    (Advance [⟨folder.joinText "mod.rs", .loaderModule m⟩]
        [⟨folder.joinText "mod.rs", .loaderModule m⟩] g (g.writeLoader t folder m) ∨
      (g.writeLoader t folder m).written = g.written ∧
        ¬ (g.writeLoader t folder m).Undisturbed) := by
  have hway := loaderWay t folder m g
  generalize g.writeLoader t folder m = g'', loaderWrites t folder m g = files at hway ⊢
  cases hway with
  | taken hclaim => exact absurd (claim?_eq_none_iff.mp hclaim) h
  | failed hclaim hwrite =>
    have hfile := isFile_of_write hwrite
    obtain ⟨-, rfl⟩ := claim?_eq_some hclaim
    obtain ⟨disk, -, rfl⟩ := write_eq_some hwrite
    refine ⟨rfl, List.subset_append_left _ _, Or.inr ⟨rfl, fun hnone => ?_⟩⟩
    have hx := hnone ⟨m.ns, _⟩ (List.mem_append_right _ List.mem_cons_self)
    rw [hfile] at hx
    cases hx
  | written hclaim hwrite =>
    have hwritten := (Advance.of_eq rfl rfl (List.Subset.refl _)).write hclaim hwrite
    obtain ⟨-, rfl⟩ := claim?_eq_some hclaim
    obtain ⟨disk, -, rfl⟩ := write_eq_none hwrite
    exact ⟨rfl, List.Subset.refl _, Or.inl hwritten⟩

theorem grows_writeLoader (t : Target) (folder : Path) (m : LoaderModule) (g : Generation) :
    Grows g (g.writeLoader t folder m) := by
  by_cases h : (folder.joinText "mod.rs").key ∈ g.claimed
  · rw [writeLoader_of_taken h]
    exact ⟨List.Subset.refl _, List.Subset.refl _, List.subset_append_left _ _⟩
  · obtain ⟨hclaimed, hfailures, hadvance | ⟨hwritten, -⟩⟩ := writeLoader_of_free (t := t) (m := m) h
    · refine ⟨?_, hadvance.claimed, hfailures⟩
      rw [hadvance.written_eq]
      exact List.subset_append_left _ _
    · refine ⟨?_, ?_, hfailures⟩
      · rw [hwritten]
        exact List.Subset.refl _
      · rw [hclaimed]
        exact List.subset_cons_self _ _

end Loader

end Generation

/-! ### Plans -/

open Generation

/-- The vendor of a loader, or none. -/
def LoaderKind.owner : LoaderKind → Option String
  | root _ => none
  | vendor name => some name

namespace Plan

/-- The plan is that of a vendor or of the root, and so is its loader. -/
structure Sound (owner : Option String) (p : Plan) : Prop where
  owned : ∀ a ∈ p.attributes, OwnedBy owner a
  registrations : ∀ registrations, (p.loader registrations).registrations = registrations
  kind : ∀ registrations, (p.loader registrations).kind.owner = owner

/-- The loader as it is written. -/
def loaderFile (t : Target) (g : Generation) (p : Plan) : WrittenFile :=
  ⟨p.loaderPath, .loaderModule (p.loader (p.registrations t g))⟩

/-- What a plan leaves on record: files that its registrations list, and its loader unless the path
was claimed before. -/
structure Leaves (t : Target) (owner : Option String) (p : Plan) (g : Generation)
    (files loaders : List WrittenFile) : Prop where
  advance : ∃ touched, Advance touched (files ++ loaders) g (p.run t g)
  enlisted : Enlisted owner p.scope.folder files (p.registrations t g)
  free : p.loaderPath.key ∉ g.claimed → loaders = [p.loaderFile t g]
  taken : p.loaderPath.key ∈ g.claimed → loaders = []

theorem Leaves.of_mem_loaders {t : Target} {owner : Option String} {p : Plan} {g : Generation}
    {files loaders : List WrittenFile} (h : p.Leaves t owner g files loaders) {l : WrittenFile}
    (hl : l ∈ loaders) : l = p.loaderFile t g ∧ p.loaderPath.key ∉ g.claimed := by
  have hfree : p.loaderPath.key ∉ g.claimed := by
    intro htaken
    rw [h.taken htaken] at hl
    cases hl
  rw [h.free hfree, List.mem_singleton] at hl
  exact ⟨hl, hfree⟩

theorem grows_run (t : Target) (g : Generation) (p : Plan) : Grows g (p.run t g) :=
  (grows_attributeTrees t p.scope p.attributes g).trans (grows_writeLoader ..)

/-- A plan claims the path of its loader and no other path of a loader. -/
theorem mem_claimed_run (t : Target) (g : Generation) (p : Plan) {key : Path.Key}
    (hkey : key.IsLoader) :
    key ∈ (p.run t g).claimed ↔ key ∈ g.claimed ∨ key = p.loaderPath.key := by
  have htrees := (keeps_attributeTrees t p.scope p.attributes g).loaders key hkey
  unfold run
  by_cases h : p.loaderPath.key ∈ (p.trees t g).claimed
  · rw [writeLoader_of_taken h]
    refine ⟨fun hmem => Or.inl (htrees.mp hmem), ?_⟩
    rintro (hmem | rfl)
    · exact htrees.mpr hmem
    · exact h
  · rw [(writeLoader_of_free h).1, List.mem_cons, or_comm]
    exact or_congr_left htrees

/-- **What a plan leaves** where the disk allows. -/
theorem run_spec {owner : Option String} {p : Plan} (hp : p.Sound owner) (t : Target)
    (g : Generation) (hnone : (p.run t g).Undisturbed) :
    ∃ files loaders, p.Leaves t owner g files loaders := by
  obtain ⟨new, hadvance⟩ := advance_scopeWrites t p.scope p.attributes g
  obtain ⟨files, hwritten, henlisted⟩ :=
    enlisted_attributeTrees t p.scope owner p.attributes g hp.owned
  obtain rfl : new = files := List.append_cancel_left (hadvance.written_eq.symm.trans hwritten)
  have hkey := (keeps_attributeTrees t p.scope p.attributes g).loaders p.loaderPath.key
    (Path.isLoader_joinText _)
  by_cases h : p.loaderPath.key ∈ (p.trees t g).claimed
  · have hloader : Advance [] [] (p.trees t g) (p.run t g) := by
      rw [run, writeLoader_of_taken h]
      exact .of_eq rfl rfl (List.Subset.refl _)
    exact ⟨new, [], ⟨_, hadvance.trans hloader⟩, henlisted, fun hfree => absurd (hkey.mp h) hfree,
      fun _ => rfl⟩
  · obtain ⟨-, -, hloader | ⟨-, hfile⟩⟩ :=
      writeLoader_of_free (t := t) (m := p.loader (p.registrations t g)) h
    · exact ⟨new, [p.loaderFile t g], ⟨_, hadvance.trans hloader⟩, henlisted, fun _ => rfl,
        fun htaken => absurd (hkey.mpr htaken) h⟩
    · exact absurd hnone hfile

end Plan

end RadiusDictionary
