import RadiusDictionary.Proofs.Generation.Registered
import RadiusDictionary.Proofs.Generation.Writes

/-! # The loaders of a clean run

In a run without failures nothing is left out. Every attribute is registered, in front of those
nested in it, so that a loader declares the modules of its attributes one by one
(`filterMap_single?_attributeTrees`), no two of them alike; and every loader is written
(`loaders_runPlans`). -/

namespace RadiusDictionary

open Generation

/-- The loader in a file, if there is one. -/
def WrittenFile.loader? (f : WrittenFile) : Option LoaderModule :=
  match f.artifact with
  | .attributeModule _ => none
  | .loaderModule m => some m

theorem WrittenFile.loader?_eq_some_iff {f : WrittenFile} {m : LoaderModule} :
    f.loader? = some m ↔ f.artifact = .loaderModule m := by
  unfold loader?
  cases f.artifact <;> simp

namespace Generation

section Ways

variable {t : Target} {scope : Scope} {place : Place} {a : Attribute} {g g' after : Generation}

/-- An attribute has no loader among its files. -/
theorem treeInvariant_loader? (t : Target) (scope : Scope) : TreeInvariant t scope
    (fun place a g _ => ∀ f ∈ treeWrites t scope place a g, f.loader? = none)
    (fun place d entries g _ => ∀ f ∈ nestedWrites t scope place d entries g, f.loader? = none) where
  unresolved h := by
    rw [treeWrites_of_unresolved h]
    exact List.forall_mem_nil _
  taken hids h := by
    rw [treeWrites_of_taken hids h]
    exact List.forall_mem_nil _
  claimed {place a g g' ids} hids h hnested := by
    rw [treeWrites_of_claimed hids h]
    refine List.forall_mem_append.mpr ⟨hnested, fun f hf => ?_⟩
    unfold closeWrites at hf
    dsimp only at hf
    split at hf
    · rw [List.mem_singleton.mp hf]
      rfl
    · cases hf
  nil := List.forall_mem_nil _
  cons hchild hrest := List.forall_mem_append.mpr ⟨hchild, hrest⟩

/-- The last step registers the attribute in front of those nested in it, or it fails. -/
theorem registrations_close (t : Target) (scope : Scope) (place : Place) (a : Attribute)
    (ids : TypeIds) (mark : Nat) (nested : NestedModules) (g : Generation) :
    (close t scope place a ids mark nested g).2 =
        ownRegistration place a :: nested.registrations ∨
      (close t scope place a ids mark nested g).2 = [] ∧
        (close t scope place a ids mark nested g).1.failures ≠ [] := by
  rcases hwrite : g.write t (place.file a.toDeclaration) (ownArtifact scope place a ids nested)
    with ⟨g', _ | e⟩
  · rw [close_of_write_eq_none hwrite]
    exact Or.inl rfl
  · rw [close_of_write_eq_some hwrite]
    obtain ⟨events, hdiscard⟩ := discardFrom_eq (g'.fail a.name e) mark
    rw [hdiscard]
    exact Or.inr ⟨rfl, List.append_ne_nil_of_right_ne_nil _ (List.cons_ne_nil _ _)⟩

/-- Registrations lead further than the modules around, those of nested attributes by one more. In a
clean run the attribute's own stands in front. -/
theorem treeInvariant_registered (t : Target) (scope : Scope) : TreeInvariant t scope
    (fun place a _ r => (∀ reg ∈ r.2, place.around.length < reg.path.length) ∧
      (r.1.failures = [] → ∃ nested, r.2 = ownRegistration place a :: nested ∧
        ∀ reg ∈ nested, place.around.length + 1 < reg.path.length))
    (fun place _ _ _ r => ∀ reg ∈ r.2.registrations,
      place.around.length + 1 < reg.path.length) where
  unresolved _ := ⟨List.forall_mem_nil _,
    fun h => absurd h (List.append_ne_nil_of_right_ne_nil _ (List.cons_ne_nil _ _))⟩
  taken {place a g ids} _ _ := by
    refine ⟨List.forall_mem_nil _, fun h => absurd h ?_⟩
    unfold giveUp
    split <;> exact List.append_ne_nil_of_right_ne_nil _ (List.cons_ne_nil _ _)
  claimed {place a g g' ids} _ _ hnested := by
    rcases registrations_close t scope place a ids g'.written.length
      (nestedTrees t scope place a.toDeclaration a.nested g').2
      (nestedTrees t scope place a.toDeclaration a.nested g').1 with hregs | ⟨hnone, hfailed⟩
    · rw [hregs]
      refine ⟨List.forall_mem_cons.mpr ⟨?_, fun reg hreg => Nat.lt_of_succ_lt (hnested reg hreg)⟩,
        fun _ => ⟨_, rfl, hnested⟩⟩
      dsimp only [ownRegistration, Place.modulePath]
      rw [List.length_append, List.length_singleton]
      exact Nat.lt_succ_self _
    · rw [hnone]
      exact ⟨List.forall_mem_nil _, fun h => absurd h hfailed⟩
  nil := List.forall_mem_nil _
  cons {place d key child rest g} hchild hrest := by
    rw [registrations_nestedTrees_cons]
    have hshorter := hchild.1
    rw [Place.around_below, List.length_append] at hshorter
    exact List.forall_mem_append.mpr ⟨hshorter, hrest⟩

end Ways

/-! ### Whole runs -/

/-- The module of a registration that goes no further, as a loader declares it. -/
def single? (r : Registration) : Option String :=
  match r.path with
  | [name] => some name
  | _ => none

theorem single?_eq_none {r : Registration} (h : 1 < r.path.length) : single? r = none := by
  unfold single?
  split
  · next hpath =>
    rw [hpath] at h
    cases h
    contradiction
  · rfl

/-- In a clean run every attribute of a loader gives one module to declare. -/
theorem filterMap_single?_attributeTrees (t : Target) (scope : Scope) :
    ∀ (attributes : List Attribute) (g : Generation),
      (attributeTrees t scope attributes g).1.failures = [] →
      (attributeTrees t scope attributes g).2.filterMap single? =
        attributes.map fun a => moduleName a.name
  | [], _, _ => rfl
  | a :: rest, g, hclean => by
    have hgrows := grows_attributeTrees t scope rest
      (attributeTree t scope (.top scope a.toDeclaration) a g).1
    have hfirst := List.subset_nil.mp (hclean ▸ hgrows.failures)
    obtain ⟨nested, hregs, hnested⟩ := ((treeInvariant_registered t scope).attributeTree a
      (.top scope a.toDeclaration) g).2 hfirst
    have hnone : nested.filterMap single? = [] :=
      List.filterMap_eq_nil_iff.mpr fun reg hreg => single?_eq_none (hnested reg hreg)
    have hrest := filterMap_single?_attributeTrees t scope rest
      (attributeTree t scope (.top scope a.toDeclaration) a g).1 hclean
    show List.filterMap single? ((attributeTree t scope (.top scope a.toDeclaration) a g).2 ++
      (attributeTrees t scope rest
        (attributeTree t scope (.top scope a.toDeclaration) a g).1).2) = _
    rw [List.filterMap_append, hrest, hregs, List.map_cons]
    have hown : single? (ownRegistration (.top scope a.toDeclaration) a) =
        some (moduleName a.name) := rfl
    rw [List.filterMap_cons_some hown, hnone]
    rfl

/-- The files of those modules, in order among the files of all registrations. -/
theorem sublist_single? (folder : Path) : ∀ regs : List Registration,
    ((regs.filterMap single?).map fun name => folder.joinText (name ++ ".rs")).Sublist
      (regs.map (·.file folder))
  | [] => .slnil
  | r :: rest => by
    have ih := sublist_single? folder rest
    cases hsingle : single? r with
    | none =>
      rw [List.filterMap_cons_none hsingle]
      exact ih.cons _
    | some name =>
      have hfile : r.file folder = folder.joinText (name ++ ".rs") := by
        unfold single? at hsingle
        split at hsingle
        · next hpath =>
          cases hsingle
          rw [Registration.file, hpath, moduleFile]
        · cases hsingle
      rw [List.filterMap_cons_some hsingle, List.map_cons, List.map_cons, hfile]
      exact ih.cons_cons _

/-- A loader declares no module of an attribute twice, whatever failed. -/
theorem nodup_single? (t : Target) (scope : Scope) (attributes : List Attribute) (g : Generation) :
    ((attributeTrees t scope attributes g).2.filterMap single?).Nodup := by
  obtain ⟨new, hadvance, hperm⟩ := agrees_scopeWrites t scope attributes g
  have hpaths : (new.map (·.path)).Nodup := by
    refine List.Nodup.of_map Path.key ?_
    rw [List.map_map]
    exact hadvance.nodup
  have hfiles := (hperm.nodup_iff.mp hpaths).sublist (sublist_single? scope.folder _)
  exact List.Nodup.of_map _ hfiles

theorem loader?_scopeWrites (t : Target) (scope : Scope) : ∀ (attributes : List Attribute)
    (g : Generation), ∀ f ∈ scopeWrites t scope attributes g, f.loader? = none
  | [], _ => List.forall_mem_nil _
  | a :: rest, g => List.forall_mem_append.mpr
    ⟨(treeInvariant_loader? t scope).attributeTree a (.top scope a.toDeclaration) g,
      loader?_scopeWrites t scope rest _⟩

/-- In a clean run a loader is written. -/
theorem loaderWrites_of_clean {t : Target} {folder : Path} {m : LoaderModule} {g : Generation}
    (hclean : (g.writeLoader t folder m).failures = []) :
    loaderWrites t folder m g = [⟨folder.joinText "mod.rs", .loaderModule m⟩] := by
  have hway := loaderWay t folder m g
  generalize g.writeLoader t folder m = g'', loaderWrites t folder m g = files at hway hclean ⊢
  cases hway with
  | taken hclaim => exact absurd hclean (List.append_ne_nil_of_right_ne_nil _ (List.cons_ne_nil _ _))
  | failed hclaim hwrite =>
    exact absurd hclean (List.append_ne_nil_of_right_ne_nil _ (List.cons_ne_nil _ _))
  | written hclaim hwrite => rfl

/-- The loader is one of the plan's with a module to declare for each attribute. -/
def LoaderOf (p : Plan) (m : LoaderModule) : Prop :=
  (∃ regs, m = p.loader regs) ∧ m.attributeModules.Nodup ∧
    m.attributeModules = p.attributes.map fun a => moduleName a.name

theorem loaderOf_run {t : Target} {p : Plan} (hp : ∀ regs, (p.loader regs).registrations = regs)
    {g : Generation} (hclean : (p.trees t g).failures = []) :
    LoaderOf p (p.loader (p.registrations t g)) := by
  have hmodules : (p.loader (p.registrations t g)).attributeModules =
      (p.registrations t g).filterMap single? := by
    rw [LoaderModule.attributeModules, hp]
    rfl
  refine ⟨⟨_, rfl⟩, ?_, ?_⟩
  · rw [hmodules]
    exact nodup_single? ..
  · rw [hmodules]
    exact filterMap_single?_attributeTrees t p.scope p.attributes g hclean

/-- A plan of a clean run adds one loader to the record. -/
theorem loaders_run {t : Target} {p : Plan} {g : Generation} (hclean : (p.run t g).failures = []) :
    (p.run t g).written.filterMap WrittenFile.loader? =
      g.written.filterMap WrittenFile.loader? ++ [p.loader (p.registrations t g)] := by
  obtain ⟨new, hadvance⟩ := advance_scopeWrites t p.scope p.attributes g
  have hnone : new.filterMap WrittenFile.loader? = [] :=
    List.filterMap_eq_nil_iff.mpr fun f hf =>
      loader?_scopeWrites t p.scope p.attributes g f (hadvance.subset hf)
  have hloader := (advance_writeLoader t p.scope.folder (p.loader (p.registrations t g))
    (p.trees t g)).written_eq
  rw [loaderWrites_of_clean hclean] at hloader
  rw [Plan.run, hloader, Plan.trees, hadvance.written_eq, List.filterMap_append,
    List.filterMap_append, hnone, List.append_nil]
  rfl

/-- **The loaders of a clean run** are those of its plans, one for each. -/
theorem loaders_runPlans (t : Target) : ∀ (ps : List Plan) (g : Generation),
    (∀ p ∈ ps, ∀ regs, (p.loader regs).registrations = regs) →
    (runPlans t ps g).failures = [] → ∃ loaders, List.Forall₂ LoaderOf ps loaders ∧
      (runPlans t ps g).written.filterMap WrittenFile.loader? =
        g.written.filterMap WrittenFile.loader? ++ loaders
  | [], _, _, _ => ⟨[], .nil, (List.append_nil _).symm⟩
  | p :: rest, g, h, hclean => by
    obtain ⟨hp, hrest⟩ := List.forall_mem_cons.mp h
    have hrun : (p.run t g).failures = [] :=
      List.subset_nil.mp (hclean ▸ (grows_runPlans t rest (p.run t g)).failures)
    have htrees : (p.trees t g).failures = [] :=
      List.subset_nil.mp (hrun ▸ (grows_writeLoader ..).failures)
    obtain ⟨loaders, hloaders, hwritten⟩ := loaders_runPlans t rest (p.run t g) hrest hclean
    refine ⟨_, .cons (loaderOf_run hp htrees) hloaders, ?_⟩
    show (runPlans t rest (p.run t g)).written.filterMap _ = _
    rw [hwritten, loaders_run hrun, List.append_assoc]
    rfl

end Generation

end RadiusDictionary
