import RadiusDictionary.Proofs.Generation.Tables
import RadiusDictionary.Proofs.Generation.TwinTrees

/-! # A folder in the way of a run

Two runs that are twins go through the attributes of a loader (`twins_attributeTrees`), a plan
(`twins_run`) and all plans (`twins_runPlans`). Only one attribute has the blocked path, so that all
else is the same: what a loader gets from its attributes is the same on both sides, or it lacks the
registrations of what was lost (`counterpart_loader`). -/

namespace RadiusDictionary

open RadiusDictionary.Path (Bare)

/-- What an attribute lost of those that came of several attributes. -/
structure Loss.FromScope (b : Blockade) (scope : Scope)
    (registrations registrations' : List Registration) (x : Loss) : Prop where
  sound : x.Sound b scope
  gains : Gains x.registrations registrations' registrations

/-- What an attribute lost of those that came of plans with these vendors: it is the attribute whose
path is blocked, and one of theirs. -/
structure Loss.FromPlans (b : Blockade) (owners : List (Option String)) (x : Loss) : Prop
    extends x.Blocked b where
  vendor : x.subject.vendor ∈ owners

theorem Loss.FromPlans.mono {b : Blockade} {owners owners' : List (Option String)} {x : Loss}
    (hx : x.FromPlans b owners) (howners : owners ⊆ owners') : x.FromPlans b owners' :=
  ⟨hx.toBlocked, howners hx.vendor⟩

namespace Plan

/-- The names of all attributes of the plan. -/
def names (p : Plan) : List String := p.attributes.flatMap Attribute.names

/-- The vendor of the plan's loader. -/
def owner (p : Plan) : Option String := (p.loader []).kind.owner

theorem Sound.of_owner {p : Plan} (h : ∃ owner, p.Sound owner) : p.Sound p.owner := by
  obtain ⟨owner, h⟩ := h
  rw [Plan.owner, h.kind]
  exact h

/-- Only the registrations of the loader depend on what comes of the attributes. -/
def Steady (p : Plan) : Prop := ∀ registrations registrations',
  p.loader registrations' = { p.loader registrations with registrations := registrations' }

/-- What a plan needs to keep twins: its loader is its own, and its files go below the folder. -/
structure Within (base : Path) (p : Plan) : Prop where
  sound : p.Sound p.owner
  steady : p.Steady
  folder : base.HasFolder p.scope.folder

end Plan

namespace Generation

variable {t : Target} {b : Blockade} {scope : Scope} {g g' : Generation}

theorem twins_start {disk disk' : Disk} (hagree : Disk.Agree b.base b.root (· = b.key) disk disk')
    (hfolder : disk'.entry? b.location = some .folder) :
    Twins b [] (.start disk) (.start disk') :=
  ⟨rfl, rfl, List.nil_subset _, hagree.mono fun _ hkey => Or.inl hkey, hfolder,
    List.forall_mem_nil _, List.forall_mem_nil _⟩

/-! ### The attributes of a loader -/

theorem twins_attributeTrees (t : Target) (hscope : b.base.HasFolder scope.folder) :
    ∀ (attributes : List Attribute) (g g' : Generation), Twins b [] g g' →
      (attributes.flatMap Attribute.names).Nodup →
      Kept b.key g (attributeTrees t scope attributes g).1 →
      Twins b [] (attributeTrees t scope attributes g).1 (attributeTrees t scope attributes g').1 ∧
      Outcome t b (attributes.flatMap Attribute.names) []
        ((attributeTrees t scope attributes g').2 = (attributeTrees t scope attributes g).2)
        (Loss.FromScope b scope (attributeTrees t scope attributes g).2
          (attributeTrees t scope attributes g').2) g g' (attributeTrees t scope attributes g).1
        (attributeTrees t scope attributes g').1
  | [], g, g', htwins, _, _ =>
    ⟨htwins, .alike ⟨[], []⟩ (.refl g) (.refl g') (List.forall_mem_nil _) rfl⟩
  | a :: rest, g, g', htwins, hnodup, hkept => by
    rw [List.flatMap_cons] at hnodup
    have hdisjoint := List.disjoint_of_nodup_append hnodup
    obtain ⟨hnodupTree, hnodupRest, -⟩ := List.nodup_append.mp hnodup
    obtain ⟨new, hadvance, -⟩ := (treeInvariant_agrees t scope).attributeTree a
      (.top scope a.toDeclaration) g (Place.fits_top scope a.toDeclaration)
    obtain ⟨new', hadvance'⟩ := advance_scopeWrites t scope rest
      (attributeTree t scope (.top scope a.toDeclaration) a g).1
    obtain ⟨htwins₁, houtcome₁⟩ := (treeInvariant_twins t b scope).attributeTree a
      (.top scope a.toDeclaration) g [] g' htwins (Place.fits_top scope a.toDeclaration) hscope
      hnodupTree (hkept.front hadvance')
    obtain ⟨htwins₂, houtcome₂⟩ := twins_attributeTrees t hscope rest _ _ htwins₁ hnodupRest
      (hkept.back hadvance.claimed)
    have hsnd : ∀ g, (attributeTrees t scope (a :: rest) g).2 =
        (attributeTree t scope (.top scope a.toDeclaration) a g).2 ++
          (attributeTrees t scope rest
            (attributeTree t scope (.top scope a.toDeclaration) a g).1).2 := fun _ => rfl
    rw [hsnd, hsnd]
    refine ⟨htwins₂, houtcome₁.trans houtcome₂ hadvance.claimed hadvance'.claimed hdisjoint
      (fun _ _ => List.not_mem_nil) (fun _ _ => List.not_mem_nil) (fun hagree hagree' => ?_)
      (fun x hx hagree' => ?_) (fun x _ hagree hx => ?_)⟩
    · rw [hagree, hagree']
    · rw [hagree']
      exact ⟨hx.sound, hx.gains.append_right _⟩
    · rw [hagree]
      exact ⟨hx.sound, hx.gains.append_left _⟩

/-! ### Loaders -/

/-- What a loader adds to the report: its file if it is written, and its failure if it is not. -/
def loaderYield (folder : Path) (failure? : Option Failure) (m : LoaderModule) : Yield :=
  ⟨if failure?.isNone then [⟨folder.joinText "mod.rs", .loaderModule m⟩] else [], failure?.toList⟩

/-- Both loaders are written, or neither is. -/
theorem twins_writeLoader {folder : Path} {m m' : LoaderModule} (htwins : Twins b [] g g')
    (hfolder : b.base.HasFolder folder) (hkey : ¬ b.key.IsLoader) (hns : m'.ns = m.ns) :
    Twins b [] (g.writeLoader t folder m) (g'.writeLoader t folder m') ∧
    ∃ failure?, Adds (loaderYield folder failure? m) g (g.writeLoader t folder m) ∧
      Adds (loaderYield folder failure? m') g' (g'.writeLoader t folder m') := by
  unfold writeLoader
  dsimp only
  cases hclaim : g.claim? (folder.joinText "mod.rs") with
  | none =>
    rw [htwins.claim?_eq_none hclaim, hns]
    exact ⟨(htwins.fail_left _ _).fail_right _ _,
      some _, .fail _ _ rfl rfl, .fail _ _ rfl rfl⟩
  | some g₁ =>
    obtain ⟨g₁', hclaim', hwritten', hfailures', htwins₁⟩ := htwins.claim? hclaim
    obtain ⟨-, rfl⟩ := claim?_eq_some hclaim
    obtain ⟨hway, hafter⟩ := htwins₁.write (hfolder.hasFile Path.dotted_loaderFile)
      List.not_mem_nil t (.loaderModule m) (.loaderModule m')
    rw [hclaim']
    dsimp only
    generalize write t _ _ _ = r at hway hafter ⊢
    generalize write t _ _ _ = r' at hway hafter ⊢
    cases hway with
    | neither =>
      dsimp only
      rw [hns]
      refine ⟨(hafter.fail_left _ _).fail_right _ _, some _, .fail _ _ rfl rfl, ?_⟩
      refine Adds.of_eq hwritten' hfailures' ?_
      exact .fail _ _ rfl rfl
    | both =>
      exact ⟨hafter, none, ⟨rfl, (List.append_nil _).symm⟩,
        Adds.of_eq hwritten' hfailures' ⟨rfl, (List.append_nil _).symm⟩⟩
    | first hpath =>
      refine absurd ?_ hkey
      rw [Blockade.key, ← hpath]
      exact Path.isLoader_joinText folder

theorem eq_of_mem_loaderYield {folder : Path} {failure? : Option Failure} {m : LoaderModule}
    {f : WrittenFile} (hf : f ∈ (loaderYield folder failure? m).files) :
    f = ⟨folder.joinText "mod.rs", .loaderModule m⟩ := by
  unfold loaderYield at hf
  dsimp only at hf
  split at hf
  · exact List.mem_singleton.mp hf
  · cases hf

/-- What lost something is an attribute of the plan's vendor. -/
theorem vendor_of_fromScope {p : Plan} {owner : Option String} (hp : p.Sound owner) {y y' : Yield}
    {path : Path} {registrations registrations' : List Registration} {x : Loss}
    (hwritten : (p.trees t g).written = g.written ++ y.files) (hlacks : y.Lacks t path x y')
    (hx : x.FromScope b p.scope registrations registrations') :
    x.subject.vendor = owner := by
  obtain ⟨files, hfiles, henlisted⟩ :=
    enlisted_attributeTrees t p.scope owner p.attributes g hp.owned
  obtain rfl : y.files = files := List.append_cancel_left (hwritten.symm.trans hfiles)
  obtain ⟨kept, hgains, -⟩ := hlacks.files
  obtain ⟨m, hm, hsubject⟩ := hx.sound.own
  obtain ⟨m', hm', hvendor, -⟩ := henlisted.exists_registration (hgains.subset.1 hm)
  cases hm'
  rw [← hsubject, hvendor]

/-- The loader after attributes of which one lost something lacks what was lost. -/
theorem counterpart_loader {p : Plan} {registrations registrations' : List Registration} {x : Loss}
    {owner : Option String} (hp : p.Sound owner) (hsteady : p.Steady)
    (hx : x.FromScope b p.scope registrations registrations')
    (hvendor : x.subject.vendor = owner) :
    Counterpart t x ⟨p.loaderPath, .loaderModule (p.loader registrations)⟩
      ⟨p.loaderPath, .loaderModule (p.loader registrations')⟩ := by
  have hgains : Gains x.registrations (p.loader registrations').registrations
      (p.loader registrations).registrations := by
    rw [hp.registrations, hp.registrations]
    exact hx.gains
  have hsame : p.loader registrations' = { p.loader registrations with
      registrations := (p.loader registrations').registrations } := by
    rw [hp.registrations]
    exact hsteady registrations registrations'
  exact .loader (by rw [hp.kind, hvendor]) hx.sound.registered hsame hgains
    (LoaderModule.gains_lines hgains hsame t.runtime t.stamp)

/-- **Running a plan keeps twins**, and nothing differs but what is lost where the folder lies. -/
theorem twins_run (t : Target) {p : Plan} (hp : p.Sound p.owner) (hsteady : p.Steady)
    (hfolder : b.base.HasFolder p.scope.folder) (hkey : ¬ b.key.IsLoader) (htwins : Twins b [] g g')
    (hnodup : p.names.Nodup) (hkept : Kept b.key g (p.run t g)) :
    Twins b [] (p.run t g) (p.run t g') ∧
    Outcome t b p.names [p.owner] True (Loss.FromPlans b [p.owner]) g g' (p.run t g)
      (p.run t g') := by
  have hadvance := advance_writeLoader t p.scope.folder (p.loader (p.registrations t g))
    (p.trees t g)
  obtain ⟨touched, hscope⟩ := advance_scopeWrites t p.scope p.attributes g
  obtain ⟨htrees, houtcome⟩ := twins_attributeTrees t hfolder p.attributes g g' htwins hnodup
    (hkept.front hadvance)
  have hns : (p.loader (p.registrations t g')).ns = (p.loader (p.registrations t g)).ns := by
    rw [hsteady (p.registrations t g) (p.registrations t g')]
  obtain ⟨hafter, failure?, hloader, hloader'⟩ := twins_writeLoader htrees hfolder hkey hns
  refine ⟨hafter, ?_⟩
  have hfiles : ∀ {y : Yield} (registrations : List Registration),
      (∀ f ∈ y.files, f.Among (p.attributes.flatMap Attribute.names) []) →
      ∀ f ∈ (y ++ loaderYield p.scope.folder failure? (p.loader registrations)).files,
        f.Among p.names [p.owner] := by
    intro y registrations hy f hf
    rcases List.mem_append.mp hf with hf | hf
    · exact (hy f hf).mono (List.Subset.refl _) (List.nil_subset _)
    · rw [eq_of_mem_loaderYield hf]
      exact List.mem_singleton.mpr (hp.kind registrations)
  cases houtcome with
  | alike y hadds hadds' hall hagree =>
    -- The registrations are the same, and so are the loaders.
    have hsame : p.registrations t g' = p.registrations t g := hagree
    have hloader' : Adds (loaderYield p.scope.folder failure? (p.loader (p.registrations t g)))
        (p.trees t g') (p.run t g') := by
      rw [← hsame]
      exact hloader'
    exact .alike _ (hadds.trans hloader) (hadds'.trans hloader') (hfiles _ hall) trivial
  | lacking x y y' hadds hadds' hall hlacks hnames hfree htaken hx =>
    have hvendor : x.subject.vendor = p.owner := vendor_of_fromScope hp hadds.written hlacks hx
    refine .lacking x _ _ (hadds.trans hloader) (hadds'.trans hloader') (hfiles _ hall)
      (hlacks.append ?_ (fun f hf => ?_) rfl) hnames hfree (hadvance.claimed htaken) ?_
    · unfold loaderYield
      dsimp only
      split
      · exact .cons (counterpart_loader hp hsteady hx hvendor) .nil
      · exact .nil
    · rw [eq_of_mem_loaderYield hf]
      rfl
    · exact ⟨hx.sound.toBlocked, List.mem_singleton.mpr hvendor⟩

/-! ### Whole runs -/

theorem twins_runPlans (t : Target) (hkey : ¬ b.key.IsLoader) : ∀ (ps : List Plan)
    (g g' : Generation), (∀ p ∈ ps, p.Within b.base) → Twins b [] g g' →
    (ps.flatMap Plan.names).Nodup → (ps.map Plan.owner).Nodup → Kept b.key g (runPlans t ps g) →
    Twins b [] (runPlans t ps g) (runPlans t ps g') ∧
    Outcome t b (ps.flatMap Plan.names) (ps.map Plan.owner) True
      (Loss.FromPlans b (ps.map Plan.owner)) g g' (runPlans t ps g) (runPlans t ps g')
  | [], g, g', _, htwins, _, _, _ =>
    ⟨htwins, .alike ⟨[], []⟩ (.refl g) (.refl g') (List.forall_mem_nil _) trivial⟩
  | p :: rest, g, g', hwithin, htwins, hnodup, howners, hkept => by
    obtain ⟨hp, hrest⟩ := List.forall_mem_cons.mp hwithin
    rw [List.flatMap_cons] at hnodup
    rw [List.map_cons, List.nodup_cons] at howners
    have hdisjoint := List.disjoint_of_nodup_append hnodup
    obtain ⟨hnodupPlan, hnodupRest, -⟩ := List.nodup_append.mp hnodup
    obtain ⟨new, hscope⟩ := advance_scopeWrites t p.scope p.attributes g
    have hadvance := hscope.trans
      (advance_writeLoader t p.scope.folder (p.loader (p.registrations t g)) (p.trees t g))
    obtain ⟨new', hadvance'⟩ := advance_planWrites t rest (p.run t g)
    obtain ⟨htwins₁, houtcome₁⟩ := twins_run t hp.sound hp.steady hp.folder hkey htwins hnodupPlan
      (hkept.front hadvance')
    obtain ⟨htwins₂, houtcome₂⟩ := twins_runPlans t hkey rest _ _ hrest htwins₁ hnodupRest howners.2
      (hkept.back hadvance.claimed)
    have hfirst : [p.owner] ⊆ (p :: rest).map Plan.owner :=
      List.cons_subset_cons _ (List.nil_subset _)
    refine ⟨htwins₂, houtcome₁.trans houtcome₂ hadvance.claimed hadvance'.claimed hdisjoint
      (fun x hx hmem => ?_) (fun x hx hmem => ?_) (fun _ _ => trivial)
      (fun x hx _ => hx.mono hfirst) (fun x _ _ hx => hx.mono (List.subset_cons_self _ _))⟩
    · rw [List.mem_singleton.mp hx.vendor] at hmem
      exact howners.1 hmem
    · rw [← List.mem_singleton.mp hmem] at howners
      exact howners.1 hx.vendor

end Generation

/-! ### The plans of a registry -/

theorem Registry.WellFormed.within_plans {r : Registry} (h : r.WellFormed) (t : Target) :
    ∀ p ∈ plans t r, p.Within (t.ns.folder t.outputDir) := by
  intro p hp
  refine ⟨.of_owner (h.sound_plans t p hp), ?_, ?_⟩
  · obtain rfl | ⟨v, -, rfl⟩ := mem_plans hp
    · exact fun _ _ => rfl
    · exact fun _ _ => rfl
  · obtain rfl | ⟨v, hv, rfl⟩ := mem_plans hp
    · exact .self _
    · have hfolder : (t.ns.join v.home).folder t.outputDir =
          v.home.segments.foldl Path.joinText (t.ns.folder t.outputDir) := List.foldl_append
      have hsegments : ∀ s ∈ v.home.segments, Bare s := by
        rw [h.home_eq hv]
        exact fun s hs => Path.bare_ofVendor hs
      show Path.HasFolder _ ((t.ns.join v.home).folder t.outputDir)
      rw [hfolder]
      exact (Path.HasFolder.self _).foldl hsegments

/-- The names of the attributes of all plans are those that were declared. -/
theorem names_plans (t : Target) (r : Registry) :
    (plans t r).flatMap Plan.names = r.declared.map (·.2.name) := by
  have hmaps : (plans t r).flatMap Plan.names =
      ((plans t r).map (·.attributes)).flatMap fun attributes =>
        attributes.flatMap Attribute.names := by
    rw [List.flatMap_map]
    rfl
  rw [hmaps, map_attributes_plans, Registry.declared_eq, List.flatMap_map, List.map_flatMap]
  refine List.flatMap_congr fun m _ => ?_
  exact (Attribute.namesIn_eq_flatMap m.entries).symm

theorem Reading.nodup_planNames (r : Reading) (t : Target) :
    ((plans t r.registry).flatMap Plan.names).Nodup := by
  rw [names_plans]
  refine List.Nodup.of_map Text.lowercase ?_
  rw [List.map_map]
  exact r.nodup_declaredNames

theorem Reading.nodup_owners (r : Reading) (t : Target) :
    ((plans t r.registry).map Plan.owner).Nodup := by
  have hvendors : ((plans t r.registry).map Plan.owner) =
      none :: (r.registry.vendors.values.map (·.name)).map some := by
    rw [plans, List.map_cons, List.map_map, List.map_map]
    rfl
  rw [hvendors]
  refine List.nodup_cons.mpr ⟨by simp, ?_⟩
  exact r.nodup_vendorNames.map fun _ _ => Option.some.inj

end RadiusDictionary
