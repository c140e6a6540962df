import RadiusDictionary.Proofs.Disk.Contents
import RadiusDictionary.Proofs.Generation.Registered
import RadiusDictionary.Proofs.Generation.Writes

/-! # The record and the disk

`Settles` says what is certain of the disk after a part of a run: the files that the part left on
record hold their texts, and only files at the paths that it wrote have changed. Paths that are
written are claimed once and lie below the output folder, so that no file is written over. A whole
run settles its files (`settles_generate`), and the disk is the one that the record tells
(`Reading.disk_of_record`). -/

namespace RadiusDictionary

namespace Generation

/-- What generation leaves: besides what `Advance` says, the paths of all files that were written
were claimed first and lie below the output folder, the files on record hold their texts, and files
elsewhere stay as they are. -/
structure Settles (t : Target) (touched new : List WrittenFile) (g g' : Generation) : Prop
    extends Advance touched new g g' where
  fresh : ∀ f ∈ touched, f.path.key ∈ g'.claimed ∧ f.path.key ∉ g.claimed
  apart : (touched.map fun f => f.path.key).Nodup
  below : ∀ f ∈ touched, t.outputDir.Below f.path
  holds : ∀ f ∈ new, g'.disk.Holds f.path (f.artifact.render t)
  spares : Disk.Spares (touched.map (·.path)) g.disk g'.disk

/-! ### Writing a file -/

section Files

variable {t : Target} {path : Path} {artifact : Artifact} {g g' : Generation}

theorem holds_of_write (h : g.write t path artifact = (g', none)) :
    g'.disk.Holds path (artifact.render t) ∧ Disk.Spares [path] g.disk g'.disk := by
  have hfolder := Disk.spares_createFolder g.disk path.parent
  unfold write at h
  rcases hcreated : g.disk.createFolder path.parent with ⟨disk, _ | e⟩
  · rw [hcreated] at h hfolder
    dsimp only at h
    cases hwritten : disk.writeFile path (artifact.render t) with
    | error e => rw [hwritten] at h; cases h
    | ok disk' =>
      rw [hwritten] at h
      cases h
      obtain ⟨hholds, hspares⟩ := Disk.holds_writeFile hwritten
      exact ⟨hholds, hfolder.trans hspares (Disk.change_writeFile hwritten).toKeepsFolders⟩
  · rw [hcreated] at h; cases h

theorem spares_of_write {e : GenerationError} (h : g.write t path artifact = (g', some e)) :
    Disk.Spares [] g.disk g'.disk := by
  have hfolder := Disk.spares_createFolder g.disk path.parent
  unfold write at h
  rcases hcreated : g.disk.createFolder path.parent with ⟨disk, _ | e⟩
  · rw [hcreated] at h hfolder
    dsimp only at h
    cases hwritten : disk.writeFile path (artifact.render t) with
    | error e => rw [hwritten] at h; cases h; exact hfolder
    | ok disk' => rw [hwritten] at h; cases h
  · rw [hcreated] at h hfolder
    cases h
    exact hfolder

end Files

namespace Settles

variable {t : Target} {g g' g'' after : Generation} {touched new touched' new' : List WrittenFile}
  {path : Path} {artifact : Artifact}

theorem of_eq (hdisk : g'.disk = g.disk) (hwritten : g'.written = g.written)
    (hclaimed : g.claimed ⊆ g'.claimed) : Settles t [] [] g g' :=
  ⟨.of_eq hdisk hwritten hclaimed, List.forall_mem_nil _, List.nodup_nil, List.forall_mem_nil _,
    List.forall_mem_nil _, hdisk ▸ .refl [] g.disk⟩

/-- Files whose paths were claimed before hold their texts. -/
theorem holds_mono (h : Settles t touched new g g') {f : WrittenFile}
    (hf : g.disk.Holds f.path (f.artifact.render t)) (hbelow : t.outputDir.Below f.path)
    (hclaimed : f.path.key ∈ g.claimed) : g'.disk.Holds f.path (f.artifact.render t) := by
  refine hf.mono h.spares h.disk.toKeepsFolders hbelow fun q hq => ?_
  obtain ⟨f', hf', rfl⟩ := List.mem_map.mp hq
  refine ⟨h.below f' hf', fun heq => (h.fresh f' hf').2 ?_⟩
  rw [heq]
  exact hclaimed

/-- **What settles stays settled.** -/
theorem trans (h : Settles t touched new g g') (h' : Settles t touched' new' g' g'') :
    Settles t (touched ++ touched') (new ++ new') g g'' := by
  refine ⟨h.toAdvance.trans h'.toAdvance, fun f hf => ?_, ?_, fun f hf => ?_, fun f hf => ?_, ?_⟩
  · rcases List.mem_append.mp hf with hf | hf
    · exact ⟨h'.claimed (h.fresh f hf).1, (h.fresh f hf).2⟩
    · exact ⟨(h'.fresh f hf).1, fun hkey => (h'.fresh f hf).2 (h.claimed hkey)⟩
  · rw [List.map_append]
    refine List.nodup_append.mpr ⟨h.apart, h'.apart, fun key hkey key' hkey' => ?_⟩
    obtain ⟨f, hf, rfl⟩ := List.mem_map.mp hkey
    obtain ⟨f', hf', rfl⟩ := List.mem_map.mp hkey'
    intro heq
    exact (h'.fresh f' hf').2 (heq ▸ (h.fresh f hf).1)
  · exact (List.mem_append.mp hf).elim (h.below f) (h'.below f)
  · rcases List.mem_append.mp hf with hf | hf
    · exact h'.holds_mono (h.holds f hf) (h.below f (h.subset hf)) (h.key_claimed f hf).1
    · exact h'.holds f hf
  · rw [List.map_append]
    exact h.spares.trans h'.spares h'.disk.toKeepsFolders

theorem claim? (h : g.claim? path = some g') : Settles t [] [] g g' := by
  obtain ⟨-, rfl⟩ := claim?_eq_some h
  exact .of_eq rfl rfl (List.subset_cons_self _ _)

/-- A file that was claimed before others is settled with them. -/
theorem write (hclaim : g.claim? path = some g') (h : Settles t touched new g' after)
    (hwrite : after.write t path artifact = (g'', none)) (hpath : t.outputDir.Below path) :
    Settles t (touched ++ [⟨path, artifact⟩]) (new ++ [⟨path, artifact⟩]) g g'' := by
  have hadvance := h.toAdvance.write hclaim hwrite
  have hall := (claim? hclaim).trans h
  obtain ⟨hholds, hspares⟩ := holds_of_write hwrite
  obtain ⟨hkey, rfl⟩ := claim?_eq_some hclaim
  obtain ⟨disk, hdisk, rfl⟩ := write_eq_none hwrite
  have hown : path.key ∈ after.claimed := h.claimed List.mem_cons_self
  refine ⟨hadvance, fun f hf => ?_, ?_, fun f hf => ?_, fun f hf => ?_, ?_⟩
  · rcases List.mem_append.mp hf with hf | hf
    · exact hall.fresh f hf
    · rw [List.mem_singleton.mp hf]
      exact ⟨hown, hkey⟩
  · rw [List.map_append]
    refine List.nodup_append.mpr ⟨h.apart, List.nodup_singleton _, fun key hmem key' hmem' => ?_⟩
    obtain ⟨f, hf, rfl⟩ := List.mem_map.mp hmem
    intro heq
    apply (h.fresh f hf).2
    rw [heq, List.mem_singleton.mp hmem']
    exact List.mem_cons_self
  · rcases List.mem_append.mp hf with hf | hf
    · exact h.below f hf
    · rw [List.mem_singleton.mp hf]
      exact hpath
  · rcases List.mem_append.mp hf with hf | hf
    · -- The path was claimed before all that was written since.
      refine (h.holds f hf).mono hspares hdisk.toKeepsFolders (h.below f (h.subset hf)) fun q hq => ?_
      rw [List.mem_singleton.mp hq]
      refine ⟨hpath, fun heq => (h.key_claimed f hf).2 ?_⟩
      rw [← heq]
      exact List.mem_cons_self
    · rw [List.mem_singleton.mp hf]
      exact hholds
  · rw [List.map_append]
    exact h.spares.trans hspares hdisk.toKeepsFolders

/-- What is on record can be taken back. -/
theorem discardFrom (h : Settles t touched new g g') :
    Settles t touched [] g (g'.discardFrom g.written.length) := by
  have hadvance := h.toAdvance.discardFrom
  obtain ⟨events, heq⟩ := discardFrom_eq g' g.written.length
  rw [h.written_eq, List.drop_left, List.take_left] at heq
  rw [heq] at hadvance ⊢
  refine ⟨hadvance, h.fresh, h.apart, h.below, List.forall_mem_nil _, ?_⟩
  refine h.spares.foldl_without fun p hp => ?_
  have htouched := List.map_subset (·.path) h.subset hp
  exact ⟨htouched, h.disk.reached p htouched⟩

/-- A file that cannot be written takes those back that were written since it was claimed. -/
theorem takeBack {e : GenerationError} (hclaim : g.claim? path = some g')
    (h : Settles t touched new g' after) (hwrite : after.write t path artifact = (g'', some e))
    (name : String) :
    Settles t touched [] g ((g''.fail name e).discardFrom g'.written.length) := by
  have hspares := spares_of_write hwrite
  obtain ⟨disk, hdisk, rfl⟩ := write_eq_some hwrite
  have hfail : Settles t [] [] after (({ after with disk } : Generation).fail name e) :=
    ⟨⟨(List.append_nil _).symm, List.Subset.refl _, List.Subset.refl _, List.forall_mem_nil _,
      List.nodup_nil, hdisk⟩, List.forall_mem_nil _, List.nodup_nil, List.forall_mem_nil _,
      List.forall_mem_nil _, hspares⟩
  have hall := (h.trans hfail).discardFrom
  rw [List.append_nil] at hall
  exact (claim? hclaim).trans hall

end Settles

/-! ### Whole runs -/

/-- The last step settles the attribute's own file with those of the nested attributes, or takes
all back. -/
theorem settles_close {t : Target} {scope : Scope} {place : Place} {a : Attribute} {ids : TypeIds}
    {nested : NestedModules} {touched new : List WrittenFile} {g g' after : Generation}
    (hplace : t.outputDir.Within place.folder)
    (hclaim : g.claim? (place.file a.toDeclaration) = some g')
    (h : Settles t touched new g' after) :
    ∃ new', Settles t (touched ++ closeWrites t scope place a ids nested after) new' g
      (close t scope place a ids g'.written.length nested after).1 := by
  rcases hwrite : after.write t (place.file a.toDeclaration) (ownArtifact scope place a ids nested)
    with ⟨g'', _ | e⟩
  · rw [close_of_write_eq_none hwrite, closeWrites_of_write_eq_none hwrite]
    exact ⟨_, h.write hclaim hwrite (hplace.below (Path.proper_file a.name))⟩
  · rw [close_of_write_eq_some hwrite, closeWrites_of_write_eq_some hwrite, List.append_nil]
    exact ⟨_, h.takeBack hclaim hwrite a.name⟩

theorem treeInvariant_settles (t : Target) (scope : Scope) : TreeInvariant t scope
    (fun place a g r => t.outputDir.Within place.folder →
      ∃ new, Settles t (treeWrites t scope place a g) new g r.1)
    (fun place d entries g r => t.outputDir.Within place.folder →
      ∃ new, Settles t (nestedWrites t scope place d entries g) new g r.1) where
  unresolved h _ := by
    rw [treeWrites_of_unresolved h]
    exact ⟨[], .of_eq rfl rfl (List.Subset.refl _)⟩
  taken {place a g ids} hids h _ := by
    obtain ⟨failures, events, hgiveUp⟩ := giveUp_eq ((g.reach a).setNumber a.toDeclaration) a
      (place.file a.toDeclaration)
    rw [treeWrites_of_taken hids h, hgiveUp]
    exact ⟨[], .of_eq rfl rfl (List.Subset.refl _)⟩
  claimed {place a g g' ids} hids h hnested hplace := by
    rw [treeWrites_of_claimed hids h]
    obtain ⟨new, hsettles⟩ := hnested hplace
    obtain ⟨new', hclose⟩ := settles_close hplace h hsettles
    have hreach : Settles t [] [] g ((g.reach a).setNumber a.toDeclaration) :=
      .of_eq rfl rfl (List.Subset.refl _)
    exact ⟨_, hreach.trans hclose⟩
  nil _ := ⟨[], .of_eq rfl rfl (List.Subset.refl _)⟩
  cons {place d key child rest g} hchild hrest hplace := by
    have hbelow : t.outputDir.Within (place.below d child.toDeclaration).folder := by
      rw [Place.folder_below]
      exact hplace.joinText (Path.proper_moduleName d.name)
    obtain ⟨new, hsettles⟩ := hchild hbelow
    obtain ⟨new', hsettles'⟩ := hrest hplace
    exact ⟨_, hsettles.trans hsettles'⟩

theorem settles_scopeWrites {t : Target} {scope : Scope} (hscope : t.outputDir.Within scope.folder) :
    ∀ (attributes : List Attribute) (g : Generation), ∃ new,
      Settles t (scopeWrites t scope attributes g) new g (attributeTrees t scope attributes g).1
  | [], _ => ⟨[], .of_eq rfl rfl (List.Subset.refl _)⟩
  | a :: rest, g => by
    obtain ⟨new, hsettles⟩ := (treeInvariant_settles t scope).attributeTree a
      (.top scope a.toDeclaration) g hscope
    obtain ⟨new', hsettles'⟩ := settles_scopeWrites hscope rest
      (attributeTree t scope (.top scope a.toDeclaration) a g).1
    exact ⟨_, hsettles.trans hsettles'⟩

theorem settles_writeLoader {t : Target} {folder : Path} (hfolder : t.outputDir.Within folder)
    (m : LoaderModule) (g : Generation) :
    Settles t (loaderWrites t folder m g) (loaderWrites t folder m g) g
      (g.writeLoader t folder m) := by
  have hadvance := advance_writeLoader t folder m g
  have hway := loaderWay t folder m g
  generalize g.writeLoader t folder m = g'', loaderWrites t folder m g = files at hway hadvance ⊢
  cases hway with
  | taken hclaim => exact .of_eq rfl rfl (List.Subset.refl _)
  | failed hclaim hwrite =>
    have hspares := spares_of_write hwrite
    obtain ⟨-, rfl⟩ := claim?_eq_some hclaim
    exact ⟨hadvance, List.forall_mem_nil _, List.nodup_nil, List.forall_mem_nil _,
      List.forall_mem_nil _, hspares⟩
  | written hclaim hwrite =>
    exact (Settles.of_eq rfl rfl (List.Subset.refl _)).write hclaim hwrite
      (hfolder.below Path.proper_loaderFile)

theorem settles_planWrites {t : Target} : ∀ (ps : List Plan) (g : Generation),
    (∀ p ∈ ps, t.outputDir.Within p.scope.folder) →
    ∃ new, Settles t (planWrites t ps g) new g (runPlans t ps g)
  | [], _, _ => ⟨[], .of_eq rfl rfl (List.Subset.refl _)⟩
  | p :: rest, g, h => by
    obtain ⟨hp, hrest⟩ := List.forall_mem_cons.mp h
    obtain ⟨new, hscope⟩ := settles_scopeWrites hp p.attributes g
    obtain ⟨new', hplans⟩ := settles_planWrites rest (p.run t g) hrest
    have hloader := settles_writeLoader hp (p.loader (p.registrations t g)) (p.trees t g)
    exact ⟨_, (hscope.trans hloader).trans hplans⟩

/-- The folders of the loaders are in the output folder. -/
theorem within_plans {t : Target} {r : Registry} (hr : r.WellFormed)
    (hns : ∀ s ∈ t.ns.segments, Path.Proper s) {p : Plan} (hp : p ∈ plans t r) :
    t.outputDir.Within p.scope.folder := by
  obtain rfl | ⟨v, hv, rfl⟩ := mem_plans hp
  · exact Path.within_foldl_joinText hns
  · refine Path.within_foldl_joinText fun s hs => ?_
    rcases List.mem_append.mp hs with hs | hs
    · exact hns s hs
    · rw [hr.home_eq hv] at hs
      exact Namespace.proper_ofVendor hs

/-- **A whole run settles its files.** -/
theorem settles_generate {t : Target} {r : Registry} (hr : r.WellFormed)
    (hns : ∀ s ∈ t.ns.segments, Path.Proper s) (disk : Disk) :
    Settles t (writes t r disk) (generate t r disk).written (.start disk) (generate t r disk) := by
  obtain ⟨new, hsettles⟩ := settles_planWrites (plans t r) (.start disk) fun p hp =>
    within_plans hr hns hp
  obtain rfl : (generate t r disk).written = new := by
    rw [generate_eq]
    exact hsettles.written_eq
  have hadvance := advance_generate t r disk
  rw [generate_eq] at hsettles hadvance ⊢
  exact ⟨hadvance, hsettles.fresh, hsettles.apart, hsettles.below, hsettles.holds, hsettles.spares⟩

end Generation

/-! ### The disk that the record tells -/

section Record

variable (r : Reading) (t : Target) (disk : Disk)

/-- **The disk is the one that the record tells.** The root namespace is one that users write,
without slashes in its segments. Every file on record holds the rendering of its artifact, and no
two files that were written, taken back or not, were at one place. Every file on the disk is on
record or was there before, and a file that was there before is as it was unless something was
written at its place. In an output folder that was empty the files are those on record. -/
theorem Reading.disk_of_record {text : String} (hns : t.ns = .parse text)
    (hslash : ∀ s ∈ t.ns.segments, '/' ∉ s.toList) :
    (∀ f ∈ (generate t r.registry disk).written,
      (generate t r.registry disk).disk.readText f.path = .ok (f.artifact.render t) ∧
      f ∈ Generation.writes t r.registry disk) ∧
    (∀ f ∈ Generation.writes t r.registry disk, ∀ f' ∈ Generation.writes t r.registry disk,
      ∀ loc, (generate t r.registry disk).disk.LeadsTo f.path loc →
        (generate t r.registry disk).disk.LeadsTo f'.path loc → f = f') ∧
    (∀ loc content, (generate t r.registry disk).disk.entry? loc = some (.file content) →
      (∃ f ∈ (generate t r.registry disk).written,
        (generate t r.registry disk).disk.LeadsTo f.path loc) ∨
      disk.entry? loc = some (.file content)) ∧
    (∀ loc content, disk.entry? loc = some (.file content) →
      (∀ f ∈ Generation.writes t r.registry disk,
        ¬ (generate t r.registry disk).disk.LeadsTo f.path loc) →
      (generate t r.registry disk).disk.entry? loc = some (.file content)) ∧
    (∀ out, disk.resolve t.outputDir = .ok out →
      (∀ loc, out <:+ loc → loc ≠ out → disk.entry? loc = none) →
      (∀ loc, out <:+ loc → loc ≠ out →
        ((∃ content, (generate t r.registry disk).disk.entry? loc = some (.file content)) ↔
          ∃ f ∈ (generate t r.registry disk).written,
            (generate t r.registry disk).disk.LeadsTo f.path loc)) ∧
      ∀ f ∈ (generate t r.registry disk).written, ∀ loc,
        (generate t r.registry disk).disk.LeadsTo f.path loc → out <:+ loc ∧ loc ≠ out) := by
  have hproper : ∀ s ∈ t.ns.segments, Path.Proper s := fun s hs =>
    Namespace.proper_parse (hns ▸ hs) (hslash s hs)
  have h := Generation.settles_generate r.wellFormed hproper disk
  have hfile : ∀ loc content, (generate t r.registry disk).disk.entry? loc = some (.file content) →
      (∃ f ∈ (generate t r.registry disk).written,
        (generate t r.registry disk).disk.LeadsTo f.path loc) ∨
      disk.entry? loc = some (.file content) := by
    intro loc content hentry
    rcases h.disk.file loc content hentry with ⟨p, hp, hleads⟩ | ⟨hold, -⟩
    · obtain ⟨f, hf, rfl⟩ := List.mem_map.mp hp
      exact Or.inl ⟨f, hf, hleads⟩
    · exact Or.inr hold
  refine ⟨fun f hf => ?_, fun f hf f' hf' loc hleads hleads' => ?_, hfile,
    fun loc content hentry hnot => ?_, fun out hout hempty => ⟨fun loc hloc hne => ?_,
      fun f hf loc hleads => ?_⟩⟩
  · have htouched := h.subset hf
    exact ⟨(h.holds f hf).readText (h.below f htouched), htouched⟩
  · have hpath := hleads.path_eq hleads' (h.below f hf) (h.below f' hf')
    exact List.inj_on_of_nodup_map h.apart hf hf' (congrArg Path.key hpath)
  · refine h.spares loc content hentry fun p hp => ?_
    obtain ⟨f, hf, rfl⟩ := List.mem_map.mp hp
    exact hnot f hf
  · constructor
    · rintro ⟨content, hentry⟩
      refine (hfile loc content hentry).resolve_right fun hold => ?_
      rw [hempty loc hloc hne] at hold
      cases hold
    · rintro ⟨f, hf, hleads⟩
      obtain ⟨loc', hleads', hentry⟩ := h.holds f hf
      rw [hleads.unique hleads']
      exact ⟨_, hentry⟩
  · obtain ⟨names, there, hnames, -, hthere, rfl⟩ := hleads.below (h.below f (h.subset hf))
    have hreaches := (Disk.reaches_of_resolve hout).mono h.disk.toKeepsFolders
    unfold Disk.Reaches at hthere hreaches
    rw [hthere] at hreaches
    cases hreaches
    exact ⟨List.suffix_append _ _, fun heq => hnames (by simpa using heq)⟩

end Record

/-- Source for the usual namespace goes to the folder `out`. -/
def outTarget : Target := ⟨.parse "radius::dictionary", .ofText "out", defaultRuntime, ""⟩

/-- A folder `out` that holds a file where the root loader goes, and another one. -/
def usedDisk : Disk :=
  ⟨⟨[(["out"], .folder), (["radius", "out"], .folder), (["dictionary", "radius", "out"], .folder),
    (["mod.rs", "dictionary", "radius", "out"], .file (.text "old")),
    (["notes", "out"], .file (.text "mine"))]⟩, []⟩

/-- The old loader is written over, and the other file is not. -/
theorem Reading.disk_of_record_of_used :
    ((generate outTarget caseReading.registry usedDisk).written.map (·.path.text) =
      ["out/radius/dictionary/mod.rs", "out/radius/dictionary/vsa_a/mod.rs",
        "out/radius/dictionary/vsa_a/attr_x.rs"]) ∧
    (∀ f ∈ (generate outTarget caseReading.registry usedDisk).written,
      (generate outTarget caseReading.registry usedDisk).disk.readText f.path =
        .ok (f.artifact.render outTarget)) ∧
    (generate outTarget caseReading.registry usedDisk).disk.entry? ["notes", "out"] =
      some (.file (.text "mine")) := by
  obtain ⟨hwritten, -⟩ := Reading.disk_of_record caseReading outTarget usedDisk rfl (by decide +kernel)
  refine ⟨?_, fun f hf => (hwritten f hf).1, ?_⟩
  · rw [registry_caseReading]
    decide +kernel
  · rw [registry_caseReading]
    decide +kernel

end RadiusDictionary
