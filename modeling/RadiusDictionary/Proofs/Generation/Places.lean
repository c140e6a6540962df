import RadiusDictionary.Proofs.Generation.OnDisk
import RadiusDictionary.Proofs.Identifier.Sanitized

/-! # Where the files go

The names in a dictionary are free texts, and the paths of files are made from them. What a name may
hold, though, never shows in a path as more than one component: `Target.HasFolder` and
`Target.HasFile` say that a path goes from the output folder through the root namespace and then
through components that are spelled like identifiers, the last of them the name of a loader or of an
attribute's module. The folders of all plans are such folders (`hasFolder_plans`), nested attributes
lead to more of them (`HasFolder.below`), and so all that a run writes, takes back or changes on the
disk is in its place (`Reading.files_in_place`). -/

namespace RadiusDictionary

/-! ### How names are spelled -/

/-- The name matches `[A-Za-z_][A-Za-z0-9_]*`. -/
def IsFolderName (name : String) : Prop :=
  ∃ first rest, name.toList = first :: rest ∧ (first.isAlpha = true ∨ first = '_') ∧
    ∀ c ∈ rest, c.isAlphanum = true ∨ c = '_'

/-- The name is `attr_`, then characters of `[a-z0-9_]`, then `.rs`. -/
def IsModuleFile (name : String) : Prop :=
  ∃ chars, name.toList = "attr_".toList ++ chars ++ ".rs".toList ∧
    ∀ c ∈ chars, c.isLower = true ∨ c.isDigit = true ∨ c = '_'

theorem isFolderName_sanitize (name : String) : IsFolderName (sanitize name) :=
  Identifier.isIdent_iff.mp (Identifier.isIdent_sanitize name)

theorem IsFolderName.append {name rest : String} (h : IsFolderName name)
    (hrest : ∀ c ∈ rest.toList, c.isAlphanum = true ∨ c = '_') : IsFolderName (name ++ rest) := by
  obtain ⟨first, chars, hname, hfirst, hchars⟩ := h
  refine ⟨first, chars ++ rest.toList, ?_, hfirst, fun c hc => ?_⟩
  · rw [String.toList_append, hname, List.cons_append]
  · exact (List.mem_append.mp hc).elim (hchars c) (hrest c)

theorem isFolderName_ofVendor {vendorName s : String}
    (hs : s ∈ (Namespace.ofVendor vendorName).segments) : IsFolderName s := by
  rw [Namespace.segments_ofVendor] at hs
  rcases List.mem_cons.mp hs with rfl | hs
  · exact isFolderName_sanitize _
  · obtain ⟨part, -, rfl⟩ := List.mem_map.mp hs
    unfold Namespace.guardSegment
    split
    · exact (isFolderName_sanitize part).append fun c hc => Or.inr (List.mem_singleton.mp hc)
    · exact isFolderName_sanitize part

theorem spelled_moduleName {name : String} {c : Char}
    (hc : c ∈ (Text.lowercaseAscii (sanitize name)).toList) :
    c.isAlphanum = true ∨ c = '_' := by
  refine isIdentifierChar_iff.mp ((Identifier.segment_moduleName name).spelled c ?_)
  rw [moduleName, String.toList_append]
  exact List.mem_append_right _ hc

theorem isFolderName_moduleName (name : String) : IsFolderName (moduleName name) := by
  have hattr : IsFolderName "attr_" :=
    ⟨'a', ['t', 't', 'r', '_'], by decide, by decide, by simp⟩
  exact hattr.append fun c hc => spelled_moduleName hc

theorem isUpper_asciiLower (c : Char) : (Text.asciiLower c).isUpper = false := by
  unfold Text.asciiLower
  split
  · next h =>
    simp only [Bool.and_eq_true, decide_eq_true_eq] at h
    have hletters : ∀ n < 91, 65 ≤ n → (Char.ofNat (n + 32)).isUpper = false := by decide
    exact hletters c.toNat (Nat.lt_succ_of_le h.2) h.1
  · next h =>
    rw [← Bool.not_eq_true]
    intro hupper
    have hrange : 65 ≤ c.val ∧ c.val ≤ 90 := of_decide_eq_true hupper
    exact h (Bool.and_eq_true_iff.mpr ⟨decide_eq_true hrange.1, decide_eq_true hrange.2⟩)

theorem isModuleFile_file (name : String) : IsModuleFile (moduleName name ++ ".rs") := by
  refine ⟨(Text.lowercaseAscii (sanitize name)).toList, ?_, fun c hc => ?_⟩
  · rw [moduleName, String.toList_append, String.toList_append]
  have hupper : c.isUpper = false := by
    rw [Text.lowercaseAscii, String.toList_ofList] at hc
    obtain ⟨d, -, rfl⟩ := List.mem_map.mp hc
    exact isUpper_asciiLower d
  have hspelled : (c.isUpper || c.isLower || c.isDigit) = true ∨ c = '_' := spelled_moduleName hc
  simpa [hupper, or_assoc] using hspelled

/-! ### Places below the root namespace -/

namespace Path

variable {p : Path} {segment : String}

theorem stem_joinText (h : Plain segment) : (p.joinText segment).stem = p.stem ++ [segment] := by
  rw [joinText_eq h]
  show (if (p.stem ++ [segment]).getLast? = some "" then _ else _) = _
  rw [if_neg]
  rw [List.getLast?_concat]
  exact fun heq => h.empty (Option.some.inj heq)

theorem stem_foldl_joinText : ∀ (segments : List String) (p : Path), (∀ s ∈ segments, Plain s) →
    (segments.foldl joinText p).stem = p.stem ++ segments
  | [], _, _ => (List.append_nil _).symm
  | s :: rest, p, h => by
    obtain ⟨hs, hrest⟩ := List.forall_mem_cons.mp h
    rw [List.foldl_cons, stem_foldl_joinText rest _ hrest, stem_joinText hs, List.append_assoc]
    rfl

end Path

namespace Target

variable {t : Target} {p : Path}

/-- The path is that of a folder in or below the folder of the root namespace. -/
def HasFolder (t : Target) (p : Path) : Prop :=
  ∃ folders, (∀ s ∈ folders, IsFolderName s) ∧
    p.stem = t.outputDir.stem ++ t.ns.segments ++ folders

/-- The path is that of a file with a given name in or below the folder of the root namespace. -/
def HasFile (t : Target) (name : String) (p : Path) : Prop :=
  ∃ folders, (∀ s ∈ folders, IsFolderName s) ∧
    p.pieces = t.outputDir.stem ++ t.ns.segments ++ folders ++ [name]

/-- The path is that of a loader or of an attribute's module. -/
def Allows (t : Target) (p : Path) : Prop :=
  ∃ name, t.HasFile name p ∧ (name = "mod.rs" ∨ IsModuleFile name)

theorem HasFolder.joinText (h : t.HasFolder p) {name : String} (hname : IsFolderName name)
    (hplain : Path.Plain name) : t.HasFolder (p.joinText name) := by
  obtain ⟨folders, hfolders, hp⟩ := h
  refine ⟨folders ++ [name], fun s hs => ?_, ?_⟩
  · rcases List.mem_append.mp hs with hs | hs
    · exact hfolders s hs
    · rw [List.mem_singleton.mp hs]
      exact hname
  · rw [Path.stem_joinText hplain, hp, List.append_assoc]

theorem HasFolder.foldl : ∀ {segments : List String} {p : Path}, t.HasFolder p →
    (∀ s ∈ segments, IsFolderName s ∧ Path.Plain s) → t.HasFolder (segments.foldl Path.joinText p)
  | [], _, h, _ => h
  | _ :: _, _, h, hsegments => by
    obtain ⟨⟨hname, hplain⟩, hrest⟩ := List.forall_mem_cons.mp hsegments
    exact (h.joinText hname hplain).foldl hrest

theorem HasFolder.hasFile (h : t.HasFolder p) {name : String} (hname : Path.Plain name) :
    t.HasFile name (p.joinText name) := by
  obtain ⟨folders, hfolders, hp⟩ := h
  refine ⟨folders, hfolders, ?_⟩
  rw [Path.joinText_eq hname, hp]

theorem HasFolder.below {place : Place} (h : t.HasFolder place.folder) (d child : Declaration) :
    t.HasFolder (place.below d child).folder := by
  rw [Place.folder_below]
  exact h.joinText (isFolderName_moduleName d.name) (Path.proper_moduleName d.name).toPlain

/-- The folders of all plans are in their places. -/
theorem hasFolder_plans {r : Registry} (hr : r.WellFormed)
    (hns : ∀ s ∈ t.ns.segments, Path.Plain s) {plan : Plan} (hplan : plan ∈ plans t r) :
    t.HasFolder plan.scope.folder := by
  have hroot : t.HasFolder (t.ns.folder t.outputDir) := by
    refine ⟨[], List.forall_mem_nil _, ?_⟩
    rw [Namespace.folder, Path.stem_foldl_joinText _ _ hns, List.append_nil]
  obtain rfl | ⟨v, hv, rfl⟩ := mem_plans hplan
  · exact hroot
  · have hfolder : (Plan.vendor t r.moduleTree v).scope.folder =
        v.home.segments.foldl Path.joinText (t.ns.folder t.outputDir) := List.foldl_append
    have hsegments : ∀ s ∈ v.home.segments, IsFolderName s ∧ Path.Plain s := by
      rw [hr.home_eq hv]
      exact fun s hs => ⟨isFolderName_ofVendor hs, (Namespace.proper_ofVendor hs).toPlain⟩
    rw [hfolder]
    exact hroot.foldl hsegments

end Target

/-- The file is in its place: a loader is called `mod.rs`, and an attribute's module is not. -/
inductive WrittenFile.IsInPlace (t : Target) : WrittenFile → Prop
  | ofLoader {path : Path} {m : LoaderModule} (hpath : t.HasFile "mod.rs" path) :
    IsInPlace t ⟨path, .loaderModule m⟩
  | ofAttribute {path : Path} {m : AttributeModule} {name : String} (hpath : t.HasFile name path)
    (hname : IsModuleFile name) (hne : name ≠ "mod.rs") : IsInPlace t ⟨path, .attributeModule m⟩

theorem WrittenFile.IsInPlace.allows {t : Target} {f : WrittenFile} (h : f.IsInPlace t) :
    t.Allows f.path := by
  cases h with
  | ofLoader hpath => exact ⟨_, hpath, Or.inl rfl⟩
  | ofAttribute hpath hname => exact ⟨_, hpath, Or.inr hname⟩

namespace Generation

variable {t : Target}

/-! ### All files that are written -/

theorem isInPlace_own {scope : Scope} {place : Place} (h : t.HasFolder place.folder)
    (a : Attribute) (ids : TypeIds) (nested : NestedModules) :
    WrittenFile.IsInPlace t ⟨place.file a.toDeclaration, ownArtifact scope place a ids nested⟩ :=
  .ofAttribute (h.hasFile (plain_file a.name).1) (isModuleFile_file a.name) (plain_file a.name).2

theorem isInPlace_loader {folder : Path} (h : t.HasFolder folder) (m : LoaderModule) :
    WrittenFile.IsInPlace t ⟨folder.joinText "mod.rs", .loaderModule m⟩ :=
  .ofLoader (h.hasFile Path.proper_loaderFile.toPlain)

theorem isInPlace_closeWrites {scope : Scope} {place : Place} (h : t.HasFolder place.folder)
    (a : Attribute) (ids : TypeIds) (nested : NestedModules) (g : Generation) :
    ∀ f ∈ closeWrites t scope place a ids nested g, f.IsInPlace t := by
  unfold closeWrites
  dsimp only
  split
  · exact List.forall_mem_singleton.mpr (isInPlace_own h a ids nested)
  · exact List.forall_mem_nil _

theorem treeInvariant_isInPlace (t : Target) (scope : Scope) : TreeInvariant t scope
    (fun place a g _ => t.HasFolder place.folder →
      ∀ f ∈ treeWrites t scope place a g, f.IsInPlace t)
    (fun place d entries g _ => t.HasFolder place.folder →
      ∀ f ∈ nestedWrites t scope place d entries g, f.IsInPlace t) where
  unresolved h _ := by
    rw [treeWrites_of_unresolved h]
    exact List.forall_mem_nil _
  taken hids h _ := by
    rw [treeWrites_of_taken hids h]
    exact List.forall_mem_nil _
  claimed hids h hnested hplace := by
    rw [treeWrites_of_claimed hids h]
    exact List.forall_mem_append.mpr ⟨hnested hplace, isInPlace_closeWrites hplace _ _ _ _⟩
  nil _ := List.forall_mem_nil _
  cons hchild hrest hplace :=
    List.forall_mem_append.mpr ⟨hchild (hplace.below _ _), hrest hplace⟩

theorem isInPlace_scopeWrites {scope : Scope} (h : t.HasFolder scope.folder) :
    ∀ (attributes : List Attribute) (g : Generation),
      ∀ f ∈ scopeWrites t scope attributes g, f.IsInPlace t
  | [], _ => List.forall_mem_nil _
  | a :: rest, g =>
    List.forall_mem_append.mpr
      ⟨(treeInvariant_isInPlace t scope).attributeTree a (.top scope a.toDeclaration) g h,
        isInPlace_scopeWrites h rest _⟩

theorem isInPlace_planWrites : ∀ (ps : List Plan) (g : Generation),
    (∀ p ∈ ps, t.HasFolder p.scope.folder) → ∀ f ∈ planWrites t ps g, f.IsInPlace t
  | [], _, _ => List.forall_mem_nil _
  | p :: rest, g, h => by
    obtain ⟨hp, hrest⟩ := List.forall_mem_cons.mp h
    refine List.forall_mem_append.mpr ⟨List.forall_mem_append.mpr
      ⟨isInPlace_scopeWrites hp p.attributes g, fun f hf => ?_⟩, isInPlace_planWrites rest _ hrest⟩
    rw [eq_of_mem_loaderWrites hf]
    exact isInPlace_loader hp _

/-! ### All files that are taken back -/

/-- All that is on record, and all that was removed, is in its place. -/
structure Tidy (t : Target) (g : Generation) : Prop where
  written : ∀ f ∈ g.written, f.IsInPlace t
  removed : ∀ path, .fileRemoved path ∈ g.events → t.Allows path

namespace Tidy

variable {g g' : Generation} {path : Path} {artifact : Artifact}

theorem note (h : Tidy t g) {event : GenerationEvent}
    (hevent : ∀ path, event = .fileRemoved path → t.Allows path) : Tidy t (g.note event) := by
  refine ⟨h.written, fun path hpath => ?_⟩
  rcases Array.mem_push.mp hpath with hpath | heq
  · exact h.removed path hpath
  · exact hevent path heq.symm

theorem reach (h : Tidy t g) (a : Attribute) : Tidy t (g.reach a) := h.note fun _ => nofun

theorem setNumber (h : Tidy t g) (d : Declaration) : Tidy t (g.setNumber d) :=
  ⟨h.written, h.removed⟩

theorem fail (h : Tidy t g) (name : String) (e : GenerationError) : Tidy t (g.fail name e) := by
  have hrecorded : Tidy t { g with failures := g.failures ++ [⟨name, e⟩] } :=
    ⟨h.written, h.removed⟩
  exact hrecorded.note fun _ => nofun

theorem giveUp (h : Tidy t g) (a : Attribute) (path : Path) : Tidy t (g.giveUp a path) := by
  unfold Generation.giveUp
  dsimp only
  split
  · have hnoted : Tidy t (g.note (.childrenSkipped a.name)) := h.note fun _ => nofun
    exact hnoted.fail _ _
  · exact h.fail _ _

theorem claim? (h : Tidy t g) (hclaim : g.claim? path = some g') : Tidy t g' := by
  obtain ⟨-, rfl⟩ := claim?_eq_some hclaim
  exact ⟨h.written, h.removed⟩

theorem write (h : Tidy t g) (hfile : WrittenFile.IsInPlace t ⟨path, artifact⟩)
    (hwrite : g.write t path artifact = (g', none)) : Tidy t g' := by
  obtain ⟨disk, -, rfl⟩ := write_eq_none hwrite
  exact ⟨List.forall_mem_append.mpr ⟨h.written, List.forall_mem_singleton.mpr hfile⟩, h.removed⟩

theorem write_some (h : Tidy t g) {e : GenerationError}
    (hwrite : g.write t path artifact = (g', some e)) : Tidy t g' := by
  obtain ⟨disk, -, rfl⟩ := write_eq_some hwrite
  exact ⟨h.written, h.removed⟩

theorem remove (h : Tidy t g) {file : WrittenFile} (hfile : file.IsInPlace t) :
    Tidy t (g.remove file) := by
  have hnoted : Tidy t (g.note (.fileRemoved file.path)) := h.note fun path heq => by
    cases heq
    exact hfile.allows
  unfold Generation.remove
  dsimp only
  split
  · exact ⟨hnoted.written, hnoted.removed⟩
  · exact hnoted.note fun _ => nofun

theorem foldl_remove : ∀ {files : List WrittenFile} {g : Generation}, Tidy t g →
    (∀ f ∈ files, f.IsInPlace t) → Tidy t (files.foldl Generation.remove g)
  | [], _, h, _ => h
  | _ :: _, _, h, hfiles => by
    obtain ⟨hfile, hrest⟩ := List.forall_mem_cons.mp hfiles
    rw [List.foldl_cons]
    exact foldl_remove (h.remove hfile) hrest

/-- Only what is on record is taken back. -/
theorem discardFrom (h : Tidy t g) (mark : Nat) : Tidy t (g.discardFrom mark) :=
  foldl_remove ⟨fun f hf => h.written f (List.mem_of_mem_take hf), h.removed⟩
    fun f hf => h.written f (List.mem_of_mem_drop hf)

theorem close (h : Tidy t g) {scope : Scope} {place : Place} (hplace : t.HasFolder place.folder)
    (a : Attribute) (ids : TypeIds) (mark : Nat) (nested : NestedModules) :
    Tidy t (Generation.close t scope place a ids mark nested g).1 := by
  rcases hwrite : g.write t (place.file a.toDeclaration) (ownArtifact scope place a ids nested)
    with ⟨after, _ | e⟩
  · rw [close_of_write_eq_none hwrite]
    exact h.write (isInPlace_own hplace a ids nested) hwrite
  · rw [close_of_write_eq_some hwrite]
    exact ((h.write_some hwrite).fail _ _).discardFrom mark

theorem writeLoader (h : Tidy t g) {folder : Path} (hfolder : t.HasFolder folder)
    (m : LoaderModule) : Tidy t (g.writeLoader t folder m) := by
  have hway := loaderWay t folder m g
  generalize g.writeLoader t folder m = g'', loaderWrites t folder m g = files at hway ⊢
  cases hway with
  | taken hclaim => exact h.fail _ _
  | failed hclaim hwrite => exact ((h.claim? hclaim).write_some hwrite).fail _ _
  | written hclaim hwrite => exact (h.claim? hclaim).write (isInPlace_loader hfolder m) hwrite

end Tidy

theorem treeInvariant_tidy (t : Target) (scope : Scope) : TreeInvariant t scope
    (fun place _ g r => t.HasFolder place.folder → Tidy t g → Tidy t r.1)
    (fun place _ _ g r => t.HasFolder place.folder → Tidy t g → Tidy t r.1) where
  unresolved _ _ htidy := (htidy.reach _).fail _ _
  taken _ _ _ htidy := ((htidy.reach _).setNumber _).giveUp _ _
  claimed _ hclaim hnested hplace htidy :=
    (hnested hplace (((htidy.reach _).setNumber _).claim? hclaim)).close hplace _ _ _ _
  nil _ htidy := htidy
  cons hchild hrest hplace htidy := hrest hplace (hchild (hplace.below _ _) htidy)

theorem tidy_attributeTrees {scope : Scope} (h : t.HasFolder scope.folder) :
    ∀ (attributes : List Attribute) {g : Generation}, Tidy t g →
      Tidy t (attributeTrees t scope attributes g).1
  | [], _, htidy => htidy
  | a :: rest, _, htidy =>
    tidy_attributeTrees h rest ((treeInvariant_tidy t scope).attributeTree a
      (.top scope a.toDeclaration) _ h htidy)

theorem tidy_runPlans : ∀ (ps : List Plan) {g : Generation},
    (∀ p ∈ ps, t.HasFolder p.scope.folder) → Tidy t g → Tidy t (runPlans t ps g)
  | [], _, _, htidy => htidy
  | p :: rest, _, h, htidy => by
    obtain ⟨hp, hrest⟩ := List.forall_mem_cons.mp h
    exact tidy_runPlans rest hrest ((tidy_attributeTrees hp p.attributes htidy).writeLoader hp _)

end Generation

/-! ### Whole runs -/

/-- **Everything is in its place.** The root namespace is one that users write, spelled with
letters, digits and underscores. Whatever names a dictionary has, every file that is written goes
below the folder of the root namespace, through folders that are spelled like identifiers, and is
called `mod.rs` if it is a loader and otherwise after an attribute; so is every file that is taken
back. Where no such path leads, the files on the disk are as they were. -/
theorem Reading.files_in_place (r : Reading) (t : Target) (disk : Disk) {text : String}
    (hns : t.ns = .parse text) (hspelled : ∀ s ∈ t.ns.segments, Identifier.Spelled s) :
    (∀ f ∈ Generation.writes t r.registry disk, f.IsInPlace t) ∧
    (∀ f ∈ (generate t r.registry disk).written, f.IsInPlace t) ∧
    (∀ path, .fileRemoved path ∈ (generate t r.registry disk).events → t.Allows path) ∧
    ∀ loc, (∀ p, t.Allows p → ¬ (generate t r.registry disk).disk.LeadsTo p loc) →
      ∀ content, disk.entry? loc = some (.file content) ↔
        (generate t r.registry disk).disk.entry? loc = some (.file content) := by
  have hproper : ∀ s ∈ t.ns.segments, Path.Proper s := fun s hs =>
    Namespace.proper_parse (hns ▸ hs) fun hslash => absurd (hspelled s hs _ hslash) (by decide)
  have hfolders : ∀ p ∈ plans t r.registry, t.HasFolder p.scope.folder := fun p hp =>
    Target.hasFolder_plans r.wellFormed (fun s hs => (hproper s hs).toPlain) hp
  have hwrites : ∀ f ∈ Generation.writes t r.registry disk, f.IsInPlace t :=
    Generation.isInPlace_planWrites _ _ hfolders
  have htidy : Generation.Tidy t (generate t r.registry disk) := by
    have hstart : Generation.Tidy t (.start disk) :=
      ⟨List.forall_mem_nil _, fun _ hmem => absurd hmem (Array.not_mem_empty _)⟩
    rw [generate_eq]
    exact (Generation.tidy_runPlans _ hfolders hstart).note fun _ => nofun
  have h := Generation.settles_generate r.wellFormed hproper disk
  refine ⟨hwrites, htidy.written, htidy.removed, fun loc hloc content => ⟨fun hentry => ?_,
    fun hentry => ?_⟩⟩
  · refine h.spares loc content hentry fun p hp => ?_
    obtain ⟨f, hf, rfl⟩ := List.mem_map.mp hp
    exact hloc f.path (hwrites f hf).allows
  · rcases h.disk.file loc content hentry with ⟨p, hp, hleads⟩ | ⟨hold, -⟩
    · obtain ⟨f, hf, rfl⟩ := List.mem_map.mp hp
      exact absurd hleads (hloc f.path (htidy.written f hf).allows)
    · exact hold

/-- A reading of names that would lead elsewhere if they were paths. -/
def climbingReading : Reading :=
  ⟨default, [.text ("VENDOR ../up 1\nATTRIBUTE /etc/passwd 1 string\n" ++
    "ATTRIBUTE ../../X 2 string ../up\n")], false⟩

/-- The attribute `../../X` of the vendor `../up`. -/
def climbingAttribute : Attribute :=
  Declaration.toAttribute ⟨"../../X", 2, "string", none, some "../up"⟩

theorem registry_climbingReading : climbingReading.registry =
    ⟨⟨[("/etc/passwd", Declaration.toAttribute ⟨"/etc/passwd", 1, "string", none, none⟩)]⟩,
      ⟨[("../up", ⟨"../up", 1, ⟨["vsa_up"]⟩, none, ⟨[("../../X", climbingAttribute)]⟩⟩)]⟩⟩ := by
  decide +kernel

/-- They lead nowhere else. -/
theorem Reading.files_in_place_of_climbing :
    ((generate outTarget climbingReading.registry usedDisk).written.map (·.path.text) =
      ["out/radius/dictionary/attr_etcpasswd.rs", "out/radius/dictionary/mod.rs",
        "out/radius/dictionary/vsa_up/attr_x.rs", "out/radius/dictionary/vsa_up/mod.rs"]) ∧
    ∀ f ∈ (generate outTarget climbingReading.registry usedDisk).written,
      f.IsInPlace outTarget := by
  refine ⟨?_, (Reading.files_in_place climbingReading outTarget usedDisk rfl
    (by decide +kernel)).2.1⟩
  rw [registry_climbingReading]
  decide +kernel

end RadiusDictionary
