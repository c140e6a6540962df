import RadiusDictionary.Proofs.Generation.Enlisted
import RadiusDictionary.Proofs.Reading.Shape

/-! # Files without a loader

A loader is written after the attributes it registers. If its path was claimed before, it is left
out and they stay: their files are on record, and no loader leads to them. Where the disk allows all
writing, this is the only way to lose a file, and it happens to a vendor whose namespace an earlier
vendor has: names of vendors may differ by case where their namespaces do not. What a plan leaves
is told apart by the key of its loader (`eq_of_registers`), and the keys of plans by the namespaces
of their vendors (`key_vendor_eq_iff`). -/

namespace RadiusDictionary

/-! ### Places in a list -/

/-- Two places in one list are the same, or one comes before the other. -/
theorem splits_cases {α : Type} {front front' back back' : List α} {x x' : α}
    (h : front ++ x :: back = front' ++ x' :: back') :
    (front = front' ∧ x = x') ∨ (∃ mid, front' = front ++ x :: mid) ∨
      ∃ mid, front = front' ++ x' :: mid := by
  rcases List.append_eq_append_iff.mp h with ⟨mid, hfront, hback⟩ | ⟨mid, hfront, hback⟩
  · cases mid with
    | nil =>
      rw [List.append_nil] at hfront
      exact Or.inl ⟨hfront.symm, (List.cons.inj hback).1⟩
    | cons y mid =>
      obtain ⟨rfl, -⟩ := List.cons.inj hback
      exact Or.inr (Or.inl ⟨mid, hfront⟩)
  · cases mid with
    | nil =>
      rw [List.append_nil] at hfront
      exact Or.inl ⟨hfront, (List.cons.inj hback).1.symm⟩
    | cons y mid =>
      obtain ⟨rfl, -⟩ := List.cons.inj hback
      exact Or.inr (Or.inr ⟨mid, hfront⟩)

/-- A value that no two members share stands in one place. -/
theorem splits_unique {α β : Type} {f : α → β} {front front' back back' : List α} {x x' : α}
    (hnodup : ((front ++ x :: back).map f).Nodup)
    (h : front ++ x :: back = front' ++ x' :: back') (hf : f x = f x') :
    front = front' ∧ x = x' := by
  have hfirst : ∀ {front back : List α} {x : α} {mid : List α} {x' : α} {back' : List α},
      ((front ++ x :: back).map f).Nodup → front ++ x :: back = (front ++ x :: mid) ++ x' :: back' →
      f x ≠ f x' := by
    intro front back x mid x' back' hnodup h
    rw [h, List.append_assoc, List.cons_append, List.map_append, List.map_cons] at hnodup
    have hnot := (List.nodup_cons.mp (List.nodup_append.mp hnodup).2.1).1
    intro heq
    apply hnot
    rw [heq]
    exact List.mem_map_of_mem (List.mem_append_right _ List.mem_cons_self)
  rcases splits_cases h with hsame | ⟨mid, rfl⟩ | ⟨mid, rfl⟩
  · exact hsame
  · exact absurd hf (hfirst hnodup h)
  · rw [h] at hnodup
    exact absurd hf.symm (hfirst hnodup h.symm)

/-! ### Runs of plans -/

namespace Generation

variable {t : Target} {ps front back : List Plan} {p : Plan} {g : Generation}

theorem runPlans_append (t : Target) (ps ps' : List Plan) (g : Generation) :
    runPlans t (ps ++ ps') g = runPlans t ps' (runPlans t ps g) :=
  List.foldl_append

theorem grows_runPlans (t : Target) : ∀ (ps : List Plan) (g : Generation), Grows g (runPlans t ps g)
  | [], g => .refl g
  | p :: rest, g => (p.grows_run t g).trans (grows_runPlans t rest (p.run t g))

/-- The paths of loaders that are claimed are those of the plans. -/
theorem mem_claimed_runPlans (t : Target) {key : Path.Key} (hkey : key.IsLoader) :
    ∀ (ps : List Plan) (g : Generation),
      key ∈ (runPlans t ps g).claimed ↔ key ∈ g.claimed ∨ ∃ p ∈ ps, p.loaderPath.key = key
  | [], g => by simp [runPlans]
  | p :: rest, g => by
    show key ∈ (runPlans t rest (p.run t g)).claimed ↔ _
    rw [mem_claimed_runPlans t hkey rest, p.mem_claimed_run t g hkey, List.exists_mem_cons_iff,
      or_assoc, eq_comm (a := key)]

/-- Where a file that is on record came from. -/
structure CameFrom (t : Target) (ps : List Plan) (g : Generation) (front : List Plan) (p : Plan)
    (owner : Option String) (files loaders : List WrittenFile) : Prop where
  split : ∃ back, ps = front ++ p :: back
  sound : p.Sound owner
  leaves : p.Leaves t owner (runPlans t front g) files loaders

/-- **What is on record after some plans came from one of them.** -/
theorem mem_written_runPlans (t : Target) : ∀ (ps : List Plan) (g : Generation),
    (∀ p ∈ ps, ∃ owner, p.Sound owner) → (runPlans t ps g).Undisturbed →
    ∀ f ∈ (runPlans t ps g).written, f ∈ g.written ∨
      ∃ front p owner files loaders, CameFrom t ps g front p owner files loaders ∧
        f ∈ files ++ loaders
  | [], _, _, _ => fun _ hf => Or.inl hf
  | p :: rest, g, hsound, hnone => by
    obtain ⟨⟨owner, hp⟩, hrest⟩ := List.forall_mem_cons.mp hsound
    intro f hf
    rcases mem_written_runPlans t rest (p.run t g) hrest hnone f hf with
      hf | ⟨front, q, owner', files, loaders, ⟨⟨back, hsplit⟩, hq, hleaves⟩, hf⟩
    · obtain ⟨files, loaders, hleaves⟩ := Plan.run_spec hp t g
        (Undisturbed.of_grows (grows_runPlans t rest (p.run t g)) hnone)
      obtain ⟨touched, hadvance⟩ := hleaves.advance
      rw [hadvance.written_eq] at hf
      exact (List.mem_append.mp hf).imp_right fun hf =>
        ⟨[], p, owner, files, loaders, ⟨⟨rest, rfl⟩, hp, hleaves⟩, hf⟩
    · exact Or.inr ⟨p :: front, q, owner', files, loaders,
        ⟨⟨back, by rw [hsplit]; rfl⟩, hq, hleaves⟩, hf⟩

namespace CameFrom

variable {front front' : List Plan} {p p' : Plan} {owner owner' : Option String}
  {files loaders files' loaders' : List WrittenFile} {f f' : WrittenFile}

theorem subset_written (h : CameFrom t ps g front p owner files loaders) :
    files ++ loaders ⊆ (runPlans t ps g).written := by
  obtain ⟨back, rfl⟩ := h.split
  obtain ⟨touched, hadvance⟩ := h.leaves.advance
  have hgrows := grows_runPlans t back (p.run t (runPlans t front g))
  intro f hf
  rw [runPlans_append]
  apply hgrows.written
  rw [hadvance.written_eq]
  exact List.mem_append_right _ hf

/-- What a plan leaves has its path from then on only. -/
theorem key_mem (h : CameFrom t ps g front p owner files loaders) (hf : f ∈ files ++ loaders) :
    f.path.key ∈ (runPlans t (front ++ [p]) g).claimed ∧
      f.path.key ∉ (runPlans t front g).claimed := by
  obtain ⟨touched, hadvance⟩ := h.leaves.advance
  rw [runPlans_append]
  exact hadvance.key_claimed f hf

/-- **A path came from one plan.** -/
theorem unique (h : CameFrom t ps g front p owner files loaders)
    (h' : CameFrom t ps g front' p' owner' files' loaders') (hf : f ∈ files ++ loaders)
    (hf' : f' ∈ files' ++ loaders') (hkey : f.path.key = f'.path.key) :
    front = front' ∧ p = p' := by
  have hlater : ∀ {front p : _} {mid : List Plan} {key : Path.Key},
      key ∈ (runPlans t (front ++ [p]) g).claimed →
      key ∈ (runPlans t (front ++ p :: mid) g).claimed := by
    intro front p mid key hmem
    have hgrows := grows_runPlans t mid (runPlans t (front ++ [p]) g)
    rw [← runPlans_append, List.append_assoc] at hgrows
    exact hgrows.claimed hmem
  obtain ⟨back, hsplit⟩ := h.split
  obtain ⟨back', hsplit'⟩ := h'.split
  rcases splits_cases (hsplit.symm.trans hsplit') with hsame | ⟨mid, rfl⟩ | ⟨mid, rfl⟩
  · exact hsame
  · exact absurd (hkey ▸ hlater (h.key_mem hf).1) (h'.key_mem hf').2
  · exact absurd (hkey ▸ hlater (h'.key_mem hf').1) (h.key_mem hf).2

end CameFrom

end Generation

/-! ### The plans of a registry -/

theorem Attribute.WellFormed.ownedBy {owner : Option String} {a : Attribute}
    (h : a.WellFormed owner) : Generation.OwnedBy owner a := by
  refine ⟨h.vendor_eq, fun e he => ?_⟩
  cases hchildren : a.children with
  | none =>
    rw [nested, hchildren] at he
    cases he
  | some children =>
    rw [nested, hchildren] at he
    have hchild := h.children children hchildren e he
    exact ⟨hchild.vendor_eq, nested_of_children_eq_none hchild.children_eq⟩

namespace Registry.WellFormed

variable {r : Registry}

theorem sound_root (h : r.WellFormed) (t : Target) : (Plan.root t r).Sound none where
  owned a ha := by
    obtain ⟨e, he, rfl⟩ := List.mem_map.mp ha
    exact (h.attributes e he).ownedBy
  registrations _ := rfl
  kind _ := rfl

theorem sound_vendor (h : r.WellFormed) (t : Target) {v : Vendor} (hv : v ∈ r.vendors.values) :
    (Plan.vendor t r.moduleTree v).Sound (some v.name) where
  owned a ha := by
    obtain ⟨e, he, rfl⟩ := List.mem_map.mp hv
    obtain ⟨e', he', rfl⟩ := List.mem_map.mp ha
    have hvendor := h.vendors e he
    rw [hvendor.name_eq]
    exact (hvendor.attributes e' he').ownedBy
  registrations _ := rfl
  kind _ := rfl

theorem sound_plans (h : r.WellFormed) (t : Target) : ∀ p ∈ plans t r, ∃ owner, p.Sound owner := by
  intro p hp
  rcases mem_plans hp with rfl | ⟨v, hv, rfl⟩
  · exact ⟨none, h.sound_root t⟩
  · exact ⟨some v.name, h.sound_vendor t hv⟩

theorem home_eq (h : r.WellFormed) {v : Vendor} (hv : v ∈ r.vendors.values) :
    v.home = Namespace.ofVendor v.name := by
  obtain ⟨e, he, rfl⟩ := List.mem_map.mp hv
  exact (h.vendors e he).home_eq

end Registry.WellFormed

/-! ### The paths of loaders -/

theorem names_loaderPath_root (t : Target) (r : Registry) :
    (Plan.root t r).loaderPath.names = (t.ns.folder t.outputDir).names ++ ["mod.rs"] :=
  Path.names_joinText ⟨by decide, by decide, by decide⟩

theorem names_loaderPath_vendor (t : Target) (tree : ModuleTree) {v : Vendor}
    (hv : v.home = Namespace.ofVendor v.name) : (Plan.vendor t tree v).loaderPath.names =
      (t.ns.folder t.outputDir).names ++ v.home.segments ++ ["mod.rs"] := by
  have hplain := (Namespace.ofVendor_spec v.name).2
  rw [← hv] at hplain
  have hfolder : (t.ns.join v.home).folder t.outputDir =
      v.home.segments.foldl Path.joinText (t.ns.folder t.outputDir) := List.foldl_append
  unfold Plan.loaderPath Plan.vendor
  dsimp only
  rw [Path.names_joinText ⟨by decide, by decide, by decide⟩, hfolder,
    Path.names_foldl_joinText _ _ hplain]

theorem names_eq_of_key_eq {p q : Path} (h : p.key = q.key) : p.names = q.names :=
  List.reverse_injective (congrArg Path.Key.names h)

theorem key_root_ne (t : Target) (r : Registry) {v : Vendor}
    (hv : v.home = Namespace.ofVendor v.name) :
    (Plan.root t r).loaderPath.key ≠ (Plan.vendor t r.moduleTree v).loaderPath.key := by
  intro h
  have hnames := names_eq_of_key_eq h
  rw [names_loaderPath_root, names_loaderPath_vendor t _ hv] at hnames
  have hsegments := List.append_cancel_right hnames
  rw [List.self_eq_append_right, hv] at hsegments
  exact (Namespace.ofVendor_spec v.name).1 hsegments

/-- The loaders of two vendors have one path exactly if the vendors have one namespace. -/
theorem key_vendor_eq_iff (t : Target) (tree : ModuleTree) {v v' : Vendor}
    (hv : v.home = Namespace.ofVendor v.name) (hv' : v'.home = Namespace.ofVendor v'.name) :
    (Plan.vendor t tree v').loaderPath.key = (Plan.vendor t tree v).loaderPath.key ↔
      v'.home = v.home := by
  constructor
  · intro h
    have hnames := names_eq_of_key_eq h
    rw [names_loaderPath_vendor t _ hv, names_loaderPath_vendor t _ hv', List.append_assoc,
      List.append_assoc] at hnames
    have hsegments := List.append_cancel_right (List.append_cancel_left hnames)
    exact congrArg Namespace.mk hsegments
  · intro h
    unfold Plan.loaderPath Plan.vendor
    dsimp only
    rw [h]

/-! ### What a loader registers -/

/-- The loader `l` registers the file `f`: the modules that a registration names lead to it from the
folder of the loader, and the type is the one in it. -/
def WrittenFile.Registers (l f : WrittenFile) : Prop :=
  ∃ folder loader registration m, l.path = folder.joinText "mod.rs" ∧
    l.artifact = .loaderModule loader ∧ registration ∈ loader.registrations ∧
    (registration.file folder).key = f.path.key ∧ f.artifact = .attributeModule m ∧
    registration.typeName = m.typeName

/-- The vendor of a loader, or none; an attribute's module is no loader. -/
def Artifact.owner? : Artifact → Option (Option String)
  | attributeModule _ => none
  | loaderModule m => some m.kind.owner

/-- The folder of a loader is known by the loader's path. -/
theorem Registration.file_congr {p q : Path} {r : Registration}
    (h : p.joinText "mod.rs" = q.joinText "mod.rs") (hpath : r.path ≠ []) : r.file p = r.file q := by
  have hplain : Path.Plain "mod.rs" := ⟨by decide, by decide, by decide⟩
  rw [Path.joinText_eq hplain, Path.joinText_eq hplain] at h
  have hstem : p.stem = q.stem := List.append_cancel_right (congrArg Path.pieces h)
  have hjoin : ∀ name, p.joinText name = q.joinText name := by
    intro name
    rw [Path.joinText, Path.joinText, Path.join, Path.join, hstem]
  unfold file
  cases hr : r.path with
  | nil => exact absurd hr hpath
  | cons outer rest =>
    cases rest with
    | nil => exact hjoin _
    | cons next rest => rw [moduleFile, moduleFile, hjoin]

theorem WrittenFile.entry?_eq_some {f : WrittenFile} {path : Path} {type : String}
    {vendor : Option String} (h : f.entry? = some (path, type, vendor)) : ∃ m,
      f.artifact = .attributeModule m ∧ f.path = path ∧ m.typeName = type ∧
        m.subject.vendor = vendor := by
  unfold entry? at h
  split at h
  · next m hm =>
    cases h
    exact ⟨m, hm, rfl, rfl, rfl⟩
  · cases h

namespace Generation

section Enlisted

variable {owner : Option String} {folder : Path} {files : List WrittenFile}
  {registrations : List Registration}

theorem Enlisted.exists_file (h : Enlisted owner folder files registrations) {r : Registration}
    (hr : r ∈ registrations) : ∃ f ∈ files, f.path = r.file folder := by
  have hmem := h.perm.mem_iff.mpr (List.mem_map_of_mem hr)
  obtain ⟨f, hf, hentry⟩ := List.mem_map.mp hmem
  obtain ⟨m, -, hpath, -, -⟩ := WrittenFile.entry?_eq_some hentry
  exact ⟨f, hf, hpath⟩

theorem Enlisted.exists_registration (h : Enlisted owner folder files registrations)
    {f : WrittenFile} (hf : f ∈ files) : ∃ m, f.artifact = .attributeModule m ∧
      m.subject.vendor = owner ∧ ∃ r ∈ registrations, r.file folder = f.path ∧
        r.typeName = m.typeName := by
  have hmem := h.perm.mem_iff.mp (List.mem_map_of_mem hf)
  obtain ⟨r, hr, hentry⟩ := List.mem_map.mp hmem
  obtain ⟨m, hm, hpath, htype, hvendor⟩ := WrittenFile.entry?_eq_some hentry.symm
  exact ⟨m, hm, hvendor, r, hr, hpath.symm, htype.symm⟩

end Enlisted

namespace CameFrom

variable {t : Target} {ps front front' : List Plan} {p p' : Plan} {g : Generation}
  {owner owner' : Option String} {files loaders files' loaders' : List WrittenFile}
  {f l : WrittenFile}

/-- A loader whose path is free registers the files of its plan. -/
theorem registers (h : CameFrom t ps g front p owner files loaders) (hf : f ∈ files) :
    (p.loaderFile t (runPlans t front g)).Registers f := by
  obtain ⟨m, hm, -, r, hr, hpath, htype⟩ := h.leaves.enlisted.exists_registration hf
  refine ⟨p.scope.folder, _, r, m, rfl, rfl, ?_, congrArg Path.key hpath, hm, htype⟩
  rw [h.sound.registrations]
  exact hr

/-- No other loader registers them. -/
theorem eq_of_registers (h : CameFrom t ps g front p owner files loaders) (hf : f ∈ files)
    (h' : CameFrom t ps g front' p' owner' files' loaders') (hl : l ∈ files' ++ loaders')
    (hregisters : l.Registers f) :
    l = p.loaderFile t (runPlans t front g) ∧
      p.loaderPath.key ∉ (runPlans t front g).claimed := by
  obtain ⟨folder, loader, r, m, hpath, hloader, hr, hkey, -, -⟩ := hregisters
  have hmem : l ∈ loaders' := by
    refine (List.mem_append.mp hl).resolve_left fun hl => ?_
    obtain ⟨m', hm', -⟩ := h'.leaves.enlisted.exists_registration hl
    rw [hloader] at hm'
    cases hm'
  obtain ⟨rfl, hfree⟩ := h'.leaves.of_mem_loaders hmem
  -- The registration is one of this plan, so it stands for a file that came from this plan.
  obtain rfl : p'.loader (p'.registrations t (runPlans t front' g)) = loader :=
    Artifact.loaderModule.inj hloader
  rw [h'.sound.registrations] at hr
  obtain ⟨f', hf', hfile⟩ := h'.leaves.enlisted.exists_file hr
  have hsame : f.path.key = f'.path.key := by
    rw [hfile, ← hkey, Registration.file_congr hpath (h'.leaves.enlisted.path_ne r hr)]
  obtain ⟨rfl, rfl⟩ := h.unique h' (List.mem_append_left _ hf) (List.mem_append_left _ hf') hsame
  exact ⟨rfl, hfree⟩

end CameFrom

/-- The path of a loader is free unless an earlier vendor has the namespace. -/
theorem free_iff {r : Reading} {t : Target} {g : Generation} (hg : g.claimed = [])
    {front : List Plan} {p : Plan} {owner : Option String} {files loaders : List WrittenFile}
    (h : CameFrom t (plans t r.registry) g front p owner files loaders) :
    p.loaderPath.key ∉ (runPlans t front g).claimed ↔
      ∀ before v after, r.registry.vendors.values = before ++ v :: after → owner = some v.name →
        ∀ v' ∈ before, v'.home ≠ v.home := by
  have hloader : p.loaderPath.key.IsLoader := Path.isLoader_joinText _
  rw [mem_claimed_runPlans t hloader, hg]
  simp only [List.not_mem_nil, false_or, not_exists, not_and]
  obtain ⟨back, hsplit⟩ := h.split
  cases front with
  | nil =>
    obtain ⟨rfl, -⟩ := List.cons.inj hsplit
    have howner : none = owner := h.sound.kind []
    refine iff_of_true (fun _ hq => nomatch hq) fun before v after _ hv => ?_
    rw [← howner] at hv
    cases hv
  | cons q front =>
    obtain ⟨rfl, hvendors⟩ := List.cons.inj hsplit
    obtain ⟨before, rest, hvalues, rfl, hrest⟩ := List.map_eq_append_iff.mp hvendors
    obtain ⟨v, after, rfl, rfl, -⟩ := List.map_eq_cons_iff.mp hrest
    have howner : some v.name = owner := h.sound.kind []
    have hmem : ∀ v' ∈ before, v' ∈ r.registry.vendors.values := by
      intro v' hv'
      rw [hvalues]
      exact List.mem_append_left _ hv'
    have hhome := r.wellFormed.home_eq (v := v)
      (by rw [hvalues]; exact List.mem_append_right _ List.mem_cons_self)
    constructor
    · intro hfree before' w after' hvalues' hname v' hv' heq
      have hnodup := r.nodup_vendorNames
      rw [← howner, Option.some.injEq] at hname
      rw [hvalues] at hnodup
      obtain ⟨rfl, rfl⟩ := splits_unique hnodup (hvalues.symm.trans hvalues') hname
      refine hfree _ (List.mem_cons_of_mem _ (List.mem_map_of_mem hv')) ?_
      exact (key_vendor_eq_iff t _ hhome (r.wellFormed.home_eq (hmem v' hv'))).mpr heq
    · intro hhomes q hq
      rcases List.mem_cons.mp hq with rfl | hq
      · exact key_root_ne t _ hhome
      · obtain ⟨v', hv', rfl⟩ := List.mem_map.mp hq
        rw [key_vendor_eq_iff t _ hhome (r.wellFormed.home_eq (hmem v' hv'))]
        exact hhomes before v after hvalues howner.symm v' hv'

end Generation

/-- **What is registered.** Where no folder or file fails to be written, the module of an attribute
is registered by one loader at most, that of the attribute's vendor or of the root. It is registered
exactly if no vendor before its own has the same namespace. -/
theorem Reading.registered_iff (r : Reading) (t : Target) (disk : Disk)
    (hnone : (generate t r.registry disk).Undisturbed) {f : WrittenFile} {m : AttributeModule}
    (hf : f ∈ (generate t r.registry disk).written) (hm : f.artifact = .attributeModule m) :
    (∀ l ∈ (generate t r.registry disk).written, l.Registers f →
      l.artifact.owner? = some m.subject.vendor) ∧
    (∀ l ∈ (generate t r.registry disk).written, ∀ l' ∈ (generate t r.registry disk).written,
      l.Registers f → l'.Registers f → l = l') ∧
    ((∃ l ∈ (generate t r.registry disk).written, l.Registers f) ↔
      ∀ before v after, r.registry.vendors.values = before ++ v :: after →
        m.subject.vendor = some v.name → ∀ v' ∈ before, v'.home ≠ v.home) := by
  rw [generate_eq] at hnone hf ⊢
  have hcame := Generation.mem_written_runPlans t (plans t r.registry) (.start disk)
    (r.wellFormed.sound_plans t) hnone
  obtain ⟨front, p, owner, files, loaders, h, hf⟩ := (hcame f hf).resolve_left List.not_mem_nil
  have hfile : f ∈ files := by
    refine (List.mem_append.mp hf).resolve_right fun hf => ?_
    rw [(h.leaves.of_mem_loaders hf).1] at hm
    cases hm
  obtain ⟨m', hm', howner, -⟩ := h.leaves.enlisted.exists_registration hfile
  obtain rfl : m = m' := Artifact.attributeModule.inj (hm.symm.trans hm')
  have honly : ∀ l ∈ (runPlans t (plans t r.registry) (.start disk)).written, l.Registers f →
      l = p.loaderFile t (runPlans t front (.start disk)) ∧
        p.loaderPath.key ∉ (runPlans t front (.start disk)).claimed := by
    intro l hl hregisters
    obtain ⟨front', p', owner', files', loaders', h', hl⟩ :=
      (hcame l hl).resolve_left List.not_mem_nil
    exact h.eq_of_registers hfile h' hl hregisters
  refine ⟨fun l hl hregisters => ?_, fun l hl l' hl' hregisters hregisters' => ?_, ?_⟩
  · rw [(honly l hl hregisters).1, howner]
    exact congrArg some (h.sound.kind _)
  · rw [(honly l hl hregisters).1, (honly l' hl' hregisters').1]
  · rw [howner, ← Generation.free_iff rfl h]
    constructor
    · rintro ⟨l, hl, hregisters⟩
      exact (honly l hl hregisters).2
    · intro hfree
      refine ⟨_, h.subset_written (List.mem_append_right _ ?_), h.registers hfile⟩
      rw [h.leaves.free hfree]
      exact List.mem_singleton_self _

/-- A reading of two vendors whose names differ by case, and of an attribute of the second one. -/
def caseReading : Reading :=
  ⟨default, [.text "VENDOR A 1\nVENDOR a 2\nATTRIBUTE X 1 string a\n"], false⟩

/-- The vendor `A`. -/
def upperVendor : Vendor := ⟨"A", 1, ⟨["vsa_a"]⟩, none, ∅⟩

/-- The vendor `a` with the attribute `X`. -/
def lowerVendor : Vendor := ⟨"a", 2, ⟨["vsa_a"]⟩, none,
  ⟨[("X", Declaration.toAttribute ⟨"X", 1, "string", none, some "a"⟩)]⟩⟩

theorem registry_caseReading :
    caseReading.registry = ⟨∅, ⟨[("A", upperVendor), ("a", lowerVendor)]⟩⟩ := by
  decide +kernel

/-- The module of `X` is on record, and no loader registers it. -/
theorem Reading.unregistered_of_case :
    ∃ f ∈ (generate default caseReading.registry .empty).written,
      ¬ ∃ l ∈ (generate default caseReading.registry .empty).written, l.Registers f := by
  have hnone : (generate default caseReading.registry .empty).Undisturbed := by
    rw [registry_caseReading]
    decide +kernel
  have hentry : some (⟨["vsa_a", "attr_x.rs"]⟩, "Attr_X", some "a") ∈
      (generate default caseReading.registry .empty).written.map WrittenFile.entry? := by
    rw [registry_caseReading]
    decide +kernel
  obtain ⟨f, hf, hentry⟩ := List.mem_map.mp hentry
  obtain ⟨m, hm, -, -, hvendor⟩ := WrittenFile.entry?_eq_some hentry
  refine ⟨f, hf, fun hregistered => ?_⟩
  obtain ⟨-, -, hiff⟩ := caseReading.registered_iff default .empty hnone hf hm
  have hvendors : caseReading.registry.vendors.values = [upperVendor] ++ lowerVendor :: [] := by
    rw [registry_caseReading]
    rfl
  exact hiff.mp hregistered [upperVendor] lowerVendor [] hvendors hvendor upperVendor
    List.mem_cons_self rfl

end RadiusDictionary
