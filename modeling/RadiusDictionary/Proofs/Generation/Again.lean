import RadiusDictionary.Proofs.Disk.Steady
import RadiusDictionary.Proofs.Generation.TwinRuns

/-! # Generating again

A second run on the disk that the first one left writes the same files, records the same failures
and leaves the disk as it is (`Reading.generate_again`). One thing may differ, the fault that is
named where a folder could not be made, and only if the way to the output folder goes up again
behind a name (`Reading.failures_of_detour`). The two runs go side by side. What a step does depends
on the disk with which the first run started and not on what was done since (`Disk.Steady`), so that
the generations stay `Generation.Abreast`: the same files are on record, the same artifacts failed,
and where the disks differ the second one is still as it was when its run started. As this is what
the first run left, no difference remains in the end. -/

namespace RadiusDictionary

open RadiusDictionary.Path (LeadToFile)

/-! ### Failures of two runs -/

/-- The same error, or errors of one operation on files. -/
inductive GenerationError.Alike (exact : Prop) : GenerationError → GenerationError → Prop
  | file {e e' : FileError} (h : e.Alike exact e') : Alike exact (.file e) (.file e')
  | same (e : GenerationError) : Alike exact e e

/-- The same artifact failed with the same error, up to the fault if a folder could not be made and
the faults of that are not `exact`. -/
structure Failure.Alike (exact : Prop) (f f' : Failure) : Prop where
  artifact : f.artifact = f'.artifact
  error : f.error.Alike exact f'.error

theorem GenerationError.Alike.mono {exact exact' : Prop} (himp : exact' → exact)
    {e e' : GenerationError} (h : e.Alike exact e') : e.Alike exact' e' := by
  cases h with
  | file h => exact .file (h.mono himp)
  | same => exact .same e

theorem GenerationError.Alike.eq {exact : Prop} {e e' : GenerationError} (h : e.Alike exact e')
    (hexact : exact) : e = e' := by
  cases h with
  | file h => rw [h.eq hexact]
  | same => rfl

theorem Failure.Alike.mono {exact exact' : Prop} (himp : exact' → exact) {f f' : Failure}
    (h : f.Alike exact f') : f.Alike exact' f' :=
  ⟨h.artifact, h.error.mono himp⟩

theorem Failure.Alike.eq {exact : Prop} {f f' : Failure} (h : f.Alike exact f') (hexact : exact) :
    f = f' := by
  obtain ⟨artifact, error⟩ := f
  obtain ⟨artifact', error'⟩ := f'
  obtain ⟨rfl, herror⟩ := h
  obtain rfl : error = error' := herror.eq hexact
  rfl

theorem Failure.eq_of_forall₂_alike {exact : Prop} {failures failures' : List Failure}
    (h : List.Forall₂ (Failure.Alike exact) failures failures') (hexact : exact) :
    failures = failures' := by
  induction h with
  | nil => rfl
  | cons hpair _ ih => rw [hpair.eq hexact, ih]

/-! ### Two generations side by side -/

/-- A file that was written on both disks, and that can be taken back. -/
def Disk.Placed (base : Path) (o d d' : Disk) (p : Path) : Prop :=
  ∃ names, LeadToFile names ∧ p = base.descend names ∧ Disk.Vacant base o names ∧
    d.LeadsTo p (names ++ o.root base) ∧ d'.LeadsTo p (names ++ o.root base)

theorem Disk.Placed.mono {base p : Path} {o d d' d₁ d₁' : Disk} (h : Disk.Placed base o d d' p)
    (hd : Disk.KeepsFolders d d₁) (hd' : Disk.KeepsFolders d' d₁') :
    Disk.Placed base o d₁ d₁' p := by
  obtain ⟨names, hnames, hpath, hvacant, hleads, hleads'⟩ := h
  exact ⟨names, hnames, hpath, hvacant, hleads.mono hd, hleads'.mono hd'⟩

namespace Generation

/-- Two generations that did the same, on disks that may differ where the second one is still as it
was `first`. -/
structure Abreast (base : Path) (o first : Disk) (g g' : Generation) : Prop where
  numbers : g'.numbers = g.numbers
  claimed : g'.claimed = g.claimed
  written : g'.written = g.written
  failures : List.Forall₂ (Failure.Alike (Disk.Direct base.names)) g.failures g'.failures
  disks : Disk.Abreast base o first g.disk g'.disk
  placed : ∀ f ∈ g.written, Disk.Placed base o g.disk g'.disk f.path

namespace Abreast

variable {base path : Path} {o first : Disk} {g g' g₁ g₁' : Generation}

theorem start {disk disk' : Disk} (h : Disk.Abreast base o first disk disk') :
    Abreast base o first (.start disk) (.start disk') :=
  ⟨rfl, rfl, rfl, .nil, h, List.forall_mem_nil _⟩

theorem idsAt_eq (h : Abreast base o first g g') (scope : Scope) (place : Place) (a : Attribute) :
    (g'.reach a).idsAt scope place a = (g.reach a).idsAt scope place a := by
  unfold idsAt reach note
  rw [h.numbers]

theorem reach (h : Abreast base o first g g') (a : Attribute) : Abreast base o first
    ((g.reach a).setNumber a.toDeclaration) ((g'.reach a).setNumber a.toDeclaration) where
  numbers := by
    unfold setNumber Generation.reach note
    dsimp only
    rw [h.numbers]
  claimed := h.claimed
  written := h.written
  failures := h.failures
  disks := h.disks
  placed := h.placed

/-- Failures are recorded by both. -/
theorem record (h : Abreast base o first g g') {failures failures' : List Failure}
    (hfailures : List.Forall₂ (Failure.Alike (Disk.Direct base.names)) failures failures')
    (events events' : Array GenerationEvent) :
    Abreast base o first { g with failures, events }
      { g' with failures := failures', events := events' } :=
  ⟨h.numbers, h.claimed, h.written, hfailures, h.disks, h.placed⟩

theorem failures_concat (h : Abreast base o first g g') (name : String) {e e' : GenerationError}
    (he : e.Alike (Disk.Direct base.names) e') :
    List.Forall₂ (Failure.Alike (Disk.Direct base.names)) (g.failures ++ [⟨name, e⟩])
      (g'.failures ++ [⟨name, e'⟩]) :=
  List.rel_append h.failures (.cons ⟨rfl, he⟩ .nil)

theorem fail (h : Abreast base o first g g') (name : String) {e e' : GenerationError}
    (he : e.Alike (Disk.Direct base.names) e') :
    Abreast base o first (g.fail name e) (g'.fail name e') :=
  h.record (h.failures_concat name he) _ _

theorem giveUp (h : Abreast base o first g g') (a : Attribute) (path : Path) :
    Abreast base o first (g.giveUp a path) (g'.giveUp a path) := by
  have hfailures := h.failures_concat a.name (.same (.alreadyGenerated path))
  rw [← failures_giveUp g a path, ← failures_giveUp g' a path] at hfailures
  obtain ⟨failures, events, heq⟩ := giveUp_eq g a path
  obtain ⟨failures', events', heq'⟩ := giveUp_eq g' a path
  rw [heq, heq'] at hfailures ⊢
  exact h.record hfailures events events'

/-! ### Claims and files -/

theorem claim?_eq_none (h : Abreast base o first g g') (hclaim : g.claim? path = none) :
    g'.claim? path = none := by
  rw [claim?_eq_none_iff] at hclaim ⊢
  rw [h.claimed]
  exact hclaim

/-- A path is claimed by both. -/
theorem claim? (h : Abreast base o first g g') (hclaim : g.claim? path = some g₁) :
    ∃ g₁', g'.claim? path = some g₁' ∧ Abreast base o first g₁ g₁' := by
  obtain ⟨hfree, rfl⟩ := claim?_eq_some hclaim
  refine ⟨{ g' with claimed := path.key :: g'.claimed }, ?_, h.numbers, ?_, h.written, h.failures,
    h.disks, h.placed⟩
  · unfold Generation.claim?
    rw [h.claimed, if_neg (by simpa using hfree)]
  · dsimp only
    rw [h.claimed]

/-- The disks of both change. -/
theorem onDisks (h : Abreast base o first g g') {disk disk' : Disk}
    (hdisks : Disk.Abreast base o first disk disk') (hkeeps : Disk.KeepsFolders g.disk disk)
    (hkeeps' : Disk.KeepsFolders g'.disk disk') :
    Abreast base o first { g with disk } { g' with disk := disk' } :=
  ⟨h.numbers, h.claimed, h.written, h.failures, hdisks, fun f hf =>
    (h.placed f hf).mono hkeeps hkeeps'⟩

/-- A file is put on record by both. -/
theorem add (h : Abreast base o first g g') (f : WrittenFile)
    (hplaced : Disk.Placed base o g.disk g'.disk f.path) : Abreast base o first
      { g with written := g.written ++ [f] } { g' with written := g'.written ++ [f] } := by
  refine ⟨h.numbers, h.claimed, ?_, h.failures, h.disks, fun f' hf' => ?_⟩
  · dsimp only
    rw [h.written]
  · rcases List.mem_append.mp hf' with hf' | hf'
    · exact h.placed f' hf'
    · rw [List.mem_singleton.mp hf']
      exact hplaced

/-- **Writing a file** fails for both, or both write it. -/
theorem write (h : Abreast base o first g g') (hfile : base.HasFile path) (t : Target)
    (artifact : Artifact) :
    (∃ g₁ g₁' e e', g.write t path artifact = (g₁, some e) ∧
      g'.write t path artifact = (g₁', some e') ∧ e.Alike (Disk.Direct base.names) e' ∧
      Abreast base o first g₁ g₁') ∨
    ∃ g₁ g₁', g.write t path artifact = (g₁, none) ∧ g'.write t path artifact = (g₁', none) ∧
      Abreast base o first g₁ g₁' := by
  obtain ⟨names, hnames, rfl⟩ := hfile
  obtain _ | ⟨name, outer⟩ := names
  · cases hnames
  unfold Generation.write
  obtain ⟨disk, disk', e, e', hcreate, hcreate', halike, hdisks⟩ |
    ⟨disk, disk', hcreate, hcreate', hdisks, hopen, hopen'⟩ := h.disks.createFolder hnames
  · have hafter := h.onDisks hdisks (Disk.keepsFolders_of_createFolder hcreate)
      (Disk.keepsFolders_of_createFolder hcreate')
    rw [hcreate, hcreate']
    exact Or.inl ⟨_, _, _, _, rfl, rfl, .file halike, hafter⟩
  have hfolder := Disk.keepsFolders_of_createFolder hcreate
  have hfolder' := Disk.keepsFolders_of_createFolder hcreate'
  rw [hcreate, hcreate']
  dsimp only
  obtain ⟨e, hwrite, hwrite'⟩ | ⟨made, made', hwrite, hwrite', hmade, hvacant, hleads, hleads'⟩ :=
    hdisks.writeFile hnames hopen hopen' (artifact.render t)
  · rw [hwrite, hwrite']
    exact Or.inl ⟨_, _, _, _, rfl, rfl, .same _, h.onDisks hdisks hfolder hfolder'⟩
  · have hkeeps := (Disk.change_writeFile hwrite).toKeepsFolders
    have hkeeps' := (Disk.change_writeFile hwrite').toKeepsFolders
    have hafter := h.onDisks hmade (hfolder.trans hkeeps) (hfolder'.trans hkeeps')
    rw [hwrite, hwrite']
    exact Or.inr ⟨_, _, rfl, rfl, hafter.add ⟨_, artifact⟩
      ⟨_, hnames, rfl, hvacant, hleads.mono hkeeps, hleads'.mono hkeeps'⟩⟩

theorem foldl_without : ∀ {paths : List Path} {disk disk' : Disk},
    Disk.Abreast base o first disk disk' → (∀ p ∈ paths, Disk.Placed base o disk disk' p) →
      Disk.Abreast base o first (paths.foldl Disk.without disk) (paths.foldl Disk.without disk')
  | [], _, _, h, _ => h
  | p :: rest, disk, disk', h, hplaced => by
    obtain ⟨hp, hrest⟩ := List.forall_mem_cons.mp hplaced
    obtain ⟨names, hnames, rfl, hvacant, hleads, hleads'⟩ := hp
    rw [List.foldl_cons, List.foldl_cons]
    exact foldl_without (h.without hnames hvacant hleads hleads') fun q hq =>
      (hrest q hq).mono (Disk.keepsFolders_without _ _) (Disk.keepsFolders_without _ _)

/-- **Taking files back** is done by both. -/
theorem discardFrom (h : Abreast base o first g g') (mark : Nat) :
    Abreast base o first (g.discardFrom mark) (g'.discardFrom mark) := by
  obtain ⟨events, heq⟩ := discardFrom_eq g mark
  obtain ⟨events', heq'⟩ := discardFrom_eq g' mark
  have hplaced : ∀ p ∈ (g.written.drop mark).map (·.path), Disk.Placed base o g.disk g'.disk p := by
    intro p hp
    obtain ⟨f, hf, rfl⟩ := List.mem_map.mp hp
    exact h.placed f (List.mem_of_mem_drop hf)
  rw [heq, heq', h.written]
  refine ⟨h.numbers, h.claimed, rfl, h.failures, foldl_without h.disks hplaced, fun f hf => ?_⟩
  exact (h.placed f (List.mem_of_mem_take hf)).mono (Disk.keepsFolders_foldl_without _ _)
    (Disk.keepsFolders_foldl_without _ _)

end Abreast

/-! ### Attributes -/

/-- What generating an attribute leaves of generations that are abreast, given what it leaves of the
first one. -/
def AbreastTree (t : Target) (base : Path) (o first : Disk) (scope : Scope) (place : Place)
    (a : Attribute) (g : Generation) (r : Generation × List Registration) : Prop :=
  ∀ g', Abreast base o first g g' → base.HasFolder place.folder →
    Abreast base o first r.1 (attributeTree t scope place a g').1 ∧
      (attributeTree t scope place a g').2 = r.2

/-- What generating the attributes nested in one leaves of generations that are abreast. -/
def AbreastNested (t : Target) (base : Path) (o first : Disk) (scope : Scope) (place : Place)
    (d : Declaration) (entries : List (String × Attribute)) (g : Generation)
    (r : Generation × NestedModules) : Prop :=
  ∀ g', Abreast base o first g g' → base.HasFolder place.folder →
    Abreast base o first r.1 (nestedTrees t scope place d entries g').1 ∧
      (nestedTrees t scope place d entries g').2 = r.2

variable {t : Target} {base : Path} {o first : Disk} {scope : Scope} {place : Place} {a : Attribute}
  {g g' : Generation}

/-- The last step of an attribute. -/
theorem abreast_close (h : Abreast base o first g g') (hfolder : base.HasFolder place.folder)
    (ids : TypeIds) (mark : Nat) (nested : NestedModules) :
    Abreast base o first (close t scope place a ids mark nested g).1
        (close t scope place a ids mark nested g').1 ∧
      (close t scope place a ids mark nested g').2 =
        (close t scope place a ids mark nested g).2 := by
  obtain ⟨g₁, g₁', e, e', hwrite, hwrite', halike, hafter⟩ | ⟨g₁, g₁', hwrite, hwrite', hafter⟩ :=
    h.write (Place.hasFile_file hfolder a.toDeclaration) t (ownArtifact scope place a ids nested)
  · rw [close_of_write_eq_some hwrite, close_of_write_eq_some hwrite']
    exact ⟨(hafter.fail a.name halike).discardFrom mark, rfl⟩
  · rw [close_of_write_eq_none hwrite, close_of_write_eq_none hwrite']
    exact ⟨hafter, rfl⟩

/-- **Every way through an attribute** keeps generations abreast. -/
theorem treeInvariant_abreast (t : Target) (base : Path) (o first : Disk) (scope : Scope) :
    TreeInvariant t scope (AbreastTree t base o first scope)
      (AbreastNested t base o first scope) where
  unresolved {place a g e} hids g' h _ := by
    have hids' := hids
    rw [← h.idsAt_eq] at hids'
    rw [attributeTree_of_unresolved hids']
    exact ⟨h.record (h.failures_concat a.name (.same e)) _ _, rfl⟩
  taken {place a g ids} hids hclaim g' h _ := by
    have hids' := hids
    rw [← h.idsAt_eq] at hids'
    have hreach := h.reach a
    rw [attributeTree_of_taken hids' (hreach.claim?_eq_none hclaim)]
    exact ⟨hreach.giveUp a _, rfl⟩
  claimed {place a g g₁ ids} hids hclaim hnested g' h hfolder := by
    have hids' := hids
    rw [← h.idsAt_eq] at hids'
    obtain ⟨g₁', hclaim', h₁⟩ := (h.reach a).claim? hclaim
    obtain ⟨hafter, hsame⟩ := hnested g₁' h₁ hfolder
    rw [attributeTree_of_claimed hids' hclaim', hsame, h₁.written]
    exact abreast_close hafter hfolder ids g₁.written.length _
  nil g' h _ := ⟨h, rfl⟩
  cons {place d key child rest g} hchild hrest g' h hfolder := by
    obtain ⟨h₁, hsame⟩ := hchild g' h (Place.hasFolder_below hfolder d child.toDeclaration)
    obtain ⟨h₂, hsame'⟩ := hrest _ h₁ hfolder
    refine ⟨h₂, ?_⟩
    rw [snd_nestedTrees_cons, snd_nestedTrees_cons, hsame, hsame']

/-! ### Loaders and whole runs -/

theorem abreast_attributeTrees (t : Target) (hfolder : base.HasFolder scope.folder) :
    ∀ (attributes : List Attribute) (g g' : Generation), Abreast base o first g g' →
      Abreast base o first (attributeTrees t scope attributes g).1
          (attributeTrees t scope attributes g').1 ∧
        (attributeTrees t scope attributes g').2 = (attributeTrees t scope attributes g).2
  | [], _, _, h => ⟨h, rfl⟩
  | a :: rest, g, g', h => by
    obtain ⟨h₁, hsame⟩ := (treeInvariant_abreast t base o first scope).attributeTree a
      (.top scope a.toDeclaration) g g' h hfolder
    obtain ⟨h₂, hsame'⟩ := abreast_attributeTrees t hfolder rest _ _ h₁
    refine ⟨h₂, ?_⟩
    unfold attributeTrees
    dsimp only
    rw [hsame, hsame']

theorem abreast_writeLoader (t : Target) {folder : Path} (hfolder : base.HasFolder folder)
    (m : LoaderModule) (h : Abreast base o first g g') :
    Abreast base o first (g.writeLoader t folder m) (g'.writeLoader t folder m) := by
  unfold writeLoader
  dsimp only
  cases hclaim : g.claim? (folder.joinText "mod.rs") with
  | none =>
    rw [h.claim?_eq_none hclaim]
    exact h.fail _ (.same _)
  | some g₁ =>
    obtain ⟨g₁', hclaim', h₁⟩ := h.claim? hclaim
    rw [hclaim']
    dsimp only
    obtain ⟨after, after', e, e', hwrite, hwrite', halike, hafter⟩ |
      ⟨after, after', hwrite, hwrite', hafter⟩ :=
      h₁.write (hfolder.hasFile Path.dotted_loaderFile) t (.loaderModule m)
    · rw [hwrite, hwrite']
      exact hafter.fail _ halike
    · rw [hwrite, hwrite']
      exact hafter

theorem abreast_run (t : Target) {p : Plan} (hfolder : base.HasFolder p.scope.folder)
    (h : Abreast base o first g g') : Abreast base o first (p.run t g) (p.run t g') := by
  obtain ⟨htrees, hsame⟩ := abreast_attributeTrees t hfolder p.attributes g g' h
  have hregistrations : p.registrations t g' = p.registrations t g := hsame
  unfold Plan.run
  rw [hregistrations]
  exact abreast_writeLoader t hfolder _ htrees

theorem abreast_runPlans (t : Target) : ∀ (ps : List Plan) (g g' : Generation),
    (∀ p ∈ ps, base.HasFolder p.scope.folder) → Abreast base o first g g' →
      Abreast base o first (runPlans t ps g) (runPlans t ps g')
  | [], _, _, _, h => h
  | p :: rest, g, g', hfolders, h => by
    obtain ⟨hfolder, hrest⟩ := List.forall_mem_cons.mp hfolders
    exact abreast_runPlans t rest _ _ hrest (abreast_run t hfolder h)

end Generation

/-- Runs on disks that are abreast stay so. -/
theorem Registry.WellFormed.abreast_generate {r : Registry} (hr : r.WellFormed) (t : Target)
    {o first disk disk' : Disk}
    (h : Disk.Abreast (t.ns.folder t.outputDir) o first disk disk') :
    Generation.Abreast (t.ns.folder t.outputDir) o first (generate t r disk)
      (generate t r disk') := by
  have hruns := Generation.abreast_runPlans t (plans t r) _ _
    (fun p hp => (hr.within_plans t p hp).folder) (Generation.Abreast.start h)
  rw [generate_eq, generate_eq]
  exact ⟨hruns.numbers, hruns.claimed, hruns.written, hruns.failures, hruns.disks, hruns.placed⟩

/-! ### Folders of namespaces -/

/-- A text without dots leads out of no folder. -/
theorem Path.up_not_mem_ofText {text : String} (h : '.' ∉ text.toList) :
    ".." ∉ (Path.ofText text).names := by
  intro hup
  obtain ⟨piece, hpiece, heq⟩ := List.mem_map.mp (List.mem_filter.mp hup).1
  refine h (Text.mem_of_mem_piecesBy _ _ piece hpiece '.' ?_)
  rw [← String.toList_ofList (l := piece), heq]
  decide

theorem Disk.Direct.joinText {p : Path} (h : Disk.Direct p.names) {text : String}
    (htext : '.' ∉ text.toList) : Disk.Direct (p.joinText text).names := by
  have hup := Path.up_not_mem_ofText htext
  unfold Path.joinText Path.join
  split
  · exact fun hmem => hup ((List.dropWhile_suffix _).subset hmem)
  · have hnames : (⟨p.stem ++ (Path.ofText text).pieces⟩ : Path).names =
        p.names ++ (Path.ofText text).names := by
      rw [← Path.names_stem p]
      exact List.filter_append _ _
    rw [hnames]
    exact h.append hup

theorem Disk.Direct.folder : ∀ {segments : List String} {p : Path}, Disk.Direct p.names →
    (∀ s ∈ segments, '.' ∉ s.toList) → Disk.Direct (segments.foldl Path.joinText p).names
  | [], _, h, _ => h
  | s :: rest, p, h, hsegments => by
    obtain ⟨hs, hrest⟩ := List.forall_mem_cons.mp hsegments
    exact (h.joinText hs).folder hrest

/-- **Generating again changes nothing.** A second run on the disk that the first one left writes
the same files in the same order and records the same failures, and what lies on the disk stays as
it is. Nothing is asked of the disk but that all that lies there lies in a folder.

The failures are equal if `..` stands at the start of the output folder only, or nowhere in it.
Otherwise they are so but for the fault that the operating system names when a folder cannot be
made: it stumbles over the same obstacle, but earlier or later on the way, as folders that were
missing are there by now. -/
theorem Reading.generate_again (r : Reading) {t : Target} {text : String} (hns : t.ns = .parse text)
    {disk : Disk} (hdisk : disk.IsTree) :
    let g := generate t r.registry disk
    let again := generate t r.registry g.disk
    again.written = g.written ∧
      List.Forall₂ (Failure.Alike (Disk.Direct t.outputDir.names)) g.failures again.failures ∧
      (Disk.Direct t.outputDir.names → again.failures = g.failures) ∧
      again.disk.here = g.disk.here ∧ ∀ loc, again.disk.entry? loc = g.disk.entry? loc := by
  intro g again
  have hdirect : Disk.Direct t.outputDir.names →
      Disk.Direct (t.ns.folder t.outputDir).names := fun h =>
    h.folder fun s hs => (Namespace.dot_not_mem_parse (hns ▸ hs)).2
  -- The first run keeps to what was certain in the beginning.
  have hfirst : Generation.Abreast (t.ns.folder t.outputDir) disk disk g g :=
    r.wellFormed.abreast_generate t ⟨.refl hdisk, .refl hdisk, fun _ => Or.inl rfl⟩
  have hsteady := hfirst.disks.steady
  have hboth : Generation.Abreast (t.ns.folder t.outputDir) disk g.disk g again :=
    r.wellFormed.abreast_generate t ⟨.refl hdisk, hsteady, fun _ => Or.inl rfl⟩
  have hfailures : List.Forall₂ (Failure.Alike (Disk.Direct t.outputDir.names)) g.failures
      again.failures := hboth.failures.imp fun f f' h => h.mono hdirect
  refine ⟨hboth.written, hfailures, fun h => (Failure.eq_of_forall₂_alike hfailures h).symm, ?_,
    fun loc => ?_⟩
  · rw [hboth.disks.steady'.here_eq, hsteady.here_eq]
  · exact (hboth.disks.lag loc).elim id id

/-- A disk with a folder in the place of the module of `Foo-Bar`. -/
def takenDisk : Disk := Disk.empty.put ["attr_foo_bar.rs"] .folder

/-- The modules of what is nested in `Foo-Bar` are written and taken back by both runs. -/
theorem Reading.generate_again_of_taken :
    takenDisk.IsTree ∧
    (generate default namesakeReading.registry takenDisk).failures =
      [⟨"Foo-Bar", .file ⟨.createFile, .ofText "attr_foo_bar.rs", .isAFolder⟩⟩] ∧
    (generate default namesakeReading.registry
      (generate default namesakeReading.registry takenDisk).disk).failures =
        [⟨"Foo-Bar", .file ⟨.createFile, .ofText "attr_foo_bar.rs", .isAFolder⟩⟩] := by
  have hns : (default : Target).ns = .parse "" := rfl
  have htree : takenDisk.IsTree := by decide +kernel
  have hfailures : (generate default namesakeReading.registry takenDisk).failures =
      [⟨"Foo-Bar", .file ⟨.createFile, .ofText "attr_foo_bar.rs", .isAFolder⟩⟩] := by
    rw [registry_namesakeReading]
    decide +kernel
  obtain ⟨-, -, hagain, -⟩ := namesakeReading.generate_again hns htree
  exact ⟨htree, hfailures, (hagain (by decide)).trans hfailures⟩

/-- A reading of no dictionary. -/
def emptyReading : Reading := ⟨default, [], false⟩

/-- The namespace `radius` in the output folder `new/../file`. -/
def detourTarget : Target :=
  { (default : Target) with ns := .parse "radius", outputDir := .ofText "new/../file" }

/-- A disk with a file in it. -/
def fileDisk : Disk := Disk.empty.put ["file"] (.file (.text ""))

/-- The failure of the loader there. -/
def detourFailure (fault : Fault) : Failure :=
  ⟨"radius", .file ⟨.createFolder, .ofText "new/../file/radius", fault⟩⟩

/-- Equal failures are too much to ask where `..` stands behind a name. The first run misses `new`,
makes it, and then finds something in the place of the folder `new/../file`. The second run does not
miss `new`, and finds on the way that `file` is no folder. -/
theorem Reading.failures_of_detour :
    let g := generate detourTarget emptyReading.registry fileDisk
    let again := generate detourTarget emptyReading.registry g.disk
    detourTarget.ns = .parse "radius" ∧ fileDisk.IsTree ∧
      g.failures = [detourFailure .alreadyExists] ∧ again.failures = [detourFailure .notAFolder] ∧
      again.failures ≠ g.failures := by
  intro g again
  have htree : fileDisk.IsTree := by decide +kernel
  have hfirst : g.failures = [detourFailure .alreadyExists] := by decide +kernel
  have hsecond : again.failures = [detourFailure .notAFolder] := by decide +kernel
  refine ⟨rfl, htree, hfirst, hsecond, ?_⟩
  rw [hfirst, hsecond]
  decide

end RadiusDictionary
