import RadiusDictionary.Proofs.Disk.Agreement
import RadiusDictionary.Proofs.Generation.InStep

/-! # Two runs side by side

Two runs of one thing differ in the disk only: on that of the second one a folder lies in the place
of a file (`Blockade`). The generations are `Twins` as long as this is all that tells them apart:
they know the same numbers and claimed the same paths, and their disks agree but for the file and
for what was claimed and is written already. Every step keeps twins: claiming a path
(`Twins.claim?`), writing a file whatever its content is (`Twins.write`), and taking back files on
either side (`Twins.discard_left`, `Twins.discard_right`). They part in one way only: the file in
whose place the folder lies is written by the first one, and the second one cannot write it. -/

namespace RadiusDictionary

open RadiusDictionary.Path (LeadToFile)

/-- A folder in the place of a file. The names lead to the file from a folder, which has a path and
a location. -/
structure Blockade where
  base : Path
  root : Location
  names : List String
  lead : LeadToFile names

namespace Blockade

/-- The path of the file. -/
def path (b : Blockade) : Path := b.base.descend b.names

/-- The components of the path. -/
def key (b : Blockade) : Path.Key := b.path.key

/-- Where the folder lies. -/
def location (b : Blockade) : Location := b.names ++ b.root

/-- The paths at which the disks of twins may differ. -/
def Apart (b : Blockade) (claimed pending : List Path.Key) (key : Path.Key) : Prop :=
  key = b.key ∨ key ∈ claimed ∧ key ∉ pending

end Blockade

namespace Generation

/-- The generations differ by what they wrote, and by a folder in the place of a file on the disk of
the second one. `pending` are claimed paths at which nothing was written yet. -/
structure Twins (b : Blockade) (pending : List Path.Key) (g g' : Generation) : Prop where
  numbers : g'.numbers = g.numbers
  claimed : g'.claimed = g.claimed
  isClaimed : pending ⊆ g.claimed
  disks : Disk.Agree b.base b.root (b.Apart g.claimed pending) g.disk g'.disk
  blocked : g'.disk.entry? b.location = some .folder
  recorded : ∀ f ∈ g.written, f.path.key ∈ g.claimed ∧ b.base.HasFile f.path
  recorded' : ∀ f ∈ g'.written, b.base.HasFile f.path ∧ f.path.key ≠ b.key

namespace Twins

variable {b : Blockade} {pending : List Path.Key} {g g' g₁ g₁' : Generation} {path : Path}

/-- A step that touches neither claims nor files keeps twins. -/
theorem congr (h : Twins b pending g g') (hnumbers : g₁'.numbers = g₁.numbers)
    (hsame : g₁.disk = g.disk ∧ g₁.claimed = g.claimed ∧ g₁.written = g.written)
    (hsame' : g₁'.disk = g'.disk ∧ g₁'.claimed = g'.claimed ∧ g₁'.written = g'.written) :
    Twins b pending g₁ g₁' := by
  obtain ⟨hdisk, hclaimed, hwritten⟩ := hsame
  obtain ⟨hdisk', hclaimed', hwritten'⟩ := hsame'
  refine ⟨hnumbers, ?_, ?_, ?_, ?_, ?_, ?_⟩
  · rw [hclaimed, hclaimed', h.claimed]
  · rw [hclaimed]
    exact h.isClaimed
  · rw [hdisk, hdisk', hclaimed]
    exact h.disks
  · rw [hdisk']
    exact h.blocked
  · rw [hwritten, hclaimed]
    exact h.recorded
  · rw [hwritten']
    exact h.recorded'

theorem idsAt_eq (h : Twins b pending g g') (scope : Scope) (place : Place) (a : Attribute) :
    (g'.reach a).idsAt scope place a = (g.reach a).idsAt scope place a := by
  unfold idsAt reach note
  rw [h.numbers]

/-- The generations once the number of an attribute is known. -/
theorem reach (h : Twins b pending g g') (a : Attribute) : Twins b pending
    ((g.reach a).setNumber a.toDeclaration) ((g'.reach a).setNumber a.toDeclaration) := by
  refine h.congr ?_ ⟨rfl, rfl, rfl⟩ ⟨rfl, rfl, rfl⟩
  unfold setNumber Generation.reach note
  dsimp only
  rw [h.numbers]

theorem fail_left (h : Twins b pending g g') (name : String) (e : GenerationError) :
    Twins b pending (g.fail name e) g' :=
  h.congr h.numbers ⟨rfl, rfl, rfl⟩ ⟨rfl, rfl, rfl⟩

theorem fail_right (h : Twins b pending g g') (name : String) (e : GenerationError) :
    Twins b pending g (g'.fail name e) :=
  h.congr h.numbers ⟨rfl, rfl, rfl⟩ ⟨rfl, rfl, rfl⟩

theorem giveUp (h : Twins b pending g g') (a : Attribute) (path : Path) :
    Twins b pending (g.giveUp a path) (g'.giveUp a path) := by
  obtain ⟨failures, events, heq⟩ := giveUp_eq g a path
  obtain ⟨failures', events', heq'⟩ := giveUp_eq g' a path
  rw [heq, heq']
  exact h.congr h.numbers ⟨rfl, rfl, rfl⟩ ⟨rfl, rfl, rfl⟩

/-! ### Claims -/

theorem claim?_eq_none (h : Twins b pending g g') (hclaim : g.claim? path = none) :
    g'.claim? path = none := by
  rw [claim?_eq_none_iff] at hclaim ⊢
  rw [h.claimed]
  exact hclaim

/-- **A path is claimed by both** and pending in both. -/
theorem claim? (h : Twins b pending g g') (hclaim : g.claim? path = some g₁) :
    ∃ g₁', g'.claim? path = some g₁' ∧ g₁'.written = g'.written ∧ g₁'.failures = g'.failures ∧
      Twins b (path.key :: pending) g₁ g₁' := by
  obtain ⟨hfree, rfl⟩ := claim?_eq_some hclaim
  have hclaim' : g'.claim? path = some { g' with claimed := path.key :: g'.claimed } := by
    unfold Generation.claim?
    rw [h.claimed, if_neg (by simpa using hfree)]
  refine ⟨_, hclaim', rfl, rfl, h.numbers, ?_, ?_, ?_, h.blocked, fun f hf => ?_, h.recorded'⟩
  · dsimp only
    rw [h.claimed]
  · exact List.cons_subset_cons _ h.isClaimed
  · refine h.disks.mono fun key hkey => hkey.imp_right fun ⟨hmem, hnot⟩ => ?_
    refine ⟨List.mem_cons_of_mem _ hmem, fun hpending => ?_⟩
    rcases List.mem_cons.mp hpending with rfl | hpending
    · exact hfree hmem
    · exact hnot hpending
  · obtain ⟨hmem, hfile⟩ := h.recorded f hf
    exact ⟨List.mem_cons_of_mem _ hmem, hfile⟩

/-! ### Files -/

/-- What writing a file does to two generations: neither writes it, or both do, or only the first
one does, as the folder is in the way of the second. -/
inductive Written (b : Blockade) (path : Path) (artifact artifact' : Artifact)
    (g g' : Generation) : Generation × Option GenerationError →
    Generation × Option GenerationError → Prop
  | neither {disk disk' : Disk} {e : GenerationError} :
    Written b path artifact artifact' g g' ({ g with disk }, some e)
      ({ g' with disk := disk' }, some e)
  | both {disk disk' : Disk} (hkey : path.key ≠ b.key) :
    Written b path artifact artifact' g g'
      ({ g with disk, written := g.written ++ [⟨path, artifact⟩] }, none)
      ({ g' with disk := disk', written := g'.written ++ [⟨path, artifact'⟩] }, none)
  | first {disk disk' : Disk} (hpath : path = b.path) :
    Written b path artifact artifact' g g'
      ({ g with disk, written := g.written ++ [⟨path, artifact⟩] }, none)
      ({ g' with disk := disk' }, some (.file ⟨.createFile, path, .isAFolder⟩))

/-- A path that was pending is pending no longer, whatever lies there now. -/
theorem settle (h : Twins b (path.key :: pending) g g') (hfree : path.key ∉ pending)
    {disk disk' : Disk} {files files' : List WrittenFile}
    (hagree : Disk.Agree b.base b.root
      (fun key => b.Apart g.claimed (path.key :: pending) key ∨ key = path.key) disk disk')
    (hkeeps : Disk.KeepsFolders g'.disk disk')
    (hfiles : ∀ f ∈ files, f.path.key ∈ g.claimed ∧ b.base.HasFile f.path)
    (hfiles' : ∀ f ∈ files', b.base.HasFile f.path ∧ f.path.key ≠ b.key) :
    Twins b pending { g with disk, written := g.written ++ files }
      { g' with disk := disk', written := g'.written ++ files' } where
  numbers := h.numbers
  claimed := h.claimed
  isClaimed _ hkey := h.isClaimed (List.mem_cons_of_mem _ hkey)
  disks := by
    refine hagree.mono fun key hkey => ?_
    rcases hkey with (hkey | ⟨hmem, hnot⟩) | rfl
    · exact Or.inl hkey
    · exact Or.inr ⟨hmem, fun hpending => hnot (List.mem_cons_of_mem _ hpending)⟩
    · exact Or.inr ⟨h.isClaimed List.mem_cons_self, hfree⟩
  blocked := hkeeps.folder _ h.blocked
  recorded f hf := (List.mem_append.mp hf).elim (h.recorded f) (hfiles f)
  recorded' f hf := (List.mem_append.mp hf).elim (h.recorded' f) (hfiles' f)

/-- **Writing a file that is pending** keeps twins. -/
theorem write (h : Twins b (path.key :: pending) g g') (hfile : b.base.HasFile path)
    (hfree : path.key ∉ pending) (t : Target) (artifact artifact' : Artifact) :
    Written b path artifact artifact' g g' (g.write t path artifact)
      (g'.write t path artifact') ∧
    Twins b pending (g.write t path artifact).1 (g'.write t path artifact').1 := by
  have hclaimed : path.key ∈ g.claimed := h.isClaimed List.mem_cons_self
  have hfile' := hfile
  obtain ⟨names, hnames, rfl⟩ := hfile
  have hapart : ∀ key, b.Apart g.claimed ((b.base.descend names).key :: pending) key →
      b.Apart g.claimed ((b.base.descend names).key :: pending) key ∨
        key = (b.base.descend names).key := fun _ => Or.inl
  obtain ⟨hfault, hagree⟩ := h.disks.createFolder hnames
  have hkeeps := (Disk.change_createFolder g'.disk (b.base.descend names).parent).toKeepsFolders
  unfold Generation.write
  rcases hcreate : g.disk.createFolder (b.base.descend names).parent with ⟨disk, fault?⟩
  rcases hcreate' : g'.disk.createFolder (b.base.descend names).parent with ⟨disk', fault?'⟩
  rw [hcreate, hcreate'] at hfault hagree
  rw [hcreate'] at hkeeps
  dsimp only at hfault hagree hkeeps
  subst hfault
  -- Nothing is added to the record of either.
  have hneither : Twins b pending { g with disk } { g' with disk := disk' } := by
    simpa using h.settle hfree (hagree.mono hapart) hkeeps (List.forall_mem_nil _)
      (List.forall_mem_nil _)
  cases fault? with
  | some e => exact ⟨.neither, hneither⟩
  | none =>
    dsimp only
    by_cases hkey : (b.base.descend names).key = b.key
    · -- The folder lies here.
      obtain rfl : names = b.names := Path.eq_of_key_descend hnames.plain b.lead.plain hkey
      obtain ⟨e, hwrite, hwrite'⟩ | ⟨made, hwrite, hwrite', hmade⟩ :=
        hagree.writeFile_of_folder hnames (Or.inl hkey) (hkeeps.folder _ h.blocked)
          (artifact.render t) (artifact'.render t)
      · rw [hwrite, hwrite']
        exact ⟨.neither, hneither⟩
      · rw [hwrite, hwrite']
        refine ⟨.first rfl, ?_⟩
        simpa using h.settle hfree (hmade.mono hapart) hkeeps
          (List.forall_mem_singleton.mpr ⟨hclaimed, hfile'⟩) (List.forall_mem_nil _)
    · have hnot : ¬ b.Apart g.claimed ((b.base.descend names).key :: pending)
          (b.base.descend names).key := by
        rintro (heq | ⟨-, hpending⟩)
        · exact hkey heq
        · exact hpending List.mem_cons_self
      obtain ⟨e, hwrite, hwrite'⟩ | ⟨made, made', hwrite, hwrite', hmade⟩ :=
        hagree.writeFile hnames hnot (artifact.render t) (artifact'.render t)
      · rw [hwrite, hwrite']
        exact ⟨.neither, hneither⟩
      · have hkeeps' := hkeeps.trans (Disk.change_writeFile hwrite').toKeepsFolders
        rw [hwrite, hwrite']
        exact ⟨.both hkey, h.settle hfree hmade hkeeps'
          (List.forall_mem_singleton.mpr ⟨hclaimed, hfile'⟩)
          (List.forall_mem_singleton.mpr ⟨hfile', hkey⟩)⟩

/-- **Taking files back** keeps twins, whichever of them does it. -/
theorem discard_left (h : Twins b pending g g') (mark : Nat)
    (hnew : ∀ f ∈ g.written.drop mark, f.path.key ∉ pending) :
    Twins b pending (g.discardFrom mark) g' := by
  obtain ⟨events, heq⟩ := discardFrom_eq g mark
  have hpaths : ∀ p ∈ (g.written.drop mark).map (·.path), ∃ names, LeadToFile names ∧
      p = b.base.descend names ∧ b.Apart g.claimed pending p.key := by
    intro p hp
    obtain ⟨f, hf, rfl⟩ := List.mem_map.mp hp
    obtain ⟨hclaimed, names, hnames, heq⟩ := h.recorded f (List.mem_of_mem_drop hf)
    exact ⟨names, hnames, heq, Or.inr ⟨hclaimed, hnew f hf⟩⟩
  rw [heq]
  exact ⟨h.numbers, h.claimed, h.isClaimed, h.disks.foldl_without_left hpaths, h.blocked,
    fun f hf => h.recorded f (List.mem_of_mem_take hf), h.recorded'⟩

theorem discard_right (h : Twins b pending g g') (mark : Nat)
    (hnew : ∀ f ∈ g'.written.drop mark, f.path.key ∈ g.claimed ∧ f.path.key ∉ pending) :
    Twins b pending g (g'.discardFrom mark) := by
  obtain ⟨events, heq⟩ := discardFrom_eq g' mark
  have hpaths : ∀ p ∈ (g'.written.drop mark).map (·.path), ∃ names, LeadToFile names ∧
      p = b.base.descend names ∧ b.Apart g.claimed pending p.key := by
    intro p hp
    obtain ⟨f, hf, rfl⟩ := List.mem_map.mp hp
    obtain ⟨names, hnames, heq⟩ := (h.recorded' f (List.mem_of_mem_drop hf)).1
    exact ⟨names, hnames, heq, Or.inr (hnew f hf)⟩
  rw [heq]
  exact ⟨h.numbers, h.claimed, h.isClaimed, (h.disks.symm.foldl_without_left hpaths).symm,
    (Disk.keepsFolders_foldl_without _ _).folder _ h.blocked, h.recorded,
    fun f hf => h.recorded' f (List.mem_of_mem_take hf)⟩

end Twins

end Generation

end RadiusDictionary
