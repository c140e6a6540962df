import RadiusDictionary.Proofs.Generation.TwinRuns

/-! # A failure stays where it is

If the file of one attribute cannot be written, as a folder is in its place, then that attribute and
what is nested in it are missing, and nothing else is (`Reading.failure_isolated`): every other file
is written as if nothing had happened, but for the lines that declare and register what is missing.
The two runs, without the folder and with it, are twins from their start (`Disk.agree_of_resolve`)
to their end (`Generation.twins_runPlans`), and the file is the one in which they part. -/

namespace RadiusDictionary

/-! ### The paths of modules -/

namespace Account

mutual

/-- The modules that are left of an attribute are files below the folder, and no loaders. -/
theorem hasFile_files {base : Path} : ∀ (x : Account) (place : Place),
    base.HasFolder place.folder → ∀ p a, (p, some a) ∈ x.files place →
      base.HasFile p ∧ ¬ p.key.IsLoader
  | ⟨subject, some e, nested⟩, place, _, p, a, h => by
    rw [files] at h
    cases h
  | ⟨subject, none, nested⟩, place, hfolder, p, a, h => by
    rw [files] at h
    rcases List.mem_append.mp h with h | h
    · exact hasFile_filesAll nested place subject.toDeclaration hfolder p a h
    · have heq := List.mem_singleton.mp h
      rw [Prod.mk.injEq] at heq
      rw [heq.1]
      exact ⟨Place.hasFile_file hfolder subject.toDeclaration,
        place.not_isLoader_file subject.toDeclaration⟩

theorem hasFile_filesAll {base : Path} : ∀ (xs : List Account) (place : Place) (d : Declaration),
    base.HasFolder place.folder → ∀ p a, (p, some a) ∈ filesAll place d xs →
      base.HasFile p ∧ ¬ p.key.IsLoader
  | [], _, _, _, _, _, h => nomatch h
  | x :: xs, place, d, hfolder, p, a, h => by
    rw [filesAll] at h
    rcases List.mem_append.mp h with h | h
    · exact hasFile_files x (place.below d x.subject.toDeclaration)
        (Place.hasFolder_below hfolder d x.subject.toDeclaration) p a h
    · exact hasFile_filesAll xs place d hfolder p a h

end

end Account

theorem Registry.WellFormed.hasFile_generate {r : Registry} (hr : r.WellFormed) {t : Target}
    {disk : Disk} {f : WrittenFile} {m : AttributeModule} (hf : f ∈ (generate t r disk).written)
    (hm : f.artifact = .attributeModule m) :
    (t.ns.folder t.outputDir).HasFile f.path ∧ ¬ f.path.key.IsLoader := by
  obtain ⟨hplans, -, hwritten, -⟩ := Generation.accounts_generate t r disk
  have horigin : (f.path, some m.subject) ∈
      (Generation.accounts t r disk).flatMap LoaderAccount.files := by
    rw [← hwritten]
    refine List.mem_map.mpr ⟨f, hf, ?_⟩
    rw [WrittenFile.origin, hm]
  obtain ⟨x, hx, hmem⟩ := List.mem_flatMap.mp horigin
  have hplan : x.plan ∈ plans t r := by
    rw [← hplans]
    exact List.mem_map_of_mem hx
  rcases List.mem_append.mp hmem with hmem | hmem
  · obtain ⟨y, -, hmem⟩ := List.mem_flatMap.mp hmem
    exact y.hasFile_files _ (hr.within_plans t _ hplan).folder _ _ hmem
  · split at hmem
    · have heq := List.mem_singleton.mp hmem
      rw [Prod.mk.injEq] at heq
      cases heq.2
    · cases hmem

/-! ### Isolation -/

/-- What tells two reports apart if the file of an attribute is written by the first run and cannot
be written by the second one. One failure more is recorded. No module of the attribute or of what is
nested in it is on record. Every other file is as it was, but for the declarations and registrations
of what is missing. -/
structure Isolated (t : Target) (x : Attribute) (path : Path) (g g' : Generation) : Prop where
  failures : Gains [⟨x.name, .file ⟨.createFile, path, .isAFolder⟩⟩] g.failures g'.failures
  missing : ∀ f ∈ g'.written, f.isOf x = false
  others : ∃ registrations, List.Forall₂
    (Counterpart t ⟨x, g.written.filter (·.isOf x), registrations⟩)
    (g.written.filter fun f => !f.isOf x) g'.written

/-- The counterpart of a file is a file of the same attribute. -/
theorem Counterpart.isOf_eq {t : Target} {x : Loss} {f f' : WrittenFile} (h : Counterpart t x f f')
    (a : Attribute) : f'.isOf a = f.isOf a := by
  cases h with
  | same => rfl
  | parent _ hsame =>
    unfold WrittenFile.isOf
    dsimp only
    rw [hsame]
  | loader => rfl

theorem isOf_of_forall₂_counterpart {t : Target} {x : Loss} {a : Attribute}
    {files files' : List WrittenFile} (h : List.Forall₂ (Counterpart t x) files files')
    (hfiles : ∀ f ∈ files, f.isOf a = false) : ∀ f ∈ files', f.isOf a = false := by
  induction h with
  | nil => exact List.forall_mem_nil _
  | cons hpair _ ih =>
    obtain ⟨hf, hrest⟩ := List.forall_mem_cons.mp hfiles
    exact List.forall_mem_cons.mpr ⟨(hpair.isOf_eq a).trans hf, ih hrest⟩

theorem Yield.Lacks.isolated {t : Target} {path : Path} {x : Loss} {y y' : Yield}
    {g g' : Generation} (h : y.Lacks t path x y') (hx : ∀ f ∈ x.files, f.isOf x.subject = true)
    (hwritten : g.written = y.files) (hwritten' : g'.written = y'.files)
    (hfailures : g.failures = y.failures) (hfailures' : g'.failures = y'.failures) :
    Isolated t x.subject path g g' := by
  obtain ⟨kept, ⟨front, back, hall, rfl⟩, hnot, hpairs⟩ := h.files
  have hfront : ∀ f ∈ front, f.isOf x.subject = false := fun f hf =>
    hnot f (List.mem_append_left _ hf)
  have hback : ∀ f ∈ back, f.isOf x.subject = false := fun f hf =>
    hnot f (List.mem_append_right _ hf)
  have hlost : g.written.filter (·.isOf x.subject) = x.files := by
    rw [hwritten, hall, List.filter_append, List.filter_append, List.filter_eq_self.mpr hx,
      List.filter_eq_nil_iff.mpr (by simpa using hfront),
      List.filter_eq_nil_iff.mpr (by simpa using hback), List.nil_append, List.append_nil]
  have hkept : (g.written.filter fun f => !f.isOf x.subject) = front ++ back := by
    rw [hwritten, hall, List.filter_append, List.filter_append,
      List.filter_eq_self.mpr (by simpa using hfront),
      List.filter_eq_nil_iff.mpr (by simpa using hx),
      List.filter_eq_self.mpr (by simpa using hback), List.append_nil]
  refine ⟨?_, ?_, x.registrations, ?_⟩
  · rw [hfailures, hfailures']
    exact h.failures
  · rw [hwritten']
    exact isOf_of_forall₂_counterpart hpairs hnot
  · rw [hlost, hkept, hwritten']
    exact hpairs

/-- **A failure stays where it is.** Two runs start with disks that are equal but for one place,
which is that of a file that the first run writes, the module of an attribute. On the second disk a
folder lies there. Then the second run lacks the attribute and what is nested in it, records that it
failed, and differs in nothing else from the first one. -/
theorem Reading.failure_isolated (r : Reading) (t : Target) {disk disk' : Disk} {f : WrittenFile}
    {m : AttributeModule} {loc : Location} (hf : f ∈ (generate t r.registry disk).written)
    (hm : f.artifact = .attributeModule m) (hloc : disk.resolve f.path = .ok loc)
    (hloc' : disk'.resolve f.path = .ok loc)
    (hsame : ∀ l, ¬ loc <:+ l → disk'.entry? l = disk.entry? l)
    (hfolder : disk'.entry? loc = some .folder) :
    Isolated t m.subject f.path (generate t r.registry disk) (generate t r.registry disk') := by
  obtain ⟨⟨names, hnames, hpath⟩, hloader⟩ := r.wellFormed.hasFile_generate hf hm
  have hkeys := (Generation.advance_generate t r.registry disk).nodup
  rw [hpath] at hloc hloc'
  obtain ⟨root, rfl, hagree⟩ := Disk.agree_of_resolve hnames hloc hloc' hsame
  let b : Blockade := ⟨t.ns.folder t.outputDir, root, names, hnames⟩
  have hb : f.path = b.path := hpath
  have hstart : Generation.Twins b [] (.start disk) (.start disk') :=
    Generation.twins_start hagree hfolder
  have hkey : ¬ b.key.IsLoader := by
    rw [Blockade.key, ← hb]
    exact hloader
  rw [generate_eq] at hf hkeys ⊢
  rw [generate_eq]
  obtain ⟨htwins, houtcome⟩ := Generation.twins_runPlans t hkey (plans t r.registry) (.start disk)
    (.start disk') (r.wellFormed.within_plans t) hstart (r.nodup_planNames t) (r.nodup_owners t)
    fun _ => Or.inr ⟨f, hf, congrArg Path.key hb⟩
  cases houtcome with
  | alike y hadds hadds' =>
    -- The second run cannot have written the file.
    have hmem : f ∈ y.files := by
      have hmem : f ∈ [] ++ y.files := hadds.written ▸ hf
      exact hmem
    have hmem' : f ∈ (runPlans t (plans t r.registry) (.start disk')).written := by
      rw [hadds'.written]
      exact List.mem_append_right _ hmem
    exact absurd (congrArg Path.key hb) (htwins.recorded' f hmem').2
  | lacking x y y' hadds hadds' _ hlacks _ _ _ hx =>
    obtain ⟨m', hown, hsubject⟩ := hx.own
    obtain ⟨kept, hgains, -⟩ := hlacks.files
    have hmem : ⟨b.path, .attributeModule m'⟩ ∈
        (runPlans t (plans t r.registry) (.start disk)).written := by
      rw [hadds.written]
      exact List.mem_append_right _ (hgains.subset.1 hown)
    have hself := List.inj_on_of_nodup_map hkeys hf hmem (congrArg Path.key hb)
    rw [hself] at hm
    cases hm
    rw [hsubject, hb]
    exact hlacks.isolated hx.isOf hadds.written hadds'.written hadds.failures hadds'.failures

/-- A disk with the folder for what is nested in `Foo-Bar`. -/
def nestedFolder : Disk := Disk.empty.put ["attr_foo_bar"] .folder

/-- A folder in the place of the file for `X` costs the module of `X`, and nothing else. -/
theorem Reading.failure_isolated_of_folder : ∃ f m,
    f ∈ (generate default namesakeReading.registry nestedFolder).written ∧
    f.artifact = .attributeModule m ∧ m.subject.name = "X" ∧
    Isolated default m.subject f.path (generate default namesakeReading.registry nestedFolder)
      (generate default namesakeReading.registry
        (nestedFolder.put ["attr_x.rs", "attr_foo_bar"] .folder)) := by
  have hnamed : (⟨["attr_foo_bar", "attr_x.rs"]⟩, some "X") ∈
      (generate default namesakeReading.registry nestedFolder).written.map fun f =>
        (f.path, f.artifact.subjectName?) := by
    rw [registry_namesakeReading]
    decide +kernel
  obtain ⟨f, hf, heq⟩ := List.mem_map.mp hnamed
  rw [Prod.mk.injEq] at heq
  obtain ⟨hpath, hsubject⟩ := heq
  cases hm : f.artifact with
  | loaderModule l => rw [hm] at hsubject; cases hsubject
  | attributeModule m =>
    rw [hm] at hsubject
    have hne : ["attr_x.rs", "attr_foo_bar"] ≠ [] := List.cons_ne_nil _ _
    have hloc : nestedFolder.resolve f.path = .ok ["attr_x.rs", "attr_foo_bar"] := by
      rw [hpath]
      decide +kernel
    refine ⟨f, m, hf, hm, Option.some.inj hsubject, namesakeReading.failure_isolated default hf hm
      hloc ?_ (fun l hl => ?_) ?_⟩
    · rw [hpath]
      decide +kernel
    · rw [Disk.entry?_put _ hne, if_neg]
      rintro rfl
      exact hl (List.suffix_refl _)
    · rw [Disk.entry?_put _ hne, if_pos rfl]

end RadiusDictionary
