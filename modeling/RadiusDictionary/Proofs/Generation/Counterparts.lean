import RadiusDictionary.Proofs.Generation.Enlisted
import RadiusDictionary.Proofs.Generation.Twins
import RadiusDictionary.Proofs.Source.Gains

/-! # What a failing attribute takes away

Two runs of one thing add the same to the report (`Adds`), or the second one lacks what an attribute
lost when its file could not be written (`Loss`, `Yield.Lacks`): the files and registrations of the
attribute and of what is nested in it. All other files have a `Counterpart`, which is the file
itself but for two of them: the module around the attribute's lacks the declaration of the
attribute's module, and the loader of its vendor lacks the lines for what was lost. `Outcome` says
which of the two it is, and parts of a run that come one after the other make one part
(`Outcome.trans`), as only one attribute has the blocked path. -/

namespace RadiusDictionary

/-! ### Names -/

namespace Attribute

/-- The names of the attributes of a map's entries and of what is nested in them. -/
def namesIn (entries : List (String × Attribute)) : List String :=
  (declaredIn entries).map (·.2.name)

/-- The names of an attribute and of what is nested in it. -/
def names (a : Attribute) : List String := a.name :: namesIn a.nested

theorem namesIn_cons (key : String) (a : Attribute) (rest : List (String × Attribute)) :
    namesIn ((key, a) :: rest) = a.names ++ namesIn rest := by
  rw [namesIn, declaredIn_cons, names, namesIn, namesIn, declaredBelow_eq, List.map_cons,
    List.map_append, List.cons_append]

theorem namesIn_eq_flatMap (entries : List (String × Attribute)) :
    namesIn entries = (entries.map (·.2)).flatMap names := by
  induction entries with
  | nil => rfl
  | cons entry rest ih => rw [namesIn_cons, ih, List.map_cons, List.flatMap_cons]

theorem name_mem_names (a : Attribute) : a.name ∈ a.names := List.mem_cons_self

theorem name_mem_namesIn {a : Attribute} {entries : List (String × Attribute)}
    (h : a ∈ entries.map (·.2)) : a.name ∈ namesIn entries := by
  rw [namesIn_eq_flatMap]
  exact List.mem_flatMap.mpr ⟨a, h, a.name_mem_names⟩

end Attribute

/-! ### Files and attributes -/

namespace WrittenFile

/-- Whether the file is the module of an attribute or of one nested in it. -/
def isOf (x : Attribute) (f : WrittenFile) : Bool :=
  match f.artifact with
  | .attributeModule m => x.names.contains m.subject.name
  | .loaderModule _ => false

/-- The file has nothing to do with an attribute: it is the module of neither the attribute nor one
nested in it, nor is the attribute nested in its subject, nor is it the loader of the attribute's
vendor. -/
def Foreign (x : Attribute) (f : WrittenFile) : Prop :=
  match f.artifact with
  | .attributeModule m => m.subject.name ∉ x.names ∧ x ∉ m.subject.nested.map (·.2)
  | .loaderModule l => l.kind.owner ≠ x.vendor

/-- The file is the module of an attribute whose names are among these, or the loader of one of
these vendors. -/
def Among (names : List String) (owners : List (Option String)) (f : WrittenFile) : Prop :=
  match f.artifact with
  | .attributeModule m => m.subject.names ⊆ names
  | .loaderModule l => l.kind.owner ∈ owners

variable {x : Attribute} {f : WrittenFile} {names names' : List String}
  {owners owners' : List (Option String)}

theorem Foreign.isOf_eq_false (h : f.Foreign x) : f.isOf x = false := by
  unfold Foreign at h
  unfold isOf
  split
  · next m hm =>
    rw [hm] at h
    simpa using h.1
  · rfl

theorem Among.mono (h : f.Among names owners) (hnames : names ⊆ names')
    (howners : owners ⊆ owners') : f.Among names' owners' := by
  unfold Among at h ⊢
  split
  · next m hm =>
    rw [hm] at h
    exact List.Subset.trans h hnames
  · next l hl =>
    rw [hl] at h
    exact howners h

/-- What is among other names has nothing to do with the attribute. -/
theorem Among.foreign (h : f.Among names owners) (hx : x.names ⊆ names')
    (hdisjoint : names.Disjoint names') (hvendor : x.vendor ∉ owners) : f.Foreign x := by
  unfold Among at h
  unfold Foreign
  split
  · next m hm =>
    rw [hm] at h
    refine ⟨fun hmem => hdisjoint (h m.subject.name_mem_names) (hx hmem), fun hmem => ?_⟩
    have hname : x.name ∈ m.subject.names :=
      List.mem_cons_of_mem _ (Attribute.name_mem_namesIn hmem)
    exact hdisjoint (h hname) (hx x.name_mem_names)
  · next l hl =>
    rw [hl] at h
    exact fun heq => hvendor (heq ▸ h)

end WrittenFile

/-! ### Losses -/

/-- What is lost when the file of an attribute cannot be written: the files and registrations of
the attribute and of what is nested in it. -/
structure Loss where
  subject : Attribute
  files : List WrittenFile
  registrations : List Registration

/-- The failure that is recorded. -/
def Loss.failure (x : Loss) (path : Path) : Failure :=
  ⟨x.subject.name, .file ⟨.createFile, path, .isAFolder⟩⟩

/-- What a file is without a loss: it stays as it is, but for the module around the attribute's and
the loader of its vendor. -/
inductive Counterpart (t : Target) (x : Loss) : WrittenFile → WrittenFile → Prop
  | same {f : WrittenFile} (hforeign : f.Foreign x.subject) : Counterpart t x f f
  | parent {path : Path} {m m' : AttributeModule} (hnested : x.subject ∈ m.subject.nested.map (·.2))
    (hsame : m' = { m with childModules := m'.childModules })
    (hmodules : Gains [moduleName x.subject.name] m'.childModules m.childModules)
    (hlines : Gains (declarationLines [moduleName x.subject.name] ++
        if m'.childModules.isEmpty then [""] else [])
      (m'.lines t.runtime t.stamp) (m.lines t.runtime t.stamp)) :
    Counterpart t x ⟨path, .attributeModule m⟩ ⟨path, .attributeModule m'⟩
  | loader {folder : Path} {l l' : LoaderModule} (howner : l.kind.owner = x.subject.vendor)
    (hfiles : (x.registrations.map (·.file folder)).Perm (x.files.map (·.path)))
    (hsame : l' = { l with registrations := l'.registrations })
    (hregistrations : Gains x.registrations l'.registrations l.registrations)
    (hlines : ∃ front mid mid' back,
      l.lines t.runtime t.stamp = front ++ l'.gainedDeclarations x.registrations ++ mid ++
        x.registrations.map LoaderModule.keyLine ++ mid' ++
        x.registrations.map LoaderModule.nameLine ++ back ∧
      l'.lines t.runtime t.stamp = front ++ mid ++ mid' ++ back) :
    Counterpart t x ⟨folder.joinText "mod.rs", .loaderModule l⟩
      ⟨folder.joinText "mod.rs", .loaderModule l'⟩

theorem forall₂_counterpart_same {t : Target} {x : Loss} {files : List WrittenFile}
    (h : ∀ f ∈ files, f.Foreign x.subject) : List.Forall₂ (Counterpart t x) files files :=
  List.forall₂_same.mpr fun f hf => .same (h f hf)

/-- What a part of a run adds to the report. -/
structure Yield where
  files : List WrittenFile
  failures : List Failure

namespace Yield

instance : Append Yield := ⟨fun y z => ⟨y.files ++ z.files, y.failures ++ z.failures⟩⟩

variable {t : Target} {path : Path} {x : Loss} {y y' z z' : Yield}

@[simp] theorem files_append (y z : Yield) : (y ++ z).files = y.files ++ z.files := rfl

@[simp] theorem failures_append (y z : Yield) : (y ++ z).failures = y.failures ++ z.failures := rfl

/-- The second yield lacks what was lost, and has the failure for it. -/
structure Lacks (t : Target) (path : Path) (x : Loss) (y y' : Yield) : Prop where
  files : ∃ kept, Gains x.files kept y.files ∧ (∀ f ∈ kept, f.isOf x.subject = false) ∧
    List.Forall₂ (Counterpart t x) kept y'.files
  failures : Gains [x.failure path] y.failures y'.failures

/-- Something that has nothing to do with the loss comes before. -/
theorem Lacks.append_left (h : Lacks t path x y y') (hz : ∀ f ∈ z.files, f.Foreign x.subject) :
    Lacks t path x (z ++ y) (z ++ y') := by
  obtain ⟨kept, hgains, hnot, hpairs⟩ := h.files
  refine ⟨⟨z.files ++ kept, hgains.append_left z.files, fun f hf => ?_,
    List.rel_append (forall₂_counterpart_same hz) hpairs⟩, h.failures.append_left z.failures⟩
  exact (List.mem_append.mp hf).elim (fun hf => (hz f hf).isOf_eq_false) (hnot f)

/-- Something comes after, file by file. -/
theorem Lacks.append (h : Lacks t path x y y')
    (hpairs : List.Forall₂ (Counterpart t x) z.files z'.files)
    (hnot : ∀ f ∈ z.files, f.isOf x.subject = false) (hfailures : z'.failures = z.failures) :
    Lacks t path x (y ++ z) (y' ++ z') := by
  obtain ⟨kept, hgains, hkept, hpairs'⟩ := h.files
  refine ⟨⟨kept ++ z.files, hgains.append_right z.files, fun f hf => ?_,
    List.rel_append hpairs' hpairs⟩, ?_⟩
  · exact (List.mem_append.mp hf).elim (hkept f) (hnot f)
  · rw [failures_append, failures_append, hfailures]
    exact h.failures.append_right z.failures

/-- Something that has nothing to do with the loss comes after. -/
theorem Lacks.append_right (h : Lacks t path x y y') (hz : ∀ f ∈ z.files, f.Foreign x.subject) :
    Lacks t path x (y ++ z) (y' ++ z) :=
  h.append (forall₂_counterpart_same hz) (fun f hf => (hz f hf).isOf_eq_false) rfl

end Yield

namespace Generation

/-! ### Parts of two runs -/

/-- The report gains the yield. -/
structure Adds (y : Yield) (g g₁ : Generation) : Prop where
  written : g₁.written = g.written ++ y.files
  failures : g₁.failures = g.failures ++ y.failures

variable {y z : Yield} {g g' g₁ g₁' g₂ g₂' : Generation}

theorem Adds.refl (g : Generation) : Adds ⟨[], []⟩ g g :=
  ⟨(List.append_nil _).symm, (List.append_nil _).symm⟩

theorem Adds.trans (h : Adds y g g₁) (h' : Adds z g₁ g₂) : Adds (y ++ z) g g₂ := by
  refine ⟨?_, ?_⟩
  · rw [h'.written, h.written, Yield.files_append, List.append_assoc]
  · rw [h'.failures, h.failures, Yield.failures_append, List.append_assoc]

/-- How a part of a run ends on two twins: alike, or one lacks what an attribute lost. The names and
vendors are those of the part, `agree` and `differ` say what else is true in the two cases. -/
inductive Outcome (t : Target) (b : Blockade) (names : List String) (owners : List (Option String))
    (agree : Prop) (differ : Loss → Prop) (g g' g₁ g₁' : Generation) : Prop
  | alike (y : Yield) (hadds : Adds y g g₁) (hadds' : Adds y g' g₁')
    (hfiles : ∀ f ∈ y.files, f.Among names owners) (hagree : agree)
  | lacking (x : Loss) (y y' : Yield) (hadds : Adds y g g₁) (hadds' : Adds y' g' g₁')
    (hfiles : ∀ f ∈ y.files, f.Among names owners) (hlacks : y.Lacks t b.path x y')
    (hnames : x.subject.names ⊆ names) (hfree : b.key ∉ g.claimed) (htaken : b.key ∈ g₁.claimed)
    (hdiffer : differ x)

section Trans

variable {t : Target} {b : Blockade} {names names' : List String}
  {owners owners' : List (Option String)} {agree agree' agree'' : Prop}
  {differ differ' differ'' : Loss → Prop}

/-- **Two parts of a run make one.** The attribute that lost something is in one of them, and the
files of the other have nothing to do with it. -/
theorem Outcome.trans (h : Outcome t b names owners agree differ g g' g₁ g₁')
    (h' : Outcome t b names' owners' agree' differ' g₁ g₁' g₂ g₂')
    (hclaimed : g.claimed ⊆ g₁.claimed) (hclaimed' : g₁.claimed ⊆ g₂.claimed)
    (hdisjoint : names.Disjoint names')
    (hvendor : ∀ x, differ x → x.subject.vendor ∉ owners')
    (hvendor' : ∀ x, differ' x → x.subject.vendor ∉ owners) (hagree : agree → agree' → agree'')
    (hdiffer : ∀ x, differ x → agree' → differ'' x)
    (hdiffer' : ∀ x, x.subject.names ⊆ names' → agree → differ' x → differ'' x) :
    Outcome t b (names ++ names') (owners ++ owners') agree'' differ'' g g' g₂ g₂' := by
  have hall : ∀ {y z : Yield}, (∀ f ∈ y.files, f.Among names owners) →
      (∀ f ∈ z.files, f.Among names' owners') →
      ∀ f ∈ (y ++ z).files, f.Among (names ++ names') (owners ++ owners') := by
    intro y z hy hz f hf
    rcases List.mem_append.mp hf with hf | hf
    · exact (hy f hf).mono (List.subset_append_left _ _) (List.subset_append_left _ _)
    · exact (hz f hf).mono (List.subset_append_right _ _) (List.subset_append_right _ _)
  cases h with
  | alike y hadds hadds' hfiles hA =>
    cases h' with
    | alike z haddz haddz' hfiles' hA' =>
      exact .alike (y ++ z) (hadds.trans haddz) (hadds'.trans haddz') (hall hfiles hfiles')
        (hagree hA hA')
    | lacking x z z' haddz haddz' hfiles' hlacks hnames hfree htaken hD =>
      have hforeign : ∀ f ∈ y.files, f.Foreign x.subject := fun f hf =>
        (hfiles f hf).foreign hnames hdisjoint (hvendor' x hD)
      exact .lacking x (y ++ z) (y ++ z') (hadds.trans haddz) (hadds'.trans haddz')
        (hall hfiles hfiles') (hlacks.append_left hforeign)
        (List.Subset.trans hnames (List.subset_append_right _ _))
        (fun hmem => hfree (hclaimed hmem)) htaken (hdiffer' x hnames hA hD)
  | lacking x y y' hadds hadds' hfiles hlacks hnames hfree htaken hD =>
    cases h' with
    | alike z haddz haddz' hfiles' hA' =>
      have hforeign : ∀ f ∈ z.files, f.Foreign x.subject := fun f hf =>
        (hfiles' f hf).foreign hnames (List.disjoint_comm.mp hdisjoint) (hvendor x hD)
      exact .lacking x (y ++ z) (y' ++ z) (hadds.trans haddz) (hadds'.trans haddz')
        (hall hfiles hfiles') (hlacks.append_right hforeign)
        (List.Subset.trans hnames (List.subset_append_left _ _)) hfree (hclaimed' htaken)
        (hdiffer x hD hA')
    | lacking x' z z' haddz haddz' hfiles' hlacks' hnames' hfree' htaken' hD' =>
      exact absurd htaken hfree'

end Trans

end Generation

end RadiusDictionary
