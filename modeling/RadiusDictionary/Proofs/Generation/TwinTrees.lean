import RadiusDictionary.Proofs.Generation.Accounts
import RadiusDictionary.Proofs.Generation.Counterparts

/-! # A folder in the way of an attribute

Two runs that are twins go through an attribute and what is nested in it. If the path of none of
them is blocked, the runs add the same to the report. If one is, then the first run writes it and
the second one takes back what it wrote for it, and what the attribute lost is a `Loss`: either that
of the attribute itself, which is then not registered at all, or that of an attribute nested in it
(`Loss.FromTree`). The module of an attribute lacks the declaration of a nested one that is missing,
and no other (`Loss.FromNested`). The last step of an attribute has three ways to go, as writing a
file on twins has (`outcome_of_neither`, `outcome_of_both`, `outcome_of_first`), and the induction
over the tree is `treeInvariant_twins`. -/

namespace RadiusDictionary

open RadiusDictionary.Attribute (namesIn)

/-- The loss is that of the attribute whose path is blocked. -/
structure Loss.Blocked (x : Loss) (b : Blockade) : Prop where
  own : ∃ m, ⟨b.path, .attributeModule m⟩ ∈ x.files ∧ m.subject = x.subject
  isOf : ∀ f ∈ x.files, f.isOf x.subject = true

/-- The loss is that of the attribute whose path is blocked, and its registrations are those of its
files. -/
structure Loss.Sound (x : Loss) (b : Blockade) (scope : Scope) : Prop extends x.Blocked b where
  registered : (x.registrations.map (·.file scope.folder)).Perm (x.files.map (·.path))

/-- What an attribute lost of those that came of the tree of `a`. -/
structure Loss.FromTree (b : Blockade) (scope : Scope) (a : Attribute)
    (registrations registrations' : List Registration) (x : Loss) : Prop where
  sound : x.Sound b scope
  gains : Gains x.registrations registrations' registrations
  registered : registrations ≠ []
  place : x.subject = a ∧ registrations' = [] ∨
    x.subject.names ⊆ namesIn a.nested ∧ registrations' ≠ []

/-- What an attribute lost of those that came of a map's entries. -/
structure Loss.FromNested (b : Blockade) (scope : Scope) (entries : List (String × Attribute))
    (nested nested' : NestedModules) (x : Loss) : Prop where
  sound : x.Sound b scope
  gains : Gains x.registrations nested'.registrations nested.registrations
  modules : (x.subject ∈ entries.map (·.2) ∧
      Gains [moduleName x.subject.name] nested'.modules nested.modules) ∨
    (x.subject ∉ entries.map (·.2) ∧ nested'.modules = nested.modules)

/-- What came of the attributes nested in one, the first of which has the name. -/
def NestedModules.cons (name : String) (registrations : List Registration)
    (rest : NestedModules) : NestedModules :=
  ⟨(if registrations.isEmpty then [] else [moduleName name]) ++ rest.modules,
    registrations ++ rest.registrations⟩

namespace Loss

variable {b : Blockade} {scope : Scope} {x : Loss} {child : Attribute}
  {rest : List (String × Attribute)} {registrations registrations' : List Registration}
  {nested nested' : NestedModules}

/-- What is lost of the first of several attributes is lost of all. -/
theorem FromTree.cons (hx : x.FromTree b scope child registrations registrations')
    (hnodup : (child.names ++ namesIn rest).Nodup) (key : String) :
    x.FromNested b scope ((key, child) :: rest) (.cons child.name registrations nested)
      (.cons child.name registrations' nested) where
  sound := hx.sound
  gains := hx.gains.append_right _
  modules := by
    have hregistered : ¬ registrations.isEmpty = true := by
      rw [List.isEmpty_iff]
      exact hx.registered
    rcases hx.place with ⟨hself, hnone⟩ | ⟨hbelow, hsome⟩
    · -- The attribute itself is left out.
      refine Or.inl ⟨by rw [hself]; exact List.mem_cons_self, ?_⟩
      rw [NestedModules.cons, NestedModules.cons, if_neg hregistered, hnone, hself]
      exact (Gains.nil [moduleName child.name]).append_right nested.modules
    · have hregistered' : ¬ registrations'.isEmpty = true := by
        rw [List.isEmpty_iff]
        exact hsome
      refine Or.inr ⟨fun hmem => ?_, ?_⟩
      · have hname := hbelow x.subject.name_mem_names
        obtain ⟨hchild, -, hdisjoint⟩ := List.nodup_append.mp hnodup
        rcases List.mem_cons.mp hmem with hself | hmem
        · have hself : x.subject = child := hself
          rw [hself] at hname
          exact (List.nodup_cons.mp hchild).1 hname
        · exact hdisjoint _ (List.mem_cons_of_mem _ hname) _ (Attribute.name_mem_namesIn hmem) rfl
      · rw [NestedModules.cons, NestedModules.cons, if_neg hregistered, if_neg hregistered']

/-- What is lost of the others is lost of all. -/
theorem FromNested.cons (hx : x.FromNested b scope rest nested nested')
    (hnames : x.subject.names ⊆ namesIn rest) (hdisjoint : child.names.Disjoint (namesIn rest))
    (key : String) :
    x.FromNested b scope ((key, child) :: rest) (.cons child.name registrations nested)
      (.cons child.name registrations nested') where
  sound := hx.sound
  gains := hx.gains.append_left _
  modules := by
    refine hx.modules.imp (fun ⟨hmem, hgains⟩ => ?_) fun ⟨hmem, hmodules⟩ => ?_
    · exact ⟨List.mem_cons_of_mem _ hmem, hgains.append_left _⟩
    · refine ⟨fun hcons => ?_, by rw [NestedModules.cons, NestedModules.cons, hmodules]⟩
      rcases List.mem_cons.mp hcons with hself | hcons
      · have hself : x.subject = child := hself
        have hname := hnames x.subject.name_mem_names
        rw [hself] at hname
        exact hdisjoint child.name_mem_names hname
      · exact hmem hcons

end Loss

namespace Place

variable {base : Path} {place : Place}

theorem hasFolder_below (h : base.HasFolder place.folder) (d child : Declaration) :
    base.HasFolder (place.below d child).folder := by
  rw [folder_below]
  exact h.joinText (Path.bare_moduleName d.name)

theorem hasFile_file (h : base.HasFolder place.folder) (d : Declaration) :
    base.HasFile (place.file d) :=
  h.hasFile (Path.dotted_file d.name)

end Place

namespace Generation

variable {t : Target} {b : Blockade} {scope : Scope} {place : Place} {a : Attribute}
  {g g' g₁ g₁' : Generation} {y : Yield}

/-! ### What the last step adds -/

theorem Adds.of_eq (hwritten : g₁.written = g.written) (hfailures : g₁.failures = g.failures)
    {g₂ : Generation} (h : Adds y g₁ g₂) : Adds y g g₂ := by
  refine ⟨?_, ?_⟩
  · rw [h.written, hwritten]
  · rw [h.failures, hfailures]

/-- A file is added to the report. -/
theorem Adds.file (h : Adds y g g₁) (disk : Disk) (f : WrittenFile) :
    Adds (y ++ ⟨[f], []⟩) g { g₁ with disk, written := g₁.written ++ [f] } :=
  h.trans ⟨rfl, (List.append_nil _).symm⟩

/-- All files are taken back, and the failures stay. -/
theorem Adds.takeBack (h : Adds y g g₁) (disk : Disk) (name : String) (e : GenerationError) :
    Adds ⟨[], y.failures ++ [⟨name, e⟩]⟩ g
      ((fail { g₁ with disk } name e).discardFrom g.written.length) := by
  obtain ⟨events, heq⟩ := discardFrom_eq (fail { g₁ with disk } name e) g.written.length
  rw [heq]
  refine ⟨?_, ?_⟩
  · show g₁.written.take g.written.length = _
    rw [h.written, List.take_left, List.append_nil]
  · show g₁.failures ++ _ = _
    rw [h.failures, List.append_assoc]

/-- A failure is added to the report. -/
theorem Adds.fail (name : String) (e : GenerationError) (hwritten : g₁.written = g.written)
    (hfailures : g₁.failures = g.failures ++ [⟨name, e⟩]) : Adds ⟨[], [⟨name, e⟩]⟩ g g₁ :=
  ⟨by rw [hwritten, List.append_nil], hfailures⟩

/-! ### What is kept -/

theorem claimed_discardFrom (g : Generation) (mark : Nat) :
    (g.discardFrom mark).claimed = g.claimed := by
  obtain ⟨events, heq⟩ := discardFrom_eq g mark
  rw [heq]

/-- If the path was claimed then the file was written, and it is on record. -/
def Kept (key : Path.Key) (g g₁ : Generation) : Prop :=
  key ∈ g₁.claimed → key ∈ g.claimed ∨ ∃ f ∈ g₁.written, f.path.key = key

/-- The path of an attribute was claimed before those of what is nested in it. -/
theorem kept_of_close {ids : TypeIds} {mark : Nat} {nested : NestedModules} {key : Path.Key}
    (h : Kept key g (close t scope place a ids mark nested g₁).1)
    (hclaimed : g'.claimed = (place.file a.toDeclaration).key :: g.claimed) : Kept key g' g₁ := by
  obtain ⟨-, hsame, hwritten⟩ := close_spec t scope place a ids mark nested g₁
  intro hmem
  rw [hclaimed]
  rcases h (by rw [hsame]; exact hmem) with hmem | ⟨f, hf, rfl⟩
  · exact Or.inl (List.mem_cons_of_mem _ hmem)
  · rcases hwritten f hf with hf | hown
    · exact Or.inr ⟨f, hf, rfl⟩
    · have hpath : f.path = place.file a.toDeclaration := by rw [hown]
      rw [hpath]
      exact Or.inl List.mem_cons_self

theorem Kept.front {key : Path.Key} {touched new : List WrittenFile} {g₂ : Generation}
    (h : Kept key g g₂) (hadvance : Advance touched new g₁ g₂) : Kept key g g₁ := by
  intro hmem
  refine (h (hadvance.claimed hmem)).imp_right fun ⟨f, hf, hkey⟩ => ?_
  rw [hadvance.written_eq] at hf
  refine (List.mem_append.mp hf).elim (fun hf => ⟨f, hf, hkey⟩) fun hf => ?_
  exact absurd (hkey ▸ hmem) (hadvance.key_claimed f hf).2

theorem Kept.back {key : Path.Key} {g₂ : Generation} (h : Kept key g g₂)
    (hclaimed : g.claimed ⊆ g₁.claimed) : Kept key g₁ g₂ :=
  fun hmem => (h hmem).imp_left fun hmem => hclaimed hmem

/-! ### The last step of an attribute on twins -/

/-- How the tree of an attribute ends on twins. -/
abbrev TreeOutcome (t : Target) (b : Blockade) (scope : Scope) (a : Attribute) (g g' : Generation)
    (r r' : Generation × List Registration) : Prop :=
  Outcome t b a.names [] (r'.2 = r.2) (Loss.FromTree b scope a r.2 r'.2) g g' r.1 r'.1

/-- How the attributes nested in one end on twins. -/
abbrev NestedOutcome (t : Target) (b : Blockade) (scope : Scope)
    (entries : List (String × Attribute)) (g g' : Generation) (r r' : Generation × NestedModules) :
    Prop :=
  Outcome t b (namesIn entries) [] (r'.2 = r.2) (Loss.FromNested b scope entries r.2 r'.2) g g' r.1
    r'.1

/-- Twins before the last step of an attribute. The path of its file was claimed, which led from `g`
and `g'` to `g₁` and `g₁'`, and then what is nested in it was generated. -/
structure BeforeClose (t : Target) (b : Blockade) (scope : Scope) (place : Place) (a : Attribute)
    (pending : List Path.Key) (g g' g₁ g₁' : Generation) (r r' : Generation × NestedModules) :
    Prop where
  start : g₁.written = g.written ∧ g₁.failures = g.failures
  start' : g₁'.written = g'.written ∧ g₁'.failures = g'.failures
  free : (place.file a.toDeclaration).key ∉ g.claimed
  claimed : g₁.claimed = (place.file a.toDeclaration).key :: g.claimed
  claimed' : g₁'.claimed = g₁.claimed
  recorded : ∀ f ∈ g.written, f.path.key ∈ g.claimed
  isClaimed : pending ⊆ g.claimed
  twins : Twins b ((place.file a.toDeclaration).key :: pending) r.1 r'.1
  advance : ∃ touched new, Advance touched new g₁ r.1
  advance' : ∃ touched new, Advance touched new g₁' r'.1
  outcome : NestedOutcome t b scope a.nested g₁ g₁' r r'

/-- The attribute's own file. -/
def ownFile (scope : Scope) (place : Place) (a : Attribute) (ids : TypeIds)
    (nested : NestedModules) : WrittenFile :=
  ⟨place.file a.toDeclaration, ownArtifact scope place a ids nested⟩

section Close

variable {ids : TypeIds} {nested nested' : NestedModules} {pending : List Path.Key}
  {gn gn' : Generation} {disk disk' : Disk}

/-- What is among the names of an attribute is of the attribute. -/
theorem isOf_of_among {f : WrittenFile} (h : f.Among a.names []) : f.isOf a = true := by
  unfold WrittenFile.Among at h
  unfold WrittenFile.isOf
  split
  · next m hm =>
    rw [hm] at h
    exact List.contains_iff_mem.mpr (h m.subject.name_mem_names)
  · next l hl =>
    rw [hl] at h
    cases h

theorem among_own {y : Yield} (h : ∀ f ∈ y.files, f.Among (namesIn a.nested) []) :
    ∀ f ∈ y.files ++ [ownFile scope place a ids nested], f.Among a.names [] := by
  intro f hf
  rcases List.mem_append.mp hf with hf | hf
  · exact (h f hf).mono (List.subset_cons_self _ _) (List.Subset.refl _)
  · rw [List.mem_singleton.mp hf]
    exact List.Subset.refl _

/-- The module around what lost something lacks a declaration, or stays as it is. -/
theorem counterpart_ownFile {x : Loss} (hnodup : a.names.Nodup)
    (hnames : x.subject.names ⊆ namesIn a.nested)
    (hx : x.FromNested b scope a.nested nested nested') :
    Counterpart t x (ownFile scope place a ids nested) (ownFile scope place a ids nested') ∧
      (ownFile scope place a ids nested).isOf x.subject = false := by
  have hname : a.name ∉ x.subject.names := fun hmem =>
    (List.nodup_cons.mp hnodup).1 (hnames hmem)
  have hnot : (ownFile scope place a ids nested).isOf x.subject = false := by
    rw [← Bool.not_eq_true]
    exact fun hmem => hname (List.contains_iff_mem.mp hmem)
  refine ⟨?_, hnot⟩
  rcases hx.modules with ⟨hmem, hgains⟩ | ⟨hmem, hmodules⟩
  · exact .parent hmem rfl hgains (AttributeModule.gains_lines hgains rfl _ _)
  · have hsame : ownFile scope place a ids nested' = ownFile scope place a ids nested := by
      unfold ownFile ownArtifact
      rw [hmodules]
    rw [hsame]
    exact .same ⟨hname, hmem⟩

namespace BeforeClose

/-- Files of nested attributes were not claimed before, so that they are not pending. -/
theorem not_pending (h : BeforeClose t b scope place a pending g g' g₁ g₁' (gn, nested)
    (gn', nested')) : ∀ f ∈ gn.written.drop g₁.written.length, f.path.key ∉ pending := by
  obtain ⟨touched, new, hadvance⟩ := h.advance
  intro f hf hmem
  rw [show gn.written = _ from hadvance.written_eq, List.drop_left] at hf
  refine (hadvance.key_claimed f hf).2 ?_
  rw [h.claimed]
  exact List.mem_cons_of_mem _ (h.isClaimed hmem)

theorem not_pending' (h : BeforeClose t b scope place a pending g g' g₁ g₁' (gn, nested)
    (gn', nested')) : ∀ f ∈ gn'.written.drop g₁'.written.length,
      f.path.key ∈ gn.claimed ∧ f.path.key ∉ pending := by
  obtain ⟨touched, new, hadvance⟩ := h.advance'
  intro f hf
  rw [show gn'.written = _ from hadvance.written_eq, List.drop_left] at hf
  obtain ⟨hmem, hnot⟩ := hadvance.key_claimed f hf
  rw [show gn'.claimed = gn.claimed from h.twins.claimed] at hmem
  rw [h.claimed', h.claimed] at hnot
  exact ⟨hmem, fun hf => hnot (List.mem_cons_of_mem _ (h.isClaimed hf))⟩

/-- **Neither file is written**, and both take back what was written for nested attributes. None of
those has the blocked path: its file would be kept. -/
theorem outcome_of_neither (h : BeforeClose t b scope place a pending g g' g₁ g₁' (gn, nested)
    (gn', nested')) {e : GenerationError}
    (hkept : Kept b.key g ((fail { gn with disk } a.name e).discardFrom g₁.written.length)) :
    TreeOutcome t b scope a g g'
      ((fail { gn with disk } a.name e).discardFrom g₁.written.length, [])
      ((fail { gn' with disk := disk' } a.name e).discardFrom g₁'.written.length, []) := by
  cases h.outcome with
  | alike y hadds hadds' =>
    exact .alike _ ((hadds.takeBack disk a.name e).of_eq h.start.1 h.start.2)
      ((hadds'.takeBack disk' a.name e).of_eq h.start'.1 h.start'.2) (List.forall_mem_nil _) rfl
  | lacking x y y' hadds _ _ _ _ hfree htaken =>
    have hback := (hadds.takeBack disk a.name e).of_eq h.start.1 h.start.2
    rw [h.claimed] at hfree
    have hclaimed : b.key ∈ g.claimed := by
      rcases hkept ((claimed_discardFrom _ _).symm ▸ htaken) with hmem | ⟨f, hf, hkey⟩
      · exact hmem
      · rw [hback.written, List.append_nil] at hf
        exact hkey ▸ h.recorded f hf
    exact absurd (List.mem_cons_of_mem _ hclaimed) hfree

/-- **Both files are written.** -/
theorem outcome_of_both (h : BeforeClose t b scope place a pending g g' g₁ g₁' (gn, nested)
    (gn', nested')) (hnodup : a.names.Nodup) :
    TreeOutcome t b scope a g g'
      ({ gn with disk, written := gn.written ++ [ownFile scope place a ids nested] },
        ownRegistration place a :: nested.registrations)
      ({ gn' with disk := disk', written := gn'.written ++ [ownFile scope place a ids nested'] },
        ownRegistration place a :: nested'.registrations) := by
  cases h.outcome with
  | alike y hadds hadds' hfiles hagree =>
    obtain rfl : nested' = nested := hagree
    exact .alike _ ((hadds.file disk _).of_eq h.start.1 h.start.2)
      ((hadds'.file disk' _).of_eq h.start'.1 h.start'.2) (among_own hfiles) rfl
  | lacking x y y' hadds hadds' hfiles hlacks hnames hfree htaken hx =>
    obtain ⟨hpair, hnot⟩ : Counterpart t x (ownFile scope place a ids nested)
        (ownFile scope place a ids nested') ∧ _ := counterpart_ownFile hnodup hnames hx
    refine .lacking x _ _ ((hadds.file disk _).of_eq h.start.1 h.start.2)
      ((hadds'.file disk' _).of_eq h.start'.1 h.start'.2) (among_own hfiles)
      (hlacks.append (.cons hpair .nil) (List.forall_mem_singleton.mpr hnot) rfl)
      (List.Subset.trans hnames (List.subset_cons_self _ _))
      (fun hmem => hfree (by rw [h.claimed]; exact List.mem_cons_of_mem _ hmem)) htaken ?_
    exact ⟨hx.sound, hx.gains.append_left [ownRegistration place a], List.cons_ne_nil _ _,
      Or.inr ⟨hnames, List.cons_ne_nil _ _⟩⟩

/-- **Only the first file is written**, and the second run takes back what was written for nested
attributes: all of it is lost. -/
theorem outcome_of_first (h : BeforeClose t b scope place a pending g g' g₁ g₁' (gn, nested)
    (gn', nested')) (hpath : place.file a.toDeclaration = b.path)
    {touched : List WrittenFile} (hagrees : Agrees scope touched g
      { gn with disk, written := gn.written ++ [ownFile scope place a ids nested] }
      (ownRegistration place a :: nested.registrations)) :
    TreeOutcome t b scope a g g'
      ({ gn with disk, written := gn.written ++ [ownFile scope place a ids nested] },
        ownRegistration place a :: nested.registrations)
      ((fail { gn' with disk := disk' } a.name
        (.file ⟨.createFile, place.file a.toDeclaration, .isAFolder⟩)).discardFrom
          g₁'.written.length, []) := by
  have hkey : b.key = (place.file a.toDeclaration).key := by rw [hpath]; rfl
  have hown : b.key ∈ g₁.claimed := by
    rw [hkey, h.claimed]
    exact List.mem_cons_self
  cases h.outcome with
  | lacking _ _ _ _ _ _ _ _ hfree => exact absurd hown hfree
  | alike y hadds hadds' hfiles =>
    obtain ⟨touched, new, hadvance⟩ := h.advance
    have hall := (hadds.file disk (ownFile scope place a ids nested)).of_eq h.start.1 h.start.2
    refine .lacking ⟨a, y.files ++ [ownFile scope place a ids nested],
      ownRegistration place a :: nested.registrations⟩ _ _ hall
      ((hadds'.takeBack disk' a.name _).of_eq h.start'.1 h.start'.2) (among_own hfiles) ?_
      (List.Subset.refl _) (hkey ▸ h.free) (hadvance.claimed hown) ?_
    · refine ⟨⟨[], .nil _, List.forall_mem_nil _, .nil⟩, y.failures, [], ?_, ?_⟩
      · rw [Loss.failure, ← hpath, List.append_nil]
      · rfl
    · refine ⟨⟨⟨?_, fun f hf => isOf_of_among (among_own hfiles f hf)⟩, ?_⟩, .nil _,
        List.cons_ne_nil _ _, Or.inl ⟨rfl, rfl⟩⟩
      · refine ⟨attributeModule scope place a ids nested.modules, ?_, rfl⟩
        rw [← hpath]
        exact List.mem_append_right _ List.mem_cons_self
      · obtain ⟨files, hwritten, hperm⟩ := hagrees
        obtain rfl : y.files ++ [ownFile scope place a ids nested] = files :=
          List.append_cancel_left (hall.written.symm.trans hwritten.written_eq)
        exact hperm.symm

/-- **The last step keeps twins**, and nothing differs but what is lost where the folder lies. -/
theorem twins_close (h : BeforeClose t b scope place a pending g g' g₁ g₁' (gn, nested)
    (gn', nested')) (hfolder : b.base.HasFolder place.folder) (hnodup : a.names.Nodup)
    {touched : List WrittenFile} (hagrees : Agrees scope touched g
      (close t scope place a ids g₁.written.length nested gn).1
      (close t scope place a ids g₁.written.length nested gn).2)
    (hkept : Kept b.key g (close t scope place a ids g₁.written.length nested gn).1) :
    Twins b pending (close t scope place a ids g₁.written.length nested gn).1
      (close t scope place a ids g₁'.written.length nested' gn').1 ∧
    TreeOutcome t b scope a g g' (close t scope place a ids g₁.written.length nested gn)
      (close t scope place a ids g₁'.written.length nested' gn') := by
  obtain ⟨hway, hafter⟩ := h.twins.write (Place.hasFile_file hfolder a.toDeclaration)
    (fun hmem => h.free (h.isClaimed hmem)) t (ownArtifact scope place a ids nested)
    (ownArtifact scope place a ids nested')
  rcases hwrite : gn.write t (place.file a.toDeclaration) (ownArtifact scope place a ids nested)
    with ⟨w, e?⟩
  rcases hwrite' : gn'.write t (place.file a.toDeclaration) (ownArtifact scope place a ids nested')
    with ⟨w', e?'⟩
  dsimp only at hway hafter
  rw [hwrite, hwrite'] at hway hafter
  cases hway with
  | @neither disk disk' e =>
    rw [close_of_write_eq_some hwrite] at hkept ⊢
    rw [close_of_write_eq_some hwrite']
    have hfailed := (hafter.fail_left a.name e).fail_right a.name e
    exact ⟨(hfailed.discard_right _ h.not_pending').discard_left _ h.not_pending,
      h.outcome_of_neither hkept⟩
  | both =>
    rw [close_of_write_eq_none hwrite, close_of_write_eq_none hwrite']
    exact ⟨hafter, h.outcome_of_both hnodup⟩
  | first hpath =>
    rw [close_of_write_eq_none hwrite] at hagrees ⊢
    rw [close_of_write_eq_some hwrite']
    exact ⟨(hafter.fail_right a.name _).discard_right _ h.not_pending',
      h.outcome_of_first hpath hagrees⟩

end BeforeClose

end Close

/-! ### The ways through an attribute on twins -/

/-- What generating an attribute leaves of twins, given what it leaves of the first one. -/
def TwinTree (t : Target) (b : Blockade) (scope : Scope) (place : Place) (a : Attribute)
    (g : Generation) (r : Generation × List Registration) : Prop :=
  ∀ pending g', Twins b pending g g' → place.Fits scope → b.base.HasFolder place.folder →
    a.names.Nodup → Kept b.key g r.1 →
    Twins b pending r.1 (attributeTree t scope place a g').1 ∧
    TreeOutcome t b scope a g g' r (attributeTree t scope place a g')

/-- What generating the attributes nested in one leaves of twins. -/
def TwinNested (t : Target) (b : Blockade) (scope : Scope) (place : Place) (d : Declaration)
    (entries : List (String × Attribute)) (g : Generation) (r : Generation × NestedModules) :
    Prop :=
  ∀ pending g', Twins b pending g g' → place.Fits scope → b.base.HasFolder place.folder →
    (namesIn entries).Nodup → Kept b.key g r.1 →
    Twins b pending r.1 (nestedTrees t scope place d entries g').1 ∧
    NestedOutcome t b scope entries g g' r (nestedTrees t scope place d entries g')

/-- An attribute that fails at once fails on both. -/
theorem outcome_of_fail {e : GenerationError}
    (hwritten : g₁.written = g.written) (hwritten' : g₁'.written = g'.written)
    (hfailures : g₁.failures = g.failures ++ [⟨a.name, e⟩])
    (hfailures' : g₁'.failures = g'.failures ++ [⟨a.name, e⟩]) :
    TreeOutcome t b scope a g g' (g₁, []) (g₁', []) :=
  .alike ⟨[], [⟨a.name, e⟩]⟩ (.fail a.name e hwritten hfailures)
    (.fail a.name e hwritten' hfailures') (List.forall_mem_nil _) rfl

theorem snd_nestedTrees_cons {d : Declaration} {key : String} {child : Attribute}
    {rest : List (String × Attribute)} : (nestedTrees t scope place d ((key, child) :: rest) g).2 =
      .cons child.name (attributeTree t scope (place.below d child.toDeclaration) child g).2
        (nestedTrees t scope place d rest
          (attributeTree t scope (place.below d child.toDeclaration) child g).1).2 :=
  rfl

/-- **Every way through an attribute keeps twins**, and nothing differs but what is lost where the
folder lies. -/
theorem treeInvariant_twins (t : Target) (b : Blockade) (scope : Scope) :
    TreeInvariant t scope (TwinTree t b scope) (TwinNested t b scope) where
  unresolved {place a g e} hids pending g' htwins _ _ _ _ := by
    have hids' := hids
    rw [← htwins.idsAt_eq] at hids'
    rw [attributeTree_of_unresolved hids']
    refine ⟨?_, outcome_of_fail rfl rfl rfl rfl⟩
    exact htwins.congr htwins.numbers ⟨rfl, rfl, rfl⟩ ⟨rfl, rfl, rfl⟩
  taken {place a g ids} hids hclaim pending g' htwins _ _ _ _ := by
    have hids' := hids
    rw [← htwins.idsAt_eq] at hids'
    have hreach := htwins.reach a
    rw [attributeTree_of_taken hids' (hreach.claim?_eq_none hclaim)]
    have hwritten : ∀ g : Generation, (((g.reach a).setNumber a.toDeclaration).giveUp a
        (place.file a.toDeclaration)).written = g.written := by
      intro g
      obtain ⟨failures, events, hgiveUp⟩ := giveUp_eq ((g.reach a).setNumber a.toDeclaration) a
        (place.file a.toDeclaration)
      rw [hgiveUp]
      rfl
    exact ⟨hreach.giveUp a _, outcome_of_fail (hwritten g) (hwritten g') (failures_giveUp _ a _)
      (failures_giveUp _ a _)⟩
  claimed {place a g g₁ ids} hids hclaim hnested pending g' htwins hfits hfolder hnodup hkept := by
    have hids' := hids
    rw [← htwins.idsAt_eq] at hids'
    obtain ⟨g₁', hclaim', hwritten', hfailures', htwins₁⟩ := (htwins.reach a).claim? hclaim
    obtain ⟨hfree, hg₁⟩ := claim?_eq_some hclaim
    have hclaimed : g₁.claimed = (place.file a.toDeclaration).key :: g.claimed := by rw [hg₁]; rfl
    rw [attributeTree_of_claimed hids' hclaim']
    obtain ⟨htwinsn, houtcome⟩ := hnested _ g₁' htwins₁ hfits hfolder (List.nodup_cons.mp hnodup).2
      (kept_of_close hkept hclaimed)
    have hagrees := (treeInvariant_agrees t scope).attributeTree a place g hfits
    rw [attributeTree_of_claimed hids hclaim] at hagrees
    obtain ⟨new, hadvance, -⟩ := (treeInvariant_agrees t scope).nestedTrees a.nested place
      a.toDeclaration g₁ hfits
    obtain ⟨new', hadvance', -⟩ := (treeInvariant_agrees t scope).nestedTrees a.nested place
      a.toDeclaration g₁' hfits
    have hbefore : BeforeClose t b scope place a pending g g' g₁ g₁' _ _ :=
      { start := by rw [hg₁]; exact ⟨rfl, rfl⟩
        start' := ⟨hwritten', hfailures'⟩
        free := hfree
        claimed := hclaimed
        claimed' := htwins₁.claimed
        recorded := fun f hf => (htwins.recorded f hf).1
        isClaimed := htwins.isClaimed
        twins := htwinsn
        advance := ⟨_, _, hadvance⟩
        advance' := ⟨_, _, hadvance'⟩
        outcome := houtcome }
    exact hbefore.twins_close hfolder hnodup hagrees hkept
  nil {place d g} pending g' htwins _ _ _ _ :=
    ⟨htwins, .alike ⟨[], []⟩ (.refl g) (.refl g') (List.forall_mem_nil _) rfl⟩
  cons {place d key child rest g} hchild hrest pending g' htwins hfits hfolder hnodup hkept := by
    rw [Attribute.namesIn_cons] at hnodup
    have hdisjoint := List.disjoint_of_nodup_append hnodup
    obtain ⟨hnodupChild, hnodupRest, -⟩ := List.nodup_append.mp hnodup
    obtain ⟨new, hadvance, -⟩ := (treeInvariant_agrees t scope).attributeTree child
      (place.below d child.toDeclaration) g (hfits.below d child.toDeclaration)
    obtain ⟨new', hadvance', -⟩ := (treeInvariant_agrees t scope).nestedTrees rest place d
      (attributeTree t scope (place.below d child.toDeclaration) child g).1 hfits
    obtain ⟨htwins₁, houtcome₁⟩ := hchild pending g' htwins (hfits.below d child.toDeclaration)
      (Place.hasFolder_below hfolder d child.toDeclaration) hnodupChild (hkept.front hadvance')
    obtain ⟨htwins₂, houtcome₂⟩ := hrest pending _ htwins₁ hfits hfolder hnodupRest
      (hkept.back hadvance.claimed)
    unfold NestedOutcome
    rw [Attribute.namesIn_cons]
    refine ⟨htwins₂, houtcome₁.trans houtcome₂ hadvance.claimed hadvance'.claimed hdisjoint
      (fun _ _ => List.not_mem_nil) (fun _ _ => List.not_mem_nil) (fun hagree hagree' => ?_)
      (fun x hx hagree' => ?_) (fun x hnames hagree hx => ?_)⟩
    · rw [snd_nestedTrees_cons, snd_nestedTrees_cons, hagree, hagree']
    · rw [snd_nestedTrees_cons, snd_nestedTrees_cons, hagree']
      exact hx.cons hnodup key
    · rw [snd_nestedTrees_cons, snd_nestedTrees_cons, hagree]
      exact hx.cons hnames hdisjoint key

end Generation

end RadiusDictionary
