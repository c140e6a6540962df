import RadiusDictionary.Generation.AttributeTree
import RadiusDictionary.Proofs.Disk
import RadiusDictionary.Proofs.Registry.Declared

/-! # The ways through an attribute

`attributeTree` is one recursion over nested attributes with four ways out. This file says once what
each way does, so that no later proof opens the recursion.

* `attributeTree_of_unresolved`, `attributeTree_of_taken`, `attributeTree_of_claimed`: the result in
  each case; the last two ways out are those of `close`.
* `write_eq_none`, `write_eq_some`, `discardFrom_eq`, `giveUp_eq`: what writing, taking back and
  giving up change.
* `LoaderWay`: the ways in which a loader is generated.
* `TreeInvariant`: what every way out keeps, given that the attributes nested in one keep it, all
  attributes keep. -/

namespace RadiusDictionary

namespace Generation

/-- The generation once an attribute is reached. -/
def reach (g : Generation) (a : Attribute) : Generation := g.note (.attributeReached a.name)

/-! ### Writing and taking back -/

section Files

variable {t : Target} {path : Path} {artifact : Artifact} {g g' : Generation}

theorem claim?_eq_some (h : g.claim? path = some g') :
    path.key ∉ g.claimed ∧ g' = { g with claimed := path.key :: g.claimed } := by
  unfold claim? at h
  by_cases hclaimed : g.claimed.contains path.key = true
  · rw [if_pos hclaimed] at h; cases h
  · rw [if_neg hclaimed] at h
    cases h
    exact ⟨fun hmem => hclaimed (List.contains_iff_mem.mpr hmem), rfl⟩

theorem claim?_eq_none_iff : g.claim? path = none ↔ path.key ∈ g.claimed := by
  unfold claim?
  by_cases hclaimed : g.claimed.contains path.key = true
  · simp only [if_pos hclaimed, true_iff]
    exact List.contains_iff_mem.mp hclaimed
  · simp only [if_neg hclaimed, reduceCtorEq, false_iff]
    exact fun hmem => hclaimed (List.contains_iff_mem.mpr hmem)

/-- A file that is written is on record. -/
theorem write_eq_none (h : g.write t path artifact = (g', none)) : ∃ disk,
    Disk.Change [path] [path] g.disk disk ∧
      g' = { g with disk, written := g.written ++ [⟨path, artifact⟩] } := by
  have hfolder := Disk.change_createFolder g.disk path.parent
  unfold write at h
  rcases hcreated : g.disk.createFolder path.parent with ⟨disk, _ | e⟩
  · rw [hcreated] at h hfolder
    dsimp only at h
    cases hwritten : disk.writeFile path (artifact.render t) with
    | error e => rw [hwritten] at h; cases h
    | ok disk' =>
      rw [hwritten] at h
      cases h
      exact ⟨disk', hfolder.trans (Disk.change_writeFile hwritten), rfl⟩
  · rw [hcreated] at h; cases h

/-- A file that cannot be written may leave new folders. -/
theorem write_eq_some {e : GenerationError} (h : g.write t path artifact = (g', some e)) :
    ∃ disk, Disk.Change [] [] g.disk disk ∧ g' = { g with disk } := by
  have hfolder := Disk.change_createFolder g.disk path.parent
  unfold write at h
  rcases hcreated : g.disk.createFolder path.parent with ⟨disk, _ | e⟩
  · rw [hcreated] at h hfolder
    dsimp only at h
    cases hwritten : disk.writeFile path (artifact.render t) with
    | error e => rw [hwritten] at h; cases h; exact ⟨disk, hfolder, rfl⟩
    | ok disk' => rw [hwritten] at h; cases h
  · rw [hcreated] at h hfolder
    cases h
    exact ⟨disk, hfolder, rfl⟩

theorem remove_eq (g : Generation) (file : WrittenFile) : ∃ events,
    g.remove file = { g with disk := g.disk.without file.path, events } := by
  unfold remove Disk.without
  dsimp only [note]
  cases g.disk.removeFile file.path with
  | ok disk => exact ⟨_, rfl⟩
  | error e => exact ⟨_, rfl⟩

theorem foldl_remove_eq : ∀ (files : List WrittenFile) (g : Generation), ∃ events,
    files.foldl remove g =
      { g with disk := (files.map (·.path)).foldl Disk.without g.disk, events }
  | [], g => ⟨g.events, rfl⟩
  | file :: files, g => by
    obtain ⟨events, hfile⟩ := remove_eq g file
    obtain ⟨events', hfiles⟩ := foldl_remove_eq files (g.remove file)
    refine ⟨events', ?_⟩
    rw [List.foldl_cons, hfiles, hfile]
    rfl

/-- What is taken back is removed, one file after the other. -/
theorem discardFrom_eq (g : Generation) (mark : Nat) : ∃ events,
    g.discardFrom mark = { g with
      disk := ((g.written.drop mark).map (·.path)).foldl Disk.without g.disk
      written := g.written.take mark
      events } := by
  obtain ⟨events, h⟩ := foldl_remove_eq (g.written.drop mark) { g with written := g.written.take mark }
  exact ⟨events, h⟩

/-- What is given up leaves a failure behind and nothing else. -/
theorem giveUp_eq (g : Generation) (a : Attribute) (path : Path) : ∃ failures events,
    g.giveUp a path = { g with failures, events } := by
  unfold giveUp
  by_cases hchildren : a.hasChildren = true
  · rw [if_pos hchildren]; exact ⟨_, _, rfl⟩
  · rw [if_neg hchildren]; exact ⟨_, _, rfl⟩

end Files

/-! ### The ways out -/

/-- What goes into the file of an attribute. -/
def ownArtifact (scope : Scope) (place : Place) (a : Attribute) (ids : TypeIds)
    (nested : NestedModules) : Artifact :=
  .attributeModule (attributeModule scope place a ids nested.modules)

/-- The registration of an attribute that is generated. -/
def ownRegistration (place : Place) (a : Attribute) : Registration :=
  ⟨place.key, place.modulePath a.toDeclaration, typeName a.name⟩

section Ways

variable {t : Target} {scope : Scope} {place : Place} {a : Attribute} {g g' : Generation}
  {ids : TypeIds} {mark : Nat} {nested : NestedModules}

theorem close_of_write_eq_none
    (h : g.write t (place.file a.toDeclaration) (ownArtifact scope place a ids nested) =
      (g', none)) :
    close t scope place a ids mark nested g = (g', ownRegistration place a :: nested.registrations) := by
  unfold ownArtifact at h
  unfold close
  simp only [h]
  rfl

theorem close_of_write_eq_some {e : GenerationError}
    (h : g.write t (place.file a.toDeclaration) (ownArtifact scope place a ids nested) =
      (g', some e)) :
    close t scope place a ids mark nested g = ((g'.fail a.name e).discardFrom mark, []) := by
  unfold ownArtifact at h
  unfold close
  simp only [h]

/-- The last step changes neither numbers nor claims, and adds the attribute's own file, if anything,
to the record. -/
theorem close_spec (t : Target) (scope : Scope) (place : Place) (a : Attribute) (ids : TypeIds)
    (mark : Nat) (nested : NestedModules) (g : Generation) :
    (close t scope place a ids mark nested g).1.numbers = g.numbers ∧
    (close t scope place a ids mark nested g).1.claimed = g.claimed ∧
      ∀ f ∈ (close t scope place a ids mark nested g).1.written, f ∈ g.written ∨
        f = ⟨place.file a.toDeclaration, ownArtifact scope place a ids nested⟩ := by
  rcases hwrite : g.write t (place.file a.toDeclaration) (ownArtifact scope place a ids nested)
    with ⟨after, _ | e⟩
  · obtain ⟨disk, -, rfl⟩ := write_eq_none hwrite
    rw [close_of_write_eq_none hwrite]
    exact ⟨rfl, rfl, fun f hf => (List.mem_append.mp hf).imp_right List.mem_singleton.mp⟩
  · obtain ⟨disk, -, rfl⟩ := write_eq_some hwrite
    rw [close_of_write_eq_some hwrite]
    obtain ⟨events, hdiscard⟩ := discardFrom_eq (fail { g with disk } a.name e) mark
    rw [hdiscard]
    exact ⟨rfl, rfl, fun f hf => Or.inl (List.mem_of_mem_take hf)⟩

theorem attributeTree_of_unresolved {e : GenerationError}
    (h : (g.reach a).idsAt scope place a = .error e) :
    attributeTree t scope place a g = ((g.reach a).fail a.name e, []) := by
  obtain ⟨d, values, children⟩ := a
  unfold attributeTree
  unfold reach at h ⊢
  simp only [h]

theorem attributeTree_of_taken (hids : (g.reach a).idsAt scope place a = .ok ids)
    (h : ((g.reach a).setNumber a.toDeclaration).claim? (place.file a.toDeclaration) = none) :
    attributeTree t scope place a g =
      (((g.reach a).setNumber a.toDeclaration).giveUp a (place.file a.toDeclaration), []) := by
  obtain ⟨d, values, children⟩ := a
  unfold attributeTree
  unfold reach at hids h ⊢
  simp only [hids, h]

theorem attributeTree_of_claimed (hids : (g.reach a).idsAt scope place a = .ok ids)
    (h : ((g.reach a).setNumber a.toDeclaration).claim? (place.file a.toDeclaration) = some g') :
    attributeTree t scope place a g =
      close t scope place a ids g'.written.length
        (nestedTrees t scope place a.toDeclaration a.nested g').2
        (nestedTrees t scope place a.toDeclaration a.nested g').1 := by
  obtain ⟨d, values, _ | ⟨⟨entries⟩⟩⟩ := a
  · unfold attributeTree
    unfold reach at hids h
    simp only [hids, h]
    rfl
  · unfold attributeTree
    unfold reach at hids h
    simp only [hids, h]
    rfl

variable {d : Declaration} {key : String} {child : Attribute} {rest : List (String × Attribute)}

theorem nestedTrees_cons_fst : (nestedTrees t scope place d ((key, child) :: rest) g).1 =
    (nestedTrees t scope place d rest
      (attributeTree t scope (place.below d child.toDeclaration) child g).1).1 :=
  rfl

theorem registrations_nestedTrees_cons :
    (nestedTrees t scope place d ((key, child) :: rest) g).2.registrations =
      (attributeTree t scope (place.below d child.toDeclaration) child g).2 ++
        (nestedTrees t scope place d rest
          (attributeTree t scope (place.below d child.toDeclaration) child g).1).2.registrations :=
  rfl

end Ways

/-! ### The ways out of a loader -/

/-- The file that generating a loader writes, if it can. -/
def loaderWrites (t : Target) (folder : Path) (m : LoaderModule) (g : Generation) :
    List WrittenFile :=
  let own : WrittenFile := ⟨folder.joinText "mod.rs", .loaderModule m⟩
  match g.claim? own.path with
  | none => []
  | some g =>
    match (g.write t own.path own.artifact).2 with
    | none => [own]
    | some _ => []

/-- The ways in which generating a loader ends, with the generation that comes of it and the file
that is written, if any. -/
inductive LoaderWay (t : Target) (folder : Path) (m : LoaderModule) (g : Generation) :
    Generation → List WrittenFile → Prop
  | taken (hclaim : g.claim? (folder.joinText "mod.rs") = none) :
    LoaderWay t folder m g (g.fail m.ns (.alreadyGenerated (folder.joinText "mod.rs"))) []
  | failed {g' after : Generation} {e : GenerationError}
    (hclaim : g.claim? (folder.joinText "mod.rs") = some g')
    (hwrite : g'.write t (folder.joinText "mod.rs") (.loaderModule m) = (after, some e)) :
    LoaderWay t folder m g (after.fail m.ns e) []
  | written {g' after : Generation} (hclaim : g.claim? (folder.joinText "mod.rs") = some g')
    (hwrite : g'.write t (folder.joinText "mod.rs") (.loaderModule m) = (after, none)) :
    LoaderWay t folder m g after [⟨folder.joinText "mod.rs", .loaderModule m⟩]

theorem loaderWay (t : Target) (folder : Path) (m : LoaderModule) (g : Generation) :
    LoaderWay t folder m g (g.writeLoader t folder m) (loaderWrites t folder m g) := by
  unfold writeLoader loaderWrites
  dsimp only
  cases hclaim : g.claim? (folder.joinText "mod.rs") with
  | none => exact .taken hclaim
  | some g' =>
    dsimp only
    rcases hwrite : g'.write t (folder.joinText "mod.rs") (.loaderModule m) with ⟨after, _ | e⟩
    · exact .written hclaim hwrite
    · exact .failed hclaim hwrite

/-! ### The recursion -/

/-- What every way out keeps, given that it is kept by the attributes nested in one: `P` is about an
attribute, `Q` about those nested in the attribute `d` at a place. -/
structure TreeInvariant (t : Target) (scope : Scope)
    (P : Place → Attribute → Generation → Generation × List Registration → Prop)
    (Q : Place → Declaration → List (String × Attribute) → Generation →
      Generation × NestedModules → Prop) : Prop where
  unresolved : ∀ {place a g e}, (g.reach a).idsAt scope place a = .error e →
    P place a g ((g.reach a).fail a.name e, [])
  taken : ∀ {place a g ids}, (g.reach a).idsAt scope place a = .ok ids →
    ((g.reach a).setNumber a.toDeclaration).claim? (place.file a.toDeclaration) = none →
    P place a g
      (((g.reach a).setNumber a.toDeclaration).giveUp a (place.file a.toDeclaration), [])
  claimed : ∀ {place a g g' ids}, (g.reach a).idsAt scope place a = .ok ids →
    ((g.reach a).setNumber a.toDeclaration).claim? (place.file a.toDeclaration) = some g' →
    Q place a.toDeclaration a.nested g' (nestedTrees t scope place a.toDeclaration a.nested g') →
    P place a g (close t scope place a ids g'.written.length
      (nestedTrees t scope place a.toDeclaration a.nested g').2
      (nestedTrees t scope place a.toDeclaration a.nested g').1)
  nil : ∀ {place d g}, Q place d [] g (g, ⟨[], []⟩)
  cons : ∀ {place d key child rest g},
    P (place.below d child.toDeclaration) child g
      (attributeTree t scope (place.below d child.toDeclaration) child g) →
    Q place d rest (attributeTree t scope (place.below d child.toDeclaration) child g).1
      (nestedTrees t scope place d rest
        (attributeTree t scope (place.below d child.toDeclaration) child g).1) →
    Q place d ((key, child) :: rest) g (nestedTrees t scope place d ((key, child) :: rest) g)

namespace TreeInvariant

variable {t : Target} {scope : Scope}
  {P : Place → Attribute → Generation → Generation × List Registration → Prop}
  {Q : Place → Declaration → List (String × Attribute) → Generation → Generation × NestedModules →
    Prop}

theorem of_nested (h : TreeInvariant t scope P Q) {place : Place} {a : Attribute} {g : Generation}
    (hnested : ∀ g', Q place a.toDeclaration a.nested g'
      (nestedTrees t scope place a.toDeclaration a.nested g')) :
    P place a g (Generation.attributeTree t scope place a g) := by
  cases hids : (g.reach a).idsAt scope place a with
  | error e =>
    rw [attributeTree_of_unresolved hids]
    exact h.unresolved hids
  | ok ids =>
    cases hclaim : ((g.reach a).setNumber a.toDeclaration).claim? (place.file a.toDeclaration) with
    | none =>
      rw [attributeTree_of_taken hids hclaim]
      exact h.taken hids hclaim
    | some g' =>
      rw [attributeTree_of_claimed hids hclaim]
      exact h.claimed hids hclaim (hnested g')

mutual

/-- **What every way out keeps, every attribute keeps.** -/
theorem attributeTree (h : TreeInvariant t scope P Q) : ∀ (a : Attribute) (place : Place)
    (g : Generation), P place a g (Generation.attributeTree t scope place a g)
  | ⟨_, _, none⟩, _, _ => h.of_nested fun _ => h.nil
  | ⟨d, _, some ⟨entries⟩⟩, place, _ => h.of_nested fun g' => nestedTrees h entries place d g'

/-- **What every way out keeps, the attributes nested in one keep.** -/
theorem nestedTrees (h : TreeInvariant t scope P Q) : ∀ (entries : List (String × Attribute))
    (place : Place) (d : Declaration) (g : Generation),
    Q place d entries g (Generation.nestedTrees t scope place d entries g)
  | [], _, _, _ => h.nil
  | (_, child) :: rest, place, d, g =>
    h.cons (attributeTree h child (place.below d child.toDeclaration) g)
      (nestedTrees h rest place d _)

end

end TreeInvariant

end Generation

end RadiusDictionary
