import RadiusDictionary.Proofs.Generation.Writes
import RadiusDictionary.Proofs.Identifier

/-! # Where the registered paths lead

A loader registers a type by a path of modules. For the path to lead to the type the loader has to
declare the first module, the file of each module the next one, and the last file has to define the
type: the path `Resolves`. Declarations stand in the text of the attribute around, registrations go
up to the loader, and files may be taken back in between. The three agree in every run
(`registered_paths_resolve`), since what is left of an attribute is left as a whole (`Linked`). -/

namespace RadiusDictionary

open Generation

/-! ### Lines of files -/

/-- The declaration of a module in a file of its own. -/
def declarationLine (name : String) : String := "pub mod " ++ name ++ ";"

/-- The definition of a type. -/
def definitionLine (typeName : String) : String := "pub struct " ++ typeName ++ ";"

theorem AttributeModule.definitionLine_mem_lines (m : AttributeModule) (runtime stamp : String) :
    definitionLine m.typeName ∈ m.lines runtime stamp := by
  have htype : definitionLine m.typeName ∈ m.typeLines := by
    unfold typeLines definitionLine
    simp
  unfold lines
  simp [htype]

theorem AttributeModule.declarationLine_mem_lines {m : AttributeModule} {name : String}
    (hname : name ∈ m.childModules) (hescape : Identifier.escape name = name)
    (runtime stamp : String) : declarationLine name ∈ m.lines runtime stamp := by
  have hchild : declarationLine name ∈ m.childModuleLines := by
    unfold childModuleLines
    rw [if_neg]
    · refine List.mem_append_left _ (List.mem_map.mpr ⟨name, hname, ?_⟩)
      rw [hescape, declarationLine]
    · intro hempty
      rw [List.isEmpty_iff.mp hempty] at hname
      cases hname
  unfold lines
  simp [hchild]

theorem ModuleItem.mem_linesOf (indent : String) {name : String} : ∀ {items : List ModuleItem},
    .file name ∈ items → indent ++ "pub mod " ++ Identifier.escape name ++ ";" ∈ linesOf indent items
  | item :: rest, h => by
    rw [linesOf, List.mem_append]
    rcases List.mem_cons.mp h with rfl | h
    · exact Or.inl (by rw [lines]; exact List.mem_singleton_self _)
    · exact Or.inr (mem_linesOf indent h)

theorem LoaderModule.declarationLine_mem_lines {m : LoaderModule} {name : String}
    (hname : name ∈ m.attributeModules) (hescape : Identifier.escape name = name)
    (runtime stamp : String) : declarationLine name ∈ m.lines runtime stamp := by
  have hitem : .file name ∈ m.items := List.mem_append_left _ (List.mem_map_of_mem hname)
  have hline : declarationLine name ∈ m.itemLines := by
    have hmem := ModuleItem.mem_linesOf "" hitem
    rw [hescape] at hmem
    unfold itemLines
    rw [if_neg]
    · exact List.mem_append_left _ hmem
    · intro hempty
      rw [List.isEmpty_iff.mp hempty] at hitem
      cases hitem
  unfold lines
  simp [hline]

/-! ### Paths that resolve -/

/-- The module of an attribute is in a folder. -/
def HasModule (files : List WrittenFile) (folder : Path) (name : String) : Prop :=
  ∃ f ∈ files, f.path = folder.joinText (name ++ ".rs") ∧
    ∃ m, f.artifact = .attributeModule m ∧ moduleName m.subject.name = name

/-- A line stands in the module of an attribute at a path. -/
def HasLine (t : Target) (files : List WrittenFile) (path : Path) (line : String) : Prop :=
  ∃ f ∈ files, f.path = path ∧
    ∃ m, f.artifact = .attributeModule m ∧ line ∈ m.lines t.runtime t.stamp

/-- Below a folder, the modules of a path declare each other in turn, and the last one defines the
type. -/
def Resolves (t : Target) (files : List WrittenFile) (typeName : String) :
    (folder : Path) → List String → Prop
  | _, [] => False
  | folder, [last] => HasLine t files (folder.joinText (last ++ ".rs")) (definitionLine typeName)
  | folder, outer :: next :: rest =>
    HasLine t files (folder.joinText (outer ++ ".rs")) (declarationLine next) ∧
      Resolves t files typeName (folder.joinText outer) (next :: rest)

/-- The registration of a loader in a folder leads to the type that it names. -/
def LoaderModule.LeadsTo (t : Target) (files : List WrittenFile) (folder : Path) (m : LoaderModule)
    (r : Registration) : Prop :=
  ∃ first rest, r.path = first :: rest ∧ (∀ name ∈ r.path, ∃ s, name = moduleName s) ∧
    declarationLine first ∈ m.lines t.runtime t.stamp ∧ Resolves t files r.typeName folder r.path

/-- What the file declares for attributes is there, and what it registers resolves. -/
def WrittenFile.IsLinked (t : Target) (files : List WrittenFile) (f : WrittenFile) : Prop :=
  match f.artifact with
  | .attributeModule m =>
    ∃ folder : Path, f.path = folder.joinText (moduleName m.subject.name ++ ".rs") ∧
      ∀ name ∈ m.childModules, HasModule files (folder.joinText (moduleName m.subject.name)) name
  | .loaderModule m =>
    ∃ folder : Path, f.path = folder.joinText "mod.rs" ∧
      (∀ name ∈ m.attributeModules, HasModule files folder name) ∧
      ∀ r ∈ m.registrations, m.LeadsTo t files folder r

/-- So it is with all files. -/
def Linked (t : Target) (files : List WrittenFile) : Prop := ∀ f ∈ files, f.IsLinked t files

section Files

variable {t : Target} {files files' : List WrittenFile} {folder : Path} {name typeName : String}

theorem HasModule.mono (h : HasModule files folder name) (hsub : files ⊆ files') :
    HasModule files' folder name := by
  obtain ⟨f, hf, hmodule⟩ := h
  exact ⟨f, hsub hf, hmodule⟩

theorem HasLine.mono {path : Path} {line : String} (h : HasLine t files path line)
    (hsub : files ⊆ files') : HasLine t files' path line := by
  obtain ⟨f, hf, hline⟩ := h
  exact ⟨f, hsub hf, hline⟩

theorem Resolves.mono (hsub : files ⊆ files') : ∀ {path : List String} {folder : Path},
    Resolves t files typeName folder path → Resolves t files' typeName folder path
  | [], _, h => h
  | [_], _, h => HasLine.mono h hsub
  | _ :: _ :: _, _, h => ⟨h.1.mono hsub, Resolves.mono hsub h.2⟩

/-- The last module defines the type. -/
theorem Resolves.defines : ∀ {path : List String} {folder : Path},
    Resolves t files typeName folder path →
      HasLine t files (moduleFile folder path) (definitionLine typeName)
  | [_], _, h => h
  | _ :: _ :: _, _, h => by
    have hrest := Resolves.defines h.2
    exact hrest

/-- Every other module declares the next one. -/
theorem Resolves.declares : ∀ {front : List String} {folder : Path} {next : String}
    {back : List String}, front ≠ [] → Resolves t files typeName folder (front ++ next :: back) →
      HasLine t files (moduleFile folder front) (declarationLine next)
  | [_], _, _, _, _, h => h.1
  | outer :: next' :: rest, folder, next, back, _, h => by
    have hrest : HasLine t files (moduleFile (folder.joinText outer) (next' :: rest))
        (declarationLine next) := Resolves.declares (List.cons_ne_nil _ _) h.2
    exact hrest

theorem WrittenFile.IsLinked.mono {f : WrittenFile} (h : f.IsLinked t files) (hsub : files ⊆ files') :
    f.IsLinked t files' := by
  unfold IsLinked at h ⊢
  split at h
  · obtain ⟨folder, hpath, hchildren⟩ := h
    exact ⟨folder, hpath, fun name hname => (hchildren name hname).mono hsub⟩
  · obtain ⟨folder, hpath, hmodules, hregistrations⟩ := h
    refine ⟨folder, hpath, fun name hname => (hmodules name hname).mono hsub, fun r hr => ?_⟩
    obtain ⟨first, rest, hr, hnames, hline, hresolves⟩ := hregistrations r hr
    exact ⟨first, rest, hr, hnames, hline, hresolves.mono hsub⟩

theorem linked_nil : Linked t [] := List.forall_mem_nil _

theorem Linked.append (h : Linked t files) (h' : ∀ f ∈ files', f.IsLinked t (files ++ files')) :
    Linked t (files ++ files') := by
  intro f hf
  rcases List.mem_append.mp hf with hf | hf
  · exact (h f hf).mono (List.subset_append_left _ _)
  · exact h' f hf

theorem Linked.both (h : Linked t files) (h' : Linked t files') : Linked t (files ++ files') :=
  h.append fun f hf => (h' f hf).mono (List.subset_append_right _ _)

end Files

namespace Generation

/-! ### The ways through an attribute -/

/-- The registration is of an attribute with the module `first` or of one nested in it, and below
the folder its path resolves from there. -/
def Registers (t : Target) (files : List WrittenFile) (around : List String) (folder : Path)
    (first : String) (r : Registration) : Prop :=
  ∃ rest, r.path = around ++ first :: rest ∧ (∀ name ∈ rest, ∃ s, name = moduleName s) ∧
    Resolves t files r.typeName folder (first :: rest)

/-- What is left of an attribute: files that are linked and registrations that resolve. -/
def LinksTree (t : Target) (place : Place) (a : Attribute) (g : Generation)
    (r : Generation × List Registration) : Prop :=
  ∃ new, r.1.written = g.written ++ new ∧ Linked t new ∧
    (r.2 ≠ [] → HasModule new place.folder (moduleName a.name)) ∧
    ∀ reg ∈ r.2, Registers t new place.around place.folder (moduleName a.name) reg

/-- What is left of attributes that are nested in `d`: besides, the modules to declare are there,
and every registration leads through one. -/
def LinksNested (t : Target) (place : Place) (d : Declaration) (g : Generation)
    (r : Generation × NestedModules) : Prop :=
  ∃ new, r.1.written = g.written ++ new ∧ Linked t new ∧
    (∀ name ∈ r.2.modules, HasModule new (place.folder.joinText (moduleName d.name)) name) ∧
    ∀ reg ∈ r.2.registrations, ∃ name, moduleName name ∈ r.2.modules ∧
      Registers t new (place.around ++ [moduleName d.name])
        (place.folder.joinText (moduleName d.name)) (moduleName name) reg

section Ways

variable {t : Target} {scope : Scope} {place : Place} {a : Attribute} {g g' after : Generation}

theorem linksTree_of_eq (h : g'.written = g.written) : LinksTree t place a g (g', []) :=
  ⟨[], by rw [h, List.append_nil], linked_nil, nofun, List.forall_mem_nil _⟩

/-- The file of an attribute after those of the attributes nested in it. -/
def withOwn (files : List WrittenFile) (scope : Scope) (place : Place) (a : Attribute)
    (ids : TypeIds) (nested : NestedModules) : List WrittenFile :=
  files ++ [⟨place.file a.toDeclaration, ownArtifact scope place a ids nested⟩]

variable (scope place a) (ids : TypeIds) (nested : NestedModules) (files : List WrittenFile)

theorem hasModule_withOwn :
    HasModule (withOwn files scope place a ids nested) place.folder (moduleName a.name) := by
  refine ⟨_, List.mem_append_right _ (List.mem_singleton_self _), ?_, _, rfl, ?_⟩
  · dsimp only [Place.file]
  · dsimp only [attributeModule]

theorem hasLine_withOwn {line : String}
    (h : line ∈ (attributeModule scope place a ids nested.modules).lines t.runtime t.stamp) :
    HasLine t (withOwn files scope place a ids nested)
      (place.folder.joinText (moduleName a.name ++ ".rs")) line := by
  refine ⟨_, List.mem_append_right _ (List.mem_singleton_self _), ?_, _, rfl, h⟩
  dsimp only [Place.file]

theorem linked_withOwn (h : Linked t files) (hmodules : ∀ name ∈ nested.modules,
    HasModule files (place.folder.joinText (moduleName a.name)) name) :
    Linked t (withOwn files scope place a ids nested) := by
  refine h.append fun f hf => ?_
  obtain rfl := List.mem_singleton.mp hf
  refine ⟨place.folder, ?_, fun name hname => ?_⟩
  · dsimp only [Place.file, attributeModule]
  · exact (hmodules name hname).mono (List.subset_append_left _ _)

theorem registers_own : Registers t (withOwn files scope place a ids nested) place.around
    place.folder (moduleName a.name) (ownRegistration place a) := by
  refine ⟨[], ?_, List.forall_mem_nil _, hasLine_withOwn scope place a ids nested files ?_⟩
  · dsimp only [ownRegistration, Place.modulePath]
  · exact (attributeModule scope place a ids nested.modules).definitionLine_mem_lines _ _

variable {scope place a ids nested files}

/-- The last step: the attribute's own module declares those that are nested in it and defines the
type. -/
theorem linksTree_close (scope : Scope) (ids : TypeIds) {nested : NestedModules}
    (h : LinksNested t place a.toDeclaration g (after, nested)) :
    LinksTree t place a g (close t scope place a ids g.written.length nested after) := by
  obtain ⟨new, hwritten, hlinked, hmodules, hregistrations⟩ := h
  rcases hwrite : after.write t (place.file a.toDeclaration) (ownArtifact scope place a ids nested)
    with ⟨g', _ | e⟩
  · rw [close_of_write_eq_none hwrite]
    obtain ⟨disk, -, rfl⟩ := write_eq_none hwrite
    refine ⟨withOwn new scope place a ids nested, ?_, linked_withOwn _ _ _ _ _ _ hlinked hmodules,
      fun _ => hasModule_withOwn .., fun reg hreg => ?_⟩
    · rw [withOwn, ← List.append_assoc, ← hwritten]
    · rcases List.mem_cons.mp hreg with rfl | hreg
      · exact registers_own ..
      · obtain ⟨name, hname, rest, hpath, hrest, hresolves⟩ := hregistrations reg hreg
        refine ⟨moduleName name :: rest, ?_, List.forall_mem_cons.mpr ⟨⟨name, rfl⟩, hrest⟩,
          hasLine_withOwn _ _ _ _ _ _ ?_, hresolves.mono (List.subset_append_left _ _)⟩
        · rw [hpath, List.append_assoc]
          rfl
        · exact AttributeModule.declarationLine_mem_lines hname
            (Identifier.escape_moduleName name) _ _
  · rw [close_of_write_eq_some hwrite]
    obtain ⟨disk, -, rfl⟩ := write_eq_some hwrite
    obtain ⟨events, hdiscard⟩ := discardFrom_eq (fail { after with disk } a.name e) g.written.length
    rw [hdiscard]
    refine linksTree_of_eq ?_
    show after.written.take _ = _
    rw [hwritten, List.take_left]

theorem Registers.mono {around : List String} {folder : Path} {first : String} {reg : Registration}
    {files' : List WrittenFile} (h : Registers t files around folder first reg)
    (hsub : files ⊆ files') : Registers t files' around folder first reg := by
  obtain ⟨rest, hpath, hrest, hresolves⟩ := h
  exact ⟨rest, hpath, hrest, hresolves.mono hsub⟩

theorem modules_nestedTrees_cons {d : Declaration} {key : String} {child : Attribute}
    {rest : List (String × Attribute)} :
    (nestedTrees t scope place d ((key, child) :: rest) g).2.modules =
      (if (attributeTree t scope (place.below d child.toDeclaration) child g).2.isEmpty then []
        else [moduleName child.name]) ++
        (nestedTrees t scope place d rest
          (attributeTree t scope (place.below d child.toDeclaration) child g).1).2.modules :=
  rfl

theorem treeInvariant_links (t : Target) (scope : Scope) : TreeInvariant t scope
    (LinksTree t) (fun place d _ => LinksNested t place d) where
  unresolved _ := linksTree_of_eq rfl
  taken {place a g ids} _ _ := by
    obtain ⟨failures, events, hgiveUp⟩ := giveUp_eq ((g.reach a).setNumber a.toDeclaration) a
      (place.file a.toDeclaration)
    rw [hgiveUp]
    exact linksTree_of_eq rfl
  claimed {place a g g' ids} _ h hnested := by
    obtain ⟨new, hwritten, hlinks⟩ := linksTree_close scope ids hnested
    obtain ⟨-, rfl⟩ := claim?_eq_some h
    exact ⟨new, hwritten, hlinks⟩
  nil {place d g} := ⟨[], (List.append_nil _).symm, linked_nil, List.forall_mem_nil _,
    List.forall_mem_nil _⟩
  cons {place d key child rest g} hchild hrest := by
    obtain ⟨new, hwritten, hlinked, hmodule, hregs⟩ := hchild
    obtain ⟨new', hwritten', hlinked', hmodules, hregs'⟩ := hrest
    rw [Place.folder_below] at hmodule hregs
    rw [Place.around_below] at hregs
    have hfront := List.subset_append_left new new'
    have hback := List.subset_append_right new new'
    refine ⟨new ++ new', ?_, hlinked.both hlinked', fun name hname => ?_, fun reg hreg => ?_⟩
    · rw [nestedTrees_cons_fst, hwritten', hwritten, List.append_assoc]
    · rw [modules_nestedTrees_cons, List.mem_append] at hname
      rcases hname with hname | hname
      · split at hname
        · cases hname
        · next hsome =>
          rw [List.mem_singleton.mp hname]
          exact (hmodule fun hnil => hsome (List.isEmpty_iff.mpr hnil)).mono hfront
      · exact (hmodules name hname).mono hback
    · rw [modules_nestedTrees_cons]
      rw [registrations_nestedTrees_cons, List.mem_append] at hreg
      rcases hreg with hreg | hreg
      · refine ⟨child.name, List.mem_append_left _ ?_, (hregs reg hreg).mono hfront⟩
        rw [if_neg]
        · exact List.mem_singleton_self _
        · intro hempty
          rw [List.isEmpty_iff.mp hempty] at hreg
          cases hreg
      · obtain ⟨name, hname, hregisters⟩ := hregs' reg hreg
        exact ⟨name, List.mem_append_right _ hname, hregisters.mono hback⟩

end Ways

/-! ### Whole runs -/

/-- What is left of the attributes of a loader: files that are linked, and registrations that resolve
through modules which are registered themselves. -/
theorem links_attributeTrees (t : Target) (scope : Scope) : ∀ (attributes : List Attribute)
    (g : Generation), ∃ new, (attributeTrees t scope attributes g).1.written = g.written ++ new ∧
      Linked t new ∧ ∀ reg ∈ (attributeTrees t scope attributes g).2, ∃ name,
        HasModule new scope.folder (moduleName name) ∧
        Registers t new [] scope.folder (moduleName name) reg ∧
        ∃ own ∈ (attributeTrees t scope attributes g).2, own.path = [moduleName name]
  | [], _ => ⟨[], (List.append_nil _).symm, linked_nil, List.forall_mem_nil _⟩
  | a :: rest, g => by
    obtain ⟨new, hwritten, hlinked, hmodule, hregs⟩ := (treeInvariant_links t scope).attributeTree a
      (.top scope a.toDeclaration) g
    obtain ⟨new', hwritten', hlinked', hregs'⟩ := links_attributeTrees t scope rest
      (attributeTree t scope (.top scope a.toDeclaration) a g).1
    obtain ⟨howned, hnone⟩ := (treeInvariant_obstacle t scope).attributeTree a
      (.top scope a.toDeclaration) g
    have hsplit : (attributeTrees t scope (a :: rest) g).2 =
        (attributeTree t scope (.top scope a.toDeclaration) a g).2 ++
          (attributeTrees t scope rest
            (attributeTree t scope (.top scope a.toDeclaration) a g).1).2 := rfl
    refine ⟨new ++ new', ?_, hlinked.both hlinked', fun reg hreg => ?_⟩
    · rw [← List.append_assoc, ← hwritten, ← hwritten']
      rfl
    · rw [hsplit, List.mem_append] at hreg
      rw [hsplit]
      rcases hreg with hreg | hreg
      · have hsome := List.ne_nil_of_mem hreg
        have hown := howned (by_contra fun hobstacle => hsome (hnone hobstacle))
        exact ⟨a.name, (hmodule hsome).mono (List.subset_append_left _ _),
          (hregs reg hreg).mono (List.subset_append_left _ _), _, List.mem_append_left _ hown, rfl⟩
      · obtain ⟨name, hmodule', hregisters, own, hown, hpath⟩ := hregs' reg hreg
        exact ⟨name, hmodule'.mono (List.subset_append_right _ _),
          hregisters.mono (List.subset_append_right _ _), own, List.mem_append_right _ hown, hpath⟩

/-- A loader is linked with the attributes that it registers. -/
theorem linked_writeLoader {t : Target} {folder : Path} {m : LoaderModule}
    {files : List WrittenFile} (g : Generation) (hlinked : Linked t files)
    (h : ∀ reg ∈ m.registrations, ∃ name, HasModule files folder (moduleName name) ∧
      Registers t files [] folder (moduleName name) reg ∧
      ∃ own ∈ m.registrations, own.path = [moduleName name]) :
    ∃ loaders, (g.writeLoader t folder m).written = g.written ++ loaders ∧
      Linked t (files ++ loaders) := by
  refine ⟨loaderWrites t folder m g, (advance_writeLoader t folder m g).written_eq,
    hlinked.append fun f hf => ?_⟩
  have hsub := List.subset_append_left files (loaderWrites t folder m g)
  obtain rfl := eq_of_mem_loaderWrites hf
  refine ⟨folder, rfl, fun name hname => ?_, fun reg hreg => ?_⟩
  · obtain ⟨reg, hreg, hone⟩ := List.mem_filterMap.mp hname
    obtain ⟨name', hmodule, ⟨rest, hpath, -⟩, -⟩ := h reg hreg
    rw [hpath] at hone
    cases rest with
    | nil =>
      cases hone
      exact hmodule.mono hsub
    | cons next rest => cases hone
  · obtain ⟨name, -, ⟨rest, hpath, hrest, hresolves⟩, own, hown, hownpath⟩ := h reg hreg
    rw [List.nil_append] at hpath
    refine ⟨moduleName name, rest, hpath, ?_, ?_, ?_⟩
    · rw [hpath]
      exact List.forall_mem_cons.mpr ⟨⟨name, rfl⟩, hrest⟩
    · refine LoaderModule.declarationLine_mem_lines ?_ (Identifier.escape_moduleName name) _ _
      refine List.mem_filterMap.mpr ⟨own, hown, ?_⟩
      rw [hownpath]
    · rw [hpath]
      exact hresolves.mono hsub

theorem linked_run (t : Target) {p : Plan} (hp : ∀ regs, (p.loader regs).registrations = regs)
    (g : Generation) : ∃ new, (p.run t g).written = g.written ++ new ∧ Linked t new := by
  obtain ⟨files, hwritten, hlinked, hregs⟩ := links_attributeTrees t p.scope p.attributes g
  have hregistered : ∀ reg ∈ (p.loader (p.registrations t g)).registrations, ∃ name,
      HasModule files p.scope.folder (moduleName name) ∧
      Registers t files [] p.scope.folder (moduleName name) reg ∧
      ∃ own ∈ (p.loader (p.registrations t g)).registrations, own.path = [moduleName name] := by
    rw [hp]
    exact hregs
  obtain ⟨loaders, hloader, hall⟩ := linked_writeLoader (p.trees t g) hlinked hregistered
  refine ⟨files ++ loaders, ?_, hall⟩
  rw [← List.append_assoc, ← hwritten]
  exact hloader

theorem linked_runPlans (t : Target) : ∀ (ps : List Plan) (g : Generation),
    (∀ p ∈ ps, ∀ regs, (p.loader regs).registrations = regs) →
    ∃ new, (runPlans t ps g).written = g.written ++ new ∧ Linked t new
  | [], g, _ => ⟨[], (List.append_nil _).symm, linked_nil⟩
  | p :: rest, g, h => by
    obtain ⟨hp, hrest⟩ := List.forall_mem_cons.mp h
    obtain ⟨new, hwritten, hlinked⟩ := linked_run t hp g
    obtain ⟨new', hwritten', hlinked'⟩ := linked_runPlans t rest (p.run t g) hrest
    refine ⟨new ++ new', ?_, hlinked.both hlinked'⟩
    rw [← List.append_assoc, ← hwritten, ← hwritten']
    rfl

theorem linked_generate (t : Target) (r : Registry) (disk : Disk) :
    Linked t (generate t r disk).written := by
  obtain ⟨new, hwritten, hlinked⟩ := linked_runPlans t (plans t r) (.start disk)
    fun _ hp => registrations_loader hp
  rw [generate_eq]
  show Linked t (runPlans t (plans t r) (.start disk)).written
  rw [hwritten]
  exact hlinked

/-- **Registered paths resolve.** On record with a loader are the modules of all attributes that it
declares. The path of a registration is written as it is, its first module is declared by the
loader and each further one by the file of the modules before it, and the file of the whole path
defines the type. On record with the module of an attribute are all those that it declares. -/
theorem registered_paths_resolve (t : Target) (r : Registry) (disk : Disk) :
    (∀ l ∈ (generate t r disk).written, ∀ m, l.artifact = .loaderModule m →
      ∃ folder : Path, l.path = folder.joinText "mod.rs" ∧
        (∀ name ∈ m.attributeModules, HasModule (generate t r disk).written folder name) ∧
        ∀ reg ∈ m.registrations,
          reg.typePath = "::".intercalate (reg.path ++ [reg.typeName]) ∧
          (∃ first rest, reg.path = first :: rest ∧
            declarationLine first ∈ m.lines t.runtime t.stamp) ∧
          (∀ front next back, reg.path = front ++ next :: back → front ≠ [] →
            HasLine t (generate t r disk).written (moduleFile folder front)
              (declarationLine next)) ∧
          HasLine t (generate t r disk).written (moduleFile folder reg.path)
            (definitionLine reg.typeName)) ∧
    (∀ f ∈ (generate t r disk).written, ∀ m, f.artifact = .attributeModule m →
      ∃ folder : Path, f.path = folder.joinText (moduleName m.subject.name ++ ".rs") ∧
        ∀ name ∈ m.childModules,
          HasModule (generate t r disk).written (folder.joinText (moduleName m.subject.name))
            name) := by
  have hlinked := linked_generate t r disk
  constructor
  · intro l hl m hm
    have h := hlinked l hl
    unfold WrittenFile.IsLinked at h
    rw [hm] at h
    obtain ⟨folder, hpath, hmodules, hregistrations⟩ := h
    refine ⟨folder, hpath, hmodules, fun reg hreg => ?_⟩
    obtain ⟨first, rest, hcons, hnames, hline, hresolves⟩ := hregistrations reg hreg
    refine ⟨?_, ⟨first, rest, hcons, hline⟩, fun front next back hsplit hfront => ?_,
      hresolves.defines⟩
    · rw [Registration.typePath, Identifier.map_escape_moduleNames hnames]
    · rw [hsplit] at hresolves
      exact hresolves.declares hfront
  · intro f hf m hm
    have h := hlinked f hf
    unfold WrittenFile.IsLinked at h
    rw [hm] at h
    exact h

end Generation

end RadiusDictionary
