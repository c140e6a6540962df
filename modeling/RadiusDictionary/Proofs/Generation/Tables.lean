import Mathlib.Data.List.Nodup
import Mathlib.Data.List.Perm.Subperm
import RadiusDictionary.Proofs.Generation.Accounts
import RadiusDictionary.Proofs.Generation.Identity
import RadiusDictionary.Proofs.Generation.Registered
import RadiusDictionary.Proofs.TypeCode

/-! # The tables of the loaders

A loader fills two tables with its attributes: one by key, one by the constant `NAME` in their
modules. An entry would replace another of the same key or name, so these have to differ. Keys do
where the numbers of the attributes are bytes that differ, and those nested in one are positive and
differ (`nodup_keys_registrations`): the low byte of a key is the number of the outer attribute, and
what is above is the number of the nested one (`TypeCode.toNat_childKey`). Names differ whatever the
numbers are, in all loaders of a run together (`Reading.nodup_subjectNames`,
`perm_registeredFiles`). -/

namespace RadiusDictionary

/-! ### Keys -/

namespace Attribute

/-- The keys under which an attribute and those nested in it are registered, if nothing fails. -/
def tableKeys (a : Attribute) : List UInt64 :=
  a.number.toUInt64 :: a.nested.map fun e => TypeCode.childKey e.2.number a.number

end Attribute

/-- The numbers of the attributes of a loader are bytes that differ, and those of attributes nested
in one are positive and differ. -/
structure NumbersApart (attributes : List Attribute) : Prop where
  nodup : (attributes.map fun a => a.number).Nodup
  byte : ∀ a ∈ attributes, a.number ≤ TypeCode.maxWireType
  nested_pos : ∀ a ∈ attributes, ∀ e ∈ a.nested, 1 ≤ e.2.number
  nested_nodup : ∀ a ∈ attributes, (a.nested.map fun e => e.2.number).Nodup

section Numbers

variable {a : Attribute} {key : UInt64}

/-- The low byte of a key is the number of the outer attribute. -/
theorem Attribute.mod_of_mem_tableKeys (hbyte : a.number ≤ TypeCode.maxWireType)
    (h : key ∈ a.tableKeys) : key.toNat % 256 = a.number.toNat := by
  have hlt : a.number.toNat ≤ 255 := hbyte
  rcases List.mem_cons.mp h with rfl | h
  · rw [UInt32.toNat_toUInt64]
    omega
  · obtain ⟨e, -, rfl⟩ := List.mem_map.mp h
    rw [TypeCode.toNat_childKey]
    omega

theorem Attribute.nodup_tableKeys (hbyte : a.number ≤ TypeCode.maxWireType)
    (hpos : ∀ e ∈ a.nested, 1 ≤ e.2.number)
    (hnested : (a.nested.map fun e => e.2.number).Nodup) : a.tableKeys.Nodup := by
  have hlt : a.number.toNat ≤ 255 := hbyte
  refine List.nodup_cons.mpr ⟨fun hmem => ?_, ?_⟩
  · obtain ⟨e, he, heq⟩ := List.mem_map.mp hmem
    have hone : 1 ≤ e.2.number.toNat := hpos e he
    have hnat := congrArg UInt64.toNat heq
    rw [TypeCode.toNat_childKey, UInt32.toNat_toUInt64] at hnat
    omega
  · have hkeys : a.nested.map (fun e => TypeCode.childKey e.2.number a.number) =
        (a.nested.map fun e => e.2.number).map fun n => TypeCode.childKey n a.number := by
      rw [List.map_map]
      rfl
    rw [hkeys]
    refine hnested.map fun n n' heq => ?_
    have hnat := congrArg UInt64.toNat heq
    rw [TypeCode.toNat_childKey, TypeCode.toNat_childKey] at hnat
    exact UInt32.toNat_inj.mp (by omega)

/-- **Numbers that are apart make keys that differ.** -/
theorem NumbersApart.nodup_keys {attributes : List Attribute} (h : NumbersApart attributes) :
    (attributes.flatMap Attribute.tableKeys).Nodup := by
  refine List.nodup_flatMap.mpr ⟨fun a ha => Attribute.nodup_tableKeys (h.byte a ha)
    (h.nested_pos a ha) (h.nested_nodup a ha), ?_⟩
  refine (List.pairwise_map.mp h.nodup).imp_of_mem fun {a a'} ha ha' hne key hkey hkey' => hne ?_
  refine UInt32.toNat_inj.mp ?_
  rw [← Attribute.mod_of_mem_tableKeys (h.byte a ha) hkey,
    ← Attribute.mod_of_mem_tableKeys (h.byte a' ha') hkey']

end Numbers

namespace Generation

/-! ### The keys of registrations -/

/-- What is registered has its key: what fails is left out. -/
theorem treeInvariant_keys (t : Target) (scope : Scope) : TreeInvariant t scope
    (fun place a _ r => (∀ e ∈ a.nested, e.2.nested = []) → (r.2.map (·.key)).Sublist
      (place.key :: a.nested.map fun e => TypeCode.childKey e.2.number a.number))
    (fun _ d entries _ r => (∀ e ∈ entries, e.2.nested = []) →
      (r.2.registrations.map (·.key)).Sublist
        (entries.map fun e => TypeCode.childKey e.2.number d.number)) where
  unresolved _ _ := List.nil_sublist _
  taken _ _ _ := List.nil_sublist _
  claimed {place a g g' ids} _ _ hnested hbare := by
    rcases hwrite : (nestedTrees t scope place a.toDeclaration a.nested g').1.write t
      (place.file a.toDeclaration) (ownArtifact scope place a ids
        (nestedTrees t scope place a.toDeclaration a.nested g').2) with ⟨after, _ | e⟩
    · rw [close_of_write_eq_none hwrite]
      exact (hnested hbare).cons_cons _
    · rw [close_of_write_eq_some hwrite]
      exact List.nil_sublist _
  nil _ := List.Sublist.refl _
  cons {place d key child rest g} hchild hrest hbare := by
    obtain ⟨hc, hbare⟩ := List.forall_mem_cons.mp hbare
    dsimp only at hc
    have hown := hchild (by rw [hc]; exact List.forall_mem_nil _)
    rw [hc] at hown
    rw [registrations_nestedTrees_cons, List.map_append, List.map_cons]
    exact hown.append (hrest hbare)

theorem keys_attributeTrees (t : Target) (scope : Scope) : ∀ (attributes : List Attribute)
    (g : Generation), (∀ a ∈ attributes, ∀ e ∈ a.nested, e.2.nested = []) →
      ((attributeTrees t scope attributes g).2.map (·.key)).Sublist
        (attributes.flatMap Attribute.tableKeys)
  | [], _, _ => List.Sublist.refl _
  | a :: rest, g, hbare => by
    obtain ⟨ha, hrest⟩ := List.forall_mem_cons.mp hbare
    have hown := (treeInvariant_keys t scope).attributeTree a (.top scope a.toDeclaration) g ha
    show ((_ ++ _ : List Registration).map (·.key)).Sublist _
    rw [List.map_append, List.flatMap_cons]
    exact hown.append (keys_attributeTrees t scope rest _ hrest)

/-- **The keys of a loader differ** where the numbers of its attributes are apart. -/
theorem nodup_keys_registrations {p : Plan} {owner : Option String} (hp : p.Sound owner)
    (hnumbers : NumbersApart p.attributes) (t : Target) (g : Generation) :
    ((p.registrations t g).map (·.key)).Nodup :=
  hnumbers.nodup_keys.sublist
    (keys_attributeTrees t p.scope p.attributes g fun a ha e he => ((hp.owned a ha).2 e he).2)

end Generation

/-! ### The names of modules on record -/

namespace Account

mutual

/-- The modules that are left of an attribute are among what was declared. -/
theorem subperm_files : ∀ (x : Account) (place : Place), x.Complete →
    (((x.files place).filterMap (·.2)).map fun a => a.toDeclaration).Subperm
      (x.subject.toDeclaration :: x.subject.declaredBelow.map (·.2))
  | ⟨a, some e, nested⟩, place, _ => by
    rw [files]
    exact (List.nil_sublist _).subperm
  | ⟨a, none, nested⟩, place, hcomplete => by
    have hnested := subperm_filesAll nested place a.toDeclaration a.nested hcomplete.2 hcomplete.1
    rw [files, List.filterMap_append, List.map_append, Attribute.declaredBelow_eq]
    exact (List.perm_append_singleton _ _).subperm.trans ((List.subperm_cons _).mpr hnested)

theorem subperm_filesAll : ∀ (xs : List Account) (place : Place) (d : Declaration)
    (entries : List (String × Attribute)), CompleteAll xs →
    xs.map subject = entries.map (·.2) →
    (((filesAll place d xs).filterMap (·.2)).map fun a => a.toDeclaration).Subperm
      ((Attribute.declaredIn entries).map (·.2))
  | [], _, _, _, _, _ => (List.nil_sublist _).subperm
  | x :: xs, place, d, (key, a) :: entries, hcomplete, hsubjects => by
    obtain ⟨rfl, hrest⟩ := List.cons.inj hsubjects
    rw [filesAll, List.filterMap_append, List.map_append, Attribute.declaredIn_cons, List.map_cons,
      List.map_append, ← List.cons_append]
    exact (subperm_files x _ hcomplete.1).append
      (subperm_filesAll xs place d entries hcomplete.2 hrest)

end

/-- So are those that are left of several attributes, wherever they stand. -/
theorem subperm_flatMap_files (place : Account → Place) : ∀ (xs : List Account)
    (entries : List (String × Attribute)), CompleteAll xs → xs.map subject = entries.map (·.2) →
    (((xs.flatMap fun x => x.files (place x)).filterMap (·.2)).map
      fun a => a.toDeclaration).Subperm ((Attribute.declaredIn entries).map (·.2))
  | [], _, _, _ => (List.nil_sublist _).subperm
  | x :: xs, (key, a) :: entries, hcomplete, hsubjects => by
    obtain ⟨rfl, hrest⟩ := List.cons.inj hsubjects
    rw [List.flatMap_cons, List.filterMap_append, List.map_append, Attribute.declaredIn_cons,
      List.map_cons, List.map_append, ← List.cons_append]
    exact (subperm_files x _ hcomplete.1).append
      (subperm_flatMap_files place xs entries hcomplete.2 hrest)

end Account

/-- The maps whose attributes the plans generate, in the order of the plans. -/
def Registry.maps (r : Registry) : List AttributeMap :=
  r.attributes :: r.vendors.values.map (·.attributes)

theorem Registry.declared_eq (r : Registry) :
    r.declared = r.maps.flatMap fun m => Attribute.declaredIn m.entries := by
  rw [declared, maps, List.flatMap_cons, List.flatMap_map]

theorem map_attributes_plans (t : Target) (r : Registry) :
    (plans t r).map (·.attributes) = r.maps.map (·.values) := by
  rw [plans, Registry.maps, List.map_cons, List.map_cons, List.map_map, List.map_map]
  rfl

/-- The modules that are left of all loaders are among what was declared. -/
theorem LoaderAccount.subperm_files : ∀ (xs : List LoaderAccount) (maps : List AttributeMap),
    (∀ x ∈ xs, x.Complete) → (xs.map (·.plan)).map (·.attributes) = maps.map (·.values) →
    (((xs.flatMap files).filterMap (·.2)).map fun a => a.toDeclaration).Subperm
      ((maps.flatMap fun m => Attribute.declaredIn m.entries).map (·.2))
  | [], _, _, _ => (List.nil_sublist _).subperm
  | x :: xs, m :: maps, hcomplete, hplans => by
    obtain ⟨hx, hrest⟩ := List.forall_mem_cons.mp hcomplete
    obtain ⟨hplan, hplans⟩ := List.cons.inj hplans
    have hown := Account.subperm_flatMap_files
      (fun y => .top x.plan.scope y.subject.toDeclaration) x.attributes m.entries hx.2
      (hx.1.trans hplan)
    have hfiles : x.files.filterMap (·.2) = (x.attributes.flatMap fun y =>
        y.files (.top x.plan.scope y.subject.toDeclaration)).filterMap (·.2) := by
      rw [files, List.filterMap_append]
      split
      · exact List.append_nil _
      · exact List.append_nil _
    rw [List.flatMap_cons, List.flatMap_cons, List.filterMap_append, List.map_append,
      List.map_append, hfiles]
    exact hown.append (subperm_files xs maps hrest hplans)

/-- **The modules on record have different names**, also up to case. -/
theorem Reading.nodup_subjectNames (r : Reading) (t : Target) (disk : Disk) :
    (((generate t r.registry disk).written.filterMap fun f =>
      f.artifact.subjectName?).map Text.lowercase).Nodup := by
  obtain ⟨hplans, hcomplete, hwritten, -⟩ := Generation.accounts_generate t r.registry disk
  have hsubperm := LoaderAccount.subperm_files (Generation.accounts t r.registry disk)
    r.registry.maps hcomplete (by rw [hplans]; exact map_attributes_plans t r.registry)
  rw [← hwritten, ← Registry.declared_eq] at hsubperm
  have hnames : ((generate t r.registry disk).written.filterMap fun f =>
      f.artifact.subjectName?).map Text.lowercase =
      ((((generate t r.registry disk).written.map WrittenFile.origin).filterMap (·.2)).map
        fun a => a.toDeclaration).map fun d => Text.lowercase d.name := by
    rw [List.filterMap_map, List.map_map, List.map_filterMap, List.map_filterMap]
    refine List.filterMap_congr fun f _ => ?_
    obtain ⟨path, m | m⟩ := f
    · rfl
    · rfl
  have hdeclared : (r.registry.declared.map fun e => Text.lowercase e.2.name) =
      (r.registry.declared.map (·.2)).map fun d => Text.lowercase d.name := by
    rw [List.map_map]
    rfl
  have hnodup := r.nodup_declaredNames
  rw [hdeclared] at hnodup
  rw [hnames]
  obtain ⟨names, hperm, hsublist⟩ := hsubperm
  exact (hperm.map _).nodup_iff.mp (hnodup.sublist (hsublist.map _))

namespace Generation

/-! ### The names that loaders register -/

/-- The constant `NAME` in the file at a path: the name of the attribute whose module it is. -/
def nameAt? (g : Generation) (path : Path) : Option String :=
  (g.written.find? fun f => f.path.key = path.key).bind fun f => f.artifact.subjectName?

theorem nameAt?_of_mem {g : Generation} (hkeys : (g.written.map fun f => f.path.key).Nodup)
    {f : WrittenFile} (hf : f ∈ g.written) : g.nameAt? f.path = f.artifact.subjectName? := by
  have hfind : g.written.find? (fun other => other.path.key = f.path.key) = some f := by
    cases h : g.written.find? fun other => other.path.key = f.path.key with
    | none =>
      have hnot := List.find?_eq_none.mp h f hf
      exact absurd (decide_eq_true rfl) hnot
    | some other =>
      have hkey : other.path.key = f.path.key := by simpa using List.find?_some h
      rw [List.inj_on_of_nodup_map hkeys (List.mem_of_find?_eq_some h) hf hkey]
  rw [nameAt?, hfind, Option.bind_some]

/-- The files of the modules that the loaders of some plans register, loader by loader. -/
def registeredFiles (t : Target) : List Plan → Generation → List Path
  | [], _ => []
  | p :: rest, g =>
    (p.registrations t g).map (·.file p.scope.folder) ++ registeredFiles t rest (p.run t g)

/-- **What is registered is on record**, one module for each registration. -/
theorem perm_registeredFiles (t : Target) : ∀ (ps : List Plan) (g : Generation),
    (∀ p ∈ ps, ∃ owner, p.Sound owner) → ∃ files : List WrittenFile,
      (g.written ++ files).Sublist (runPlans t ps g).written ∧
      (files.map (·.path)).Perm (registeredFiles t ps g) ∧
      ∀ f ∈ files, f.artifact.subjectName?.isSome = true
  | [], g, _ => ⟨[], by rw [List.append_nil]; rfl, List.Perm.refl _, List.forall_mem_nil _⟩
  | p :: rest, g, hsound => by
    obtain ⟨⟨owner, hp⟩, hrest⟩ := List.forall_mem_cons.mp hsound
    obtain ⟨files, hadvance, hperm⟩ := agrees_scopeWrites t p.scope p.attributes g
    obtain ⟨files', hwritten, henlisted⟩ :=
      enlisted_attributeTrees t p.scope owner p.attributes g hp.owned
    obtain rfl : files = files' := List.append_cancel_left (hadvance.written_eq.symm.trans hwritten)
    obtain ⟨later, hsublist, hlater, hnamed⟩ := perm_registeredFiles t rest (p.run t g) hrest
    have hloader := (advance_writeLoader t p.scope.folder (p.loader (p.registrations t g))
      (p.trees t g)).written_eq
    refine ⟨files ++ later, ?_, ?_, fun f hf => ?_⟩
    · refine List.Sublist.trans ?_ hsublist
      rw [← List.append_assoc, ← hwritten]
      refine List.Sublist.append_right ?_ later
      show (p.trees t g).written.Sublist (p.run t g).written
      rw [Plan.run, hloader]
      exact List.sublist_append_left _ _
    · rw [registeredFiles, List.map_append]
      exact hperm.append hlater
    · rcases List.mem_append.mp hf with hf | hf
      · obtain ⟨m, hm, -⟩ := henlisted.exists_registration hf
        rw [hm]
        rfl
      · exact hnamed f hf

end Generation

/-- **No entry of a table replaces another.** A loader whose attributes have numbers that are apart
registers them under different keys. Whatever the numbers are, every registration of every loader
has the constant `NAME` of a module on record, and no two of them have the same. -/
theorem Reading.tables_apart (r : Reading) (t : Target) (disk : Disk) :
    (∀ front p back, plans t r.registry = front ++ p :: back → NumbersApart p.attributes →
      ((p.loader (p.registrations t (runPlans t front (.start disk)))).registrations.map
        (·.key)).Nodup) ∧
    (∀ path ∈ Generation.registeredFiles t (plans t r.registry) (.start disk),
      ∃ name, (generate t r.registry disk).nameAt? path = some name) ∧
    ((Generation.registeredFiles t (plans t r.registry) (.start disk)).map
      (generate t r.registry disk).nameAt?).Nodup := by
  have hsound := r.wellFormed.sound_plans t
  refine ⟨fun front p back hplans hnumbers => ?_, ?_⟩
  · have hp : p ∈ plans t r.registry := by
      rw [hplans]
      exact List.mem_append_right _ List.mem_cons_self
    obtain ⟨owner, hp⟩ := hsound p hp
    rw [hp.registrations]
    exact Generation.nodup_keys_registrations hp hnumbers t _
  · obtain ⟨files, hsublist, hperm, hnamed⟩ :=
      Generation.perm_registeredFiles t (plans t r.registry) (.start disk) hsound
    have hkeys := (Generation.advance_generate t r.registry disk).nodup
    have hnames := List.Nodup.of_map _ (r.nodup_subjectNames t disk)
    have hwritten : files.Sublist (generate t r.registry disk).written := by
      rw [generate_eq]
      exact hsublist
    have hname : ∀ f ∈ files, (generate t r.registry disk).nameAt? f.path =
        f.artifact.subjectName? := fun f hf =>
      Generation.nameAt?_of_mem hkeys (hwritten.subset hf)
    constructor
    · intro path hpath
      obtain ⟨f, hf, rfl⟩ := List.mem_map.mp (hperm.mem_iff.mpr hpath)
      rw [hname f hf]
      exact Option.isSome_iff_exists.mp (hnamed f hf)
    · have hfound : (files.map (·.path)).map (generate t r.registry disk).nameAt? =
          (files.filterMap fun f => f.artifact.subjectName?).map some := by
        rw [List.map_filterMap_some_eq_filter_map_isSome, List.map_map, List.filter_eq_self.mpr]
        · exact List.map_congr_left hname
        · intro name hmem
          obtain ⟨f, hf, rfl⟩ := List.mem_map.mp hmem
          exact hnamed f hf
      refine (hperm.map _).nodup_iff.mp ?_
      rw [hfound]
      exact (hnames.sublist (hwritten.filterMap _)).map fun _ _ => Option.some.inj

/-- The root loader registers `Foo-Bar` and the two attributes nested in it under three keys. -/
theorem Reading.tables_apart_of_nested :
    NumbersApart (Plan.root default namesakeReading.registry).attributes ∧
    ((Plan.root default namesakeReading.registry).registrations default (.start .empty)).map
      (·.key) = [5, 0x705, 0x105] ∧
    (((Plan.root default namesakeReading.registry).registrations default (.start .empty)).map
      (·.key)).Nodup := by
  have hnumbers : NumbersApart (Plan.root default namesakeReading.registry).attributes := by
    rw [registry_namesakeReading]
    exact ⟨by decide +kernel, by decide +kernel, by decide +kernel, by decide +kernel⟩
  refine ⟨hnumbers, ?_, ?_⟩
  · rw [registry_namesakeReading]
    decide +kernel
  · have hkeys := (namesakeReading.tables_apart default .empty).1 [] (.root default _) _ rfl
      hnumbers
    rw [registrations_loader (r := namesakeReading.registry) List.mem_cons_self] at hkeys
    exact hkeys

end RadiusDictionary
