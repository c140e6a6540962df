import Mathlib.Data.List.Induction
import Mathlib.Data.List.Nodup
import RadiusDictionary.Proofs.Identifier
import RadiusDictionary.Proofs.Source.ModuleTree
import RadiusDictionary.Source.LoaderModule

/-! # The names that a loader declares

A loader declares modules side by side: those of its attributes, those of vendors below it, and
within a module that is written in place those below that one. Its names are apart if no two modules
in one place are declared under one identifier, and none at the top is taken for the library `std`
or for the one that the loader is used with (`LoaderModule.NamesApart`). Vendors' modules can only
clash where `_` stands beside `__` (`ModuleTree.allApart_ofPaths_iff`), and
`LoaderModule.namesApart_iff` says what else there is. -/

namespace RadiusDictionary

namespace ModuleItem

/-- The identifier under which the module is declared. -/
def ident (item : ModuleItem) : String := Identifier.escape item.name

mutual

/-- If the module is written in place, no two in one place within it are declared alike. -/
def Apart : ModuleItem → Prop
  | file _ => True
  | inline _ items => AllApart items

/-- No two of the modules are declared alike, nor two in one place within them. -/
def AllApart : List ModuleItem → Prop
  | [] => True
  | item :: rest => item.ident ∉ rest.map ident ∧ item.Apart ∧ AllApart rest

end

theorem allApart_iff : ∀ items : List ModuleItem,
    AllApart items ↔ (items.map ident).Nodup ∧ ∀ item ∈ items, item.Apart
  | [] => by simp [AllApart]
  | item :: rest => by
    rw [AllApart, allApart_iff rest, List.map_cons, List.nodup_cons, List.forall_mem_cons]
    constructor
    · rintro ⟨hnot, hitem, hnodup, hrest⟩
      exact ⟨⟨hnot, hnodup⟩, hitem, hrest⟩
    · rintro ⟨⟨hnot, hnodup⟩, hitem, hrest⟩
      exact ⟨hnot, hitem, hnodup, hrest⟩

theorem allApart_append (items items' : List ModuleItem) : AllApart (items ++ items') ↔
    AllApart items ∧ AllApart items' ∧ ∀ i ∈ items.map ident, i ∉ items'.map ident := by
  rw [allApart_iff, allApart_iff, allApart_iff, List.map_append, List.nodup_append,
    List.forall_mem_append]
  constructor
  · rintro ⟨⟨hnodup, hnodup', hdisjoint⟩, hapart, hapart'⟩
    exact ⟨⟨hnodup, hapart⟩, ⟨hnodup', hapart'⟩, fun i hi hi' => hdisjoint i hi i hi' rfl⟩
  · rintro ⟨⟨hnodup, hapart⟩, ⟨hnodup', hapart'⟩, hdisjoint⟩
    refine ⟨⟨hnodup, hnodup', ?_⟩, hapart, hapart'⟩
    rintro i hi i' hi' rfl
    exact hdisjoint i hi hi'

theorem allApart_files {names : List String} (h : (names.map Identifier.escape).Nodup) :
    AllApart (names.map .file) := by
  refine (allApart_iff _).mpr ⟨?_, fun item hitem => ?_⟩
  · rw [List.map_map]
    exact h
  · obtain ⟨name, -, rfl⟩ := List.mem_map.mp hitem
    trivial

end ModuleItem

open ModuleItem (AllApart)

namespace ModuleTree

/-- The declaration of a node's module. -/
def item (name : String) (t : ModuleTree) : ModuleItem :=
  if t.isLoader then .file name else .inline name t.items

theorem ident_item (name : String) (t : ModuleTree) :
    (t.item name).ident = Identifier.escape name := by
  unfold item
  split <;> rfl

theorem itemsOf_eq : ∀ entries : List (String × ModuleTree),
    itemsOf entries = entries.map fun e => e.2.item e.1
  | [] => by rw [itemsOf, List.map_nil]
  | (name, t) :: rest => by rw [itemsOf, itemsOf_eq rest, List.map_cons, item]

theorem items_eq (t : ModuleTree) : t.items = t.children.entries.map fun e => e.2.item e.1 := by
  obtain ⟨isLoader, ⟨entries⟩⟩ := t
  rw [items, itemsOf_eq]

theorem map_ident_items (t : ModuleTree) :
    t.items.map ModuleItem.ident = t.children.keys.map Identifier.escape := by
  rw [items_eq, OrderedMap.keys, List.map_map, List.map_map]
  exact List.map_congr_left fun e _ => ident_item e.1 e.2

/-! ### What is written in place -/

/-- The module of a node is written in the file of `t`: there is no other loader on the way. -/
def InPlace (t : ModuleTree) (path : List String) (n : ModuleTree) : Prop :=
  t.node? path = some n ∧ ∀ front, front <+: path → front ≠ [] → t.loaderAt front = false

theorem InPlace.cons {t child n : ModuleTree} {name : String} {path : List String}
    (hchild : t.children.get? name = some child) (hinline : child.isLoader = false)
    (h : child.InPlace path n) : t.InPlace (name :: path) n := by
  obtain ⟨hnode, hfronts⟩ := h
  refine ⟨by rw [node?_cons, hchild]; exact hnode, fun front hfront hne => ?_⟩
  obtain ⟨first, rest, rfl⟩ := List.exists_cons_of_ne_nil hne
  obtain ⟨rfl, hrest⟩ := List.cons_prefix_cons.mp hfront
  rw [loaderAt_cons hchild]
  by_cases hnil : rest = []
  · rw [hnil]
    exact hinline
  · exact hfronts rest hrest hnil

theorem InPlace.tail {t n : ModuleTree} {name : String} {path : List String}
    (h : t.InPlace (name :: path) n) : ∃ child, t.children.get? name = some child ∧
      child.isLoader = false ∧ child.InPlace path n := by
  obtain ⟨hnode, hfronts⟩ := h
  rw [node?_cons] at hnode
  cases hchild : t.children.get? name with
  | none => rw [hchild] at hnode; cases hnode
  | some child =>
    rw [hchild] at hnode
    have hshift : ∀ front, front <+: path → child.loaderAt front = false := by
      intro front hfront
      rw [← loaderAt_cons hchild]
      exact hfronts _ (List.cons_prefix_cons.mpr ⟨rfl, hfront⟩) (List.cons_ne_nil _ _)
    exact ⟨child, rfl, hshift [] List.nil_prefix, hnode, fun front hfront _ => hshift front hfront⟩

/-- Names that are apart are apart at every node that is written in place. -/
theorem nodup_of_allApart : ∀ {path : List String} {t n : ModuleTree}, AllApart t.items →
    t.InPlace path n → (n.children.keys.map Identifier.escape).Nodup
  | [], t, n, h, hplace => by
    cases hplace.1
    rw [← map_ident_items]
    exact ((ModuleItem.allApart_iff _).mp h).1
  | name :: path, t, n, h, hplace => by
    obtain ⟨child, hchild, hinline, hrest⟩ := hplace.tail
    have hitem : child.item name ∈ t.items := by
      rw [items_eq]
      exact List.mem_map.mpr ⟨_, OrderedMap.mem_of_get?_eq_some hchild, rfl⟩
    have hapart := ((ModuleItem.allApart_iff _).mp h).2 _ hitem
    rw [item, hinline, if_neg Bool.false_ne_true, ModuleItem.Apart] at hapart
    exact nodup_of_allApart hapart hrest

mutual

/-- Names that are apart at every node that is written in place are apart. -/
theorem allApart_items : ∀ t : ModuleTree,
    (∀ path n, t.InPlace path n → (n.children.keys.map Identifier.escape).Nodup) → AllApart t.items
  | ⟨isLoader, ⟨entries⟩⟩, h => by
    have hkeys := h [] _ ⟨rfl, fun front hfront hne => absurd (List.prefix_nil.mp hfront) hne⟩
    rw [items]
    refine allApart_itemsOf entries hkeys fun e he hinline path n hplace => ?_
    refine h (e.1 :: path) n (hplace.cons ?_ hinline)
    exact OrderedMap.get?_of_mem_entries (List.Nodup.of_map _ hkeys) he

theorem allApart_itemsOf : ∀ entries : List (String × ModuleTree),
    ((entries.map (·.1)).map Identifier.escape).Nodup →
    (∀ e ∈ entries, e.2.isLoader = false → ∀ path n, e.2.InPlace path n →
      (n.children.keys.map Identifier.escape).Nodup) → AllApart (itemsOf entries)
  | [], _, _ => by rw [itemsOf]; trivial
  | (name, t) :: rest, hkeys, h => by
    obtain ⟨ht, hrest⟩ := List.forall_mem_cons.mp h
    rw [List.map_cons, List.map_cons, List.nodup_cons] at hkeys
    have hidents : (itemsOf rest).map ModuleItem.ident =
        (rest.map (·.1)).map Identifier.escape := map_ident_items ⟨false, ⟨rest⟩⟩
    rw [itemsOf, ← item, AllApart, ident_item, hidents]
    refine ⟨hkeys.1, ?_, allApart_itemsOf rest hkeys.2 hrest⟩
    unfold item
    split
    · trivial
    · next hinline => exact allApart_items t (ht (Bool.not_eq_true _ ▸ hinline))

end

/-- Segments beside each other are written alike only if they are `_` and `__`. -/
theorem nodup_map_escape_iff {names : List String} (hnames : ∀ s ∈ names, Identifier.Segment s)
    (hnodup : names.Nodup) : (names.map Identifier.escape).Nodup ↔ ("_" ∈ names → "__" ∉ names) := by
  constructor
  · intro h hone htwo
    have heq := List.inj_on_of_nodup_map h hone htwo (by decide)
    revert heq
    decide
  · intro h
    refine hnodup.map_on fun s hs s' hs' heq => ?_
    rcases (hnames s hs).eq_of_escape_eq (hnames s' hs') heq with hsame | ⟨rfl, rfl⟩ | ⟨rfl, rfl⟩
    · exact hsame
    · exact absurd hs' (h hs)
    · exact absurd hs (h hs')

/-- Every path goes on from the last loader on it, or from the top. -/
theorem exists_last_loader (paths : List (List String)) (path : List String) :
    ∃ base rest, path = base ++ rest ∧ (base = [] ∨ base ∈ paths) ∧
      ∀ front, front <+: rest → front ≠ [] → base ++ front ∉ paths := by
  induction path using List.reverseRecOn with
  | nil =>
    exact ⟨[], [], rfl, Or.inl rfl,
      fun front hfront hne => absurd (List.prefix_nil.mp hfront) hne⟩
  | append_singleton path name ih =>
    by_cases hmem : path ++ [name] ∈ paths
    · exact ⟨path ++ [name], [], (List.append_nil _).symm, Or.inr hmem,
        fun front hfront hne => absurd (List.prefix_nil.mp hfront) hne⟩
    · obtain ⟨base, rest, rfl, hbase, hfronts⟩ := ih
      refine ⟨base, rest ++ [name], List.append_assoc .., hbase, fun front hfront hne => ?_⟩
      rcases List.prefix_concat_iff.mp hfront with rfl | hfront
      · rwa [List.append_assoc] at hmem
      · exact hfronts front hfront hne

variable {paths : List (List String)} {q : List String} {n : ModuleTree}

/-- Every node is written in place in the file of some loader, or at the top. -/
theorem exists_inPlace (h : (ofPaths paths).node? q = some n) : ∃ base m rest,
    q = base ++ rest ∧ (base = [] ∨ base ∈ paths) ∧ (ofPaths paths).node? base = some m ∧
      m.InPlace rest n := by
  obtain ⟨base, rest, rfl, hbase, hfronts⟩ := exists_last_loader paths q
  rw [node?_append] at h
  obtain ⟨m, hm, hrest⟩ := Option.bind_eq_some_iff.mp h
  refine ⟨base, m, rest, rfl, hbase, hm, hrest, fun front hfront hne => ?_⟩
  have hloader := hfronts front hfront hne
  rw [← loaderAt_ofPaths, Bool.not_eq_true, loaderAt, node?_append, hm] at hloader
  exact hloader

theorem segment_of_mem_keys (hpaths : ∀ path ∈ paths, ∀ s ∈ path, Identifier.Segment s)
    (h : (ofPaths paths).node? q = some n) {s : String} (hs : s ∈ n.children.keys) :
    Identifier.Segment s := by
  obtain ⟨path, hpath, hgoes⟩ := (mem_keys_ofPaths_iff paths h s).mp hs
  exact hpaths path hpath s (hgoes.subset (List.mem_append_right _ (List.mem_singleton_self s)))

/-- The children of a node are written apart unless `_` and `__` follow on its path. -/
theorem nodup_ofPaths_iff (hpaths : ∀ path ∈ paths, ∀ s ∈ path, Identifier.Segment s)
    (h : (ofPaths paths).node? q = some n) : (n.children.keys.map Identifier.escape).Nodup ↔
      ∀ path ∈ paths, ∀ path' ∈ paths, q ++ ["_"] <+: path → ¬ q ++ ["__"] <+: path' := by
  have hkeys := mem_keys_ofPaths_iff paths h
  rw [nodup_map_escape_iff (fun s hs => segment_of_mem_keys hpaths h hs)
    (distinct_ofPaths paths q n h), hkeys, hkeys]
  constructor
  · intro hnot path hpath path' hpath' hone htwo
    exact hnot ⟨path, hpath, hone⟩ ⟨path', hpath', htwo⟩
  · rintro hnot ⟨path, hpath, hone⟩ ⟨path', hpath', htwo⟩
    exact hnot path hpath path' hpath' hone htwo

/-- **Where vendors' modules clash.** In all loaders together, the names of vendors' modules are
apart unless `_` and `__` follow on one path somewhere. -/
theorem allApart_ofPaths_iff (hpaths : ∀ path ∈ paths, ∀ s ∈ path, Identifier.Segment s) :
    (∀ base, base = [] ∨ base ∈ paths → ∀ n, (ofPaths paths).node? base = some n →
      AllApart n.items) ↔
    ∀ q, ∀ path ∈ paths, ∀ path' ∈ paths, q ++ ["_"] <+: path → ¬ q ++ ["__"] <+: path' := by
  constructor
  · intro h q path hpath path' hpath' hone
    have hsome : ((ofPaths paths).node? q).isSome = true :=
      (isSome_node?_ofPaths paths q).mpr
        (Or.inr ⟨path, hpath, (List.prefix_append _ _).trans hone⟩)
    obtain ⟨n, hnode⟩ := Option.isSome_iff_exists.mp hsome
    obtain ⟨base, m, rest, -, hbase, hm, hplace⟩ := exists_inPlace hnode
    have hnodup := nodup_of_allApart (h base hbase m hm) hplace
    exact (nodup_ofPaths_iff hpaths hnode).mp hnodup path hpath path' hpath' hone
  · intro h base _ m hm
    refine allApart_items m fun rest n hplace => ?_
    have hnode : (ofPaths paths).node? (base ++ rest) = some n := by
      rw [node?_append, hm]
      exact hplace.1
    exact (nodup_ofPaths_iff hpaths hnode).mpr (h (base ++ rest))

end ModuleTree

/-! ### A loader -/

/-- The first segment of the path of the runtime. -/
def runtimeHead (runtime : String) : String :=
  .ofList ((Text.piecesAtPair ':' runtime.toList).headD [])

namespace LoaderModule

/-- The identifiers that the loader declares at its top. -/
def idents (m : LoaderModule) : List String := m.items.map ModuleItem.ident

/-- No two modules in one place are declared alike, and none at the top has the name of a library
that the loader imports from. -/
structure NamesApart (runtime : String) (m : LoaderModule) : Prop where
  items : AllApart m.items
  std : "std" ∉ m.idents
  runtime : runtimeHead runtime ∉ m.idents

section Names

variable {m : LoaderModule} {node : ModuleTree}

theorem items_eq (hnode : m.vendorModules = some node) :
    m.items = m.attributeModules.map ModuleItem.file ++ node.items := by
  rw [items, hnode]
  rfl

theorem ident_files (hnames : ∀ name ∈ m.attributeModules, ∃ s, name = moduleName s) :
    (m.attributeModules.map ModuleItem.file).map ModuleItem.ident = m.attributeModules := by
  rw [List.map_map]
  exact Identifier.map_escape_moduleNames hnames

theorem idents_eq (hnode : m.vendorModules = some node)
    (hnames : ∀ name ∈ m.attributeModules, ∃ s, name = moduleName s) :
    m.idents = m.attributeModules ++ node.children.keys.map Identifier.escape := by
  rw [idents, items_eq hnode, List.map_append, ident_files hnames, ModuleTree.map_ident_items]

/-- The modules of a loader are apart if those of vendors are, and none has the name of an
attribute's module. -/
theorem allApart_items_iff (hnode : m.vendorModules = some node) (hnodup : m.attributeModules.Nodup)
    (hnames : ∀ name ∈ m.attributeModules, ∃ s, name = moduleName s)
    (hkeys : ∀ s ∈ node.children.keys, Identifier.Segment s) :
    AllApart m.items ↔
      AllApart node.items ∧ ∀ name ∈ m.attributeModules, name ∉ node.children.keys := by
  have hfiles : AllApart (m.attributeModules.map ModuleItem.file) :=
    ModuleItem.allApart_files ((Identifier.map_escape_moduleNames hnames).symm ▸ hnodup)
  have hmem : ∀ name ∈ m.attributeModules,
      (name ∈ node.children.keys.map Identifier.escape ↔ name ∈ node.children.keys) := by
    intro name hname
    obtain ⟨s, rfl⟩ := hnames name hname
    exact Identifier.Segment.mem_map_escape_iff hkeys (Identifier.segment_moduleName s)
      (Identifier.escape_moduleName s) (Path.moduleName_ne (by decide))
      (Path.moduleName_ne (by decide))
  rw [items_eq hnode, ModuleItem.allApart_append, ident_files hnames, ModuleTree.map_ident_items,
    and_iff_right hfiles]
  exact and_congr_right fun _ => forall₂_congr fun name hname => not_congr (hmem name hname)

/-- **When the names of a loader are apart**, if those of its attributes are. -/
theorem namesApart_iff (runtime : String) (hnode : m.vendorModules = some node)
    (hnodup : m.attributeModules.Nodup)
    (hnames : ∀ name ∈ m.attributeModules, ∃ s, name = moduleName s)
    (hkeys : ∀ s ∈ node.children.keys, Identifier.Segment s) :
    m.NamesApart runtime ↔ AllApart node.items ∧
      (∀ name ∈ m.attributeModules, name ∉ node.children.keys) ∧ "std" ∉ node.children.keys ∧
      runtimeHead runtime ∉ m.attributeModules ∧
      ∀ s ∈ node.children.keys, Identifier.escape s ≠ runtimeHead runtime := by
  have hapart := allApart_items_iff hnode hnodup hnames hkeys
  have hidents := idents_eq hnode hnames
  have hstd : "std" ∈ node.children.keys.map Identifier.escape ↔ "std" ∈ node.children.keys :=
    Identifier.Segment.mem_map_escape_iff hkeys ⟨by decide, by decide⟩ (by decide) (by decide)
      (by decide)
  have hnotstd : "std" ∉ m.attributeModules := by
    intro h
    obtain ⟨s, hs⟩ := hnames _ h
    exact Path.moduleName_ne (by decide) hs.symm
  constructor
  · rintro ⟨hitems, hstd', hruntime⟩
    rw [hidents, List.mem_append, not_or] at hstd' hruntime
    obtain ⟨hnode', hdisjoint⟩ := hapart.mp hitems
    refine ⟨hnode', hdisjoint, fun h => hstd'.2 (hstd.mpr h), hruntime.1, fun s hs heq => ?_⟩
    exact hruntime.2 (List.mem_map.mpr ⟨s, hs, heq⟩)
  · rintro ⟨hnode', hdisjoint, hstd', hhead, hheads⟩
    refine ⟨hapart.mpr ⟨hnode', hdisjoint⟩, ?_, ?_⟩
    · rw [hidents, List.mem_append, not_or]
      exact ⟨hnotstd, fun h => hstd' (hstd.mp h)⟩
    · rw [hidents, List.mem_append, not_or]
      refine ⟨hhead, fun h => ?_⟩
      obtain ⟨s, hs, heq⟩ := List.mem_map.mp h
      exact hheads s hs heq

end Names

end LoaderModule

end RadiusDictionary
