import Mathlib.Data.List.Nodup
import RadiusDictionary.Proofs.OrderedMap
import RadiusDictionary.Source.ModuleTree

/-! # The nodes of a module tree

A tree of modules is seen through `node?`: the tree of some paths has a node where one of the paths
goes on, and a loader where one ends (`isSome_node?_ofPaths`, `loaderAt_ofPaths`). No node has two
children of one name (`distinct_ofPaths`). Paths in another order make the same tree with siblings
in another order (`reordered_ofPaths`). -/

namespace RadiusDictionary.ModuleTree

/-! ### Following a path -/

theorem node?_cons (name : String) (path : List String) (t : ModuleTree) :
    node? (name :: path) t = (t.children.get? name).bind (node? path) := by
  rw [node?]
  cases t.children.get? name <;> rfl

theorem node?_append : ∀ (path path' : List String) (t : ModuleTree),
    node? (path ++ path') t = (node? path t).bind (node? path')
  | [], _, _ => rfl
  | name :: path, path', t => by
    rw [List.cons_append, node?_cons, node?_cons]
    cases t.children.get? name with
    | none => rfl
    | some child => exact node?_append path path' child

/-- Whether a loader is at the end of a path. -/
def loaderAt (t : ModuleTree) (path : List String) : Bool := (t.node? path).any (·.isLoader)

theorem loaderAt_cons {name : String} {t child : ModuleTree} (h : t.children.get? name = some child)
    (path : List String) : t.loaderAt (name :: path) = child.loaderAt path := by
  rw [loaderAt, loaderAt, node?_cons, h]
  rfl

/-- The children of a node are the nodes one step further. -/
theorem mem_keys_iff {t n : ModuleTree} {path : List String} (h : t.node? path = some n)
    (name : String) : name ∈ n.children.keys ↔ (t.node? (path ++ [name])).isSome = true := by
  rw [node?_append, h, ← OrderedMap.contains_iff_mem_keys, OrderedMap.contains]
  show _ ↔ (node? [name] n).isSome = true
  rw [node?_cons]
  cases n.children.get? name with
  | none => rfl
  | some child => rfl

theorem isSome_node?_empty (path : List String) :
    (empty.node? path).isSome = true ↔ path = [] := by
  cases path with
  | nil => simp [node?]
  | cons name path => simp [node?, empty]

/-! ### Inserting a path -/

/-- What lies at the start of a path that is inserted. -/
def childOrEmpty (t : ModuleTree) (name : String) : ModuleTree :=
  (t.children.get? name).getD empty

theorem isSome_node?_childOrEmpty (t : ModuleTree) (name : String) (path : List String) :
    ((t.childOrEmpty name).node? path).isSome = true ↔
      path = [] ∨ (t.node? (name :: path)).isSome = true := by
  rw [node?_cons, childOrEmpty]
  cases t.children.get? name with
  | none =>
    rw [Option.getD_none, isSome_node?_empty]
    simp
  | some child =>
    rw [Option.getD_some, Option.bind_some]
    refine ⟨Or.inr, ?_⟩
    rintro (rfl | h)
    · rfl
    · exact h

theorem get?_children_insert (name : String) (path : List String) (t : ModuleTree) (k : String) :
    (insert (name :: path) t).children.get? k =
      if name = k then some (insert path (t.childOrEmpty name)) else t.children.get? k := by
  rw [insert]
  exact OrderedMap.get?_insert ..

/-- Inserting a path makes all nodes on the way. -/
theorem isSome_node?_insert : ∀ (path q : List String) (t : ModuleTree),
    ((insert path t).node? q).isSome = true ↔ q <+: path ∨ (t.node? q).isSome = true
  | path, [], t => by simp [node?]
  | [], name :: q, t => by
    rw [insert, node?_cons, node?_cons]
    simp
  | start :: path, name :: q, t => by
    rw [node?_cons, get?_children_insert]
    by_cases hname : start = name
    · subst hname
      rw [if_pos rfl, Option.bind_some, isSome_node?_insert path q, isSome_node?_childOrEmpty,
        List.cons_prefix_cons]
      constructor
      · rintro (h | rfl | h)
        · exact Or.inl ⟨rfl, h⟩
        · exact Or.inl ⟨rfl, List.nil_prefix⟩
        · exact Or.inr h
      · rintro (⟨-, h⟩ | h)
        · exact Or.inl h
        · exact Or.inr (Or.inr h)
    · rw [if_neg hname, ← node?_cons, List.cons_prefix_cons]
      simp [Ne.symm hname]

theorem loaderAt_childOrEmpty (t : ModuleTree) (name : String) (path : List String) :
    (t.childOrEmpty name).loaderAt path = t.loaderAt (name :: path) := by
  cases h : t.children.get? name with
  | none =>
    rw [childOrEmpty, h, Option.getD_none]
    cases path with
    | nil => simp [loaderAt, h, node?, empty]
    | cons next path => simp [loaderAt, node?_cons, h, empty]
  | some child =>
    rw [loaderAt_cons h, childOrEmpty, h]
    rfl

/-- Inserting a path makes one loader. -/
theorem loaderAt_insert : ∀ (path q : List String) (t : ModuleTree),
    (insert path t).loaderAt q = true ↔ q = path ∨ t.loaderAt q = true
  | [], [], t => by simp [loaderAt, node?, insert]
  | [], name :: q, t => by
    rw [insert, loaderAt, loaderAt, node?_cons, node?_cons]
    simp
  | start :: path, [], t => by simp [loaderAt, node?, insert]
  | start :: path, name :: q, t => by
    by_cases hname : start = name
    · subst hname
      have hchild : (insert (start :: path) t).children.get? start =
          some (insert path (t.childOrEmpty start)) := by
        rw [get?_children_insert, if_pos rfl]
      rw [loaderAt_cons hchild, loaderAt_insert path q, loaderAt_childOrEmpty]
      simp
    · rw [loaderAt, loaderAt, node?_cons, get?_children_insert, if_neg hname, ← node?_cons]
      simp [Ne.symm hname]

/-- No node of the tree has two children of one name. -/
def Distinct (t : ModuleTree) : Prop :=
  ∀ path n, t.node? path = some n → n.children.keys.Nodup

theorem distinct_empty : Distinct empty := by
  intro path n h
  have hnil : path = [] := (isSome_node?_empty path).mp (by rw [h]; rfl)
  subst hnil
  cases h
  exact List.nodup_nil

theorem Distinct.childOrEmpty {t : ModuleTree} (h : t.Distinct) (name : String) :
    (t.childOrEmpty name).Distinct := by
  unfold ModuleTree.childOrEmpty
  cases hchild : t.children.get? name with
  | none => exact distinct_empty
  | some child =>
    refine fun path n hn => h (name :: path) n ?_
    rw [node?_cons, hchild]
    exact hn

theorem Distinct.insert : ∀ (path : List String) {t : ModuleTree}, t.Distinct →
    (insert path t).Distinct
  | [], t, h, [], n, hn => by
    cases hn
    exact h [] t rfl
  | [], t, h, name :: q, n, hn => by
    refine h (name :: q) n ?_
    rw [← hn, ModuleTree.insert, node?_cons, node?_cons]
  | start :: path, t, h, [], n, hn => by
    cases hn
    rw [ModuleTree.insert]
    exact OrderedMap.nodup_keys_insert (h [] t rfl) _ _
  | start :: path, t, h, name :: q, n, hn => by
    rw [node?_cons, get?_children_insert] at hn
    by_cases hname : start = name
    · rw [if_pos hname] at hn
      exact Distinct.insert path (h.childOrEmpty start) q n hn
    · rw [if_neg hname, ← node?_cons] at hn
      exact h (name :: q) n hn

/-! ### The tree of some paths -/

theorem isSome_node?_foldl : ∀ (paths : List (List String)) (t : ModuleTree) (q : List String),
    ((paths.foldl (fun t path => t.insert path) t).node? q).isSome = true ↔
      (∃ path ∈ paths, q <+: path) ∨ (t.node? q).isSome = true
  | [], t, q => by simp
  | path :: paths, t, q => by
    rw [List.foldl_cons, isSome_node?_foldl paths, isSome_node?_insert]
    simp only [List.mem_cons, exists_eq_or_imp]
    exact or_left_comm.trans or_assoc.symm

theorem loaderAt_foldl : ∀ (paths : List (List String)) (t : ModuleTree) (q : List String),
    (paths.foldl (fun t path => t.insert path) t).loaderAt q = true ↔
      q ∈ paths ∨ t.loaderAt q = true
  | [], t, q => by simp
  | path :: paths, t, q => by
    rw [List.foldl_cons, loaderAt_foldl paths, loaderAt_insert, List.mem_cons]
    exact or_left_comm.trans or_assoc.symm

theorem distinct_foldl : ∀ (paths : List (List String)) {t : ModuleTree}, t.Distinct →
    (paths.foldl (fun t path => t.insert path) t).Distinct
  | [], _, h => h
  | path :: paths, _, h => distinct_foldl paths (h.insert path)

variable (paths : List (List String))

/-- **A node is where a path goes on.** -/
theorem isSome_node?_ofPaths (q : List String) :
    ((ofPaths paths).node? q).isSome = true ↔ q = [] ∨ ∃ path ∈ paths, q <+: path := by
  rw [ofPaths, isSome_node?_foldl, isSome_node?_empty, or_comm]

/-- The children of a node are the segments with which a path goes on. -/
theorem mem_keys_ofPaths_iff {q : List String} {n : ModuleTree}
    (h : (ofPaths paths).node? q = some n) (s : String) :
    s ∈ n.children.keys ↔ ∃ path ∈ paths, q ++ [s] <+: path := by
  rw [mem_keys_iff h, isSome_node?_ofPaths]
  simp

/-- **A loader is where a path ends.** -/
theorem loaderAt_ofPaths (q : List String) : (ofPaths paths).loaderAt q = true ↔ q ∈ paths := by
  have hempty : empty.loaderAt q = false := by
    cases q <;> simp [loaderAt, node?, empty]
  rw [ofPaths, loaderAt_foldl, hempty]
  simp

theorem distinct_ofPaths : (ofPaths paths).Distinct := distinct_foldl paths distinct_empty

/-! ### The order of siblings -/

mutual

/-- The trees differ at most in the order of siblings. -/
inductive Reordered : ModuleTree → ModuleTree → Prop where
  | node {isLoader : Bool} {entries entries' sorted : List (String × ModuleTree)} :
      ReorderedBelow entries sorted → sorted.Perm entries' →
      Reordered ⟨isLoader, ⟨entries⟩⟩ ⟨isLoader, ⟨entries'⟩⟩

/-- The nodes have the same names one by one, and below them only siblings are in another order. -/
inductive ReorderedBelow : List (String × ModuleTree) → List (String × ModuleTree) → Prop where
  | nil : ReorderedBelow [] []
  | cons {name : String} {t t' : ModuleTree} {entries entries' : List (String × ModuleTree)} :
      Reordered t t' → ReorderedBelow entries entries' →
      ReorderedBelow ((name, t) :: entries) ((name, t') :: entries')

end

/-- The trees have the same nodes and the same loaders. -/
structure Alike (t t' : ModuleTree) : Prop where
  nodes : ∀ q, (t.node? q).isSome = true ↔ (t'.node? q).isSome = true
  loaders : ∀ q, t.loaderAt q = t'.loaderAt q

theorem Alike.child {t t' child child' : ModuleTree} (h : t.Alike t') {name : String}
    (hchild : t.children.get? name = some child) (hchild' : t'.children.get? name = some child') :
    child.Alike child' := by
  refine ⟨fun q => ?_, fun q => ?_⟩
  · have hnode := h.nodes (name :: q)
    rw [node?_cons, node?_cons, hchild, hchild'] at hnode
    exact hnode
  · rw [← loaderAt_cons hchild, ← loaderAt_cons hchild', h.loaders]

theorem Alike.mem_keys_iff {t t' : ModuleTree} (h : t.Alike t') (name : String) :
    name ∈ t.children.keys ↔ name ∈ t'.children.keys := by
  have hroot : ∀ n : ModuleTree, n.node? [] = some n := fun _ => rfl
  rw [ModuleTree.mem_keys_iff (hroot t), ModuleTree.mem_keys_iff (hroot t')]
  exact h.nodes [name]

theorem Distinct.child {t child : ModuleTree} (ht : t.Distinct) {name : String}
    (hchild : t.children.get? name = some child) : child.Distinct := by
  refine fun q n hn => ht (name :: q) n ?_
  rw [node?_cons, hchild]
  exact hn

/-- The entries of `m` in the order of the names. -/
def entriesAt (m : OrderedMap String ModuleTree) (names : List String) :
    List (String × ModuleTree) :=
  names.map fun name => (name, (m.get? name).getD empty)

theorem entriesAt_perm {m : OrderedMap String ModuleTree} (hm : m.keys.Nodup) {names : List String}
    (hnames : names.Nodup) (h : ∀ name, name ∈ names ↔ name ∈ m.keys) :
    (entriesAt m names).Perm m.entries := by
  have hsorted : (entriesAt m names).Nodup := by
    refine List.Nodup.of_map Prod.fst ?_
    rw [entriesAt, List.map_map]
    exact (List.map_id names).symm ▸ hnames
  refine (List.perm_ext_iff_of_nodup hsorted (List.Nodup.of_map _ hm)).mpr fun e => ?_
  rw [entriesAt, List.mem_map]
  constructor
  · rintro ⟨name, hname, rfl⟩
    have hcontains := OrderedMap.contains_iff_mem_keys.mpr ((h name).mp hname)
    obtain ⟨t, ht⟩ := Option.isSome_iff_exists.mp hcontains
    rw [ht]
    exact OrderedMap.mem_of_get?_eq_some ht
  · intro he
    refine ⟨e.1, (h e.1).mpr (List.mem_map_of_mem he), ?_⟩
    rw [OrderedMap.get?_of_mem_entries hm he]
    rfl

mutual

/-- Trees with the same nodes and loaders differ in the order of siblings only. -/
theorem reordered_of_alike : ∀ {t t' : ModuleTree}, t.Distinct → t'.Distinct → t.Alike t' →
    Reordered t t'
  | ⟨isLoader, ⟨entries⟩⟩, ⟨isLoader', m⟩, ht, ht', h => by
    have hkeys := ht [] _ rfl
    have hflag : isLoader = isLoader' := h.loaders []
    subst hflag
    refine .node (reorderedBelow_of_alike fun e he => ?_) (entriesAt_perm (ht' [] _ rfl) hkeys ?_)
    · have hchild : OrderedMap.get? ⟨entries⟩ e.1 = some e.2 :=
        OrderedMap.get?_of_mem_entries hkeys he
      have hmem := (h.mem_keys_iff e.1).mp (List.mem_map_of_mem he)
      obtain ⟨child', hchild'⟩ :=
        Option.isSome_iff_exists.mp (OrderedMap.contains_iff_mem_keys.mpr hmem)
      exact ⟨child', hchild', ht.child hchild, ht'.child hchild', h.child hchild hchild'⟩
    · exact h.mem_keys_iff

theorem reorderedBelow_of_alike : ∀ {entries : List (String × ModuleTree)}
    {m : OrderedMap String ModuleTree}, (∀ e ∈ entries, ∃ t', m.get? e.1 = some t' ∧
      e.2.Distinct ∧ t'.Distinct ∧ e.2.Alike t') →
    ReorderedBelow entries (entriesAt m (entries.map (·.1)))
  | [], m, _ => .nil
  | (name, t) :: entries, m, h => by
    obtain ⟨⟨t', hget, ht, ht', halike⟩, hrest⟩ := List.forall_mem_cons.mp h
    have hsorted : entriesAt m (((name, t) :: entries).map (·.1)) =
        (name, t') :: entriesAt m (entries.map (·.1)) := by
      rw [entriesAt, List.map_cons, List.map_cons, hget]
      rfl
    rw [hsorted]
    exact .cons (reordered_of_alike ht ht' halike) (reorderedBelow_of_alike hrest)

end

/-- **The order of the paths** decides on the order of siblings only. -/
theorem reordered_ofPaths {paths paths' : List (List String)} (h : paths.Perm paths') :
    Reordered (ofPaths paths) (ofPaths paths') := by
  refine reordered_of_alike (distinct_ofPaths paths) (distinct_ofPaths paths')
    ⟨fun q => ?_, fun q => ?_⟩
  · rw [isSome_node?_ofPaths, isSome_node?_ofPaths]
    simp only [h.mem_iff]
  · rw [Bool.eq_iff_iff, loaderAt_ofPaths, loaderAt_ofPaths, h.mem_iff]

end RadiusDictionary.ModuleTree
