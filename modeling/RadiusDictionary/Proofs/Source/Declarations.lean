import Mathlib.Data.List.Dedup
import Mathlib.Data.List.Nodup
import RadiusDictionary.Proofs.Source.LoaderModule

/-! # The declarations of vendors' modules

The modules of the vendors are declared in several files: the declarations of a loader stop at the
next loader, which goes on in a file of its own. Every loader declares the modules below it up to
the next loaders, and all loaders together declare each vendor's module once
(`ModuleTree.declarations_ofPaths`).

* `DeclaredModule`: a module that a file declares, with the modules in place around it.
* `DeclaredModule.read`: the declarations that lines make, and `ModuleItem.read_linesOf`: the lines
  of a loader make the declarations of its tree and no others.
* `ModuleTree.LastLoader`: the file to which a module's declaration belongs.
* `ModuleTree.mem_declarationsAt_iff`: what the loader at the end of a path declares. -/

namespace RadiusDictionary

/-- A module that is declared in a file. -/
structure DeclaredModule where
  /-- The modules written in place around it, from the outside in, and its own name. -/
  path : List String
  /-- Whether the module has a file of its own. -/
  inFile : Bool
deriving DecidableEq

namespace DeclaredModule

/-- The declaration, if it is made in the modules `above`. -/
def below (above : List String) (d : DeclaredModule) : DeclaredModule := ⟨above ++ d.path, d.inFile⟩

/-- The declaration with the names as they are written. -/
def escaped (d : DeclaredModule) : DeclaredModule := ⟨d.path.map Identifier.escape, d.inFile⟩

@[simp] theorem below_nil (d : DeclaredModule) : d.below [] = d := rfl

theorem below_below (above above' : List String) (d : DeclaredModule) :
    (d.below above').below above = d.below (above ++ above') := by
  simp [below]

theorem escaped_below (above : List String) (d : DeclaredModule) :
    (d.below above).escaped = d.escaped.below (above.map Identifier.escape) := by
  simp [below, escaped]

theorem below_injective (above : List String) : Function.Injective (below above) := by
  rintro ⟨path, inFile⟩ ⟨path', inFile'⟩ h
  rw [below, below, mk.injEq] at h
  exact congrArg₂ mk (List.append_cancel_left h.1) h.2

/-! ### Reading lines -/

/-- What a line does to the declarations. -/
inductive Line where
  /-- It declares a module with a file of its own. -/
  | file (ident : String)
  /-- It starts a module in place. -/
  | opens (ident : String)
  /-- It ends the module in place. -/
  | closes

/-- What a line does, if it has to do with modules. -/
def Line.of? (line : String) : Option Line :=
  match line.toList.dropWhile (· = ' ') with
  | 'p' :: 'u' :: 'b' :: ' ' :: 'm' :: 'o' :: 'd' :: ' ' :: rest =>
    match rest.reverse with
    | ';' :: ident => some (.file (.ofList ident.reverse))
    | '\x7b' :: ' ' :: ident => some (.opens (.ofList ident.reverse))
    | _ => none
  | ['\x7d'] => some .closes
  | _ => none

/-- The declarations that lines make within the modules `above`. -/
def read : (above : List String) → (lines : List String) → List DeclaredModule
  | _, [] => []
  | above, line :: lines =>
    match Line.of? line with
    | some (.file ident) => ⟨above ++ [ident], true⟩ :: read above lines
    | some (.opens ident) => ⟨above ++ [ident], false⟩ :: read (above ++ [ident]) lines
    | some .closes => read above.dropLast lines
    | none => read above lines

section Lines

variable {indent : String} (hindent : ∀ c ∈ indent.toList, c = ' ')
include hindent

theorem dropWhile_indent (cs : List Char) :
    (indent.toList ++ cs).dropWhile (· = ' ') = cs.dropWhile (· = ' ') :=
  List.dropWhile_append_of_pos fun c hc => by simp [hindent c hc]

theorem Line.of?_file (ident : String) :
    Line.of? (indent ++ "pub mod " ++ ident ++ ";") = some (.file ident) := by
  have hline : (indent ++ "pub mod " ++ ident ++ ";").toList =
      indent.toList ++ ("pub mod ".toList ++ (ident.toList ++ [';'])) := by
    simp only [String.toList_append, List.append_assoc]
    rfl
  rw [Line.of?, hline, dropWhile_indent hindent]
  simp

theorem Line.of?_opens (ident : String) :
    Line.of? (indent ++ "pub mod " ++ ident ++ " \x7b") = some (.opens ident) := by
  have hline : (indent ++ "pub mod " ++ ident ++ " \x7b").toList =
      indent.toList ++ ("pub mod ".toList ++ (ident.toList ++ [' ', '\x7b'])) := by
    simp only [String.toList_append, List.append_assoc]
    rfl
  rw [Line.of?, hline, dropWhile_indent hindent]
  simp

theorem Line.of?_closes : Line.of? (indent ++ "\x7d") = some .closes := by
  rw [Line.of?, String.toList_append, dropWhile_indent hindent]
  rfl

end Lines

end DeclaredModule

namespace ModuleItem

mutual

/-- The modules that an item declares, in the order of their declarations. -/
def declarations : ModuleItem → List DeclaredModule
  | file name => [⟨[name], true⟩]
  | inline name items => ⟨[name], false⟩ :: (declarationsOf items).map (.below [name])

/-- The modules that items declare. -/
def declarationsOf : List ModuleItem → List DeclaredModule
  | [] => []
  | item :: rest => item.declarations ++ declarationsOf rest

end

mutual

theorem read_lines : ∀ (item : ModuleItem) {indent : String},
    (∀ c ∈ indent.toList, c = ' ') → ∀ above rest : List String,
    DeclaredModule.read above (item.lines indent ++ rest) =
      item.declarations.map (fun d => d.escaped.below above) ++ DeclaredModule.read above rest
  | file name, indent, hindent, above, rest => by
    rw [lines, List.singleton_append, DeclaredModule.read, DeclaredModule.Line.of?_file hindent,
      declarations]
    rfl
  | inline name items, indent, hindent, above, rest => by
    have hdeeper : ∀ c ∈ (indent ++ "    ").toList, c = ' ' := by
      intro c hc
      rw [String.toList_append, List.mem_append] at hc
      exact hc.elim (hindent c) (by simp)
    have hbelow : ∀ d : DeclaredModule, (d.below [name]).escaped.below above =
        d.escaped.below (above ++ [Identifier.escape name]) := by
      intro d
      rw [DeclaredModule.escaped_below, DeclaredModule.below_below]
      rfl
    rw [lines, List.cons_append, DeclaredModule.read, DeclaredModule.Line.of?_opens hindent,
      List.append_assoc, List.singleton_append, declarations, List.map_cons, List.map_map,
      List.cons_append]
    simp only [read_linesOf items hdeeper, DeclaredModule.read,
      DeclaredModule.Line.of?_closes hindent, List.dropLast_concat, Function.comp_def, hbelow]
    rfl

/-- **The lines of declarations** make the declarations of the items, under the names as they are
written. -/
theorem read_linesOf : ∀ (items : List ModuleItem) {indent : String},
    (∀ c ∈ indent.toList, c = ' ') → ∀ above rest : List String,
    DeclaredModule.read above (linesOf indent items ++ rest) =
      (declarationsOf items).map (fun d => d.escaped.below above) ++ DeclaredModule.read above rest
  | [], _, _, above, rest => by rw [linesOf, declarationsOf]; rfl
  | item :: items, indent, hindent, above, rest => by
    rw [linesOf, List.append_assoc, read_lines item hindent, read_linesOf items hindent,
      declarationsOf, List.map_append, List.append_assoc]

end

theorem declarationsOf_eq : ∀ items : List ModuleItem,
    declarationsOf items = items.flatMap declarations
  | [] => by rw [declarationsOf, List.flatMap_nil]
  | item :: rest => by rw [declarationsOf, declarationsOf_eq rest, List.flatMap_cons]

/-- What an item declares is the item's module or lies in it. -/
theorem exists_of_mem_declarations {item : ModuleItem} {d : DeclaredModule}
    (h : d ∈ item.declarations) : ∃ rest, d.path = item.name :: rest := by
  cases item with
  | file name =>
    rw [declarations, List.mem_singleton] at h
    exact ⟨[], h ▸ rfl⟩
  | inline name items =>
    rw [declarations, List.mem_cons, List.mem_map] at h
    rcases h with rfl | ⟨d, -, rfl⟩
    · exact ⟨[], rfl⟩
    · exact ⟨d.path, rfl⟩

end ModuleItem

namespace ModuleTree

open ModuleItem (declarationsOf)

theorem name_item (name : String) (t : ModuleTree) : (t.item name).name = name := by
  unfold item
  split <;> rfl

/-! ### What one loader declares -/

variable {t : ModuleTree}

theorem ne_nil_of_mem {d : DeclaredModule} (h : d ∈ declarationsOf t.items) : d.path ≠ [] := by
  rw [ModuleItem.declarationsOf_eq, List.mem_flatMap] at h
  obtain ⟨item, -, hd⟩ := h
  obtain ⟨rest, hpath⟩ := ModuleItem.exists_of_mem_declarations hd
  rw [hpath]
  exact List.cons_ne_nil _ _

/-- What is declared at a name is declared by the child of that name. -/
theorem mem_declarations_cons_iff (ht : t.children.keys.Nodup) (name : String) (path : List String)
    (inFile : Bool) : ⟨name :: path, inFile⟩ ∈ declarationsOf t.items ↔
      ∃ child, t.children.get? name = some child ∧
        ⟨name :: path, inFile⟩ ∈ (child.item name).declarations := by
  rw [ModuleItem.declarationsOf_eq, List.mem_flatMap, items_eq]
  constructor
  · rintro ⟨item, hitem, hd⟩
    obtain ⟨e, he, rfl⟩ := List.mem_map.mp hitem
    obtain ⟨rest, hpath⟩ := ModuleItem.exists_of_mem_declarations hd
    rw [name_item, List.cons.injEq] at hpath
    obtain ⟨rfl, -⟩ := hpath
    exact ⟨e.2, OrderedMap.get?_of_mem_entries ht he, hd⟩
  · rintro ⟨child, hchild, hd⟩
    exact ⟨_, List.mem_map.mpr ⟨_, OrderedMap.mem_of_get?_eq_some hchild, rfl⟩, hd⟩

theorem mem_declarations_item_iff (name : String) (path : List String) (inFile : Bool) :
    ⟨name :: path, inFile⟩ ∈ (t.item name).declarations ↔
      (path = [] ∧ t.isLoader = inFile) ∨
        (t.isLoader = false ∧ ⟨path, inFile⟩ ∈ declarationsOf t.items) := by
  have hbelow : (⟨name :: path, inFile⟩ : DeclaredModule) = .below [name] ⟨path, inFile⟩ := rfl
  cases h : t.isLoader with
  | true =>
    rw [item, h, if_pos rfl, ModuleItem.declarations, List.mem_singleton]
    simp [eq_comm]
  | false =>
    rw [item, h, if_neg Bool.false_ne_true, ModuleItem.declarations, List.mem_cons, hbelow,
      List.mem_map_of_injective (DeclaredModule.below_injective [name])]
    simp [DeclaredModule.below, eq_comm]

/-- The module at the end of a path is declared in the file of `t`: there is no other loader on the
way to it. -/
structure Declares (t : ModuleTree) (path : List String) (inFile : Bool) : Prop where
  ne_nil : path ≠ []
  node : ∃ n, t.node? path = some n ∧ n.isLoader = inFile
  fronts : ∀ front, front <+: path → front ≠ [] → front ≠ path → t.loaderAt front = false

/-- A loader declares its children, and what children that are no loaders declare. -/
theorem declares_cons_iff (name : String) (path : List String) (inFile : Bool) :
    t.Declares (name :: path) inFile ↔ ∃ child, t.children.get? name = some child ∧
      ((path = [] ∧ child.isLoader = inFile) ∨
        (child.isLoader = false ∧ child.Declares path inFile)) := by
  constructor
  · rintro ⟨-, ⟨n, hn, hflag⟩, hfronts⟩
    rw [node?_cons] at hn
    obtain ⟨child, hchild, hn⟩ := Option.bind_eq_some_iff.mp hn
    refine ⟨child, hchild, ?_⟩
    by_cases hnil : path = []
    · subst hnil
      cases hn
      exact Or.inl ⟨rfl, hflag⟩
    · have hshift : ∀ front, front <+: path → front ≠ path → child.loaderAt front = false := by
        intro front hfront hne
        rw [← loaderAt_cons hchild]
        refine hfronts _ (List.cons_prefix_cons.mpr ⟨rfl, hfront⟩) (List.cons_ne_nil _ _) ?_
        exact fun heq => hne (List.cons.inj heq).2
      exact Or.inr ⟨hshift [] List.nil_prefix (Ne.symm hnil), hnil, ⟨n, hn, hflag⟩,
        fun front hfront _ hne => hshift front hfront hne⟩
  · rintro ⟨child, hchild, h⟩
    refine ⟨List.cons_ne_nil _ _, ?_, fun front hfront hne hnot => ?_⟩
    · rw [node?_cons, hchild, Option.bind_some]
      rcases h with ⟨rfl, hflag⟩ | ⟨-, h⟩
      · exact ⟨child, rfl, hflag⟩
      · exact h.node
    · obtain ⟨rest, rfl, hrest⟩ := (List.prefix_cons_iff.mp hfront).resolve_left hne
      have hproper : rest ≠ path := fun heq => hnot (by rw [heq])
      rw [loaderAt_cons hchild]
      rcases h with ⟨rfl, -⟩ | ⟨hinline, h⟩
      · exact absurd (List.prefix_nil.mp hrest) hproper
      · by_cases hnil : rest = []
        · rw [hnil]
          exact hinline
        · exact h.fronts rest hrest hnil hproper

/-- **The declarations of a loader** are those of the nodes that are reached without another loader
on the way. -/
theorem mem_declarations_items_iff : ∀ {t : ModuleTree}, t.Distinct → ∀ (path : List String)
    (inFile : Bool), ⟨path, inFile⟩ ∈ declarationsOf t.items ↔ t.Declares path inFile
  | t, _, [], inFile =>
    ⟨fun h => absurd rfl (ne_nil_of_mem h), fun h => absurd rfl h.ne_nil⟩
  | t, ht, name :: path, inFile => by
    rw [mem_declarations_cons_iff (ht [] t rfl), declares_cons_iff]
    refine exists_congr fun child => and_congr_right fun hchild => ?_
    rw [mem_declarations_item_iff, mem_declarations_items_iff (ht.child hchild)]

mutual

/-- No loader declares a module twice. -/
theorem nodup_declarations_items : ∀ t : ModuleTree, t.Distinct → (declarationsOf t.items).Nodup
  | ⟨isLoader, ⟨entries⟩⟩, ht => by
    rw [items]
    have hkeys := ht [] _ rfl
    exact nodup_declarations_itemsOf entries hkeys fun e he =>
      ht.child (OrderedMap.get?_of_mem_entries hkeys he)

theorem nodup_declarations_itemsOf : ∀ entries : List (String × ModuleTree),
    (entries.map (·.1)).Nodup → (∀ e ∈ entries, e.2.Distinct) →
    (declarationsOf (itemsOf entries)).Nodup
  | [], _, _ => by rw [itemsOf]; exact List.nodup_nil
  | (name, t) :: rest, hkeys, h => by
    obtain ⟨ht, hrest⟩ := List.forall_mem_cons.mp h
    rw [List.map_cons, List.nodup_cons] at hkeys
    rw [itemsOf, ← item, declarationsOf, List.nodup_append]
    refine ⟨?_, nodup_declarations_itemsOf rest hkeys.2 hrest, ?_⟩
    · unfold item
      split
      · exact List.nodup_singleton _
      · rw [ModuleItem.declarations, List.nodup_cons]
        refine ⟨fun hmem => ?_,
          (nodup_declarations_items t ht).map (DeclaredModule.below_injective _)⟩
        obtain ⟨d, hd, heq⟩ := List.mem_map.mp hmem
        exact ne_nil_of_mem hd (List.cons.inj (congrArg DeclaredModule.path heq)).2
    · rintro d hd d' hd' rfl
      rw [ModuleItem.declarationsOf_eq, itemsOf_eq, List.mem_flatMap] at hd'
      obtain ⟨other, hother, hd'⟩ := hd'
      obtain ⟨e, he, rfl⟩ := List.mem_map.mp hother
      obtain ⟨path, hpath⟩ := ModuleItem.exists_of_mem_declarations hd
      obtain ⟨path', hpath'⟩ := ModuleItem.exists_of_mem_declarations hd'
      rw [hpath, List.cons.injEq, name_item, name_item] at hpath'
      exact hkeys.1 (List.mem_map.mpr ⟨e, he, hpath'.1.symm⟩)

end

/-! ### What all loaders declare -/

/-- `base` is the last loader before the end of `path`, or the top if there is none. -/
structure LastLoader (paths : List (List String)) (base path : List String) : Prop where
  loader : base = [] ∨ base ∈ paths
  front : base <+: path
  proper : base ≠ path
  longest : ∀ front ∈ paths, front <+: path → front ≠ path → front <+: base

variable {paths : List (List String)} {base base' path : List String}

theorem LastLoader.isPrefix (h : LastLoader paths base path) (h' : LastLoader paths base' path) :
    base' <+: base := by
  rcases h'.loader with rfl | hmem
  · exact List.nil_prefix
  · exact h.longest base' hmem h'.front h'.proper

theorem LastLoader.unique (h : LastLoader paths base path) (h' : LastLoader paths base' path) :
    base = base' :=
  (h'.isPrefix h).eq_of_length_le (h.isPrefix h').length_le

/-- No loader comes between the last one and the end of the path. -/
theorem lastLoader_append_iff (hbase : base = [] ∨ base ∈ paths) (rest : List String) :
    LastLoader paths base (base ++ rest) ↔
      rest ≠ [] ∧ ∀ front, front <+: rest → front ≠ [] → front ≠ rest → base ++ front ∉ paths := by
  constructor
  · rintro ⟨-, -, hproper, hlongest⟩
    refine ⟨fun hnil => hproper (by rw [hnil, List.append_nil]), ?_⟩
    intro front hfront hne hnot hmem
    have hshort := hlongest _ hmem ((List.prefix_append_right_inj base).mpr hfront)
      fun heq => hnot (List.append_cancel_left heq)
    have hlength := hshort.length_le
    rw [List.length_append] at hlength
    exact hne (List.length_eq_zero_iff.mp (by omega))
  · rintro ⟨hne, hfronts⟩
    refine ⟨hbase, List.prefix_append _ _, fun heq => hne ?_, fun front hmem hfront hnot => ?_⟩
    · exact List.append_cancel_left (heq.symm.trans (List.append_nil base).symm)
    · rcases List.prefix_or_prefix_of_prefix hfront (List.prefix_append base rest) with h | h
      · exact h
      · obtain ⟨front, rfl⟩ := h
        by_cases hnil : front = []
        · simp [hnil]
        · exact absurd hmem (hfronts front ((List.prefix_append_right_inj base).mp hfront) hnil
            fun heq => hnot (by rw [heq]))

/-- Every path but the empty one has a last loader. -/
theorem exists_lastLoader (paths : List (List String)) (hne : path ≠ []) :
    ∃ base, LastLoader paths base path := by
  obtain ⟨base, rest, hpath, hbase, hfronts⟩ := exists_last_loader paths path.dropLast
  have hwhole : path = base ++ (rest ++ [path.getLast hne]) := by
    rw [← List.append_assoc, ← hpath, List.dropLast_append_getLast]
  refine ⟨base, ?_⟩
  rw [hwhole, lastLoader_append_iff hbase]
  refine ⟨List.append_ne_nil_of_right_ne_nil _ (List.cons_ne_nil _ _), ?_⟩
  intro front hfront hne' hnot
  rcases List.prefix_concat_iff.mp hfront with heq | hfront
  · exact absurd heq hnot
  · exact hfronts front hfront hne'

/-- The declarations of the loader at the end of a path. -/
def declarationsAt (paths : List (List String)) (base : List String) : List DeclaredModule :=
  declarationsOf ((((ofPaths paths).node? base).map (·.items)).getD [])

/-- The paths of the modules with a file of their own that the loader at the end of a path
declares. -/
def filesAt (paths : List (List String)) (base : List String) : List (List String) :=
  ((declarationsAt paths base).filter (·.inFile)).map fun d => base ++ d.path

/-- The paths of all loaders. -/
def loaderPaths (paths : List (List String)) : List (List String) := [] :: paths.dedup

theorem mem_loaderPaths_iff : base ∈ loaderPaths paths ↔ base = [] ∨ base ∈ paths := by
  rw [loaderPaths, List.mem_cons, List.mem_dedup]

theorem exists_node (hbase : base ∈ loaderPaths paths) :
    ∃ n, (ofPaths paths).node? base = some n := by
  refine Option.isSome_iff_exists.mp ((isSome_node?_ofPaths paths base).mpr ?_)
  exact (mem_loaderPaths_iff.mp hbase).imp_right fun hmem => ⟨base, hmem, List.prefix_rfl⟩

theorem declarationsAt_eq {n : ModuleTree} (hn : (ofPaths paths).node? base = some n) :
    declarationsAt paths base = declarationsOf n.items := by
  rw [declarationsAt, hn]
  rfl

theorem distinct_node {n : ModuleTree} (hn : (ofPaths paths).node? base = some n) :
    n.Distinct := by
  refine fun q m hm => distinct_ofPaths paths (base ++ q) m ?_
  rw [node?_append, hn]
  exact hm

theorem nodup_declarationsAt (hbase : base ∈ loaderPaths paths) :
    (declarationsAt paths base).Nodup := by
  obtain ⟨n, hn⟩ := exists_node hbase
  rw [declarationsAt_eq hn]
  exact nodup_declarations_items n (distinct_node hn)

/-- **What the loader at the end of a path declares**: the modules of which it is the last loader,
vendors' modules as files and those on the way to others in place. -/
theorem mem_declarationsAt_iff (hbase : base ∈ loaderPaths paths) (rest : List String)
    (inFile : Bool) : ⟨rest, inFile⟩ ∈ declarationsAt paths base ↔
      LastLoader paths base (base ++ rest) ∧ (∃ path ∈ paths, base ++ rest <+: path) ∧
        (inFile = true ↔ base ++ rest ∈ paths) := by
  obtain ⟨n, hn⟩ := exists_node hbase
  have hloader : ∀ q, n.loaderAt q = true ↔ base ++ q ∈ paths := by
    intro q
    rw [← loaderAt_ofPaths, loaderAt, loaderAt, node?_append, hn]
    rfl
  have hnode : (∃ m, n.node? rest = some m) ↔
      base ++ rest = [] ∨ ∃ path ∈ paths, base ++ rest <+: path := by
    rw [← isSome_node?_ofPaths, node?_append, hn, Option.isSome_iff_exists]
    rfl
  have hflag : ∀ m, n.node? rest = some m → (m.isLoader = inFile ↔
      (inFile = true ↔ base ++ rest ∈ paths)) := by
    intro m hm
    rw [← hloader rest, loaderAt, hm]
    show m.isLoader = inFile ↔ (inFile = true ↔ m.isLoader = true)
    cases m.isLoader <;> cases inFile <;> simp
  rw [declarationsAt_eq hn, mem_declarations_items_iff (distinct_node hn),
    lastLoader_append_iff (mem_loaderPaths_iff.mp hbase)]
  constructor
  · rintro ⟨hne, ⟨m, hm, hinFile⟩, hfronts⟩
    refine ⟨⟨hne, fun front hfront hne' hnot hmem => ?_⟩, ?_, (hflag m hm).mp hinFile⟩
    · have hfalse := hfronts front hfront hne' hnot
      rw [(hloader front).mpr hmem] at hfalse
      cases hfalse
    · refine (hnode.mp ⟨m, hm⟩).resolve_left ?_
      exact List.append_ne_nil_of_right_ne_nil _ hne
  · rintro ⟨⟨hne, hfronts⟩, hpath, hinFile⟩
    obtain ⟨m, hm⟩ := hnode.mpr (Or.inr hpath)
    refine ⟨hne, ⟨m, hm, (hflag m hm).mpr hinFile⟩, fun front hfront hne' hnot => ?_⟩
    rw [← Bool.not_eq_true, hloader]
    exact hfronts front hfront hne' hnot

theorem mem_filesAt_iff (hbase : base ∈ loaderPaths paths) (path : List String) :
    path ∈ filesAt paths base ↔ path ∈ paths ∧ LastLoader paths base path := by
  simp only [filesAt, List.mem_map, List.mem_filter]
  constructor
  · rintro ⟨⟨rest, inFile⟩, ⟨hmem, rfl⟩, rfl⟩
    obtain ⟨hlast, -, hfile⟩ := (mem_declarationsAt_iff hbase rest true).mp hmem
    exact ⟨hfile.mp rfl, hlast⟩
  · rintro ⟨hpath, hlast⟩
    obtain ⟨rest, rfl⟩ := hlast.front
    refine ⟨⟨rest, true⟩, ⟨(mem_declarationsAt_iff hbase rest true).mpr ?_, rfl⟩, rfl⟩
    exact ⟨hlast, ⟨_, hpath, List.prefix_rfl⟩, fun _ => hpath, fun _ => rfl⟩

theorem nodup_filesAt (hbase : base ∈ loaderPaths paths) : (filesAt paths base).Nodup := by
  refine ((nodup_declarationsAt hbase).filter _).map_on ?_
  rintro ⟨rest, inFile⟩ hd ⟨rest', inFile'⟩ hd' heq
  rw [List.mem_filter] at hd hd'
  exact congrArg₂ DeclaredModule.mk (List.append_cancel_left heq) (hd.2.trans hd'.2.symm)

/-- **Every vendor's module is declared once**, by one of the loaders. -/
theorem flatMap_filesAt_perm (hnil : [] ∉ paths) :
    ((loaderPaths paths).flatMap (filesAt paths)).Perm paths.dedup := by
  have hloaders : (loaderPaths paths).Nodup :=
    List.nodup_cons.mpr ⟨fun h => hnil (List.mem_dedup.mp h), List.nodup_dedup paths⟩
  have hnodup : ((loaderPaths paths).flatMap (filesAt paths)).Nodup := by
    refine List.nodup_flatMap.mpr ⟨fun base hbase => nodup_filesAt hbase, ?_⟩
    refine hloaders.imp_of_mem fun {base base'} hbase hbase' hne path hpath hpath' => hne ?_
    have hlast := ((mem_filesAt_iff hbase path).mp hpath).2
    exact hlast.unique ((mem_filesAt_iff hbase' path).mp hpath').2
  refine (List.perm_ext_iff_of_nodup hnodup (List.nodup_dedup paths)).mpr fun path => ?_
  rw [List.mem_flatMap, List.mem_dedup]
  constructor
  · rintro ⟨base, hbase, hpath⟩
    exact ((mem_filesAt_iff hbase path).mp hpath).1
  · intro hpath
    obtain ⟨base, hlast⟩ := exists_lastLoader paths (ne_of_mem_of_not_mem hpath hnil)
    have hbase := mem_loaderPaths_iff.mpr hlast.loader
    exact ⟨base, hbase, (mem_filesAt_iff hbase path).mpr ⟨hpath, hlast⟩⟩

/-- The lines of a loader make its declarations. -/
theorem read_linesOf_items {n : ModuleTree} (hn : (ofPaths paths).node? base = some n) :
    DeclaredModule.read [] (ModuleItem.linesOf "" n.items) =
      (declarationsAt paths base).map .escaped := by
  have hread := ModuleItem.read_linesOf n.items (by simp : ∀ c ∈ "".toList, c = ' ') [] []
  rw [List.append_nil] at hread
  rw [hread, declarationsAt_eq hn, DeclaredModule.read, List.append_nil]
  rfl

/-- **The modules of vendors are declared once each.** The tree of the vendors' paths has a node
where a path goes on and a loader where one ends. Each loader declares, once, the modules of which
it is the last loader and no others, and its lines make these declarations; all loaders together
declare the paths once each. In another order of the paths, siblings come in another order. -/
theorem declarations_ofPaths (paths : List (List String)) (hnil : [] ∉ paths) :
    (∀ q, ((ofPaths paths).node? q).isSome = true ↔ q = [] ∨ ∃ path ∈ paths, q <+: path) ∧
    (∀ q, (ofPaths paths).loaderAt q = true ↔ q ∈ paths) ∧
    (∀ base ∈ loaderPaths paths, (declarationsAt paths base).Nodup ∧
      (∀ rest inFile, ⟨rest, inFile⟩ ∈ declarationsAt paths base ↔
        LastLoader paths base (base ++ rest) ∧ (∃ path ∈ paths, base ++ rest <+: path) ∧
          (inFile = true ↔ base ++ rest ∈ paths)) ∧
      ∃ n, (ofPaths paths).node? base = some n ∧
        DeclaredModule.read [] (ModuleItem.linesOf "" n.items) =
          (declarationsAt paths base).map .escaped) ∧
    ((loaderPaths paths).flatMap (filesAt paths)).Perm paths.dedup ∧
    ∀ paths', paths.Perm paths' → Reordered (ofPaths paths) (ofPaths paths') := by
  refine ⟨isSome_node?_ofPaths paths, loaderAt_ofPaths paths, fun base hbase => ?_,
    flatMap_filesAt_perm hnil, fun paths' h => reordered_ofPaths h⟩
  obtain ⟨n, hn⟩ := exists_node hbase
  exact ⟨nodup_declarationsAt hbase, mem_declarationsAt_iff hbase, n, hn, read_linesOf_items hn⟩

/-- The vendor with the path `a::b::c` lies below the one with the path `a`, which declares it in
place. -/
theorem declarations_ofPaths_nested :
    ((loaderPaths [["a", "b", "c"], ["a"]]).flatMap (filesAt [["a", "b", "c"], ["a"]])).Perm
        [["a", "b", "c"], ["a"]] ∧
      declarationsAt [["a", "b", "c"], ["a"]] [] = [⟨["a"], true⟩] ∧
      declarationsAt [["a", "b", "c"], ["a"]] ["a"] = [⟨["b"], false⟩, ⟨["b", "c"], true⟩] :=
  ⟨(declarations_ofPaths [["a", "b", "c"], ["a"]] (by decide)).2.2.2.1, by decide +kernel,
    by decide +kernel⟩

end ModuleTree

end RadiusDictionary
