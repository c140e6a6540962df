import RadiusDictionary.Proofs.Generation.CleanRuns
import RadiusDictionary.Proofs.Generation.OnDisk
import RadiusDictionary.Proofs.Source.LoaderModule

/-! # When the names in loaders are apart

Files that would clash are kept apart by their paths. Names that would clash in a loader are not:
a module of an attribute has the path `attr_x.rs`, and a vendor's loader of the same name lies at
`attr_x/mod.rs`. `Registry.NamesClear` lists what the declarations have to spare for the names to be
apart in all loaders of a clean run, and no less will do (`Reading.module_names_apart_iff`). -/

namespace RadiusDictionary

open Generation

namespace Registry

/-- The loaders of a registry: the way to each from the root, and its attributes. -/
def loaders (r : Registry) : List (List String × List Attribute) :=
  ([], r.attributes.values) ::
    r.vendors.values.map fun v => (v.home.segments, v.attributes.values)

/-- What the declarations spare at one loader. `head` is the first segment of the path of the
runtime. -/
structure ClearAt (head : String) (r : Registry) (base : List String) (attributes : List Attribute) :
    Prop where
  /-- No vendor goes on with the module name of an attribute. -/
  modules : ∀ a ∈ attributes, ∀ v ∈ r.vendors.values,
    ¬ base ++ [moduleName a.name] <+: v.home.segments
  /-- No vendor goes on with `std`. -/
  std : ∀ v ∈ r.vendors.values, ¬ base ++ ["std"] <+: v.home.segments
  /-- No attribute has the module name `head`. -/
  attributes : ∀ a ∈ attributes, moduleName a.name ≠ head
  /-- No vendor goes on with a segment that is written like `head`. -/
  vendors : ∀ v ∈ r.vendors.values, ∀ s, base ++ [s] <+: v.home.segments →
    Identifier.escape s ≠ head

/-- What the declarations spare: in addition, the segments `_` and `__` do not follow on one
path. -/
structure NamesClear (head : String) (r : Registry) : Prop where
  loaders : ∀ x ∈ r.loaders, r.ClearAt head x.1 x.2
  underscores : ∀ path, ∀ v ∈ r.vendors.values, ∀ w ∈ r.vendors.values,
    path ++ ["_"] <+: v.home.segments → ¬ path ++ ["__"] <+: w.home.segments

/-- The paths that make the tree of modules. -/
def homes (r : Registry) : List (List String) := r.vendors.values.map fun v => v.home.segments

theorem moduleTree_eq (r : Registry) : r.moduleTree = .ofPaths r.homes := rfl

end Registry

namespace Plan

/-- The way from the root to the loader. -/
def base (p : Plan) : List String := (p.scope.vendor.map (·.home.segments)).getD []

/-- What a loader of the plan declares below it is the node at the end of its way. -/
structure Loads (r : Registry) (p : Plan) : Prop where
  vendorModules : ∀ regs, (p.loader regs).vendorModules = r.moduleTree.node? p.base
  base : p.base = [] ∨ p.base ∈ r.homes

theorem loads_of_mem_plans {t : Target} {r : Registry} {p : Plan} (hp : p ∈ plans t r) :
    p.Loads r := by
  obtain rfl | ⟨v, hv, rfl⟩ := mem_plans hp
  · exact ⟨fun _ => rfl, Or.inl rfl⟩
  · exact ⟨fun _ => rfl, Or.inr (List.mem_map_of_mem hv)⟩

end Plan

theorem Registry.mem_map_loaders_iff {r : Registry} {base : List String} :
    base ∈ r.loaders.map (·.1) ↔ base = [] ∨ base ∈ r.homes := by
  rw [loaders, List.map_cons, List.mem_cons, List.map_map]
  rfl

theorem map_base_plans (t : Target) (r : Registry) :
    (plans t r).map (fun p => (p.base, p.attributes)) = r.loaders := by
  rw [plans, List.map_cons, List.map_map]
  rfl

/-- Two lists whose members match agree on what matching members agree on. -/
theorem forall_mem_iff_of_forall₂ {α β : Type} {R : α → β → Prop} {P : α → Prop} {Q : β → Prop}
    {xs : List α} {ys : List β} (h : List.Forall₂ R xs ys)
    (hPQ : ∀ x ∈ xs, ∀ y, R x y → (P x ↔ Q y)) : (∀ x ∈ xs, P x) ↔ ∀ y ∈ ys, Q y := by
  induction h with
  | nil => exact iff_of_true (List.forall_mem_nil _) (List.forall_mem_nil _)
  | cons hxy _ ih =>
    obtain ⟨hfirst, hrest⟩ := List.forall_mem_cons.mp hPQ
    rw [List.forall_mem_cons, List.forall_mem_cons, hfirst _ hxy, ih hrest]

theorem Registry.mem_keys_iff {r : Registry} {base : List String} {n : ModuleTree}
    (h : r.moduleTree.node? base = some n) (s : String) :
    s ∈ n.children.keys ↔ ∃ v ∈ r.vendors.values, base ++ [s] <+: v.home.segments := by
  rw [ModuleTree.mem_keys_ofPaths_iff r.homes h s]
  simp [homes]

/-- Vendors' modules are apart in all loaders unless `_` and `__` follow on one path. -/
theorem Registry.allApart_loaders_iff {r : Registry}
    (hhomes : ∀ path ∈ r.homes, ∀ s ∈ path, Identifier.Segment s) :
    (∀ x ∈ r.loaders, ∀ n, r.moduleTree.node? x.1 = some n → ModuleItem.AllApart n.items) ↔
      ∀ path, ∀ v ∈ r.vendors.values, ∀ w ∈ r.vendors.values,
        path ++ ["_"] <+: v.home.segments → ¬ path ++ ["__"] <+: w.home.segments := by
  have hbases : (∀ x ∈ r.loaders, ∀ n, r.moduleTree.node? x.1 = some n →
      ModuleItem.AllApart n.items) ↔ ∀ base, base = [] ∨ base ∈ r.homes →
        ∀ n, r.moduleTree.node? base = some n → ModuleItem.AllApart n.items := by
    constructor
    · intro h base hbase
      obtain ⟨x, hx, rfl⟩ := List.mem_map.mp (Registry.mem_map_loaders_iff.mpr hbase)
      exact h x hx
    · exact fun h x hx => h x.1 (Registry.mem_map_loaders_iff.mp (List.mem_map_of_mem hx))
  rw [hbases, Registry.moduleTree_eq, ModuleTree.allApart_ofPaths_iff hhomes]
  simp only [Registry.homes, List.forall_mem_map]

/-- What is spared at a loader, said of the modules of vendors below it. -/
theorem Registry.clearAt_iff {r : Registry} {base : List String} {n : ModuleTree} {head : String}
    {attributes : List Attribute} (h : r.moduleTree.node? base = some n) :
    r.ClearAt head base attributes ↔
      (∀ a ∈ attributes, moduleName a.name ∉ n.children.keys) ∧ "std" ∉ n.children.keys ∧
      (∀ a ∈ attributes, moduleName a.name ≠ head) ∧
      ∀ s ∈ n.children.keys, Identifier.escape s ≠ head := by
  have hkeys := Registry.mem_keys_iff h
  constructor
  · intro hclear
    refine ⟨fun a ha hkey => ?_, fun hkey => ?_, hclear.attributes, fun s hkey => ?_⟩
    · obtain ⟨v, hv, hgoes⟩ := (hkeys _).mp hkey
      exact hclear.modules a ha v hv hgoes
    · obtain ⟨v, hv, hgoes⟩ := (hkeys _).mp hkey
      exact hclear.std v hv hgoes
    · obtain ⟨v, hv, hgoes⟩ := (hkeys _).mp hkey
      exact hclear.vendors v hv s hgoes
  · rintro ⟨hmodules, hstd, hattributes, hvendors⟩
    refine ⟨fun a ha v hv hgoes => ?_, fun v hv hgoes => ?_, hattributes, fun v hv s hgoes => ?_⟩
    · exact hmodules a ha ((hkeys _).mpr ⟨v, hv, hgoes⟩)
    · exact hstd ((hkeys _).mpr ⟨v, hv, hgoes⟩)
    · exact hvendors s ((hkeys s).mpr ⟨v, hv, hgoes⟩)

/-- The names of one loader. -/
theorem Generation.LoaderOf.namesApart_iff {r : Registry} {p : Plan} {m : LoaderModule}
    (runtime : String) (hp : p.Loads r)
    (hhomes : ∀ path ∈ r.homes, ∀ s ∈ path, Identifier.Segment s) (h : LoaderOf p m) :
    ((∀ n, r.moduleTree.node? p.base = some n → ModuleItem.AllApart n.items) ∧
      r.ClearAt (runtimeHead runtime) p.base p.attributes) ↔ m.NamesApart runtime := by
  obtain ⟨⟨regs, rfl⟩, hnodup, hmodules⟩ := h
  have hsome : (r.moduleTree.node? p.base).isSome = true := by
    rw [Registry.moduleTree_eq, ModuleTree.isSome_node?_ofPaths]
    exact hp.base.imp_right fun hmem => ⟨_, hmem, List.prefix_refl _⟩
  obtain ⟨n, hn⟩ := Option.isSome_iff_exists.mp hsome
  have hnode : (p.loader regs).vendorModules = some n := (hp.vendorModules regs).trans hn
  have hnames : ∀ name ∈ (p.loader regs).attributeModules, ∃ s, name = moduleName s := by
    rw [hmodules, List.forall_mem_map]
    exact fun a _ => ⟨a.name, rfl⟩
  have hitems : (∀ n', r.moduleTree.node? p.base = some n' → ModuleItem.AllApart n'.items) ↔
      ModuleItem.AllApart n.items := by
    constructor
    · exact fun hall => hall n hn
    · exact fun hitems n' hn' => Option.some.inj (hn.symm.trans hn') ▸ hitems
  rw [LoaderModule.namesApart_iff runtime hnode hnodup hnames
      fun s hs => ModuleTree.segment_of_mem_keys hhomes hn hs,
    Registry.clearAt_iff hn, hitems, hmodules, List.forall_mem_map]
  simp only [List.mem_map, not_exists, not_and]

/-- **When the names in loaders are apart.** In a clean run the names of all loaders are apart if
and only if the declarations are clear. -/
theorem Reading.module_names_apart_iff (r : Reading) (t : Target) (disk : Disk)
    (hclean : (generate t r.registry disk).isClean = true) :
    (∀ l ∈ (generate t r.registry disk).written, ∀ m, l.artifact = .loaderModule m →
      m.NamesApart t.runtime) ↔ r.registry.NamesClear (runtimeHead t.runtime) := by
  have hfailures : (runPlans t (plans t r.registry) (.start disk)).failures = [] := by
    rw [generate_eq] at hclean
    exact List.isEmpty_iff.mp hclean
  obtain ⟨loaders, hloaders, hwritten⟩ := loaders_runPlans t (plans t r.registry) (.start disk)
    (fun _ hp => registrations_loader hp) hfailures
  have hmem : ∀ m, m ∈ loaders ↔
      ∃ l ∈ (generate t r.registry disk).written, l.artifact = .loaderModule m := by
    intro m
    have hlist : (generate t r.registry disk).written.filterMap WrittenFile.loader? = loaders := by
      rw [generate_eq]
      exact hwritten
    rw [← hlist, List.mem_filterMap]
    simp only [WrittenFile.loader?_eq_some_iff]
  have hhomes : ∀ path ∈ r.registry.homes, ∀ s ∈ path, Identifier.Segment s := by
    intro path hpath s hs
    obtain ⟨v, hv, rfl⟩ := List.mem_map.mp hpath
    rw [r.wellFormed.home_eq hv] at hs
    exact Namespace.segment_ofVendor hs
  have hplans := forall_mem_iff_of_forall₂ hloaders fun p hp m hm =>
    hm.namesApart_iff t.runtime (Plan.loads_of_mem_plans hp) hhomes
  have hitems := Registry.allApart_loaders_iff hhomes
  calc (∀ l ∈ (generate t r.registry disk).written, ∀ m, l.artifact = .loaderModule m →
        m.NamesApart t.runtime)
    _ ↔ ∀ m ∈ loaders, m.NamesApart t.runtime := by
      constructor
      · intro h m hm
        obtain ⟨l, hl, hartifact⟩ := (hmem m).mp hm
        exact h l hl m hartifact
      · exact fun h l hl m hartifact => h m ((hmem m).mpr ⟨l, hl, hartifact⟩)
    _ ↔ ∀ x ∈ r.registry.loaders, (∀ n, r.registry.moduleTree.node? x.1 = some n →
        ModuleItem.AllApart n.items) ∧ r.registry.ClearAt (runtimeHead t.runtime) x.1 x.2 := by
      rw [← hplans, ← map_base_plans t, List.forall_mem_map]
    _ ↔ r.registry.NamesClear (runtimeHead t.runtime) := by
      constructor
      · intro h
        exact ⟨fun x hx => (h x hx).2, hitems.mp fun x hx => (h x hx).1⟩
      · intro h x hx
        exact ⟨hitems.mpr h.underscores x hx, h.loaders x hx⟩

/-- A reading of a vendor with the attribute `Foo`, and of a second vendor whose namespace goes on
from that of the first with the module name of `Foo`. -/
def clashReading : Reading :=
  ⟨default, [.text "VENDOR A 1\nVENDOR A-attr_foo 2\nATTRIBUTE Foo 1 string A\n"], false⟩

/-- The attribute `Foo`. -/
def fooAttribute : Attribute := Declaration.toAttribute ⟨"Foo", 1, "string", none, some "A"⟩

/-- The vendor `A`. -/
def outerVendor : Vendor := ⟨"A", 1, ⟨["vsa_a"]⟩, none, ⟨[("Foo", fooAttribute)]⟩⟩

/-- The vendor below it. -/
def innerVendor : Vendor := ⟨"A-attr_foo", 2, ⟨["vsa_a", "attr_foo"]⟩, none, ∅⟩

theorem registry_clashReading :
    clashReading.registry = ⟨∅, ⟨[("A", outerVendor), ("A-attr_foo", innerVendor)]⟩⟩ := by
  decide +kernel

/-- The run is clean, and a loader declares `attr_foo` twice. -/
theorem Reading.module_names_clash :
    (generate outTarget clashReading.registry .empty).isClean = true ∧
    ∃ l ∈ (generate outTarget clashReading.registry .empty).written, ∃ m,
      l.artifact = .loaderModule m ∧ ¬ m.NamesApart outTarget.runtime := by
  have hclean : (generate outTarget clashReading.registry .empty).isClean = true := by
    rw [registry_clashReading]
    decide +kernel
  have hiff := Reading.module_names_apart_iff clashReading outTarget .empty hclean
  refine ⟨hclean, by_contra fun hnone => ?_⟩
  have hapart := hiff.mp fun l hl m hm => by_contra fun hnot => hnone ⟨l, hl, m, hm, hnot⟩
  have hclear := hapart.loaders (["vsa_a"], [fooAttribute])
    (by rw [registry_clashReading]; exact List.mem_cons_of_mem _ List.mem_cons_self)
  refine hclear.modules fooAttribute (List.mem_singleton_self _) innerVendor ?_ (by decide)
  rw [registry_clashReading]
  exact List.mem_cons_of_mem _ List.mem_cons_self

end RadiusDictionary
