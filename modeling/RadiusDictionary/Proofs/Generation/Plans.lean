import RadiusDictionary.Compilation

/-! # Loader by loader

A registry is generated in parts that differ in their attributes, their folder and their loader
only: first what has no vendor, then vendor by vendor. A `Plan` is one such part. `plans` are those
of a registry, and generating it is running one after the other (`generate_eq`), so that what holds
of the run of any plan holds of all. -/

namespace RadiusDictionary

open Generation

/-- What is generated for one loader. -/
structure Plan where
  scope : Scope
  attributes : List Attribute
  /-- The loader that declares what was generated. -/
  loader : List Registration → LoaderModule

namespace Plan

/-- The plan of what lies in the root namespace. -/
def root (t : Target) (r : Registry) : Plan where
  scope := ⟨none, t.ns.folder t.outputDir⟩
  attributes := r.attributes.values
  loader registrations :=
    { ns := t.ns.text, kind := .root r.vendorCodes, registrations,
      vendorModules := some r.moduleTree }

/-- The plan of what lies in the namespace of a vendor. -/
def vendor (t : Target) (tree : ModuleTree) (v : Vendor) : Plan where
  scope := ⟨some v, (t.ns.join v.home).folder t.outputDir⟩
  attributes := v.attributes.values
  loader registrations :=
    { ns := (t.ns.join v.home).text, kind := .vendor v.name, registrations,
      vendorModules := tree.node? v.home.segments }

/-- The file of the loader. -/
def loaderPath (p : Plan) : Path := p.scope.folder.joinText "mod.rs"

/-- The generation after the attributes. -/
def trees (t : Target) (g : Generation) (p : Plan) : Generation :=
  (attributeTrees t p.scope p.attributes g).1

/-- The registrations that come of the attributes. -/
def registrations (t : Target) (g : Generation) (p : Plan) : List Registration :=
  (attributeTrees t p.scope p.attributes g).2

/-- Generates the attributes and the loader. -/
def run (t : Target) (g : Generation) (p : Plan) : Generation :=
  (p.trees t g).writeLoader t p.scope.folder (p.loader (p.registrations t g))

end Plan

/-- The plans of a registry. -/
def plans (t : Target) (r : Registry) : List Plan :=
  .root t r :: r.vendors.values.map (.vendor t r.moduleTree)

/-- The generation after some plans. -/
def runPlans (t : Target) (ps : List Plan) (g : Generation) : Generation :=
  ps.foldl (Plan.run t) g

/-- **Generating a registry is running its plans.** -/
theorem generate_eq (t : Target) (r : Registry) (disk : Disk) : generate t r disk =
    (runPlans t (plans t r) (.start disk)).note
      (.finished (runPlans t (plans t r) (.start disk)).written.length
        (runPlans t (plans t r) (.start disk)).failures.length) := by
  have hplans : runPlans t (plans t r) (.start disk) =
      r.vendors.values.foldl (Generation.vendor t r.moduleTree)
        (Generation.root t r (.start disk)) := by
    unfold runPlans plans
    rw [List.foldl_cons, List.foldl_map]
    rfl
  rw [hplans]
  rfl

/-- Every plan is that of the root or of a vendor. -/
theorem mem_plans {t : Target} {r : Registry} {p : Plan} (hp : p ∈ plans t r) :
    p = .root t r ∨ ∃ v ∈ r.vendors.values, p = .vendor t r.moduleTree v := by
  rcases List.mem_cons.mp hp with rfl | hp
  · exact Or.inl rfl
  · obtain ⟨v, hv, rfl⟩ := List.mem_map.mp hp
    exact Or.inr ⟨v, hv, rfl⟩

/-- The loader of a plan holds the registrations that it is given. -/
theorem registrations_loader {t : Target} {r : Registry} {p : Plan} (hp : p ∈ plans t r)
    (registrations : List Registration) :
    (p.loader registrations).registrations = registrations := by
  obtain rfl | ⟨v, -, rfl⟩ := mem_plans hp
  · rfl
  · rfl

end RadiusDictionary
