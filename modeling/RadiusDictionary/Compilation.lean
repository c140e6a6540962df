import RadiusDictionary.Dictionary
import RadiusDictionary.Generation.AttributeTree

/-! # Compiling a dictionary

`generate` makes the source for a registry: the attributes without a vendor and the root loader,
then vendor by vendor the attributes and the loader. `compile` reads a dictionary and generates the
source for it. Only the reading can fail as a whole. -/

namespace RadiusDictionary

/-- Something that happens while a dictionary is compiled. -/
inductive CompileEvent where
  | reading (event : ReadingEvent)
  /-- The dictionary is read: so many vendors and attributes. -/
  | loaded (vendors attributes : Nat)
  | generating (event : GenerationEvent)
deriving DecidableEq, Repr, Inhabited

/-- The record of an event. -/
def CompileEvent.record : CompileEvent → LogRecord
  | reading event => event.record
  | loaded vendors attributes =>
    ⟨.debug, "dictionary loaded", [("vendors", .count vendors), ("attributes", .count attributes)]⟩
  | generating event => event.record

namespace Registry

/-- The tree of the vendors' modules. -/
def moduleTree (r : Registry) : ModuleTree :=
  .ofPaths (r.vendors.values.map fun v => v.home.segments)

/-- The numbers of the vendors with the paths of their loaders. -/
def vendorCodes (r : Registry) : List (UInt32 × List String) :=
  r.vendors.values.map fun v => (v.number, v.home.segments)

end Registry

namespace Generation

/-- Generates what lies in the root namespace. -/
def root (t : Target) (r : Registry) (g : Generation) : Generation :=
  let folder := t.ns.folder t.outputDir
  let (g, registrations) := attributeTrees t ⟨none, folder⟩ r.attributes.values g
  g.writeLoader t folder
    { ns := t.ns.text, kind := .root r.vendorCodes, registrations,
      vendorModules := some r.moduleTree }

/-- Generates what lies in the namespace of a vendor. -/
def vendor (t : Target) (tree : ModuleTree) (g : Generation) (v : Vendor) : Generation :=
  let ns := t.ns.join v.home
  let folder := ns.folder t.outputDir
  let (g, registrations) := attributeTrees t ⟨some v, folder⟩ v.attributes.values g
  g.writeLoader t folder
    { ns := ns.text, kind := .vendor v.name, registrations,
      vendorModules := tree.node? v.home.segments }

end Generation

/-- Generates the source for a registry on a disk. -/
def generate (t : Target) (r : Registry) (disk : Disk) : Generation :=
  let g := r.vendors.values.foldl (Generation.vendor t r.moduleTree)
    (Generation.root t r (.start disk))
  g.note (.finished g.written.length g.failures.length)

/-- Reads a dictionary and generates the source for it, on the same disk. -/
def compile (dict : Dictionary) (t : Target) : Except LoadError Generation × List CompileEvent :=
  let (loaded, events) := dict.load
  let events := events.map CompileEvent.reading
  match loaded with
  | .error e => (.error e, events)
  | .ok r =>
    let g := generate t r dict.disk
    (.ok g, events ++ .loaded r.vendors.size r.count :: g.events.toList.map .generating)

end RadiusDictionary
