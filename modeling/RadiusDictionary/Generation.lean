import RadiusDictionary.Generation.Event
import RadiusDictionary.Namespace
import RadiusDictionary.Source.AttributeModule
import RadiusDictionary.Source.LoaderModule

/-! # Generation

A `Generation` is what has come of generating source at some point: the disk, the files written and
those that failed. Every file is claimed before it is written (`claim?`), and a second claim of one
path fails, so that no file is overwritten by another of the same run. -/

namespace RadiusDictionary

/-- The path of the library with which generated source is used, unless another is given. -/
def defaultRuntime : String := "radius::attribute"

/-- What to generate, and where. -/
structure Target where
  /-- The namespace of the whole dictionary. -/
  ns : Namespace
  outputDir : Path
  /-- The path of the library with which the source is used. -/
  runtime : String
  /-- What the banners say of the time. -/
  stamp : String
deriving DecidableEq, Repr, Inhabited

/-- What goes into a file. -/
inductive Artifact where
  | attributeModule (m : AttributeModule)
  | loaderModule (m : LoaderModule)

/-- The text of the file. -/
def Artifact.render (t : Target) : Artifact → String
  | attributeModule m => m.render t.runtime t.stamp
  | loaderModule m => m.render t.runtime t.stamp

/-- A file that was written. -/
structure WrittenFile where
  path : Path
  artifact : Artifact

/-- What has come of generating source so far. -/
structure Generation where
  disk : Disk
  /-- The numbers of the attributes that were reached, by sanitized name. The latest attribute of a
  name counts. -/
  numbers : OrderedMap String UInt32
  /-- The paths that files were planned for. -/
  claimed : List Path.Key
  /-- The files that were written, in this order. -/
  written : List WrittenFile
  failures : List Failure
  events : Array GenerationEvent

namespace Generation

/-- Nothing is generated yet. -/
def start (disk : Disk) : Generation := ⟨disk, ∅, [], [], [], #[]⟩

/-- Whether everything was generated. -/
def isClean (g : Generation) : Bool := g.failures.isEmpty

/-- The generation with an event noted. -/
def note (g : Generation) (event : GenerationEvent) : Generation :=
  { g with events := g.events.push event }

/-- The generation with a failure recorded. -/
def fail (g : Generation) (artifact : String) (error : GenerationError) : Generation :=
  let failure : Failure := ⟨artifact, error⟩
  note { g with failures := g.failures ++ [failure] } (.artifactSkipped failure)

/-- The generation with an attribute's number known. -/
def setNumber (g : Generation) (d : Declaration) : Generation :=
  { g with numbers := g.numbers.insert (sanitize d.name) d.number }

/-- The generation with a path claimed for a file, unless it is taken. -/
def claim? (g : Generation) (path : Path) : Option Generation :=
  if g.claimed.contains path.key then none
  else some { g with claimed := path.key :: g.claimed }

/-- Writes a file, and the folders it lies in. -/
def write (t : Target) (path : Path) (artifact : Artifact) (g : Generation) :
    Generation × Option GenerationError :=
  match g.disk.createFolder path.parent with
  | (disk, some e) => ({ g with disk }, some (.file e))
  | (disk, none) =>
    match disk.writeFile path (artifact.render t) with
    | .error e => ({ g with disk }, some (.file e))
    | .ok disk => ({ g with disk, written := g.written ++ [⟨path, artifact⟩] }, none)

/-- Removes a file from the disk. -/
def remove (g : Generation) (file : WrittenFile) : Generation :=
  let g := g.note (.fileRemoved file.path)
  match g.disk.removeFile file.path with
  | .ok disk => { g with disk }
  | .error e => g.note (.fileNotRemoved file.path e)

/-- Takes back the files that were written after the first `mark` ones. -/
def discardFrom (g : Generation) (mark : Nat) : Generation :=
  (g.written.drop mark).foldl remove { g with written := g.written.take mark }

/-- Writes a loader to the file `mod.rs` of a folder. -/
def writeLoader (t : Target) (folder : Path) (m : LoaderModule) (g : Generation) : Generation :=
  let path := folder.joinText "mod.rs"
  match g.claim? path with
  | none => g.fail m.ns (.alreadyGenerated path)
  | some g =>
    match g.write t path (.loaderModule m) with
    | (g, none) => g
    | (g, some e) => g.fail m.ns e

end Generation

end RadiusDictionary
