import RadiusDictionary.Disk
import RadiusDictionary.Log

/-! # What happens while source is generated

Generation goes on after a failure: what cannot be written is left out, and recorded with the
reason. -/

namespace RadiusDictionary

/-- Why a file was not generated. -/
inductive GenerationError where
  /-- A folder or file could not be written. -/
  | file (e : FileError)
  /-- No number is known for the attribute in which this one is nested. -/
  | unresolvedParent (attributeName parent : String)
  /-- Another name led to the same file before. -/
  | alreadyGenerated (path : Path)
deriving DecidableEq, Repr, Inhabited

/-- The error as one line. -/
def GenerationError.message : GenerationError → String
  | file e => "IO: " ++ e.message
  | unresolvedParent attributeName parent =>
    attributeName ++ ": no type known for parent " ++ parent
  | alreadyGenerated path => path.text ++ " was already generated by another name"

/-- Something that was not generated: an attribute by its name, or a loader by its namespace. -/
structure Failure where
  artifact : String
  error : GenerationError
deriving DecidableEq, Repr, Inhabited

/-- Something that happens while source is generated. -/
inductive GenerationEvent where
  | attributeReached (name : String)
  | childrenSkipped (name : String)
  | artifactSkipped (failure : Failure)
  | fileRemoved (path : Path)
  | fileNotRemoved (path : Path) (e : FileError)
  | finished (written failures : Nat)
deriving DecidableEq, Repr, Inhabited

/-- The record of an event. -/
def GenerationEvent.record : GenerationEvent → LogRecord
  | attributeReached name => ⟨.info, "Processing attribute: " ++ name, []⟩
  | childrenSkipped name => ⟨.warn, "skipping TLV children of " ++ name, []⟩
  | artifactSkipped failure =>
    ⟨.error, "skipping artifact",
      [("artifact", .text failure.artifact), ("error", .text failure.error.message)]⟩
  | fileRemoved path => ⟨.warn, "removing unreachable " ++ path.text, []⟩
  | fileNotRemoved path e =>
    ⟨.warn, "could not remove " ++ path.text, [("error", .text e.message)]⟩
  | finished written failures =>
    ⟨.debug, "generation finished", [("written", .count written), ("failures", .count failures)]⟩

end RadiusDictionary
