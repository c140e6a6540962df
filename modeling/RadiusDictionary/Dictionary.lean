import RadiusDictionary.Directive.Grammar
import RadiusDictionary.Session
import RadiusDictionary.Text.Pieces

/-! # Reading dictionaries

A `Dictionary` is a folder on a disk with a file `dictionary` in it, which may include further
files, and options for the reading. A source is read line by line; each line has its effect on the
session, and an inclusion reads the included file in its place. A file that is being read is not
included once more, so the depth of inclusion is bounded by the number of inclusions that the
sources at hand mention.

At the end the extension file is read, unless it was included or is not wanted; if it cannot be
read, declarations that are built in take its place. -/

namespace RadiusDictionary

/-- What reading leaves: the session, what happened, and why the reading was broken off if it was.
-/
structure Outcome where
  session : Session
  events : List ReadingEvent
  failure : Option LoadError

namespace Outcome

/-- Nothing happened yet. -/
def still (s : Session) : Outcome := ⟨s, [], none⟩

/-- The outcome with something that happened before. -/
def after (o : Outcome) (events : List ReadingEvent) : Outcome :=
  { o with events := events ++ o.events }

/-- The outcome of two parts, the second of which is not reached if the first is broken off. -/
def andThen (o : Outcome) (next : Session → Outcome) : Outcome :=
  match o.failure with
  | some _ => o
  | none => (next o.session).after o.events

end Outcome

/-- Choices for the reading of a dictionary. -/
structure ReadOptions where
  /-- Whether a failing inclusion breaks off the reading. -/
  strictIncludes : Bool
  /-- Whether the extension file is read at the end. -/
  mergeExtension : Bool
deriving DecidableEq, Repr, Inhabited

/-- A dictionary on a disk. -/
structure Dictionary where
  disk : Disk
  /-- The folder from which the names of files are understood. -/
  root : Path
  options : ReadOptions
deriving Inhabited

/-- The file with which a dictionary starts. -/
def rootFile : String := "dictionary"

/-- The declarations that are merged when the extension file cannot be read. -/
def builtinExtension : String :=
  "VENDOR\tJRadius\t19211\n" ++
  "ATTRIBUTE\tJRadius-Request-Id\t1\tstring\tJRadius\n" ++
  "ATTRIBUTE\tJRadius-Session-Id\t2\tstring\tJRadius\n" ++
  "ATTRIBUTE\tJRadius-Proxy-Client\t3\toctets\tJRadius\n"

/-- The files that a text includes. -/
def inclusions (text : String) : List String :=
  (Text.lines text).filterMap fun line =>
    match Line.read line with
    | .directive (.inclusion file _) => some file
    | _ => none

namespace Dictionary

/-- The path of a file of the dictionary. -/
def pathOf (dict : Dictionary) (file : String) : Path := dict.root.joinText file

/-- An inclusion. `nested` reads the included file. -/
def interpretInclusion (dict : Dictionary) (nested : String → Session → Outcome) (origin : Origin)
    (file : String) (isOptional : Bool) (s : Session) : Outcome :=
  let path := dict.pathOf file
  if s.openFiles.any path.same then ⟨s, [.inclusionRecursive origin file], none⟩
  else if isOptional && !dict.disk.holds path then ⟨s, [.inclusionAbsent origin file], none⟩
  else
    let read := (nested file s).after [.including file]
    match read.failure with
    | none =>
      if file = extensionFile then
        { read with session := { read.session with hasExtension := true } }
      else read
    | some cause =>
      if dict.options.strictIncludes then { read with failure := some (.inclusion file cause) }
      else
        { read with
          events := read.events ++ [.inclusionFailed origin file cause]
          failure := none }

/-- One line. -/
def interpretLine (dict : Dictionary) (nested : String → Session → Outcome) (origin : Origin) :
    Line → Session → Outcome
  | .blank, s => .still s
  | .malformed, s => ⟨s, [.lineIgnored origin], none⟩
  | .directive (.inclusion file isOptional), s =>
    (dict.interpretInclusion nested origin file isOptional s).after
      [.directive origin (Directive.inclusion file isOptional).keyword]
  | .directive (.statement statement), s =>
    let (s, events) := s.apply origin statement
    ⟨s, .directive origin statement.keyword :: events, none⟩

/-- The lines of a source from the one numbered `number` on. -/
def interpretLines (dict : Dictionary) (nested : String → Session → Outcome) (file : String) :
    (number : Nat) → List String → Session → Outcome
  | _, [], s => .still s
  | number, line :: rest, s =>
    (dict.interpretLine nested ⟨file, number⟩ (.read line) s).andThen
      (dict.interpretLines nested file (number + 1) rest)

/-- A text, as if it were the content of `file`. -/
def interpretSource (dict : Dictionary) (nested : String → Session → Outcome) (file text : String)
    (s : Session) : Outcome :=
  dict.interpretLines nested file 1 (Text.lines text) s

/-- A file in which inclusions may go down to `depth`. -/
def interpretFileTo (dict : Dictionary) : (depth : Nat) → (file : String) → Session → Outcome
  | 0, _, s => ⟨s, [], some .tooDeep⟩
  | depth + 1, file, s =>
    let path := dict.pathOf file
    match dict.disk.readText path with
    | .error e => ⟨s, [], some (.file e)⟩
    | .ok text =>
      let read := dict.interpretSource (dict.interpretFileTo depth) file text
        { s with openFiles := path :: s.openFiles }
      { read with session := { read.session with openFiles := read.session.openFiles.tail } }

/-- A depth that no reading exceeds when it starts with `text` or with a file on the disk: each file
being read but the first is there by an inclusion of its own. -/
def depthFrom (dict : Dictionary) (text : String) : Nat :=
  (dict.disk.texts.flatMap inclusions).length + (inclusions text).length + 1

/-- Reads a file of the dictionary. -/
def interpretFile (dict : Dictionary) (file : String) (s : Session) : Outcome :=
  dict.interpretFileTo (dict.depthFrom "") file s

/-- Reads a text as part of the dictionary. -/
def interpretString (dict : Dictionary) (text : String) (s : Session) : Outcome :=
  dict.interpretSource (dict.interpretFileTo (dict.depthFrom text)) "<string>" text s

/-- Reads the built-in declarations. -/
def interpretBuiltin (dict : Dictionary) (s : Session) : Outcome :=
  dict.interpretSource (dict.interpretFileTo (dict.depthFrom builtinExtension)) "<built-in>"
    builtinExtension s

/-- The end of the reading: the extension is merged if it is wanted and was not included. -/
def finish (dict : Dictionary) (s : Session) : Session × List ReadingEvent :=
  if dict.options.mergeExtension && !s.hasExtension then
    let read := dict.interpretFile extensionFile s
    match read.failure with
    | none => (read.session, read.events)
    | some cause =>
      let builtin := (dict.interpretBuiltin read.session).after
        (read.events ++ [.extensionUnread cause])
      (builtin.session, builtin.events)
  else (s, [])

/-- Reads the whole dictionary. -/
def load (dict : Dictionary) : Except LoadError Registry × List ReadingEvent :=
  let read := dict.interpretFile rootFile .start
  match read.failure with
  | some e => (.error e, read.events)
  | none =>
    let (s, events) := dict.finish read.session
    (.ok s.registry, read.events ++ events)

end Dictionary

end RadiusDictionary
