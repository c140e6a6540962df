import RadiusDictionary.OrderedMap
import RadiusDictionary.Path

/-! # Disks

A `Disk` holds folders and files, each at a `Location`. Paths are resolved piece by piece: every
piece but the last has to lead into a folder, and `..` leads out of one. The operations are those of
the program: read a text, make a folder with all that it lies in, write a file, remove a file. Each
fails with the `Fault` that an operating system names in the same case; some paths are refused
whatever lies on the disk (`refusal?`). -/

namespace RadiusDictionary

/-- Why an operation on files fails. -/
inductive Fault where
  | notFound
  | alreadyExists
  | notAFolder
  | isAFolder
  | nameTooLong
  | notText
  | nulInName
deriving DecidableEq, Repr, Inhabited

/-- The fault in the words of the operating system. -/
def Fault.message : Fault → String
  | notFound => "No such file or directory (os error 2)"
  | alreadyExists => "File exists (os error 17)"
  | notAFolder => "Not a directory (os error 20)"
  | isAFolder => "Is a directory (os error 21)"
  | nameTooLong => "File name too long (os error 36)"
  | notText => "stream did not contain valid UTF-8"
  | nulInName => "file name contained an unexpected NUL byte"

/-- What was tried on a path. -/
inductive FileAction where
  | openFile
  | readFile
  | createFolder
  | createFile
  | removeFile
deriving DecidableEq, Repr, Inhabited

/-- The action in the words of an error message. -/
def FileAction.words : FileAction → String
  | openFile => "open file"
  | readFile => "read from file"
  | createFolder => "create directory"
  | createFile => "create file"
  | removeFile => "remove file"

/-- A failed operation on a path. -/
structure FileError where
  action : FileAction
  path : Path
  fault : Fault
deriving DecidableEq, Repr, Inhabited

/-- The error as one line. -/
def FileError.message (e : FileError) : String :=
  "failed to " ++ e.action.words ++ " `" ++ e.path.text ++ "`: " ++ e.fault.message

/-- What a file holds: a text, or bytes that are none. -/
inductive Content where
  | text (value : String)
  | bytes (value : Array UInt8)
deriving DecidableEq, Inhabited

/-- The content that bytes make. -/
def Content.ofBytes (bytes : ByteArray) : Content :=
  match String.fromUTF8? bytes with
  | some value => text value
  | none => .bytes bytes.data

/-- What lies at a location. -/
inductive Entry where
  | folder
  | file (content : Content)
deriving DecidableEq, Inhabited

/-- A place on a disk: the names on the way to it from the top, the innermost first. -/
abbrev Location := List String

/-- Folders and files by location. The top is always a folder. -/
structure Disk where
  entries : OrderedMap Location Entry
  /-- Where relative paths start. -/
  here : Location
deriving DecidableEq, Inhabited

namespace Disk

/-- The disk with nothing on it. -/
def empty : Disk := ⟨∅, []⟩

/-- What lies at a location. -/
def entry? (d : Disk) : Location → Option Entry
  | [] => some .folder
  | loc => d.entries.get? loc

/-- The disk with something put at a location. -/
def put (d : Disk) (loc : Location) (entry : Entry) : Disk :=
  { d with entries := d.entries.insert loc entry }

/-- Fails unless a folder lies at the location. -/
def requireFolder (d : Disk) (loc : Location) : Except Fault Unit :=
  match d.entry? loc with
  | none => .error .notFound
  | some (.file _) => .error .notAFolder
  | some .folder => .ok ()

/-- Whether a name has more bytes than a file system takes. -/
def isTooLong (name : String) : Bool := 255 < name.utf8ByteSize

/-- The location one piece of a path further. -/
def enter (d : Disk) (loc : Location) (piece : String) : Except Fault Location := do
  d.requireFolder loc
  if piece = "" || piece = "." then return loc
  else if piece = ".." then return loc.tail
  else if isTooLong piece then throw .nameTooLong
  else return piece :: loc

/-- Why a path is refused as a whole: it has a null character in it, or more bytes than an operating
system takes. -/
def refusal? (p : Path) : Option Fault :=
  if p.text.toList.contains '\x00' then some .nulInName
  else if 4095 < p.text.utf8ByteSize then some .nameTooLong
  else none

/-- Where a path starts. -/
def start (d : Disk) (p : Path) : Location := if p.isAbsolute then [] else d.here

/-- The location to which a path leads. Nothing has to lie there. -/
def resolve (d : Disk) (p : Path) : Except Fault Location :=
  match refusal? p with
  | some fault => .error fault
  | none =>
    if p.pieces = [""] then .error .notFound
    else p.pieces.foldlM d.enter (d.start p)

/-- Whether a path leads to a file or a folder. -/
def holds (d : Disk) (p : Path) : Bool :=
  match d.resolve p with
  | .ok loc => (d.entry? loc).isSome
  | .error _ => false

/-- The text of the file at a path. -/
def readText (d : Disk) (p : Path) : Except FileError String :=
  match d.resolve p with
  | .error fault => .error ⟨.openFile, p, fault⟩
  | .ok loc =>
    match d.entry? loc with
    | none => .error ⟨.openFile, p, .notFound⟩
    | some .folder => .error ⟨.readFile, p, .isAFolder⟩
    | some (.file (.bytes _)) => .error ⟨.readFile, p, .notText⟩
    | some (.file (.text value)) => .ok value

/-- The location of a name in a folder that is reached from `start` through the names `outer`, the
innermost first. -/
def locate (d : Disk) (start : Location) (outer : List String) (name : String) :
    Except Fault Location := do
  let loc ← outer.reverse.foldlM d.enter start
  d.requireFolder loc
  if isTooLong name then throw .nameTooLong
  return name :: loc

/-- Makes one folder, given by its names from `start`, the innermost first. The folder around it has
to be there. -/
def makeFolder (d : Disk) (start : Location) : List String → Except Fault Disk
  | [] => .error .alreadyExists
  | name :: outer => do
    let loc ← d.locate start outer name
    if name = ".." || (d.entry? loc).isSome then throw .alreadyExists
    return d.put loc .folder

/-- Whether names lead from `start` to a folder, the innermost first. -/
def isFolder (d : Disk) (start : Location) (names : List String) : Bool :=
  match names.reverse.foldlM d.enter start with
  | .ok loc => d.entry? loc = some .folder
  | .error _ => false

/-- Makes a folder where there may be one already, given by its names from `start`, the innermost
first. If the folder around it is missing, that one is made first. What was made before a fault
stays. -/
def makeFolders (d : Disk) (start : Location) : List String → Disk × Option Fault
  | [] => (d, none)
  | name :: outer =>
    match d.makeFolder start (name :: outer) with
    | .ok made => (made, none)
    | .error .notFound =>
      match d.makeFolders start outer with
      | (around, some fault) => (around, some fault)
      | (around, none) =>
        match around.makeFolder start (name :: outer) with
        | .ok made => (made, none)
        | .error fault =>
          (around, if around.isFolder start (name :: outer) then none else some fault)
    | .error fault => (d, if d.isFolder start (name :: outer) then none else some fault)

/-- Makes the folder at a path with all that it lies in. -/
def createFolder (d : Disk) (p : Path) : Disk × Option FileError :=
  let (made, fault?) :=
    match refusal? p with
    | some fault => (d, some fault)
    | none => d.makeFolders (d.start p) p.names.reverse
  (made, fault?.map (⟨.createFolder, p, ·⟩))

/-- The location of the file that a path names, folders excluded. -/
def fileLocation (d : Disk) (p : Path) : Except Fault Location :=
  match refusal? p, p.names.reverse with
  | some fault, _ => .error fault
  | none, [] => .error .isAFolder
  | none, name :: outer => do
    let loc ← d.locate (d.start p) outer name
    if name = ".." || d.entry? loc = some .folder then throw .isAFolder
    return loc

/-- Writes a file, new or in place of an old one. -/
def writeFile (d : Disk) (p : Path) (value : String) : Except FileError Disk :=
  match d.fileLocation p with
  | .error fault => .error ⟨.createFile, p, fault⟩
  | .ok loc => .ok (d.put loc (.file (.text value)))

/-- Removes a file. -/
def removeFile (d : Disk) (p : Path) : Except FileError Disk :=
  match d.fileLocation p with
  | .error fault => .error ⟨.removeFile, p, fault⟩
  | .ok loc =>
    if (d.entry? loc).isSome then .ok { d with entries := d.entries.erase loc }
    else .error ⟨.removeFile, p, .notFound⟩

/-- The texts of all files. -/
def texts (d : Disk) : List String :=
  d.entries.values.filterMap fun
    | .file (.text value) => some value
    | _ => none

end Disk

end RadiusDictionary
