import RadiusDictionary.CommandLine
import Std.Time.Format

/-! # The program

`main` runs `Program.run` on the disk at hand. The files that a run can reach are copied into a
`Disk`, the run changes that, and the changes are carried over. Which files those are is found in
two steps: what is read follows from the inclusions, and what is written from a first run. -/

namespace RadiusDictionary.Program

/-- The path of a location for the operating system. -/
def systemPath (loc : Location) : String := "/" ++ "/".intercalate loc.reverse

/-- The disk with what really lies at a location. -/
def copyEntry (disk : Disk) (loc : Location) : IO Disk := do
  match ← (IO.FS.readBinFile (systemPath loc)).toBaseIO with
  | .ok bytes => return disk.put loc (.file (.ofBytes bytes))
  | .error (.inappropriateType _ 21 _) => return disk.put loc .folder
  | .error _ => return disk

/-- The disk with what really lies on the way along the pieces of a path. -/
def copyAlong (disk : Disk) (loc : Location) : List String → IO Disk
  | [] => return disk
  | piece :: rest =>
    match disk.enter loc piece with
    | .error _ => return disk
    | .ok next => do
      let disk ← if (disk.entry? next).isSome then pure disk else copyEntry disk next
      copyAlong disk next rest

/-- The disk with the files at the paths and all that they include. -/
partial def copyFiles (root : Path) (disk : Disk) (known : List Path) : List Path → IO Disk
  | [] => return disk
  | path :: rest => do
    if known.contains path then copyFiles root disk known rest
    else
      let disk ←
        if (Disk.refusal? path).isSome then pure disk
        else copyAlong disk (disk.start path) path.pieces
      let more := match disk.readText path with
        | .ok text => (inclusions text).map root.joinText
        | .error _ => []
      copyFiles root disk (path :: known) (more ++ rest)

/-- The disk with all that a run with these settings can read. -/
def copyDictionary (settings : Settings) : IO Disk := do
  let here := (Path.ofText (← IO.currentDir).toString).names.reverse
  let disk ← copyAlong { Disk.empty with here } [] here.reverse
  let root := Path.ofText settings.dictionaryDir
  copyFiles root disk [] [root.joinText rootFile, root.joinText extensionFile]

/-- The disk with what really lies at the locations that a run would change. -/
def copyOutput (disk after : Disk) : IO Disk :=
  (after.entries.keys.filter fun loc => (disk.entry? loc).isNone).foldlM copyEntry disk

/-- Carries the changes from one disk to another over to the disk at hand. -/
def carryOver (before after : Disk) : IO Unit := do
  for (loc, entry) in after.entries.entries do
    if before.entry? loc ≠ some entry then
      match entry with
      | .folder => IO.FS.createDir (systemPath loc)
      | .file (.text text) => IO.FS.writeFile (systemPath loc) text
      | .file (.bytes bytes) => IO.FS.writeBinFile (systemPath loc) ⟨bytes⟩
  for loc in before.entries.keys do
    if (after.entry? loc).isNone then IO.FS.removeFile (systemPath loc)

/-- The time for the banners. -/
def timeStamp : IO String :=
  return (← Std.Time.DateTime.now).format "EEE, d MMM uuuu HH:mm:ss Z"

/-- The level of the log that a text asks for; `off` asks for none. -/
def levelOf? : Option String → Option Level
  | some "off" => none
  | some "error" => some .error
  | some "warn" => some .warn
  | some "debug" => some .debug
  | some "trace" => some .trace
  | _ => some .info

/-- A record as a line of the log. -/
def logLine (r : LogRecord) : String :=
  let field : String × FieldValue → String
    | (name, .text value) => " " ++ name ++ "=" ++ value
    | (name, .count value) => " " ++ name ++ "=" ++ Numeral.decimal value
  r.level.name ++ " " ++ r.message ++ String.join (r.fields.map field)

/-- Writes the records that the log shows. -/
def showLog (records : List LogRecord) : IO Unit := do
  match levelOf? (← IO.getEnv "RADDICT_LOG") with
  | none => return
  | some limit =>
    for r in records do
      if r.level.isShownAt limit then IO.eprintln (logLine r)

/-- How the program is called. -/
def usage : String :=
  "Usage: raddict [OPTIONS] <NAMESPACE> <DICTIONARY_DIR> <OUTPUT_DIR>\n\n" ++
  "Options:\n" ++
  "      --runtime <PATH>    Path of the runtime crate generated code uses\n" ++
  "      --strict-includes   Fail when an $INCLUDE cannot be read\n" ++
  "      --no-extension      Do not merge the dictionary.jradius extension definitions\n" ++
  "  -h, --help              Print help\n" ++
  "  -V, --version           Print version"

/-- Says how a run ended, if that is worth a word. -/
def showEnding : Ending → IO Unit
  | .early .help => IO.println usage
  | .early .version => IO.println Source.generatorName
  | .early (.usage e) => IO.eprintln (e.message ++ "\n\n" ++ usage)
  | .failed e => IO.eprintln e.message
  | .generated => return

/-- The disk on which the program is run. -/
def diskFor (args : List String) (stamp : String) : IO Disk := do
  match Arguments.read args with
  | .error _ => return .empty
  | .ok settings =>
    let disk ← copyDictionary settings
    copyOutput disk (run args disk stamp).disk

end RadiusDictionary.Program

open RadiusDictionary in
/-- Runs the program with the arguments of the command line. -/
def main (args : List String) : IO UInt32 := do
  let stamp ← Program.timeStamp
  let disk ← Program.diskFor args stamp
  let result := Program.run args disk stamp
  Program.carryOver disk result.disk
  Program.showLog (result.events.map (·.record))
  Program.showEnding result.ending
  return UInt32.ofNat result.ending.status
