import RadiusDictionary.Compilation

/-! # The command line

The program takes a namespace, the folder of a dictionary and the folder for the generated source,
and some options. `Arguments.read` reads the arguments from left to right; the first that is wrong,
or asks for help or for the version, decides. `Program.run` carries out what the arguments ask for.
-/

namespace RadiusDictionary

/-- Why arguments are refused. -/
inductive UsageError where
  | missing (what : String)
  | unexpected (argument : String)
  | repeated (option : String)
  | withoutValue (option : String)
  | withValue (option : String)
  | emptyValue (what : String)
deriving DecidableEq, Repr, Inhabited

/-- The error as one line. -/
def UsageError.message : UsageError → String
  | missing what => "error: the argument <" ++ what ++ "> is missing"
  | unexpected argument => "error: unexpected argument " ++ argument
  | repeated option => "error: the option " ++ option ++ " cannot be used twice"
  | withoutValue option => "error: the option " ++ option ++ " needs a value"
  | withValue option => "error: the option " ++ option ++ " takes no value"
  | emptyValue what => "error: the argument <" ++ what ++ "> is empty"

/-- Why the reading of arguments ends before all are read. -/
inductive EarlyEnd where
  | help
  | version
  | usage (e : UsageError)
deriving DecidableEq, Repr, Inhabited

/-- The arguments read so far. -/
structure Arguments where
  /-- The arguments that belong to no option. -/
  operands : List String
  runtime : Option String
  strictIncludes : Bool
  noExtension : Bool
deriving DecidableEq, Repr, Inhabited

/-- What the program is to do. -/
structure Settings where
  namespaceText : String
  dictionaryDir : String
  outputDir : String
  runtime : String
  strictIncludes : Bool
  mergeExtension : Bool
deriving DecidableEq, Repr, Inhabited

namespace Arguments

/-- No argument is read. -/
def none : Arguments := ⟨[], .none, false, false⟩

/-- The operands in their order, with whether they may be empty. -/
def operandNames : List (String × Bool) :=
  [("NAMESPACE", true), ("DICTIONARY_DIR", false), ("OUTPUT_DIR", false)]

/-- One more operand. -/
def addOperand (as : Arguments) (text : String) : Except EarlyEnd Arguments :=
  match operandNames[as.operands.length]? with
  | .none => .error (.usage (.unexpected text))
  | some (name, mayBeEmpty) =>
    if text = "" && !mayBeEmpty then .error (.usage (.emptyValue name))
    else .ok { as with operands := as.operands ++ [text] }

/-- The value for the runtime's path. -/
def setRuntime (as : Arguments) (value : String) : Except EarlyEnd Arguments :=
  if as.runtime.isSome then .error (.usage (.repeated "--runtime"))
  else .ok { as with runtime := some value }

/-- An option that is written without a value, or with one after an equals sign. -/
def addFlag (as : Arguments) (name : String) (value : Option String) : Except EarlyEnd Arguments :=
  match name, value with
  | "--strict-includes", .none =>
    if as.strictIncludes then .error (.usage (.repeated name))
    else .ok { as with strictIncludes := true }
  | "--no-extension", .none =>
    if as.noExtension then .error (.usage (.repeated name))
    else .ok { as with noExtension := true }
  | "--help", .none => .error .help
  | "--version", .none => .error .version
  | _, .none => .error (.usage (.unexpected name))
  | _, some _ =>
    if ["--strict-includes", "--no-extension", "--help", "--version"].contains name then
      .error (.usage (.withValue name))
    else .error (.usage (.unexpected name))

/-- Short options: the first letter decides. -/
def shortOption (text : String) : EarlyEnd :=
  match text.toList with
  | _ :: 'h' :: _ => .help
  | _ :: 'V' :: _ => .version
  | _ => .usage (.unexpected text)

/-- Whether an argument can be a value or an operand: it does not start with a hyphen, or is one. -/
def isPlain (text : String) : Bool := text = "-" || !Text.startsWith text "-"

/-- A long option, cut at its first equals sign. -/
def splitOption (text : String) : String × Option String :=
  let cs := text.toList
  match cs.dropWhile (· ≠ '=') with
  | [] => (text, .none)
  | _ :: value => (.ofList (cs.takeWhile (· ≠ '=')), some (.ofList value))

/-- Reads arguments after others. -/
def readAfter (as : Arguments) : List String → Except EarlyEnd Arguments
  | [] => .ok as
  | text :: rest =>
    if isPlain text then do (← as.addOperand text).readAfter rest
    else if text = "--" then rest.foldlM addOperand as
    else if !Text.startsWith text "--" then .error (shortOption text)
    else match splitOption text, rest with
      | ("--runtime", some value), rest => do (← as.setRuntime value).readAfter rest
      | ("--runtime", .none), value :: rest =>
        if isPlain value then do (← as.setRuntime value).readAfter rest
        else .error (.usage (.withoutValue text))
      | ("--runtime", .none), [] => .error (.usage (.withoutValue text))
      | (name, value), rest => do (← as.addFlag name value).readAfter rest

/-- What complete arguments ask for. -/
def settings (as : Arguments) : Except EarlyEnd Settings :=
  match as.operands with
  | [namespaceText, dictionaryDir, outputDir] =>
    .ok { namespaceText, dictionaryDir, outputDir, runtime := as.runtime.getD defaultRuntime,
          strictIncludes := as.strictIncludes, mergeExtension := !as.noExtension }
  | operands =>
    .error (.usage (.missing ((operandNames[operands.length]?.map (·.1)).getD "")))

/-- Reads the arguments of the program. -/
def read (args : List String) : Except EarlyEnd Settings := do (← none.readAfter args).settings

end Arguments

namespace Settings

/-- The dictionary to read. -/
def dictionary (s : Settings) (disk : Disk) : Dictionary :=
  ⟨disk, .ofText s.dictionaryDir, ⟨s.strictIncludes, s.mergeExtension⟩⟩

/-- What to generate. -/
def target (s : Settings) (stamp : String) : Target :=
  ⟨.parse s.namespaceText, .ofText s.outputDir, s.runtime, stamp⟩

end Settings

/-- Why the program ends without having generated anything. -/
inductive ProgramError where
  | noSegments (namespaceText : String)
  | dictionaryUnread (dictionaryDir : String) (cause : LoadError)
deriving DecidableEq, Repr, Inhabited

/-- What the program says of the error. -/
def ProgramError.message : ProgramError → String
  | noSegments text => "Error: namespace " ++ Text.quoted text ++ " has no segments"
  | dictionaryUnread dir cause =>
    "Error: reading dictionary in " ++ dir ++ "\n\nCaused by:\n    " ++ cause.message

namespace Program

/-- How a run ends. -/
inductive Ending where
  | early (e : EarlyEnd)
  | failed (e : ProgramError)
  | generated
deriving DecidableEq, Repr, Inhabited

/-- The exit status. -/
def Ending.status : Ending → Nat
  | early (.usage _) => 2
  | early _ => 0
  | failed _ => 1
  | generated => 0

/-- What a run leaves. -/
structure Result where
  ending : Ending
  disk : Disk
  events : List CompileEvent

/-- Runs the program with arguments on a disk. `stamp` goes into the banners. -/
def run (args : List String) (disk : Disk) (stamp : String) : Result :=
  match Arguments.read args with
  | .error e => ⟨.early e, disk, []⟩
  | .ok settings =>
    let target := settings.target stamp
    if target.ns.isEmpty then ⟨.failed (.noSegments settings.namespaceText), disk, []⟩
    else match compile (settings.dictionary disk) target with
      | (.error e, events) => ⟨.failed (.dictionaryUnread settings.dictionaryDir e), disk, events⟩
      | (.ok g, events) => ⟨.generated, g.disk, events⟩

end Program

end RadiusDictionary
