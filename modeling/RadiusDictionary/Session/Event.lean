import RadiusDictionary.Disk
import RadiusDictionary.Log
import RadiusDictionary.Numeral
import RadiusDictionary.Text.Quoted

/-! # What happens while a dictionary is read

An `Event` is something worth a line in the log, with the place in the dictionary where it happened.
A `LoadError` says why a dictionary could not be read. -/

namespace RadiusDictionary

/-- A line of a dictionary. -/
structure Origin where
  file : String
  line : Nat
deriving DecidableEq, Repr, Inhabited

/-- The line as the log names it. -/
def Origin.text (origin : Origin) : String := origin.file ++ ":" ++ Numeral.decimal origin.line

/-- Why a dictionary could not be read. -/
inductive LoadError where
  /-- A file could not be read. -/
  | file (e : FileError)
  /-- An included file could not be read, or a file included by it. -/
  | inclusion (file : String) (cause : LoadError)
  /-- Files include one another to a greater depth than there are inclusions. This never happens. -/
  | tooDeep
deriving DecidableEq, Repr, Inhabited

/-- The error as one line. -/
def LoadError.message : LoadError → String
  | file e => "IO: " ++ e.message
  | inclusion f cause => "Include " ++ f ++ ": " ++ cause.message
  | tooDeep => "IO: too many nested includes"

/-- The two kinds of scopes that statements open and close. -/
inductive ScopeKind where
  | tlv
  | vendor
deriving DecidableEq, Repr, Inhabited

namespace ScopeKind

/-- The keyword that opens a scope. -/
def opener : ScopeKind → String
  | tlv => "BEGIN-TLV"
  | vendor => "BEGIN-VENDOR"

/-- The keyword that closes a scope. -/
def closer : ScopeKind → String
  | tlv => "END-TLV"
  | vendor => "END-VENDOR"

/-- The scope's name in a message. -/
def word : ScopeKind → String
  | tlv => "TLV"
  | vendor => "vendor"

end ScopeKind

/-- Why an `ATTRIBUTE` line declares nothing. -/
inductive Refusal where
  /-- The number is none. -/
  | badNumber
  /-- An attribute of that name, up to case, is declared already. -/
  | alreadyDefined
  /-- The number does not fit the type of a nested attribute. -/
  | childNumber (number : UInt32)
  /-- The open TLV scope names no attribute of the vendor, or none without a vendor. -/
  | noParent (parent : String)
deriving DecidableEq, Repr, Inhabited

/-- Something that happens while a dictionary is read. -/
inductive ReadingEvent where
  | directive (origin : Origin) (keyword : String)
  | lineIgnored (origin : Origin)
  | scopeReopened (origin : Origin) (kind : ScopeKind) (name opened : String)
  | scopeNotOpen (origin : Origin) (kind : ScopeKind)
  | scopeMismatch (origin : Origin) (kind : ScopeKind) (name opened : String)
  | inclusionRecursive (origin : Origin) (file : String)
  | inclusionAbsent (origin : Origin) (file : String)
  | including (file : String)
  | inclusionFailed (origin : Origin) (file : String) (cause : LoadError)
  | extensionUnread (cause : LoadError)
  | vendorNumber (origin : Origin) (name number : String)
  | vendorRedefined (origin : Origin) (name : String)
  | vendorUndeclared (origin : Origin) (name vendor : String)
  | attributeRefused (origin : Origin) (name number : String) (why : Refusal)
  | attributeSeen (name : String)
  | valueNumber (origin : Origin) (attributeName name number : String)
  | valueDropped (origin : Origin) (attributeName : String)
deriving DecidableEq, Repr, Inhabited

/-- The file that holds further declarations for every dictionary. -/
def extensionFile : String := "dictionary.jradius"

namespace ReadingEvent

/-- A record that names a line of a dictionary. -/
def recordAt (level : Level) (origin : Origin) (message : String)
    (more : List (String × FieldValue)) : LogRecord :=
  ⟨level, message, ("location", .text origin.text) :: more⟩

/-- The record of a refused `ATTRIBUTE` line. -/
def refusalRecord (origin : Origin) (name number : String) : Refusal → LogRecord
  | .badNumber =>
    recordAt .debug origin ("ATTRIBUTE " ++ name ++ ": bad number " ++ Text.quoted number) []
  | .alreadyDefined =>
    recordAt .debug origin ("ATTRIBUTE " ++ name ++ " already defined; keeping the first") []
  | .childNumber n =>
    recordAt .warn origin
      ("ATTRIBUTE " ++ name ++ ": TLV child number " ++ Numeral.decimal n.toNat
        ++ " does not fit the nested type") []
  | .noParent parent =>
    recordAt .warn origin
      ("ATTRIBUTE " ++ name ++ ": TLV parent " ++ parent ++ " not found") []

/-- The record of an event. -/
def record : ReadingEvent → LogRecord
  | directive origin keyword => recordAt .trace origin keyword []
  | lineIgnored origin => recordAt .trace origin "ignoring line" []
  | scopeReopened origin kind name opened =>
    recordAt .warn origin
      (kind.opener ++ " " ++ name ++ " while " ++ kind.word ++ " scope is open")
      [("open", .text opened)]
  | scopeNotOpen origin kind => recordAt .warn origin (kind.closer ++ " with no open scope") []
  | scopeMismatch origin kind name opened =>
    recordAt .warn origin (kind.closer ++ " " ++ name ++ " does not match open scope")
      [("open", .text opened)]
  | inclusionRecursive origin file =>
    recordAt .warn origin ("skipping recursive include of " ++ file) []
  | inclusionAbsent origin file =>
    recordAt .debug origin ("optional include " ++ file ++ " not present") []
  | including file => ⟨.info, "Including file: " ++ file, []⟩
  | inclusionFailed origin file cause =>
    recordAt .warn origin ("could not include " ++ file) [("error", .text cause.message)]
  | extensionUnread cause =>
    ⟨.warn, extensionFile
      ++ " was not included and could not be read; merging built-in definitions",
      [("error", .text cause.message)]⟩
  | vendorNumber origin name number =>
    recordAt .debug origin ("VENDOR " ++ name ++ ": bad number " ++ Text.quoted number) []
  | vendorRedefined origin name => recordAt .debug origin ("VENDOR " ++ name ++ " redefined") []
  | vendorUndeclared origin name vendor =>
    recordAt .warn origin
      ("ATTRIBUTE " ++ name ++ ": vendor scope " ++ vendor ++ " was never declared") []
  | attributeRefused origin name number why => refusalRecord origin name number why
  | attributeSeen name => ⟨.debug, "Seen = " ++ name, []⟩
  | valueNumber origin attributeName name number =>
    recordAt .debug origin
      ("VALUE " ++ attributeName ++ " " ++ name ++ ": bad number " ++ Text.quoted number) []
  | valueDropped origin attributeName =>
    recordAt .debug origin ("VALUE for unknown attribute " ++ attributeName ++ " dropped") []

end ReadingEvent

end RadiusDictionary
