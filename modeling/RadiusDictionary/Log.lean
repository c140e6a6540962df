/-! # Log records

What the compiler reports on its way: a level, a message, and fields that say where and why. -/

namespace RadiusDictionary

/-- How severe a record is, the most severe first. -/
inductive Level where
  | error
  | warn
  | info
  | debug
  | trace
deriving DecidableEq, Repr, Inhabited

namespace Level

/-- The level's name in the log. -/
def name : Level → String
  | error => "ERROR"
  | warn => "WARN"
  | info => "INFO"
  | debug => "DEBUG"
  | trace => "TRACE"

/-- The level's place in the order of severity. -/
def rank : Level → Nat
  | error => 0
  | warn => 1
  | info => 2
  | debug => 3
  | trace => 4

/-- Whether records of a level are shown by a log of level `limit`. -/
def isShownAt (level limit : Level) : Bool := level.rank ≤ limit.rank

end Level

/-- The value of a field. -/
inductive FieldValue where
  | text (value : String)
  | count (value : Nat)
deriving DecidableEq, Repr, Inhabited

/-- One record of the log. -/
structure LogRecord where
  level : Level
  message : String
  fields : List (String × FieldValue)
deriving DecidableEq, Repr, Inhabited

end RadiusDictionary
