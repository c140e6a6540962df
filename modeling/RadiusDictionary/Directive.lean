/-! # Directives

A dictionary is read line by line, and a line holds at most one directive. A `Statement` declares
something or opens or closes a scope; the other directive includes a further file. Numbers are still
texts here: whether they are numbers is a question for the statement's effect. -/

namespace RadiusDictionary

/-- `VENDOR name number [extra]` -/
structure VendorLine where
  name : String
  number : String
  extra : Option String
deriving DecidableEq, Repr, Inhabited

/-- `ATTRIBUTE name number type [vendor or extra ...]` -/
structure AttributeLine where
  name : String
  number : String
  typeTag : String
  /-- The operands after the type. Whether one names a vendor depends on what is declared. -/
  trailing : List String
deriving DecidableEq, Repr, Inhabited

/-- `VALUE attribute name number` -/
structure ValueLine where
  attributeName : String
  name : String
  number : String
deriving DecidableEq, Repr, Inhabited

/-- A directive that acts on the declarations. -/
inductive Statement where
  | beginTlv (name : String)
  | endTlv (name : Option String)
  | beginVendor (name : String)
  | endVendor (name : Option String)
  | declareVendor (line : VendorLine)
  | declareAttribute (line : AttributeLine)
  | declareValue (line : ValueLine)
deriving DecidableEq, Repr, Inhabited

/-- What a line asks for. -/
inductive Directive where
  /-- Read a file here. An optional one may be missing. -/
  | inclusion (file : String) (isOptional : Bool)
  | statement (s : Statement)
deriving DecidableEq, Repr, Inhabited

/-- The word that introduces the statement. -/
def Statement.keyword : Statement → String
  | beginTlv _ => "BEGIN-TLV"
  | endTlv _ => "END-TLV"
  | beginVendor _ => "BEGIN-VENDOR"
  | endVendor _ => "END-VENDOR"
  | declareVendor _ => "VENDOR"
  | declareAttribute _ => "ATTRIBUTE"
  | declareValue _ => "VALUE"

/-- The word that introduces the directive. -/
def Directive.keyword : Directive → String
  | inclusion _ false => "$INCLUDE"
  | inclusion _ true => "$INCLUDE-"
  | statement s => s.keyword

/-- What a line is. -/
inductive Line where
  /-- Nothing, or a comment. -/
  | blank
  | directive (d : Directive)
  /-- Anything else. -/
  | malformed
deriving DecidableEq, Repr, Inhabited

end RadiusDictionary
