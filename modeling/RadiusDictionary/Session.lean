import RadiusDictionary.Directive
import RadiusDictionary.Numeral
import RadiusDictionary.Registry
import RadiusDictionary.Session.Event
import RadiusDictionary.TypeCode

/-! # Sessions

A `Session` is what is known at some point of reading a dictionary: the declarations so far, the
scopes that are open, and the files that are being read. Each statement has its effect on a session
as a function of its own, `apply` being all of them together. A statement never fails: what cannot
be carried out leaves the session as it is, and the log says so. -/

namespace RadiusDictionary

/-- What is known while a dictionary is read. -/
structure Session where
  registry : Registry
  /-- The names of all attributes in lower case. -/
  seenNames : List String
  /-- The vendor scope. There is one at most: a second `BEGIN-VENDOR` replaces the first. -/
  openVendor : Option String
  /-- The TLV scope. There is one at most. -/
  openTlv : Option String
  /-- Whether the extension file has been included. -/
  hasExtension : Bool
  /-- The files being read, the innermost first. -/
  openFiles : List Path
deriving Inhabited

namespace Registry

/-- The attributes of a vendor, or those without one. -/
def attributesOf (r : Registry) : Option String → AttributeMap
  | none => r.attributes
  | some vendor => ((r.vendors.get? vendor).map (·.attributes)).getD ∅

/-- The registry with the attributes of a vendor, or those without one, changed. -/
def modifyAttributes (r : Registry) (vendor : Option String) (f : AttributeMap → AttributeMap) :
    Registry :=
  match vendor with
  | none => { r with attributes := f r.attributes }
  | some name =>
    { r with vendors := r.vendors.modify name fun v => { v with attributes := f v.attributes } }

/-- The registry with a declared attribute: among its vendor's attributes, or nested in the one of
them that is its parent. -/
def declare (r : Registry) (parent : Option String) (d : Declaration) : Registry :=
  r.modifyAttributes d.vendor fun attributes =>
    match parent with
    | none => attributes.insert d.name d.toAttribute
    | some name => attributes.modify name fun a => a.addChild d.name d.toAttribute

/-- The registry with a declared vendor. One that is declared already keeps its attributes. -/
def declareVendor (r : Registry) (name : String) (number : UInt32) (extra : Option String) :
    Registry :=
  let attributes := r.attributesOf (some name)
  let home := Namespace.ofVendor name
  { r with vendors := r.vendors.insert name { name, number, home, extra, attributes } }

end Registry

namespace Session

/-- The session before anything is read. -/
def start : Session := ⟨∅, [], none, none, false, []⟩

/-- Whether an attribute of that name, up to case, is declared. -/
def hasSeen (s : Session) (name : String) : Bool := s.seenNames.contains (Text.lowercase name)

/-! ### Scopes -/

/-- The name of the open scope of a kind. -/
def openScope (s : Session) : ScopeKind → Option String
  | .tlv => s.openTlv
  | .vendor => s.openVendor

/-- The session with a scope opened or closed. -/
def setScope (s : Session) (kind : ScopeKind) (name : Option String) : Session :=
  match kind with
  | .tlv => { s with openTlv := name }
  | .vendor => { s with openVendor := name }

/-- Opens a scope, in place of one that is open. -/
def beginScope (s : Session) (origin : Origin) (kind : ScopeKind) (name : String) :
    Session × List ReadingEvent :=
  (s.setScope kind (some name),
    (s.openScope kind).toList.map fun opened => .scopeReopened origin kind name opened)

/-- Closes the open scope, whatever its name. -/
def endScope (s : Session) (origin : Origin) (kind : ScopeKind) (name : Option String) :
    Session × List ReadingEvent :=
  (s.setScope kind none,
    match s.openScope kind, name with
    | none, _ => [.scopeNotOpen origin kind]
    | some _, none => []
    | some opened, some name =>
      if opened = name then [] else [.scopeMismatch origin kind name opened])

/-! ### Vendors -/

/-- The effect of a `VENDOR` line. -/
def declareVendor (s : Session) (origin : Origin) (line : VendorLine) :
    Session × List ReadingEvent :=
  match Numeral.unsigned? line.number with
  | none => (s, [.vendorNumber origin line.name line.number])
  | some number =>
    ({ s with registry := s.registry.declareVendor line.name number line.extra },
      if s.registry.vendors.contains line.name then [.vendorRedefined origin line.name] else [])

/-! ### Attributes -/

/-- The last of the operands that names a declared vendor. -/
def namedVendor? (s : Session) (operands : List String) : Option String :=
  operands.reverse.find? s.registry.vendors.contains

/-- The last of the operands that names no declared vendor. -/
def extra? (s : Session) (operands : List String) : Option String :=
  operands.reverse.find? (!s.registry.vendors.contains ·)

/-- The vendor of the open scope, if it is declared. -/
def scopeVendor? (s : Session) : Option String := s.openVendor.filter s.registry.vendors.contains

/-- The vendor to which an `ATTRIBUTE` line with these last operands belongs. -/
def vendorFor (s : Session) (operands : List String) : Option String :=
  (s.namedVendor? operands).or s.scopeVendor?

/-- The name of an open vendor scope that would count for a line with these last operands, were the
vendor declared. -/
def undeclaredVendor? (s : Session) (operands : List String) : Option String :=
  if (s.namedVendor? operands).isSome then none
  else s.openVendor.filter (!s.registry.vendors.contains ·)

/-- What an `ATTRIBUTE` line declares, the number being read already. -/
def declarationOf (s : Session) (line : AttributeLine) (number : UInt32) : Declaration :=
  { name := line.name, number, typeTag := line.typeTag, extra := s.extra? line.trailing,
    vendor := s.vendorFor line.trailing }

/-- What an `ATTRIBUTE` line declares, or why it declares nothing. The first of several reasons
counts. -/
def check (s : Session) (line : AttributeLine) : Except Refusal Declaration :=
  match Numeral.unsigned? line.number with
  | none => .error .badNumber
  | some number =>
    let d := s.declarationOf line number
    if s.hasSeen line.name then .error .alreadyDefined
    else match s.openTlv with
      | none => .ok d
      | some parent =>
        if TypeCode.maxChildNumber < number then .error (.childNumber number)
        else if (s.registry.attributesOf d.vendor).contains parent then .ok d
        else .error (.noParent parent)

/-- The warning that the open vendor scope of a line names no declared vendor. -/
def undeclaredEvents (s : Session) (origin : Origin) (line : AttributeLine) : List ReadingEvent :=
  (s.undeclaredVendor? line.trailing).toList.map (.vendorUndeclared origin line.name ·)

/-- The effect of an `ATTRIBUTE` line. -/
def declareAttribute (s : Session) (origin : Origin) (line : AttributeLine) :
    Session × List ReadingEvent :=
  match s.check line with
  | .ok d =>
    ({ s with
        registry := s.registry.declare s.openTlv d
        seenNames := Text.lowercase d.name :: s.seenNames },
      s.undeclaredEvents origin line ++ [.attributeSeen d.name])
  | .error why =>
    let before := match why with
      | .noParent _ => s.undeclaredEvents origin line
      | _ => []
    (s, before ++ [.attributeRefused origin line.name line.number why])

/-! ### Values -/

/-- Where the attribute of a `VALUE` line is: among those without a vendor if it is there, else
among those of the open vendor scope. The inner option is the vendor. -/
def valueHome? (s : Session) (attributeName : String) : Option (Option String) :=
  if s.registry.attributes.contains attributeName then some none
  else s.openVendor.bind fun vendor =>
    if (s.registry.attributesOf (some vendor)).contains attributeName then some (some vendor)
    else none

/-- The effect of a `VALUE` line. -/
def declareValue (s : Session) (origin : Origin) (line : ValueLine) :
    Session × List ReadingEvent :=
  match Numeral.signed? line.number with
  | none => (s, [.valueNumber origin line.attributeName line.name line.number])
  | some number =>
    match s.valueHome? line.attributeName with
    | none => (s, [.valueDropped origin line.attributeName])
    | some vendor =>
      ({ s with registry := s.registry.modifyAttributes vendor fun attributes =>
          attributes.modify line.attributeName fun a => a.addValue line.name number }, [])

/-! ### Statements -/

/-- The effect of a statement. -/
def apply (s : Session) (origin : Origin) : Statement → Session × List ReadingEvent
  | .beginTlv name => s.beginScope origin .tlv name
  | .endTlv name => s.endScope origin .tlv name
  | .beginVendor name => s.beginScope origin .vendor name
  | .endVendor name => s.endScope origin .vendor name
  | .declareVendor line => s.declareVendor origin line
  | .declareAttribute line => s.declareAttribute origin line
  | .declareValue line => s.declareValue origin line

end Session

end RadiusDictionary
