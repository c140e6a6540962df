import RadiusDictionary.Identifier
import RadiusDictionary.Numeral
import RadiusDictionary.Source.Banner
import RadiusDictionary.Text.Pieces
import RadiusDictionary.Text.Quoted
import RadiusDictionary.TypeCode
import RadiusDictionary.ValueKind

/-! # The module generated for an attribute

An `AttributeModule` says all that goes into the module of an attribute. Its parts are read off as
data: the lines of the documentation (`docs`), the types it imports (`valueImports`,
`runtimeImports`), its constants (`constants`, and `aliasConstants` for the names of values), the
steps of its `setup` function, and the tables of named values (`tables?`). `render` writes them one
after the other. -/

namespace RadiusDictionary

/-- What goes into the module of an attribute. -/
structure AttributeModule where
  subject : Attribute
  /-- The type that the module defines. -/
  typeName : String
  shape : Shape
  kind : ValueKind
  ids : TypeIds
  /-- The type of the attribute on the wire: 26 inside the vendors' space. -/
  attributeType : UInt32
  /-- The type of the attribute in which this one is nested, as seen from the module. -/
  parent : Option String
  /-- The wire layout of the vendor's attributes, if it is not the usual one. -/
  format : Option String
  /-- The modules of the attributes nested in this one. -/
  childModules : List String

/-- A constant of a generated type. -/
structure Constant where
  name : String
  type : String
  /-- The value as it is written in source. -/
  value : String
deriving DecidableEq, Repr, Inhabited

/-- The constant's definition. -/
def Constant.text (c : Constant) : String :=
  "pub const " ++ c.name ++ ": " ++ c.type ++ " = " ++ c.value ++ ";"

/-- A step of the function that makes a generated attribute. -/
inductive SetupStep where
  | makeAttribute (shape : Shape)
  | setName
  | setType (attributeType : UInt32)
  | setVendorId
  | setVsaType
  | setParent (parentType : String)
  | setFormat (format : String)
  /-- The value container of a kind; it can be changed if more is to be set. -/
  | makeValue (kind : ValueKind) (isMutable : Bool)
  | setLength (width : Nat)
  | setValue
  | result
deriving DecidableEq, Repr, Inhabited

/-- The tables with which named values are looked up. -/
structure NamedValueTables where
  knownValues : List Int64
  byName : List (String × Int64)
  byValue : List (Int64 × String)
deriving DecidableEq, Repr, Inhabited

/-- The words that the steps of the setup and the modules around it may refer to. -/
inductive Mention where
  | nameConstant
  | vendorIdConstant
  | vsaTypeConstant
  | namedValueTables
deriving DecidableEq, Repr, Inhabited

namespace SetupStep

/-- The constructor call for a value container. -/
def constructorCall (kind : ValueKind) : String :=
  match kind with
  | .named _ => kind.containerType ++ "::new(&NAMED_VALUES)"
  | .tlv => kind.containerType ++ "::new(Self::VENDOR_ID, Self::VSA_TYPE)"
  | _ => kind.containerType ++ "::new()"

/-- The step in source. -/
def text : SetupStep → String
  | makeAttribute shape => "let mut attribute = " ++ shape.typeName ++ "::default();"
  | setName => "attribute.attribute_name = Self::NAME;"
  | setType attributeType =>
    "attribute.attribute_type = " ++ Numeral.decimal attributeType.toNat ++ ";"
  | setVendorId => "attribute.vendor_id = Self::VENDOR_ID;"
  | setVsaType => "attribute.vsa_attribute_type = Self::VSA_TYPE;"
  | setParent parentType => "attribute.parent = Some(" ++ parentType ++ "::create);"
  | setFormat format => "attribute.set_format(" ++ Text.quoted format ++ ");"
  | makeValue kind isMutable =>
    "let " ++ (if isMutable then "mut " else "") ++ "value = " ++ constructorCall kind ++ ";"
  | setLength width => "value.set_length(" ++ Numeral.decimal width ++ ");"
  | setValue => "attribute.attribute_value = Box::new(value);"
  | result => "attribute"

/-- What the step refers to. -/
def mentions : SetupStep → List Mention
  | setName => [.nameConstant]
  | setVendorId => [.vendorIdConstant]
  | setVsaType => [.vsaTypeConstant]
  | makeValue (.named _) _ => [.namedValueTables]
  | makeValue .tlv _ => [.vendorIdConstant, .vsaTypeConstant]
  | _ => []

end SetupStep

namespace AttributeModule

/-- The names of values with their numbers, number by number. -/
def aliases (values : Enumeration) : List (String × Int64) :=
  values.values.flatMap fun v => v.names.map (·, v.number)

/-! ### Documentation -/

/-- What the documentation says of the type codes. -/
def idDocs (m : AttributeModule) : List String :=
  match m.ids with
  | .plain number =>
    ["Attribute Type: " ++ Numeral.decimal number.toNat ++
      if TypeCode.maxWireType < number then " (FreeRADIUS Internal Attribute)" else ""]
  | .vendor vendorId _ | .nested vendorId _ _ =>
    ["Attribute Type: " ++ Numeral.decimal TypeCode.vendorSpecific.toNat,
     "Vendor Id: " ++ Numeral.decimal vendorId.toNat,
     "VSA Type: " ++ Numeral.decimal m.subject.number.toNat]

/-- What the documentation says of the named values. -/
def valueDocs (m : AttributeModule) : List String :=
  match m.subject.values with
  | none => []
  | some values =>
    "//!" :: "//! Possible Values:" ::
      (aliases values).map fun (name, number) =>
        "//! - " ++ name ++ " (" ++ Numeral.signedDecimal number.toInt ++ ")"

/-- The lines of the module's documentation. -/
def docs (m : AttributeModule) : List String :=
  let lines :=
    ("Attribute Name: " ++ m.subject.name) :: m.idDocs ++ ["Value Type: " ++ m.kind.containerType]
  lines.map ("//! " ++ ·) ++ m.valueDocs

/-! ### Imports -/

/-- What the module imports from the runtime's module of values. -/
def valueImports (m : AttributeModule) : List String :=
  if m.kind.isNamed then ["NamedValue", "NamedValueMap"] else [m.kind.containerType]

/-- What the module imports from the runtime itself. -/
def runtimeImports (m : AttributeModule) : List String := ["Attribute", m.shape.typeName]

/-- The imports of one path, in braces if there are several. -/
def importLine (path : String) (names : List String) : String :=
  match names with
  | [name] => "use " ++ path ++ "::" ++ name ++ ";"
  | names => "use " ++ path ++ "::\x7b" ++ ", ".intercalate names ++ "\x7d;"

/-! ### Constants -/

/-- The constants that identify the attribute. -/
def idConstants (m : AttributeModule) : List Constant :=
  let typeId : Constant := ⟨"TYPE", "u64", Numeral.decimal m.ids.typeId.toNat⟩
  let word (name : String) (n : UInt32) : Constant := ⟨name, "u32", Numeral.decimal n.toNat⟩
  match m.ids with
  | .plain _ => [typeId]
  | .vendor vendorId number => [word "VENDOR_ID" vendorId, word "VSA_TYPE" number, typeId]
  | .nested vendorId parentType number =>
    [word "VENDOR_ID" vendorId, word "PARENT_TYPE" parentType,
     word "VSA_TYPE" (TypeCode.nestedType number parentType), typeId]

/-- The constants of the generated type, those for the names of values apart. -/
def constants (m : AttributeModule) : List Constant :=
  ⟨"NAME", "&'static str", Text.quoted m.subject.name⟩ :: m.idConstants

/-- The names that every generated type may define for itself. -/
def reservedItems : List String :=
  ["NAME", "TYPE", "VENDOR_ID", "VSA_TYPE", "PARENT_TYPE", "setup", "create"]

/-- The entries whose identifier is neither taken nor that of an entry before. -/
def keepNew (taken : List String) : List (String × Int64) → List (String × Int64)
  | [] => []
  | (ident, number) :: rest =>
    if taken.contains ident then keepNew taken rest
    else (ident, number) :: keepNew (ident :: taken) rest

/-- The identifier of the constant for the name of a value. -/
def aliasIdent (name : String) : String := Identifier.escape (sanitize name)

/-- The constants for the names of values: of names with one identifier the first counts. -/
def aliasConstants (m : AttributeModule) : List (String × Int64) :=
  match m.subject.values with
  | none => []
  | some values =>
    keepNew reservedItems ((aliases values).map fun (name, number) => (aliasIdent name, number))

/-- The definition of a constant for the name of a value. -/
def aliasConstant (entry : String × Int64) : Constant :=
  ⟨entry.1, "i64", Numeral.signedDecimal entry.2.toInt⟩

/-! ### Setup -/

/-- The width that a number has to be given, if it is not the usual one. -/
def narrowWidth? (m : AttributeModule) : Option Nat := m.kind.width?.filter (· < 4)

/-- The steps that make the attribute. -/
def setup (m : AttributeModule) : List SetupStep :=
  [.makeAttribute m.shape, .setName, .setType m.attributeType] ++
  (if m.shape.isVendorSpecific then [.setVendorId, .setVsaType] else []) ++
  m.parent.toList.map .setParent ++
  m.format.toList.map .setFormat ++
  [.makeValue m.kind m.narrowWidth?.isSome] ++
  m.narrowWidth?.toList.map .setLength ++
  [.setValue, .result]

/-! ### Tables of named values -/

/-- The tables of the named values, if the value is a number with names. -/
def tables? (m : AttributeModule) : Option NamedValueTables :=
  match m.kind, m.subject.values with
  | .named _, some values => some {
      knownValues := values.keys
      byName := aliases values
      byValue := values.values.filterMap fun v => v.canonicalName?.map (v.number, ·) }
  | _, _ => none

/-- The tables in source. -/
def tableLines (t : NamedValueTables) : List String :=
  let number (n : Int64) : String := Numeral.signedDecimal n.toInt
  ["", "pub static NAMED_VALUES: NamedValueMap = NamedValueMap \x7b",
   "    known_values: &[" ++ ", ".intercalate (t.knownValues.map number) ++ "],",
   "    by_name: &["] ++
  t.byName.map (fun (name, n) => "        (" ++ Text.quoted name ++ ", " ++ number n ++ "),") ++
  ["    ],", "    by_value: &["] ++
  t.byValue.map (fun (n, name) => "        (" ++ number n ++ ", " ++ Text.quoted name ++ "),") ++
  ["    ],", "\x7d;"]

/-! ### The whole module -/

/-- The declarations of the modules of nested attributes. -/
def childModuleLines (m : AttributeModule) : List String :=
  if m.childModules.isEmpty then []
  else m.childModules.map (fun name => "pub mod " ++ Identifier.escape name ++ ";") ++ [""]

/-- The definition of the type. -/
def typeLines (m : AttributeModule) : List String :=
  ["pub struct " ++ m.typeName ++ ";", "", "impl " ++ m.typeName ++ " \x7b"] ++
  m.constants.map (fun c => "    " ++ c.text) ++
  (if m.subject.values.isSome then
    "" :: m.aliasConstants.map (fun entry => "    " ++ (aliasConstant entry).text)
  else []) ++
  ["", "    pub fn setup() -> " ++ m.shape.typeName ++ " \x7b"] ++
  m.setup.map (fun step => "        " ++ step.text) ++
  ["    \x7d", "",
   "    pub fn create() -> Box<dyn Attribute> \x7b",
   "        Box::new(Self::setup())",
   "    \x7d",
   "\x7d"]

/-- The lines of the module's file. -/
def lines (m : AttributeModule) (runtime stamp : String) : List String :=
  Source.banner stamp ++ [""] ++ m.docs ++
  ["", "#![allow(non_camel_case_types, non_upper_case_globals)]", "",
   importLine (runtime ++ "::value") m.valueImports,
   importLine runtime m.runtimeImports, ""] ++
  m.childModuleLines ++ m.typeLines ++
  (m.tables?.toList.flatMap tableLines)

/-- The text of the module's file. `runtime` is the path of the library it is used with. -/
def render (m : AttributeModule) (runtime stamp : String) : String :=
  Text.unlines (m.lines runtime stamp)

end AttributeModule

end RadiusDictionary
