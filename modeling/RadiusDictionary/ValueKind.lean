import RadiusDictionary.Attribute
import RadiusDictionary.Text.Front

/-! # How an attribute is represented

A generated attribute is built on one of four types (its `Shape`) and holds its value in a container
for one kind of values (its `ValueKind`). Both follow from the declaration. -/

namespace RadiusDictionary

/-- The kinds of values. -/
inductive ValueKind where
  | string
  | encryptedString
  /-- An integer of `width` bytes. -/
  | integer (width : Nat) (isSigned : Bool)
  | date
  | ipAddr
  | ipv6Addr
  | comboIpAddr
  | octets
  /-- A number with names, in `width` bytes. -/
  | named (width : Nat)
  /-- A container of nested attributes. -/
  | tlv
deriving DecidableEq, Repr, Inhabited

namespace ValueKind

/-- The kinds that types announce by their first letters; the first match counts. -/
def byTypeTag : List (String × ValueKind) :=
  [("string", string), ("integer", integer 4 false), ("byte", integer 1 false),
   ("short", integer 2 false), ("signed", integer 4 true), ("date", date), ("ipaddr", ipAddr),
   ("ipv6addr", ipv6Addr), ("combo-ip", comboIpAddr)]

/-- The kind that a type announces; an unknown type holds bytes. -/
def ofTypeTag (tag : String) : ValueKind :=
  match byTypeTag.find? fun row => Text.startsWith tag row.1 with
  | some (_, kind) => kind
  | none => octets

/-- The number of bytes of a number. -/
def width? : ValueKind → Option Nat
  | integer width _ => some width
  | named width => some width
  | _ => none

/-- The kind of an attribute: nested attributes decide first, then named values, then the type. -/
def ofAttribute (a : Attribute) : ValueKind :=
  if a.hasChildren then tlv
  else
    let declared := ofTypeTag a.typeTag
    if a.values.isSome then named (declared.width?.getD 4)
    else if declared = string && a.hasFlag "encrypt=1" then encryptedString
    else declared

/-- The container type for values of the kind. -/
def containerType : ValueKind → String
  | string => "StringValue"
  | encryptedString => "EncryptedStringValue"
  | integer _ false => "IntegerValue"
  | integer _ true => "SignedValue"
  | date => "DateValue"
  | ipAddr => "IPAddrValue"
  | ipv6Addr => "IPv6AddrValue"
  | comboIpAddr => "ComboIPAddrValue"
  | octets => "OctetsValue"
  | named _ => "NamedValue"
  | tlv => "TLVValue"

/-- Whether the kind is that of numbers with names. -/
def isNamed : ValueKind → Bool
  | named _ => true
  | _ => false

end ValueKind

/-- The types on which generated attributes are built. -/
inductive Shape where
  /-- A plain attribute. -/
  | plain
  /-- An attribute of a vendor. -/
  | vendorSpecific
  /-- An attribute with others nested in it. -/
  | vsaWithSubAttributes
  /-- A nested attribute. -/
  | subAttribute
deriving DecidableEq, Repr, Inhabited

namespace Shape

/-- The shape of an attribute. -/
def ofAttribute (a : Attribute) (isNested : Bool) : Shape :=
  if isNested then subAttribute
  else if a.hasChildren then vsaWithSubAttributes
  else if a.vendor.isSome then vendorSpecific
  else plain

/-- The type's name. -/
def typeName : Shape → String
  | plain => "RadiusAttribute"
  | vendorSpecific => "VSAttribute"
  | vsaWithSubAttributes => "VSAWithSubAttributes"
  | subAttribute => "SubAttribute"

/-- Whether the type has fields for the vendor and for the type in the vendor's space. -/
def isVendorSpecific : Shape → Bool
  | plain => false
  | _ => true

end Shape

end RadiusDictionary
