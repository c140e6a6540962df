/-! # Type codes

An attribute on the wire has a one-byte type. Vendors put their attributes inside the attribute of
type 26, and some of those carry further attributes inside. A type code packs the numbers on the way
to an attribute into one word, which identifies it. -/

namespace RadiusDictionary.TypeCode

/-- The type of the attribute that carries vendors' attributes. -/
def vendorSpecific : UInt32 := 26

/-- The largest type that goes on the wire; above it are the server's internal attributes. -/
def maxWireType : UInt32 := 255

/-- The largest number of a nested attribute: shifted by a byte it still fits 32 bits. -/
def maxChildNumber : UInt32 := 0x00FFFFFF

/-- The code of a vendor's attribute: the low 16 bits of the vendor above the attribute's type. -/
def vendorType (vendorId vsaType : UInt32) : UInt64 :=
  ((vendorId &&& 0xFFFF).toUInt64 <<< 16) ||| vsaType.toUInt64

/-- The type of an attribute nested in another: its number above the parent's. -/
def nestedType (child parent : UInt32) : UInt32 := (child <<< 8) ||| parent

/-- The key under which a loader registers a nested attribute: its number above the low byte of the
parent's. -/
def childKey (child parent : UInt32) : UInt64 :=
  (child.toUInt64 <<< 8) ||| (parent &&& 0xFF).toUInt64

end RadiusDictionary.TypeCode

namespace RadiusDictionary

/-- What identifies a generated attribute. -/
inductive TypeIds where
  /-- A plain attribute, by its number. -/
  | plain (number : UInt32)
  /-- An attribute of a vendor. -/
  | vendor (vendorId number : UInt32)
  /-- An attribute nested in the one numbered `parentType`. -/
  | nested (vendorId parentType number : UInt32)
deriving DecidableEq, Repr

namespace TypeIds

/-- The type inside the vendor's space; a plain attribute has none. -/
def vsaType? : TypeIds → Option UInt32
  | plain _ => none
  | vendor _ number => some number
  | nested _ parentType number => some (TypeCode.nestedType number parentType)

/-- The code that identifies the attribute. -/
def typeId : TypeIds → UInt64
  | plain number => number.toUInt64
  | vendor vendorId number => TypeCode.vendorType vendorId number
  | nested vendorId parentType number =>
    TypeCode.vendorType vendorId (TypeCode.nestedType number parentType)

/-- The vendor's number; a plain attribute has none. -/
def vendorId? : TypeIds → Option UInt32
  | plain _ => none
  | vendor vendorId _ => some vendorId
  | nested vendorId _ _ => some vendorId

end TypeIds

end RadiusDictionary
