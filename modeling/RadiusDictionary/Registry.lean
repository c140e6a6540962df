import RadiusDictionary.Attribute
import RadiusDictionary.Namespace
import RadiusDictionary.Text.Front
import RadiusDictionary.Text.Lowercase

/-! # Registries

A registry holds all that a dictionary and the files it includes declare: the attributes without a
vendor, and the vendors with theirs. -/

namespace RadiusDictionary

/-- A vendor and its attributes. -/
structure Vendor where
  name : String
  number : UInt32
  /-- The vendor's namespace below that of the whole dictionary. -/
  home : Namespace
  /-- The word after the vendor's number. -/
  extra : Option String
  attributes : AttributeMap
deriving DecidableEq

/-- The layout of the vendor's attributes on the wire, if it is not the usual one: what follows
`format=`. -/
def Vendor.format? (v : Vendor) : Option String := v.extra.bind (Text.after? "format=")

/-- The declarations of a dictionary. -/
structure Registry where
  /-- The attributes without a vendor. -/
  attributes : AttributeMap
  /-- The vendors by name. -/
  vendors : OrderedMap String Vendor
deriving DecidableEq

namespace Registry

/-- The registry without declarations. -/
def empty : Registry := ⟨∅, ∅⟩

instance : EmptyCollection Registry := ⟨empty⟩

instance : Inhabited Registry := ⟨empty⟩

/-- The vendor with a name. -/
def vendor? (r : Registry) (name : String) : Option Vendor := r.vendors.get? name

/-- An attribute with a name, up to the case of ASCII letters, wherever it is: first among those
without a vendor, then vendor by vendor. -/
def find? (r : Registry) (name : String) : Option Attribute :=
  let sought (d : Declaration) := Text.sameAscii d.name name
  match Attribute.findIn? sought r.attributes.entries with
  | some found => some found
  | none => r.vendors.values.findSome? fun v => Attribute.findIn? sought v.attributes.entries

/-- The number of attributes, nested ones included. -/
def count (r : Registry) : Nat :=
  r.vendors.values.foldl (fun n v => n + Attribute.countAll v.attributes.entries)
    (Attribute.countAll r.attributes.entries)

end Registry

end RadiusDictionary
