import RadiusDictionary.OrderedMap
import RadiusDictionary.Text.Blank
import RadiusDictionary.Text.Pieces

/-! # Attributes

An attribute is what one `ATTRIBUTE` line declares, with what later lines add to it: the named
values of its enumeration, and the attributes nested inside it. Both are absent until the first one
arrives. -/

namespace RadiusDictionary

/-- All the names that one number of an enumeration has, in the order of their first use. -/
structure NamedValue where
  number : Int64
  names : List String
deriving DecidableEq, Repr, Inhabited

namespace NamedValue

/-- The value with one more name, unless it has that name already. -/
def addName (value : NamedValue) (name : String) : NamedValue :=
  if value.names.contains name then value else { value with names := value.names ++ [name] }

/-- The name by which the number is known: the last one that was added. -/
def canonicalName? (value : NamedValue) : Option String := value.names.getLast?

end NamedValue

/-- The named values of an enumeration, by number. -/
abbrev Enumeration := OrderedMap Int64 NamedValue

/-- An enumeration with one more name for a number. -/
def Enumeration.add (values : Enumeration) (name : String) (number : Int64) : Enumeration :=
  values.insert number (((values.get? number).getD ⟨number, []⟩).addName name)

/-- What an `ATTRIBUTE` line says of its attribute. -/
structure Declaration where
  name : String
  number : UInt32
  /-- The type as it is written in the dictionary. -/
  typeTag : String
  /-- Flags and other words after the type. -/
  extra : Option String
  /-- The vendor to which the attribute belongs. -/
  vendor : Option String
deriving DecidableEq, Repr, Inhabited

/-- A declared attribute with its named values and the attributes nested in it. -/
structure Attribute extends Declaration where
  values : Option Enumeration
  children : Option (OrderedMap String Attribute)

/-- Attributes by name, in the order of their declarations. -/
abbrev AttributeMap := OrderedMap String Attribute

/-- An attribute as it is when it has just been declared. -/
def Declaration.toAttribute (d : Declaration) : Attribute := ⟨d, none, none⟩

namespace Attribute

instance : Inhabited Attribute := ⟨(default : Declaration).toAttribute⟩

/-- The attribute with one more name for a number of its enumeration. -/
def addValue (a : Attribute) (name : String) (number : Int64) : Attribute :=
  { a with values := some ((a.values.getD ∅).add name number) }

/-- The attribute with an attribute nested in it. -/
def addChild (a : Attribute) (key : String) (child : Attribute) : Attribute :=
  { a with children := some ((a.children.getD ∅).insert key child) }

/-- Whether a flag is among the words, parted by commas, after the type. -/
def hasFlag (a : Attribute) (flag : String) : Bool :=
  match a.extra with
  | none => false
  | some extra => ((Text.pieces ',' extra).map Text.trim).contains flag

/-- Whether attributes are nested in this one. -/
def hasChildren (a : Attribute) : Bool :=
  match a.children with
  | none => false
  | some children => !children.isEmpty

mutual

/-- The number of attributes in a tree of nested ones. -/
def count : Attribute → Nat
  | ⟨_, _, none⟩ => 1
  | ⟨_, _, some ⟨entries⟩⟩ => 1 + countAll entries

/-- The number of attributes in the trees of a map's entries. -/
def countAll : List (String × Attribute) → Nat
  | [] => 0
  | (_, a) :: rest => a.count + countAll rest

end

mutual

/-- The attribute of a tree with the name sought: the outermost first, then in the order of
declaration. -/
def find? (sought : Declaration → Bool) : Attribute → Option Attribute
  | a@⟨d, _, none⟩ => if sought d then some a else none
  | a@⟨d, _, some ⟨entries⟩⟩ => if sought d then some a else findIn? sought entries

/-- The first attribute found in the trees of a map's entries. -/
def findIn? (sought : Declaration → Bool) : List (String × Attribute) → Option Attribute
  | [] => none
  | (_, a) :: rest =>
    match a.find? sought with
    | some found => some found
    | none => findIn? sought rest

end

mutual

/-- Whether two attributes are equal, with all that is nested in them. -/
def decEq : (a b : Attribute) → Decidable (a = b)
  | ⟨d, values, none⟩, ⟨d', values', none⟩ =>
    decidable_of_iff (d = d' ∧ values = values') (by simp)
  | ⟨_, _, none⟩, ⟨_, _, some _⟩ => isFalse (by simp)
  | ⟨_, _, some _⟩, ⟨_, _, none⟩ => isFalse (by simp)
  | ⟨d, values, some ⟨entries⟩⟩, ⟨d', values', some ⟨entries'⟩⟩ =>
    have := decEqEntries entries entries'
    decidable_of_iff (d = d' ∧ values = values' ∧ entries = entries') (by simp)

/-- Whether the entries of two maps are equal. -/
def decEqEntries : (entries entries' : List (String × Attribute)) → Decidable (entries = entries')
  | [], [] => isTrue rfl
  | [], _ :: _ => isFalse (by simp)
  | _ :: _, [] => isFalse (by simp)
  | (key, a) :: rest, (key', a') :: rest' =>
    have := decEq a a'
    have := decEqEntries rest rest'
    decidable_of_iff (key = key' ∧ a = a' ∧ rest = rest') (by simp [and_assoc])

end

instance : DecidableEq Attribute := decEq

end Attribute

end RadiusDictionary
