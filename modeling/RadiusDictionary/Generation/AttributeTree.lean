import RadiusDictionary.Generation
import RadiusDictionary.Registry

/-! # Generating attributes

`Generation.attributeTree` generates the module of an attribute and those of the attributes nested
in it, and returns their registrations, the attribute's own first. There are four ways out:

* the attribute in which this one is nested has no known number: nothing is generated;
* the path of the module is claimed already: nothing is generated, nested attributes neither;
* the module cannot be written: the modules of nested attributes, which were written before it, are
  taken back;
* all went well. Nested attributes that failed are left out of the registrations.

In the first three cases there is a failure under the attribute's name and no registration. -/

namespace RadiusDictionary

/-- The attributes of one loader: those of a vendor, or those without one. -/
structure Scope where
  vendor : Option Vendor
  /-- The folder of the loader. -/
  folder : Path

/-- The vendor's number; zero if there is no vendor. -/
def Scope.vendorId (scope : Scope) : UInt32 := (scope.vendor.map (·.number)).getD 0

/-- Where an attribute stands. -/
structure Place where
  /-- The folder of the module. -/
  folder : Path
  /-- The name of the attribute in which this one is nested. -/
  parent : Option String
  /-- The key of the attribute in the loader. -/
  key : UInt64
  /-- The modules around the attribute's, from the loader on. -/
  around : List String

namespace Place

/-- The place of an attribute that is nested in none. -/
def top (scope : Scope) (d : Declaration) : Place := ⟨scope.folder, none, d.number.toUInt64, []⟩

/-- The place of `child`, which is nested in the attribute `d` at this place. -/
def below (place : Place) (d child : Declaration) : Place :=
  ⟨place.folder.joinText (moduleName d.name), some d.name,
    TypeCode.childKey child.number d.number, place.around ++ [moduleName d.name]⟩

/-- The path of the module of an attribute at this place. -/
def file (place : Place) (d : Declaration) : Path :=
  place.folder.joinText (moduleName d.name ++ ".rs")

/-- The modules from the loader to that of an attribute at this place. -/
def modulePath (place : Place) (d : Declaration) : List String :=
  place.around ++ [moduleName d.name]

end Place

/-- What came of the attributes nested in one: the modules to declare, and all registrations. -/
structure NestedModules where
  modules : List String
  registrations : List Registration
deriving DecidableEq, Repr, Inhabited

/-- The wire type to give an attribute: that of vendors' attributes if it goes in there. -/
def wireType (scope : Scope) (shape : Shape) (number : UInt32) : UInt32 :=
  match shape with
  | .vendorSpecific | .vsaWithSubAttributes =>
    if scope.vendor.isSome then TypeCode.vendorSpecific else number
  | _ => number

/-- The module of an attribute at a place. -/
def attributeModule (scope : Scope) (place : Place) (a : Attribute) (ids : TypeIds)
    (childModules : List String) : AttributeModule :=
  let shape := Shape.ofAttribute a place.parent.isSome
  { subject := a
    typeName := typeName a.name
    shape
    kind := .ofAttribute a
    ids
    attributeType := wireType scope shape a.number
    parent := place.parent.map fun parent => "super::" ++ typeName parent
    format := scope.vendor.bind (·.format?)
    childModules }

namespace Generation

/-- What identifies an attribute at a place. The number of the attribute in which it is nested is
looked up by sanitized name. -/
def idsAt (g : Generation) (scope : Scope) (place : Place) (a : Attribute) :
    Except GenerationError TypeIds :=
  match place.parent with
  | some parent =>
    match g.numbers.get? (sanitize parent) with
    | some parentType => .ok (.nested scope.vendorId parentType a.number)
    | none => .error (.unresolvedParent a.name parent)
  | none =>
    if scope.vendor.isSome || a.hasChildren then .ok (.vendor scope.vendorId a.number)
    else .ok (.plain a.number)

/-- Gives up an attribute whose path is taken. -/
def giveUp (g : Generation) (a : Attribute) (path : Path) : Generation :=
  let g := if a.hasChildren then g.note (.childrenSkipped a.name) else g
  g.fail a.name (.alreadyGenerated path)

/-- Writes the module of an attribute whose nested attributes are done. `mark` is how many files
were written before those. -/
def close (t : Target) (scope : Scope) (place : Place) (a : Attribute) (ids : TypeIds) (mark : Nat)
    (nested : NestedModules) (g : Generation) : Generation × List Registration :=
  let m := attributeModule scope place a ids nested.modules
  match g.write t (place.file a.toDeclaration) (.attributeModule m) with
  | (g, some e) => ((g.fail a.name e).discardFrom mark, [])
  | (g, none) =>
    (g, ⟨place.key, place.modulePath a.toDeclaration, m.typeName⟩ :: nested.registrations)

mutual

/-- Generates an attribute and those nested in it. -/
def attributeTree (t : Target) (scope : Scope) (place : Place) :
    Attribute → Generation → Generation × List Registration
  | ⟨d, values, children⟩, g =>
    let a : Attribute := ⟨d, values, children⟩
    let g := g.note (.attributeReached d.name)
    match g.idsAt scope place a with
    | .error e => (g.fail d.name e, [])
    | .ok ids =>
      let path := place.file d
      match (g.setNumber d).claim? path with
      | none => ((g.setNumber d).giveUp a path, [])
      | some g =>
        let mark := g.written.length
        match children with
        | none => close t scope place a ids mark ⟨[], []⟩ g
        | some ⟨entries⟩ =>
          let (g, nested) := nestedTrees t scope place d entries g
          close t scope place a ids mark nested g

/-- Generates the attributes nested in the attribute `d` at a place. -/
def nestedTrees (t : Target) (scope : Scope) (place : Place) (d : Declaration) :
    List (String × Attribute) → Generation → Generation × NestedModules
  | [], g => (g, ⟨[], []⟩)
  | (_, child) :: rest, g =>
    let (g, registrations) := attributeTree t scope (place.below d child.toDeclaration) child g
    let (g, more) := nestedTrees t scope place d rest g
    (g, ⟨(if registrations.isEmpty then [] else [moduleName child.name]) ++ more.modules,
      registrations ++ more.registrations⟩)

end

/-- Generates the attributes of a loader. -/
def attributeTrees (t : Target) (scope : Scope) :
    List Attribute → Generation → Generation × List Registration
  | [], g => (g, [])
  | a :: rest, g =>
    let (g, registrations) := attributeTree t scope (.top scope a.toDeclaration) a g
    let (g, more) := attributeTrees t scope rest g
    (g, registrations ++ more)

end Generation

end RadiusDictionary
