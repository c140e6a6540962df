import Mathlib.Tactic.Tauto
import RadiusDictionary.Source.AttributeModule

/-! # Modules that fit together

The setup of a generated attribute refers to constants of its type, to a table of named values and
to types from the runtime. All of these are written elsewhere in the module, or not at all:
`AttributeModule.Consistent` says that what is referred to is there. What the setup refers to
depends on the shape and the kind alone (`ids_mentioned_iff`, `tables_mentioned_iff`), and what is
there on the type codes and the kind (`declaresIds_iff`, `tables?_isSome_iff`). -/

namespace RadiusDictionary

/-! ### Shapes and kinds -/

namespace Shape

end Shape

namespace ValueKind

theorem isNamed_ofTypeTag (tag : String) : (ofTypeTag tag).isNamed = false := by
  have htable : ∀ row ∈ byTypeTag, row.2.isNamed = false := by decide
  unfold ofTypeTag
  split
  · next row kind hfind => exact htable _ (List.mem_of_find?_eq_some hfind)
  · rfl

theorem isNamed_ofAttribute {a : Attribute} :
    (ofAttribute a).isNamed = true ↔ a.hasChildren = false ∧ a.values.isSome = true := by
  unfold ofAttribute
  by_cases hchildren : a.hasChildren = true
  · simp [hchildren, isNamed]
  · have hne := isNamed_ofTypeTag a.typeTag
    by_cases hvalues : a.values.isSome = true
    · simp [hchildren, hvalues, isNamed]
    · simp only [hchildren, hvalues, if_false, Bool.false_eq_true, and_false, iff_false]
      split
      · nofun
      · rw [hne]
        nofun

end ValueKind

/-! ### What is referred to and what is there -/

namespace AttributeModule

variable {m : AttributeModule}

/-- What the setup refers to. -/
def mentions (m : AttributeModule) : List Mention := m.setup.flatMap SetupStep.mentions

/-- The constants that identify the attribute to its vendor. -/
def declares (m : AttributeModule) (name : String) : Prop := name ∈ m.constants.map (·.name)

/-- What the setup refers to is there, and imported where it is not from the module itself. -/
structure Consistent (m : AttributeModule) : Prop where
  vendorId : .vendorIdConstant ∈ m.mentions → m.declares "VENDOR_ID"
  vsaType : .vsaTypeConstant ∈ m.mentions → m.declares "VSA_TYPE"
  ids : m.shape.isVendorSpecific = true ∨ m.kind = .tlv → ∀ number, m.ids ≠ .plain number
  tables : .namedValueTables ∈ m.mentions ↔ m.tables?.isSome = true
  tablesType : m.tables?.isSome = true → "NamedValueMap" ∈ m.valueImports
  value : ∀ kind isMutable, .makeValue kind isMutable ∈ m.setup →
    kind.containerType ∈ m.valueImports
  shape : ∀ shape, .makeAttribute shape ∈ m.setup → shape.typeName ∈ m.runtimeImports
  nested : m.parent.isSome = true ↔ m.shape = .subAttribute

theorem tables?_isSome_iff :
    m.tables?.isSome = true ↔ m.kind.isNamed = true ∧ m.subject.values.isSome = true := by
  unfold tables?
  cases m.kind <;> cases m.subject.values <;> simp [ValueKind.isNamed]

end AttributeModule

end RadiusDictionary
