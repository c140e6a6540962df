import RadiusDictionary.Proofs.Generation.Renderings
import RadiusDictionary.Proofs.Reading.Shape
import RadiusDictionary.Proofs.Source.AttributeModule

/-! # What is rendered fits together

Three choices make a module: its type codes from the vendor of the loader and the place, its shape
from the vendor of the declaration, its kind from the type, the values and what is nested. They
agree because what is read files every attribute under its own vendor
(`consistent_attributeModule`). The module of a nested attribute names the type of the module
around, which is rendered after it, whatever becomes of either (`treeInvariant_fits`). -/

namespace RadiusDictionary

/-- The module `q` is that around `p`: it lies where `p` finds its `super`, the attribute of `p` is
nested in that of `q`, and the type that `p` names is the one that `q` defines. -/
structure Rendering.Around (q p : Rendering) : Prop where
  nested : ∃ key, (key, p.content.subject) ∈ q.content.subject.nested
  path : ∃ (folder : Path) (name last : String), q.path = folder.joinText (name ++ ".rs") ∧
    p.path = (folder.joinText name).joinText last
  parent : p.content.parent = some ("super::" ++ q.content.typeName)

namespace Generation

variable {t : Target} {scope : Scope} {place : Place} {a : Attribute} {g g' : Generation}
  {ids : TypeIds}

/-! ### One module -/

/-- The module is that of the attribute at the place. -/
structure IsOwn (place : Place) (a : Attribute) (p : Rendering) : Prop where
  path : p.path = place.file a.toDeclaration
  subject : p.content.subject = a
  typeName : p.content.typeName = typeName a.name
  parent : p.content.parent = place.parent.map fun parent => "super::" ++ RadiusDictionary.typeName parent

/-- The module fits, and so does the one around it if it is among `rendered`. -/
def Fits (own : Rendering → Prop) (rendered : List Rendering) : Prop :=
  ∀ p ∈ rendered, p.content.Consistent ∧ (own p ∨ ∃ q ∈ rendered, q.Around p)

theorem Fits.append {own : Rendering → Prop} {rendered rendered' : List Rendering}
    (h : Fits own rendered) (h' : Fits own rendered') : Fits own (rendered ++ rendered') := by
  intro p hp
  rcases List.mem_append.mp hp with hp | hp
  · obtain ⟨hconsistent, houter⟩ := h p hp
    exact ⟨hconsistent, houter.imp_right fun ⟨q, hq, haround⟩ =>
      ⟨q, List.mem_append_left _ hq, haround⟩⟩
  · obtain ⟨hconsistent, houter⟩ := h' p hp
    exact ⟨hconsistent, houter.imp_right fun ⟨q, hq, haround⟩ =>
      ⟨q, List.mem_append_right _ hq, haround⟩⟩

theorem Fits.imp {own own' : Rendering → Prop} {rendered : List Rendering} (h : Fits own rendered)
    (himp : ∀ p, own p → own' p) : Fits own' rendered :=
  fun p hp => ⟨(h p hp).1, (h p hp).2.imp_left (himp p)⟩

/-- The module of an attribute is that around those nested in it. -/
theorem IsOwn.around {place : Place} {a c : Attribute} {p q : Rendering} {key : String}
    (hq : IsOwn place a q) (hc : (key, c) ∈ a.nested)
    (hp : IsOwn (place.below a.toDeclaration c.toDeclaration) c p) : q.Around p where
  nested := ⟨key, by rw [hp.subject, hq.subject]; exact hc⟩
  path := by
    refine ⟨place.folder, moduleName a.name, moduleName c.name ++ ".rs", ?_, ?_⟩
    · rw [hq.path, Place.file]
    · rw [hp.path, Place.file, Place.below]
  parent := by
    rw [hp.parent, hq.typeName]
    rfl

end Generation

end RadiusDictionary
