import RadiusDictionary.Proofs.Reading.Shape
import RadiusDictionary.Proofs.Registry.Growth

/-! # The first declaration lasts

An attribute is declared once and for all: whatever is read later, it stays where it is with what
its line said, and later lines can only add to it (`Registry.Extends`). A vendor can be declared
again. Then it keeps its place and its attributes, and takes the number and the extra of the new
line. `Move.vendorFacts?` is what a move says of a vendor, and `get?_run` that a vendor ends up with
what the last such move says, or else as it was.

`first_declaration_lasts` puts both together for all that can be read after any point of any
reading. -/

namespace RadiusDictionary

/-- What a line says of its vendor. -/
def Vendor.facts (v : Vendor) : UInt32 × Option String := (v.number, v.extra)

/-- What a move says of a vendor, if it is a `VENDOR` line with the vendor's name and a number. -/
def Move.vendorFacts? (name : String) : Move → Option (UInt32 × Option String)
  | .statement _ (.declareVendor line) =>
    if line.name = name then (Numeral.unsigned? line.number).map (·, line.extra) else none
  | _ => none

namespace Registry

variable {r : Registry} {key : String} {v : Vendor}

theorem get?_vendors_modifyAttributes (hv : r.vendors.get? key = some v) (vendor : Option String)
    (f : AttributeMap → AttributeMap) :
    ∃ v', (r.modifyAttributes vendor f).vendors.get? key = some v' ∧ v'.facts = v.facts := by
  cases vendor with
  | none => exact ⟨v, hv, rfl⟩
  | some name =>
    simp only [modifyAttributes, OrderedMap.get?_modify, hv, Option.map_some]
    split_ifs
    · exact ⟨_, rfl, rfl⟩
    · exact ⟨v, rfl, rfl⟩

theorem get?_vendors_declareVendor (hv : r.vendors.get? key = some v) (name : String)
    (number : UInt32) (extra : Option String) :
    ∃ v', (r.declareVendor name number extra).vendors.get? key = some v' ∧
      v'.facts = if name = key then (number, extra) else v.facts := by
  simp only [declareVendor, OrderedMap.get?_insert, hv]
  split_ifs
  · exact ⟨_, rfl, rfl⟩
  · exact ⟨v, rfl, rfl⟩

end Registry

namespace Session

theorem get?_apply {s : Session} {key : String} {v : Vendor}
    (hv : s.registry.vendors.get? key = some v) (origin : Origin) (statement : Statement) :
    ∃ v', (s.apply origin statement).1.registry.vendors.get? key = some v' ∧
      v'.facts = ((Move.statement origin statement).vendorFacts? key).getD v.facts := by
  cases statement with
  | beginTlv name => exact ⟨v, hv, rfl⟩
  | endTlv name => exact ⟨v, hv, rfl⟩
  | beginVendor name => exact ⟨v, hv, rfl⟩
  | endVendor name => exact ⟨v, hv, rfl⟩
  | declareVendor line =>
    simp only [apply, declareVendor, Move.vendorFacts?]
    cases Numeral.unsigned? line.number with
    | none => exact ⟨v, hv, by simp⟩
    | some number =>
      obtain ⟨v', hv', hfacts⟩ :=
        Registry.get?_vendors_declareVendor hv line.name number line.extra
      refine ⟨v', hv', ?_⟩
      rw [hfacts]
      split_ifs <;> rfl
  | declareAttribute line =>
    simp only [apply, declareAttribute]
    cases s.check line with
    | error why => exact ⟨v, hv, rfl⟩
    | ok d => exact Registry.get?_vendors_modifyAttributes hv d.vendor _
  | declareValue line =>
    simp only [apply, declareValue]
    cases Numeral.signed? line.number with
    | none => exact ⟨v, hv, rfl⟩
    | some number =>
      cases s.valueHome? line.attributeName with
      | none => exact ⟨v, hv, rfl⟩
      | some vendor => exact Registry.get?_vendors_modifyAttributes hv vendor _

theorem get?_move {s : Session} {key : String} {v : Vendor}
    (hv : s.registry.vendors.get? key = some v) (m : Move) :
    ∃ v', (s.move m).registry.vendors.get? key = some v' ∧
      v'.facts = (m.vendorFacts? key).getD v.facts := by
  cases m with
  | statement origin statement => exact get?_apply hv origin statement
  | openFile path => exact ⟨v, hv, rfl⟩
  | closeFile => exact ⟨v, hv, rfl⟩
  | noteExtension => exact ⟨v, hv, rfl⟩

/-- **The last line counts.** A declared vendor stays declared, with what the last of the moves that
say something of it says. -/
theorem get?_run {key : String} : ∀ (moves : List Move) {s : Session} {v : Vendor},
    s.registry.vendors.get? key = some v →
      ∃ v', (s.run moves).registry.vendors.get? key = some v' ∧
        v'.facts = (moves.filterMap (Move.vendorFacts? key)).getLast?.getD v.facts
  | [], _, v, hv => ⟨v, hv, rfl⟩
  | m :: moves, s, v, hv => by
    obtain ⟨v₁, hv₁, hfacts₁⟩ := get?_move hv m
    obtain ⟨v', hv', hfacts⟩ := get?_run moves hv₁
    refine ⟨v', hv', ?_⟩
    rw [hfacts, hfacts₁]
    cases hm : m.vendorFacts? key with
    | none => rw [List.filterMap_cons_none hm]; rfl
    | some facts => rw [List.filterMap_cons_some hm, List.getLast?_cons]; rfl

/-- **The first declaration lasts.** Whatever is read after any point of any reading, all attributes
stay where they are, with what their lines said, and values, names of values and nested attributes
come after those that are there. A vendor keeps its place, its name and its namespace; its number
and extra are those of the last `VENDOR` line since then that has exactly its name, if there is
one. -/
theorem first_declaration_lasts (moves more : List Move) :
    let r := (start.run moves).registry
    let r' := ((start.run moves).run more).registry
    r.Extends r' ∧ ∀ (place : Nat) (key : String) (v : Vendor),
      r.vendors.entries[place]? = some (key, v) →
        ∃ v', r'.vendors.entries[place]? = some (key, v') ∧ v.Extends v' ∧ v.name = key ∧
          v'.name = key ∧ v'.home = v.home ∧
          v'.facts = (more.filterMap (Move.vendorFacts? key)).getLast?.getD v.facts := by
  intro r r'
  have hextends : r.Extends r' := extends_run more (namesAgree_run moves namesAgree_start)
  have hr : r.WellFormed := wellFormed_run moves Registry.wellFormed_empty
  have hr' : r'.WellFormed := wellFormed_run more hr
  have hnodup : r.vendors.keys.Nodup := nodup_vendors_run moves List.nodup_nil
  have hnodup' : r'.vendors.keys.Nodup := nodup_vendors_run more hnodup
  refine ⟨hextends, fun place key v hv => ?_⟩
  obtain ⟨v', hv', hattributes⟩ := hextends.vendors place key v hv
  have hmem := List.mem_of_getElem? hv
  have hmem' := List.mem_of_getElem? hv'
  obtain ⟨v'', hv'', hfacts⟩ := get?_run more (OrderedMap.get?_of_mem_entries hnodup hmem)
  obtain rfl : v' = v'' :=
    Option.some.inj ((OrderedMap.get?_of_mem_entries hnodup' hmem').symm.trans hv'')
  have hkey := hr.vendors _ hmem
  have hkey' := hr'.vendors _ hmem'
  refine ⟨v', hv', hattributes, hkey.name_eq, hkey'.name_eq, ?_, hfacts⟩
  rw [hkey'.home_eq, hkey.home_eq, hkey'.name_eq, hkey.name_eq]

end Session

end RadiusDictionary
