import RadiusDictionary.Proofs.Reading.Names

/-! # What an attribute line does

An `ATTRIBUTE` line is described here without the functions that carry it out. The vendor is the
last of the line's operands that is the name of a declared vendor, else that of the open scope, if
it is declared (`BelongsTo`); the last of the other operands is the attribute's extra (`IsLast?`).
The number, the names seen so far and the open TLV scope decide whether the line is accepted
(`Accepts`). An accepted line has one new entry at the end of one list (`Appended`), in one map of
the registry (`Replaced`).

`attribute_line` says that a line read at any point of any reading does this and nothing else. The
entry goes to the end because its name is new; this needs that the names seen are those declared
(`NamesAgree`), so it does not hold of all sessions. -/

namespace RadiusDictionary

/-! ### The last word of a kind -/

/-- `word?` is the last of the words with the property; there is none if it is `none`. -/
def IsLast? (P : String → Prop) (words : List String) : Option String → Prop
  | none => ∀ word ∈ words, ¬ P word
  | some word => ∃ front back, words = front ++ word :: back ∧ P word ∧ ∀ other ∈ back, ¬ P other

/-- The last one is the first one from behind. -/
theorem isLast?_find?_reverse {P : String → Prop} {p : String → Bool}
    (hp : ∀ word, p word = true ↔ P word) (words : List String) :
    IsLast? P words (words.reverse.find? p) := by
  cases h : words.reverse.find? p with
  | none =>
    intro word hword hP
    exact List.find?_eq_none.mp h word (List.mem_reverse.mpr hword) ((hp word).mpr hP)
  | some word =>
    obtain ⟨hword, back, front, hwords, hback⟩ := List.find?_eq_some_iff_append.mp h
    refine ⟨front.reverse, back.reverse, ?_, (hp word).mp hword, fun other hother hP => ?_⟩
    · rw [← List.reverse_reverse words, hwords]
      simp
    · have hnot := hback other (List.mem_reverse.mp hother)
      rw [(hp other).mpr hP] at hnot
      cases hnot

namespace Session

variable {s : Session} {line : AttributeLine}

/-! ### The vendor and the extra of a line -/

/-- A vendor of that name is declared. -/
def HasVendor (s : Session) (name : String) : Prop := name ∈ s.registry.vendors.keys

/-- The vendor of a line with these operands: the last one that they name, or else that of the
open scope. -/
inductive BelongsTo (s : Session) (operands : List String) : Option String → Prop
  | named {name : String} (h : IsLast? s.HasVendor operands (some name)) :
    BelongsTo s operands (some name)
  | scope {name : String} (h : IsLast? s.HasVendor operands none)
    (hopen : s.openVendor = some name) (hname : s.HasVendor name) :
    BelongsTo s operands (some name)
  | nobody (h : IsLast? s.HasVendor operands none)
    (hopen : ∀ name, s.openVendor = some name → ¬ s.HasVendor name) :
    BelongsTo s operands none

theorem isLast?_namedVendor? (s : Session) (operands : List String) :
    IsLast? s.HasVendor operands (s.namedVendor? operands) :=
  isLast?_find?_reverse (fun _ => OrderedMap.contains_iff_mem_keys) operands

theorem isLast?_extra? (s : Session) (operands : List String) :
    IsLast? (¬ s.HasVendor ·) operands (s.extra? operands) := by
  refine isLast?_find?_reverse (fun word => ?_) operands
  rw [Bool.not_eq_true', ← Bool.not_eq_true, OrderedMap.contains_iff_mem_keys]
  rfl

/-- **The vendor of a line.** -/
theorem belongsTo_vendorFor (s : Session) (operands : List String) :
    s.BelongsTo operands (s.vendorFor operands) := by
  have hlast := s.isLast?_namedVendor? operands
  unfold vendorFor
  cases hnamed : s.namedVendor? operands with
  | some name =>
    rw [hnamed] at hlast
    exact .named hlast
  | none =>
    rw [hnamed] at hlast
    rw [Option.none_or]
    cases hscope : s.scopeVendor? with
    | some name =>
      obtain ⟨hopen, hname⟩ := Option.filter_eq_some_iff.mp hscope
      exact .scope hlast hopen (OrderedMap.contains_iff_mem_keys.mp hname)
    | none =>
      refine .nobody hlast fun name hopen hname => ?_
      exact Option.filter_eq_none_iff.mp hscope name hopen
        (OrderedMap.contains_iff_mem_keys.mpr hname)

/-! ### Lines that are accepted -/

/-- The line is accepted, `number` being its number and `m` the attributes of its vendor. -/
structure Accepts (s : Session) (line : AttributeLine) (m : AttributeMap) (number : UInt32) :
    Prop where
  number_eq : Numeral.unsigned? line.number = some number
  isNew : Text.lowercase line.name ∉ s.seenNames
  number_le : s.openTlv.isSome → number ≤ TypeCode.maxChildNumber
  mem_keys : ∀ parent, s.openTlv = some parent → parent ∈ m.keys

theorem check_eq_ok_iff_accepts {d : Declaration} : s.check line = .ok d ↔
    ∃ number, s.Accepts line (s.registry.attributesOf (s.vendorFor line.trailing)) number ∧
      d = s.declarationOf line number := by
  rw [check_eq_ok_iff]
  constructor
  · rintro ⟨number, hnumber, rfl, hseen, hparent⟩
    refine ⟨number, ⟨hnumber, hasSeen_eq_false_iff.mp hseen, fun htlv => ?_, fun parent htlv => ?_⟩,
      rfl⟩
    · obtain ⟨parent, htlv⟩ := Option.isSome_iff_exists.mp htlv
      exact (hparent parent htlv).1
    · exact OrderedMap.contains_iff_mem_keys.mp (hparent parent htlv).2
  · rintro ⟨number, haccepts, rfl⟩
    refine ⟨number, haccepts.number_eq, rfl, hasSeen_eq_false_iff.mpr haccepts.isNew,
      fun parent htlv => ⟨haccepts.number_le ?_, ?_⟩⟩
    · rw [htlv]; rfl
    · exact OrderedMap.contains_iff_mem_keys.mpr (haccepts.mem_keys parent htlv)

end Session

/-! ### What is appended, and where -/

/-- `m'` is `m` with an attribute appended: at the end, or at the end of what is nested in the open
TLV scope's attribute. -/
inductive Appended (m : AttributeMap) (d : Declaration) : Option String → AttributeMap → Prop
  | atEnd : Appended m d none ⟨m.entries ++ [(d.name, d.toAttribute)]⟩
  | nested {parent : String} {front back : List (String × Attribute)} {p : Attribute}
    (h : m = ⟨front ++ (parent, p) :: back⟩) :
    Appended m d (some parent) ⟨front ++ (parent, { p with
      children := some ⟨(p.children.getD ∅).entries ++ [(d.name, d.toAttribute)]⟩ }) :: back⟩

/-- `r'` is `r` with the map `m'` in place of `m`, among the attributes of a vendor or for those
without one. -/
inductive Registry.Replaced (r : Registry) (m m' : AttributeMap) : Option String → Registry → Prop
  | top (h : r.attributes = m) : Replaced r m m' none { r with attributes := m' }
  | vendor {name : String} {front back : List (String × Vendor)} {v : Vendor}
    (h : r.vendors = ⟨front ++ (name, v) :: back⟩) (hm : v.attributes = m) :
    Replaced r m m' (some name)
      { r with vendors := ⟨front ++ (name, { v with attributes := m' }) :: back⟩ }

theorem Registry.replaced_modifyAttributes {r : Registry} {vendor : Option String}
    (hvendor : ∀ name, vendor = some name → name ∈ r.vendors.keys)
    (f : AttributeMap → AttributeMap) :
    r.Replaced (r.attributesOf vendor) (f (r.attributesOf vendor)) vendor
      (r.modifyAttributes vendor f) := by
  cases vendor with
  | none => exact .top rfl
  | some name =>
    obtain ⟨v, hv⟩ := Option.isSome_iff_exists.mp
      (OrderedMap.contains_iff_mem_keys.mpr (hvendor name rfl))
    obtain ⟨front, back, hvendors, hmodify, -⟩ := OrderedMap.exists_split hv
    rw [attributesOf_of_get?_eq_some hv]
    unfold modifyAttributes
    simp only [hmodify]
    exact .vendor hvendors rfl

/-- **A declaration whose name is new in its target goes to the end of it.** -/
theorem Registry.appended_declare {r : Registry} {parent : Option String} {d : Declaration}
    {target : AttributeMap} (hvendor : ∀ name, d.vendor = some name → name ∈ r.vendors.keys)
    (htarget : r.target? parent d.vendor = some target) (hnew : target.contains d.name = false) :
    ∃ m', Appended (r.attributesOf d.vendor) d parent m' ∧
      r.Replaced (r.attributesOf d.vendor) m' d.vendor (r.declare parent d) := by
  refine ⟨_, ?_, replaced_modifyAttributes hvendor _⟩
  have hnone := OrderedMap.contains_eq_false_iff.mp hnew
  cases parent with
  | none =>
    cases htarget
    simp only [OrderedMap.insert_of_get?_eq_none hnone]
    exact .atEnd
  | some name =>
    obtain ⟨p, hp, rfl⟩ := Option.map_eq_some_iff.mp htarget
    obtain ⟨front, back, hm, hmodify, -⟩ := OrderedMap.exists_split hp
    simp only [hmodify, Attribute.addChild, OrderedMap.insert_of_get?_eq_none hnone]
    exact .nested hm

/-! ### The line as a whole -/

namespace Session

/-- **What an attribute line does.** At any point of any reading, a line has one vendor and one
extra, found among its operands or in the open scope. If it is accepted, its attribute is appended
to the vendor's attributes, or to what is nested in the open TLV scope's one, and its name in lower
case is noted; nothing else changes. If it is not accepted, nothing changes at all. -/
theorem attribute_line (moves : List Move) (origin : Origin) (line : AttributeLine) :
    let s := start.run moves
    let s' := (s.apply origin (.declareAttribute line)).1
    ∃ vendor extra, s.BelongsTo line.trailing vendor ∧
      IsLast? (¬ s.HasVendor ·) line.trailing extra ∧
      let m := s.registry.attributesOf vendor
      ((∃ number m' r', s.Accepts line m number ∧
          Appended m ⟨line.name, number, line.typeTag, extra, vendor⟩ s.openTlv m' ∧
          s.registry.Replaced m m' vendor r' ∧
          s' = { s with
            registry := r', seenNames := Text.lowercase line.name :: s.seenNames }) ∨
        ((∀ number, ¬ s.Accepts line m number) ∧ s' = s)) := by
  intro s s'
  have hs : s.NamesAgree := namesAgree_run moves namesAgree_start
  refine ⟨s.vendorFor line.trailing, s.extra? line.trailing, s.belongsTo_vendorFor _,
    s.isLast?_extra? _, ?_⟩
  cases hcheck : s.check line with
  | ok d =>
    obtain ⟨number, haccepts, rfl⟩ := check_eq_ok_iff_accepts.mp hcheck
    obtain ⟨target, htarget, hnew⟩ := exists_target hs hcheck
    have hvendor : ∀ name, s.vendorFor line.trailing = some name →
        name ∈ s.registry.vendors.keys :=
      fun name hname => OrderedMap.contains_iff_mem_keys.mp (contains_of_vendorFor hname)
    obtain ⟨m', happended, hreplaced⟩ := Registry.appended_declare hvendor htarget hnew
    refine .inl ⟨number, m', _, haccepts, happended, hreplaced, ?_⟩
    simp only [s', apply, declareAttribute, hcheck]
    rfl
  | error why =>
    refine .inr ⟨fun number haccepts => ?_, ?_⟩
    · rw [check_eq_ok_iff_accepts.mpr ⟨number, haccepts, rfl⟩] at hcheck
      cases hcheck
    · simp only [s', apply, declareAttribute, hcheck]

end Session

end RadiusDictionary
