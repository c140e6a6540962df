import RadiusDictionary.Proofs.Registry.Enumerations
import RadiusDictionary.Proofs.Registry.Spots

/-! # The values that a reading gives to an attribute

A `VALUE` line reaches one attribute at most, and which one depends on the session in which the line
is read (`Session.Reaches`). `givenValues` follows one attribute, given by its vendor and its name,
through a list of moves and collects what reaches it. A move does one of four things to the
attribute at such a place (`Touches`, `touches_move`), and each of them keeps that its values are
those collected (`HasValues`). At the end of a reading an attribute therefore has the values that
reached it and no others, grouped by their numbers (`values_of_reading`). -/

namespace RadiusDictionary

namespace Session

variable {s : Session} {vendor : Option String} {name : String}

/-- Whether a `VALUE` line for `name` that is read now goes to the attribute of that name which the
vendor has, or which is there without a vendor: attributes without a vendor come first, and only the
vendor of the open scope counts. -/
def Reaches (s : Session) (vendor : Option String) (name : String) : Prop :=
  match vendor with
  | none => name ∈ s.registry.attributes.keys
  | some key => s.openVendor = some key ∧ name ∈ (s.registry.attributesOf (some key)).keys ∧
      name ∉ s.registry.attributes.keys

instance (s : Session) (vendor : Option String) (name : String) :
    Decidable (s.Reaches vendor name) :=
  match vendor with
  | none => inferInstanceAs (Decidable (name ∈ s.registry.attributes.keys))
  | some key => inferInstanceAs (Decidable (s.openVendor = some key ∧
      name ∈ (s.registry.attributesOf (some key)).keys ∧ name ∉ s.registry.attributes.keys))

/-- The name and the number that a move gives to the attribute `name` of the vendor. -/
def givenValue? (s : Session) (vendor : Option String) (name : String) :
    Move → Option (String × Int64)
  | .statement _ (.declareValue line) =>
    if line.attributeName = name ∧ s.Reaches vendor name then
      (Numeral.signed? line.number).map (line.name, ·)
    else none
  | _ => none

/-- The names and the numbers that moves give to the attribute, in their order. -/
def givenValues (vendor : Option String) (name : String) :
    Session → List Move → List (String × Int64)
  | _, [] => []
  | s, m :: moves =>
    (s.givenValue? vendor name m).toList ++ givenValues vendor name (s.move m) moves

/-- The attribute at a place. -/
def attributeAt? (s : Session) (vendor : Option String) (name : String) : Option Attribute :=
  (s.registry.attributesOf vendor).get? name

theorem valueHome?_eq_some_iff : s.valueHome? name = some vendor ↔ s.Reaches vendor name := by
  unfold valueHome?
  by_cases htop : s.registry.attributes.contains name = true
  · have hmem := OrderedMap.contains_iff_mem_keys.mp htop
    rw [if_pos htop]
    cases vendor with
    | none => exact iff_of_true rfl hmem
    | some key => exact iff_of_false nofun fun h => h.2.2 hmem
  · have hnot := mt OrderedMap.contains_iff_mem_keys.mpr htop
    rw [if_neg htop]
    cases vendor with
    | none =>
      refine iff_of_false (fun h => ?_) hnot
      obtain ⟨key, -, h⟩ := Option.bind_eq_some_iff.mp h
      split at h <;> cases h
    | some key =>
      rw [Option.bind_eq_some_iff]
      constructor
      · rintro ⟨opened, hopened, h⟩
        split at h
        · next hthere =>
          cases h
          exact ⟨hopened, OrderedMap.contains_iff_mem_keys.mp hthere, hnot⟩
        · cases h
      · rintro ⟨hopened, hthere, -⟩
        exact ⟨key, hopened, if_pos (OrderedMap.contains_iff_mem_keys.mpr hthere)⟩

theorem Reaches.isSome_attributeAt? (h : s.Reaches vendor name) :
    (s.attributeAt? vendor name).isSome = true := by
  cases vendor with
  | none => exact OrderedMap.contains_iff_mem_keys.mpr h
  | some key => exact OrderedMap.contains_iff_mem_keys.mpr h.2.1

/-! ### One move -/

/-- What a move can do to the attribute at a place; the second argument is what it gives to it. -/
inductive Touches : Option Attribute → Option (String × Int64) → Option Attribute → Prop
  | nothing (a? : Option Attribute) : Touches a? none a?
  | declared (d : Declaration) : Touches none none (some d.toAttribute)
  | child (a : Attribute) (key : String) (c : Attribute) :
    Touches (some a) none (some (a.addChild key c))
  | value (a : Attribute) (name : String) (number : Int64) :
    Touches (some a) (some (name, number)) (some (a.addValue name number))

theorem touches_declareAttribute (hs : s.NamesAgree) {line : AttributeLine} {d : Declaration}
    (hcheck : s.check line = .ok d) :
    Touches (s.attributeAt? vendor name) none
      (((s.registry.declare s.openTlv d).attributesOf vendor).get? name) := by
  obtain ⟨target, htarget, hnew⟩ := exists_target hs hcheck
  obtain ⟨number, -, hd, -⟩ := check_eq_ok_iff.mp hcheck
  have hvendor : ∀ key, d.vendor = some key → s.registry.vendors.contains key = true := by
    rintro key hkey
    rw [hd] at hkey
    exact contains_of_vendorFor hkey
  rw [Registry.declare, Registry.attributesOf_modifyAttributes hvendor, attributeAt?]
  split
  · next heq =>
    subst heq
    cases htlv : s.openTlv with
    | none =>
      rw [htlv] at htarget
      cases htarget
      simp only [OrderedMap.get?_insert]
      split
      · next hname =>
        subst hname
        rw [OrderedMap.contains_eq_false_iff.mp hnew]
        exact .declared d
      · exact .nothing _
    | some parent =>
      simp only [OrderedMap.get?_modify]
      split
      · cases (s.registry.attributesOf d.vendor).get? name with
        | none => exact .nothing none
        | some a => exact .child a d.name d.toAttribute
      · exact .nothing _
  · exact .nothing _

theorem touches_declareValue (origin : Origin) (line : ValueLine) :
    Touches (s.attributeAt? vendor name)
      (s.givenValue? vendor name (.statement origin (.declareValue line)))
      ((s.declareValue origin line).1.attributeAt? vendor name) := by
  simp only [givenValue?, declareValue]
  cases Numeral.signed? line.number with
  | none => simpa using Touches.nothing _
  | some number =>
    cases hhome : s.valueHome? line.attributeName with
    | none =>
      rw [if_neg]
      · exact .nothing _
      · rintro ⟨rfl, hreaches⟩
        cases hhome.symm.trans (valueHome?_eq_some_iff.mpr hreaches)
    | some home =>
      have hvendor : ∀ key, home = some key → s.registry.vendors.contains key = true := by
        rintro key rfl
        exact contains_of_valueHome? hhome
      have hreaches : (line.attributeName = name ∧ s.Reaches vendor name) ↔
          home = vendor ∧ line.attributeName = name := by
        rw [and_comm, ← valueHome?_eq_some_iff]
        refine and_congr_left fun hname => ?_
        rw [← hname, hhome, Option.some.injEq]
      simp only [hreaches, attributeAt?, Registry.attributesOf_modifyAttributes hvendor]
      by_cases heq : home = vendor
      · rw [if_pos heq, OrderedMap.get?_modify]
        by_cases hname : line.attributeName = name
        · rw [if_pos ⟨heq, hname⟩, if_pos hname]
          have hsome := (hreaches.mpr ⟨heq, hname⟩).2.isSome_attributeAt?
          obtain ⟨a, ha⟩ := Option.isSome_iff_exists.mp hsome
          rw [attributeAt?] at ha
          rw [ha]
          exact .value a line.name number
        · rw [if_neg (fun h => hname h.2), if_neg hname]
          exact .nothing _
      · rw [if_neg (fun h => heq h.1), if_neg heq]
        exact .nothing _

/-- **What a move does to the attribute at a place.** -/
theorem touches_move (hs : s.NamesAgree) (m : Move) :
    Touches (s.attributeAt? vendor name) (s.givenValue? vendor name m)
      ((s.move m).attributeAt? vendor name) := by
  cases m with
  | openFile path => exact .nothing _
  | closeFile => exact .nothing _
  | noteExtension => exact .nothing _
  | statement origin statement =>
    cases statement with
    | beginTlv name => exact .nothing _
    | endTlv name => exact .nothing _
    | beginVendor name => exact .nothing _
    | endVendor name => exact .nothing _
    | declareVendor line =>
      simp only [givenValue?, move, apply, declareVendor]
      cases Numeral.unsigned? line.number with
      | none => exact .nothing _
      | some number =>
        simp only [attributeAt?, Registry.attributesOf_declareVendor]
        exact .nothing _
    | declareAttribute line =>
      simp only [givenValue?, move, apply, declareAttribute]
      cases hcheck : s.check line with
      | error why => exact .nothing _
      | ok d => exact touches_declareAttribute hs hcheck
    | declareValue line => exact touches_declareValue origin line

/-! ### All moves -/

/-- The attribute at a place has the values that have been given to it; if there is none, no values
have been given. -/
def HasValues (given : List (String × Int64)) : Option Attribute → Prop
  | none => given = []
  | some a => a.values = (a.toDeclaration.toAttribute.addValues given).values

theorem HasValues.touches {given : List (String × Int64)} {a? a?' : Option Attribute}
    {value? : Option (String × Int64)} (h : HasValues given a?) (ht : Touches a? value? a?') :
    HasValues (given ++ value?.toList) a?' := by
  cases ht with
  | nothing =>
    rw [Option.toList_none, List.append_nil]
    exact h
  | declared d =>
    obtain rfl : given = [] := h
    exact rfl
  | child a key c =>
    rw [Option.toList_none, List.append_nil]
    exact h
  | value a name number =>
    have hvalues : a.values = (a.toDeclaration.toAttribute.addValues given).values := h
    show (a.addValue name number).values =
      (a.toDeclaration.toAttribute.addValues (given ++ [(name, number)])).values
    rw [Attribute.addValues_concat, Attribute.addValue, Attribute.addValue, hvalues]

/-- **The values that moves give.** -/
theorem hasValues_run : ∀ (moves : List Move) {s : Session} {given : List (String × Int64)},
    s.NamesAgree → HasValues given (s.attributeAt? vendor name) →
    HasValues (given ++ s.givenValues vendor name moves) ((s.run moves).attributeAt? vendor name)
  | [], s, given, _, h => by
    rw [givenValues, List.append_nil]
    exact h
  | m :: moves, s, given, hs, h => by
    have hmove := h.touches (touches_move hs m)
    rw [givenValues, ← List.append_assoc]
    exact hasValues_run moves (namesAgree_run [m] hs) hmove

end Session

namespace Reading

/-- The names and the numbers that a reading gives to the attribute of a spot. -/
def valuesFor (r : Reading) (s : Spot) : List (String × Int64) :=
  Session.start.givenValues (s.vendor.map Vendor.name) s.subject.name r.moves

theorem values_of_spot (r : Reading) {s : Spot} (hs : s ∈ r.registry.spots) :
    s.subject.values = (s.declaration.toAttribute.addValues (r.valuesFor s)).values := by
  have hend : Session.HasValues (r.valuesFor s)
      (r.session.attributeAt? (s.vendor.map Vendor.name) s.subject.name) := by
    rw [r.session_eq_run]
    have hstart : Session.HasValues []
        (Session.start.attributeAt? (s.vendor.map Vendor.name) s.subject.name) := by
      cases s.vendor with
      | none => exact rfl
      | some v => exact rfl
    exact Session.hasValues_run r.moves Session.namesAgree_start hstart
  have hregistry : r.session.registry = r.registry := rfl
  rw [Session.attributeAt?, hregistry, r.get?_of_spot hs] at hend
  split at hend
  · exact hend
  · next hparent =>
    -- nothing reaches a nested attribute, and it has no values
    have hgiven : r.valuesFor s = [] := hend
    rcases r.spot_cases hs with ⟨h, -⟩ | ⟨-, p, hp, hsubject⟩
    · exact absurd h hparent
    · obtain ⟨e, he, rfl⟩ := List.mem_map.mp hp
      obtain ⟨e', he', hsubject⟩ := List.mem_map.mp hsubject
      have hchild := (r.wellFormed.attributesOf _ e he).isChild e' he'
      rw [hgiven, ← hsubject, hchild.values_eq]
      rfl

/-- **The values of a reading.** Named numbers that are added to a new attribute one after the other
give it one value for each number, in the order of the first occurrences, and with each value the
names that the number was given, in the order of their first occurrences and without repetitions;
the number is known by the name whose first occurrence came last. Whatever is read, an attribute,
wherever it stands, has the values that come of the `VALUE` lines which name it and have a number,
and which were read when it was among the attributes without a vendor, or among those of the open
vendor with none of that name without a vendor. -/
theorem values_of_reading :
    (∀ (d : Declaration) (named : List (String × Int64)),
      d.toAttribute.addValues named =
          ⟨d, if named = [] then none else some (Enumeration.grouped named), none⟩ ∧
        (Enumeration.grouped named).keys = (named.map (·.2)).eraseDups ∧
        ∀ e ∈ (Enumeration.grouped named).entries,
          e.2.number = e.1 ∧ e.2.names = (namesOf named e.1).eraseDups ∧
          ∀ name, e.2.canonicalName? = some name ↔ name ∈ namesOf named e.1 ∧
            ∀ other ∈ namesOf named e.1,
              (namesOf named e.1).idxOf other ≤ (namesOf named e.1).idxOf name) ∧
    ∀ r : Reading, ∀ s ∈ r.registry.spots,
      s.subject.values = (s.declaration.toAttribute.addValues (r.valuesFor s)).values := by
  refine ⟨fun d named => ⟨Attribute.addValues_eq d named, Enumeration.keys_grouped named,
    fun e he => ?_⟩, fun r s hs => r.values_of_spot hs⟩
  obtain ⟨number, -, rfl⟩ := List.mem_map.mp he
  exact ⟨rfl, rfl, fun name => getLast?_eraseDups_iff (namesOf named number)⟩

/-- Attributes with lines that reach them and lines that do not. -/
def scopedReading : Reading :=
  ⟨default, [.text
    ("VENDOR V 1\nATTRIBUTE B 2 integer V\nVALUE B z 7\nBEGIN-VENDOR V\nVALUE B z 8\nVALUE b z 9\n"
      ++ "END-VENDOR V\nATTRIBUTE A 1 integer\nVALUE A x 1\nVALUE A y 0x1\nVALUE A x 1\n"
      ++ "VALUE A w nine\n")], false⟩

/-- Only one line for `B` is in the scope of its vendor. The name `y` of `A` stays the last one. -/
theorem values_of_reading_in_scope :
    (∃ s ∈ scopedReading.registry.spots, s.subject.name = "B" ∧
      s.subject.values = some ⟨[(8, ⟨8, ["z"]⟩)]⟩) ∧
    ∃ s ∈ scopedReading.registry.spots, s.subject.name = "A" ∧
      s.subject.values = some ⟨[(1, ⟨1, ["x", "y"]⟩)]⟩ ∧
      (⟨1, ["x", "y"]⟩ : NamedValue).canonicalName? = some "y" := by
  obtain ⟨⟨b, hb, hbname, hbvalues⟩, a, ha, haname, havalues⟩ :
      (∃ s ∈ scopedReading.registry.spots, s.subject.name = "B" ∧
        scopedReading.valuesFor s = [("z", 8)]) ∧
      ∃ s ∈ scopedReading.registry.spots, s.subject.name = "A" ∧
        scopedReading.valuesFor s = [("x", 1), ("y", 1), ("x", 1)] := by decide +kernel
  obtain ⟨hadd, hspots⟩ := values_of_reading
  have hbgroups := hspots scopedReading b hb
  have hagroups := hspots scopedReading a ha
  rw [hbvalues, (hadd b.declaration _).1] at hbgroups
  rw [havalues, (hadd a.declaration _).1] at hagroups
  have hlast := ((hadd default [("x", 1), ("y", 1), ("x", 1)]).2.2 (1, ⟨1, ["x", "y"]⟩)
    (by decide +kernel)).2.2 "y"
  exact ⟨⟨b, hb, hbname, hbgroups⟩, a, ha, haname, hagroups, hlast.mpr (by decide)⟩

end Reading

end RadiusDictionary
