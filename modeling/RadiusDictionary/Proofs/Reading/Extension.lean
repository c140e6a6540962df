import RadiusDictionary.Proofs.Reading.Ends
import RadiusDictionary.Proofs.Registry.Growth

/-! # Declaring the attributes of one vendor

The built-in text declares a vendor, and attributes by lines that name this vendor
(`AttributeLine.IsOf`). Such a line can fail for two reasons only, whatever was read before it: its
name is declared already, or a TLV scope is open that names no attribute of the vendor
(`exists_check_iff`). No line of this kind changes whether the scope stands in the way
(`Session.Admits`) of the next one, so that what a list of them adds to a session can be said at once
(`Session.Gains`, `gains_execute`). With the built-in lines for the list, this is what the end of a
reading adds when the extension file cannot be read (`builtin_declared_iff`). -/

namespace RadiusDictionary

namespace Registry

variable {r r' : Registry} {vendor parent : Option String}

/-- An attribute of that name, up to case, is declared. -/
def Declares (r : Registry) (name : String) : Prop :=
  ∃ entry ∈ r.declared, Text.lowercase entry.2.name = Text.lowercase name

/-- The attribute is declared among those of its vendor, or among those nested in the parent. -/
def Holds (r : Registry) (parent : Option String) (d : Declaration) : Prop :=
  ∃ target a, r.target? parent d.vendor = some target ∧ target.get? d.name = some a ∧
    a.toDeclaration = d

theorem Holds.of_extends {d : Declaration} (h : r.Holds parent d) (hextends : r.Extends r') :
    r'.Holds parent d := by
  obtain ⟨target, a, htarget, ha, hd⟩ := h
  obtain ⟨target', a', htarget', ha', heq⟩ := hextends.target? htarget ha
  exact ⟨target', a', htarget', ha', heq.trans hd⟩

/-- What is declared is there. -/
theorem holds_declare {d : Declaration} {target : AttributeMap}
    (hvendor : ∀ name, d.vendor = some name → r.vendors.contains name = true)
    (htarget : r.target? parent d.vendor = some target) : (r.declare parent d).Holds parent d := by
  unfold Holds declare target?
  rw [attributesOf_modifyAttributes hvendor, if_pos rfl]
  cases parent with
  | none => exact ⟨_, d.toAttribute, rfl, by rw [OrderedMap.get?_insert, if_pos rfl], rfl⟩
  | some name =>
    obtain ⟨p, hp, rfl⟩ := Option.map_eq_some_iff.mp htarget
    refine ⟨(p.children.getD ∅).insert d.name d.toAttribute, d.toAttribute, ?_, ?_, rfl⟩
    · simp only [OrderedMap.get?_modify, if_pos, hp]
      rfl
    · rw [OrderedMap.get?_insert, if_pos rfl]

/-- The number of a vendor, if it is declared. -/
def vendorNumber? (r : Registry) (name : String) : Option UInt32 :=
  (r.vendors.get? name).map Vendor.number

theorem contains_iff_vendorNumber? {name : String} :
    r.vendors.contains name = true ↔ (r.vendorNumber? name).isSome = true := by
  rw [vendorNumber?, Option.isSome_map, OrderedMap.contains]

theorem vendorNumber?_modifyAttributes (f : AttributeMap → AttributeMap) (name : String) :
    (r.modifyAttributes vendor f).vendorNumber? name = r.vendorNumber? name := by
  cases vendor with
  | none => rfl
  | some key =>
    simp only [vendorNumber?, modifyAttributes, OrderedMap.get?_modify]
    by_cases hkey : key = name
    · rw [if_pos hkey, Option.map_map]
      rfl
    · rw [if_neg hkey]

theorem vendorNumber?_declareVendor (name : String) (number : UInt32) (extra : Option String) :
    (r.declareVendor name number extra).vendorNumber? name = some number := by
  simp only [vendorNumber?, declareVendor, OrderedMap.get?_insert, if_true, Option.map_some]

end Registry

/-- The line declares an attribute of the vendor, with a number that a nested one can have. -/
structure AttributeLine.IsOf (line : AttributeLine) (vendor : String) : Prop where
  trailing : line.trailing = [vendor]
  number : ∃ number, Numeral.unsigned? line.number = some number ∧ number ≤ TypeCode.maxChildNumber

/-- What the line declares among the attributes of the vendor. -/
def AttributeLine.declarationIn (line : AttributeLine) (vendor : String) (number : UInt32) :
    Declaration :=
  { name := line.name, number, typeTag := line.typeTag, extra := none, vendor := some vendor }

namespace Session

variable {s s' s'' : Session} {vendor : String} {line : AttributeLine}

theorem NamesAgree.declares_iff (hs : s.NamesAgree) {name : String} :
    s.registry.Declares name ↔ s.hasSeen name = true := by
  rw [hasSeen, List.contains_iff_mem, hs.perm.mem_iff, List.mem_map]
  rfl

/-- No open TLV scope stands in the way of an attribute of the vendor: if one is open, it names an
attribute of the vendor. -/
def Admits (s : Session) (vendor : String) : Prop :=
  ∀ parent, s.openTlv = some parent →
    (s.registry.attributesOf (some vendor)).contains parent = true

theorem hasSeen_congr {name name' : String} (h : Text.lowercase name = Text.lowercase name') :
    s.hasSeen name = s.hasSeen name' := by
  rw [hasSeen, hasSeen, h]

section Line

variable (hline : line.IsOf vendor) (hvendor : s.registry.vendors.contains vendor = true)
include hline hvendor

theorem declarationOf_eq (number : UInt32) :
    s.declarationOf line number = line.declarationIn vendor number := by
  simp [declarationOf, AttributeLine.declarationIn, extra?, vendorFor, namedVendor?,
    hline.trailing, hvendor]

/-- **When a line that names the vendor declares something.** -/
theorem exists_check_iff :
    (∃ d, s.check line = .ok d) ↔ s.hasSeen line.name = false ∧ s.Admits vendor := by
  obtain ⟨number, hnumber, hle⟩ := hline.number
  have hd := declarationOf_eq hline hvendor number
  constructor
  · rintro ⟨d, hcheck⟩
    obtain ⟨number', hnumber', rfl, hseen, hparent⟩ := check_eq_ok_iff.mp hcheck
    obtain rfl : number = number' := Option.some.inj (hnumber.symm.trans hnumber')
    rw [hd] at hparent
    exact ⟨hseen, fun parent htlv => (hparent parent htlv).2⟩
  · rintro ⟨hseen, hadmits⟩
    refine ⟨_, check_eq_ok_iff.mpr ⟨number, hnumber, rfl, hseen, fun parent htlv => ⟨hle, ?_⟩⟩⟩
    rw [hd]
    exact hadmits parent htlv

end Line

/-- What lines that declare attributes of the vendor make of a session. -/
structure Gains (s : Session) (vendor : String) (lines : List AttributeLine) (s' : Session) :
    Prop where
  namesAgree : s'.NamesAgree
  registry : s.registry.Extends s'.registry
  number : s'.registry.vendorNumber? vendor = s.registry.vendorNumber? vendor
  openTlv : s'.openTlv = s.openTlv
  admits : s'.Admits vendor ↔ s.Admits vendor
  /-- The names of the lines are seen afterwards, unless the vendor does not admit them. -/
  hasSeen : ∀ name, s'.hasSeen name = true ↔ s.hasSeen name = true ∨
    s.Admits vendor ∧ ∃ line ∈ lines, Text.lowercase line.name = Text.lowercase name
  /-- A line with a new name has its attribute declared. -/
  holds : s.Admits vendor → ∀ line ∈ lines, s.hasSeen line.name = false →
    ∃ number, Numeral.unsigned? line.number = some number ∧
      s'.registry.Holds s.openTlv (line.declarationIn vendor number)

theorem Gains.nil (hs : s.NamesAgree) : s.Gains vendor [] s where
  namesAgree := hs
  registry := .refl _
  number := rfl
  openTlv := rfl
  admits := Iff.rfl
  hasSeen _ := ⟨Or.inl, fun h => h.elim id fun h => nomatch h.2⟩
  holds _ _ hline := nomatch hline

/-- Lines go on where one line has stopped, if none of them repeats its name. -/
theorem Gains.cons {rest : List AttributeLine} (h : s.Gains vendor [line] s')
    (hrest : s'.Gains vendor rest s'')
    (hname : ∀ other ∈ rest, Text.lowercase other.name ≠ Text.lowercase line.name) :
    s.Gains vendor (line :: rest) s'' where
  namesAgree := hrest.namesAgree
  registry := h.registry.trans hrest.registry
  number := hrest.number.trans h.number
  openTlv := hrest.openTlv.trans h.openTlv
  admits := hrest.admits.trans h.admits
  hasSeen name := by
    rw [hrest.hasSeen, h.hasSeen, h.admits, or_assoc, ← and_or_left]
    simp only [List.mem_singleton, exists_eq_left, List.exists_mem_cons_iff]
  holds hadmits other hother hseen := by
    rcases List.mem_cons.mp hother with rfl | hother
    · obtain ⟨number, hnumber, hholds⟩ := h.holds hadmits other (List.mem_singleton_self _) hseen
      exact ⟨number, hnumber, hholds.of_extends hrest.registry⟩
    · have hseen' : s'.hasSeen other.name = false := by
        rw [← Bool.not_eq_true, h.hasSeen]
        rintro (h | ⟨-, line', hline', heq⟩)
        · rw [hseen] at h
          cases h
        · rw [List.mem_singleton.mp hline'] at heq
          exact hname other hother heq.symm
      rw [← h.openTlv]
      exact hrest.holds (h.admits.mpr hadmits) other hother hseen'

/-- **What one line adds.** -/
theorem gains_declareAttribute (hs : s.NamesAgree) (hline : line.IsOf vendor)
    (hvendor : s.registry.vendors.contains vendor = true) :
    s.Gains vendor [line] (s.apply default (.declareAttribute line)).1 := by
  have heffect : Effect s (s.apply default (.declareAttribute line)).1 := effect_apply _ _ _
  have hnames := namesAgree_effect heffect hs
  have hextends := extends_effect heffect hs
  have hiff := exists_check_iff hline hvendor
  simp only [apply, declareAttribute] at hnames hextends ⊢
  cases hcheck : s.check line with
  | error why =>
    -- the line is refused: its name has been seen, or the vendor does not admit it
    have hrefused : s.Admits vendor → s.hasSeen line.name = true := by
      intro hadmits
      rw [← Bool.not_eq_false]
      intro hseen
      obtain ⟨d, hd⟩ := hiff.mpr ⟨hseen, hadmits⟩
      cases hcheck.symm.trans hd
    refine ⟨hs, .refl _, rfl, rfl, Iff.rfl, fun name => ⟨Or.inl, ?_⟩, ?_⟩
    · rintro (h | ⟨hadmits, line', hline', heq⟩)
      · exact h
      · rw [← hasSeen_congr heq, List.mem_singleton.mp hline']
        exact hrefused hadmits
    · intro hadmits line' hline' hseen
      rw [List.mem_singleton.mp hline', hrefused hadmits] at hseen
      cases hseen
  | ok d =>
    simp only [hcheck] at hnames hextends
    obtain ⟨hseen, hadmits⟩ := hiff.mp ⟨d, hcheck⟩
    obtain ⟨number, hnumber, hd, -, -⟩ := check_eq_ok_iff.mp hcheck
    rw [declarationOf_eq hline hvendor] at hd
    obtain ⟨target, htarget, -⟩ := exists_target hs hcheck
    have hname : d.name = line.name := by rw [hd]; rfl
    refine ⟨hnames, hextends, Registry.vendorNumber?_modifyAttributes _ _, rfl,
      ⟨fun _ => hadmits, fun _ parent htlv => ?_⟩, fun name => ?_, ?_⟩
    · have hparent := hadmits parent htlv
      rw [OrderedMap.contains] at hparent ⊢
      obtain ⟨p, hp⟩ := Option.isSome_iff_exists.mp hparent
      obtain ⟨p', hp', -⟩ := (hextends.attributesOf (some vendor)).get? hp
      rw [hp']
      rfl
    · simp only [Session.hasSeen, hname, List.contains_cons, Bool.or_eq_true, beq_iff_eq,
        List.mem_singleton, exists_eq_left, hadmits, true_and]
      rw [or_comm, @eq_comm _ (Text.lowercase name)]
    · intro _ line' hline' _
      obtain rfl := List.mem_singleton.mp hline'
      refine ⟨number, hnumber, ?_⟩
      rw [← hd]
      refine Registry.holds_declare (fun name hname => ?_) htarget
      rw [hd] at hname
      obtain rfl : vendor = name := Option.some.inj hname
      exact hvendor

/-- **What lines add**, no two of them having the same name. -/
theorem gains_execute : ∀ {lines : List AttributeLine} {s : Session}, s.NamesAgree →
    s.registry.vendors.contains vendor = true → (∀ line ∈ lines, line.IsOf vendor) →
    (lines.map fun line => Text.lowercase line.name).Nodup →
    s.Gains vendor lines (s.execute (lines.map .declareAttribute))
  | [], _, hs, _, _, _ => .nil hs
  | line :: rest, s, hs, hvendor, hlines, hnodup => by
    obtain ⟨hline, hrest⟩ := List.forall_mem_cons.mp hlines
    obtain ⟨hname, hnodup⟩ := List.nodup_cons.mp hnodup
    have hgains := gains_declareAttribute hs hline hvendor
    have hvendor' := hvendor
    rw [Registry.contains_iff_vendorNumber?, ← hgains.number,
      ← Registry.contains_iff_vendorNumber?] at hvendor'
    refine hgains.cons (gains_execute hgains.namesAgree hvendor' hrest hnodup) fun other hother heq => ?_
    exact hname (List.mem_map.mpr ⟨other, hother, heq⟩)

end Session

/-! ### The built-in declarations -/

theorem isOf_builtinVendor : ∀ line ∈ builtinAttributes, line.IsOf builtinVendor.name := by
  have hnumber : ∀ line ∈ builtinAttributes, ∃ number ∈ Numeral.unsigned? line.number,
      number ≤ TypeCode.maxChildNumber := by decide
  have htrailing : ∀ line ∈ builtinAttributes, line.trailing = [builtinVendor.name] := by decide
  intro line hline
  obtain ⟨number, hmem, hle⟩ := hnumber line hline
  exact ⟨htrailing line hline, number, hmem, hle⟩

theorem nodup_builtinAttributes :
    (builtinAttributes.map fun line => Text.lowercase line.name).Nodup := by decide +kernel

/-- The number of the built-in vendor. -/
def builtinNumber : UInt32 := 19211

namespace Session

/-- **What the built-in text adds to a session.** -/
theorem gains_builtinStatements {s : Session} (hs : s.NamesAgree) :
    ∃ s' : Session, s'.registry.vendorNumber? builtinVendor.name = some builtinNumber ∧
      (s'.Admits builtinVendor.name ↔ s.Admits builtinVendor.name) ∧
      s'.seenNames = s.seenNames ∧ s'.openTlv = s.openTlv ∧
      s'.Gains builtinVendor.name builtinAttributes (s.execute builtinStatements) := by
  have hnumber : Numeral.unsigned? builtinVendor.number = some builtinNumber := by decide
  let s' := { s with registry := s.registry.declareVendor builtinVendor.name builtinNumber none }
  have hvendor : (s.apply default (.declareVendor builtinVendor)).1 = s' := by
    simp only [apply, declareVendor, hnumber]
    rfl
  have hexecute : s.execute builtinStatements =
      s'.execute (builtinAttributes.map .declareAttribute) := by
    rw [← hvendor, builtinStatements, execute_cons]
  have hthere : s'.registry.vendorNumber? builtinVendor.name = some builtinNumber :=
    Registry.vendorNumber?_declareVendor _ _ _
  have hcontains : s'.registry.vendors.contains builtinVendor.name = true := by
    rw [Registry.contains_iff_vendorNumber?, hthere]
    rfl
  have hnames : s'.NamesAgree :=
    hs.of_perm rfl (by rw [Registry.declared_declareVendor])
  refine ⟨s', hthere, ?_, rfl, rfl, ?_⟩
  · show (∀ parent, s.openTlv = some parent → _) ↔ _
    rw [Registry.attributesOf_declareVendor]
    rfl
  · rw [hexecute]
    exact gains_execute hnames hcontains isOf_builtinVendor nodup_builtinAttributes

theorem NamesAgree.withoutFiles {s : Session} (hs : s.NamesAgree) : s.withoutFiles.NamesAgree :=
  hs.of_perm rfl (List.Perm.refl _)

end Session

namespace Dictionary

/-- If the extension file cannot be read, the built-in text is carried out in its place. -/
theorem withoutFiles_finish {dict : Dictionary} {s : Session} {e : FileError}
    (hwanted : (dict.options.mergeExtension && !s.hasExtension) = true)
    (hunread : dict.disk.readText (dict.pathOf extensionFile) = .error e) :
    (dict.finish s).1.withoutFiles = s.withoutFiles.execute builtinStatements := by
  have hread : dict.interpretFile extensionFile s = ⟨s, [], some (.file e)⟩ :=
    interpretFileTo_of_error hunread
  have hobeys := dict.obeys_interpretBuiltin s
  obtain ⟨builtin, hbuiltin⟩ : ∃ o, dict.interpretBuiltin s = o := ⟨_, rfl⟩
  rw [hbuiltin] at hobeys
  rw [finish_of_unread hwanted hread rfl hbuiltin, ← statements_builtinExtension]
  exact hobeys.withoutFiles

/-- **What the end of a reading adds when the extension file cannot be read.** If the file was not
included either, the built-in vendor has its number afterwards. Each of the built-in attributes is
declared afterwards exactly if one of its name was declared before or the vendor admits it; in the
second case it is the built-in one that is among the attributes of the vendor, nested in the one
that the open TLV scope names if there is such a scope. -/
theorem builtin_declared_iff (dict : Dictionary) (requests : List Request) {e : FileError}
    (hwanted : dict.options.mergeExtension = true)
    (hseen : (dict.sessionAfter requests .start).hasExtension = false)
    (hunread : dict.disk.readText (dict.pathOf extensionFile) = .error e) :
    let s := dict.sessionAfter requests .start
    let registry := Reading.registry ⟨dict, requests, true⟩
    registry.vendorNumber? builtinVendor.name = some builtinNumber ∧
    ∀ line ∈ builtinAttributes,
      (registry.Declares line.name ↔
        s.registry.Declares line.name ∨ s.Admits builtinVendor.name) ∧
      (¬ s.registry.Declares line.name → s.Admits builtinVendor.name →
        ∃ number, Numeral.unsigned? line.number = some number ∧
          registry.Holds s.openTlv (line.declarationIn builtinVendor.name number)) := by
  intro s registry
  have hs : s.NamesAgree := Reading.namesAgree ⟨dict, requests, false⟩
  have hfinished : (dict.finish s).1.NamesAgree := Reading.namesAgree ⟨dict, requests, true⟩
  have hexecute : (dict.finish s).1.withoutFiles = s.withoutFiles.execute builtinStatements :=
    withoutFiles_finish (by rw [hwanted, hseen]; rfl) hunread
  have hregistry : registry = (dict.finish s).1.registry := rfl
  obtain ⟨s', hnumber, hadmits, hnames, htlv, hgains⟩ :=
    Session.gains_builtinStatements hs.withoutFiles
  rw [← hexecute] at hgains
  have hbefore : ∀ name, s'.hasSeen name = true ↔ s.registry.Declares name := by
    intro name
    rw [hs.declares_iff, Session.hasSeen, hnames]
    rfl
  refine ⟨hgains.number.trans hnumber, fun line hline => ⟨?_, fun hnew hadmitted => ?_⟩⟩
  · rw [hregistry, hfinished.declares_iff, ← hbefore]
    refine (hgains.hasSeen line.name).trans (or_congr_right ?_)
    rw [hadmits]
    exact ⟨fun h => h.1, fun h => ⟨h, line, hline, rfl⟩⟩
  · have hunseen : s'.hasSeen line.name = false := by
      rw [← Bool.not_eq_true, hbefore]
      exact hnew
    have hholds := hgains.holds (hadmits.mpr hadmitted) line hline hunseen
    rw [htlv] at hholds
    exact hholds

/-- An open TLV scope that names nothing keeps the built-in attributes out. -/
theorem builtin_undeclared_of_beginTlv :
    let dict : Dictionary := { disk := .empty, root := .ofText ".", options := ⟨false, true⟩ }
    let requests : List Request := [.text "BEGIN-TLV X\n"]
    dict.options.mergeExtension = true ∧
    (dict.sessionAfter requests .start).hasExtension = false ∧
    dict.disk.readText (dict.pathOf extensionFile) =
      .error ⟨.openFile, dict.pathOf extensionFile, .notFound⟩ ∧
    ∀ line ∈ builtinAttributes, ¬ (Reading.registry ⟨dict, requests, true⟩).Declares line.name := by
  intro dict requests
  obtain ⟨hseen, htlv, hregistry⟩ : (dict.sessionAfter requests .start).hasExtension = false ∧
      (dict.sessionAfter requests .start).openTlv = some "X" ∧
      (dict.sessionAfter requests .start).registry = ∅ := by decide +kernel
  have hunread : dict.disk.readText (dict.pathOf extensionFile) =
      .error ⟨.openFile, dict.pathOf extensionFile, .notFound⟩ := by decide +kernel
  refine ⟨rfl, hseen, hunread, fun line hline => ?_⟩
  rw [((builtin_declared_iff dict requests rfl hseen hunread).2 line hline).1]
  rintro (⟨entry, hentry, -⟩ | hadmits)
  · rw [hregistry] at hentry
    cases hentry
  · have hparent := hadmits "X" htlv
    rw [hregistry] at hparent
    cases hparent

end Dictionary

end RadiusDictionary
