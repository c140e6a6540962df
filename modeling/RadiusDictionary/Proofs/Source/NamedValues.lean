import Mathlib.Data.List.Perm.Basic
import RadiusDictionary.Generation.AttributeTree
import RadiusDictionary.Proofs.Reading.Values
import RadiusDictionary.Proofs.Source.AttributeModule

/-! # From numbers to names and back

The module of an attribute with named values has three tables, and constants for the names. What
was read has one value for each number, with names that differ (`Enumeration.grouped`), so the
tables can be said in terms of the names that were given (`mem_aliases_grouped`,
`exists_filter_byValue_grouped`): a number leads to one name, and this name leads back to the
number. But one name may have been given to two numbers, and two names may have one identifier. The
table of names then has both numbers, and the constant has the first one (`mem_keepNew_iff`).
`Reading.named_values` says when this makes a difference. -/

namespace RadiusDictionary

/-! ### Lists -/

/-- A list without repetitions has one element with a property if and only if all with the property
are that one. -/
theorem filter_eq_singleton_iff {α : Type} {p : α → Bool} {l : List α} {x : α} (hl : l.Nodup)
    (hx : x ∈ l) (hp : p x = true) : l.filter p = [x] ↔ ∀ y ∈ l, p y = true → y = x := by
  constructor
  · intro h y hy hpy
    exact List.mem_singleton.mp (h ▸ List.mem_filter.mpr ⟨hy, hpy⟩)
  · intro h
    refine List.perm_singleton.mp ((List.perm_ext_iff_of_nodup (hl.filter p)
      (List.nodup_singleton x)).mpr fun y => ?_)
    rw [List.mem_filter, List.mem_singleton]
    exact ⟨fun hy => h y hy.1 hy.2, by rintro rfl; exact ⟨hx, hp⟩⟩

namespace AttributeModule

/-- **The constants that are kept**: of each identifier that is not taken, the first. -/
theorem mem_keepNew_iff {ident : String} {number : Int64} :
    ∀ {taken : List String} {entries : List (String × Int64)},
      (ident, number) ∈ keepNew taken entries ↔
        ident ∉ taken ∧ (entries.find? (·.1 = ident)).map (·.2) = some number
  | taken, [] => by simp [keepNew]
  | taken, (i, k) :: rest => by
    rw [keepNew, List.find?_cons]
    by_cases htaken : i ∈ taken
    · rw [if_pos (List.contains_iff_mem.mpr htaken), mem_keepNew_iff]
      refine and_congr_right fun hident => ?_
      have hne : i ≠ ident := by rintro rfl; exact hident htaken
      simp [hne]
    · rw [if_neg (mt List.contains_iff_mem.mp htaken), List.mem_cons, mem_keepNew_iff]
      by_cases hi : i = ident
      · subst hi
        simp [htaken, eq_comm]
      · simp [hi, Ne.symm hi]

/-! ### Tables of groups -/

section Grouped

variable {named : List (String × Int64)} {name : String} {number : Int64}

theorem aliases_grouped (named : List (String × Int64)) :
    aliases (Enumeration.grouped named) = (named.map (·.2)).eraseDups.flatMap fun n =>
      (namesOf named n).eraseDups.map (·, n) := by
  rw [aliases, Enumeration.values_grouped, List.flatMap_map]

/-- The table of names has the names that were given. -/
theorem mem_aliases_grouped :
    (name, number) ∈ aliases (Enumeration.grouped named) ↔ (name, number) ∈ named := by
  simp only [aliases_grouped, List.mem_flatMap, List.mem_map, Prod.mk.injEq, List.mem_eraseDups,
    mem_namesOf_iff]
  constructor
  · rintro ⟨n, -, other, hother, rfl, rfl⟩
    exact hother
  · intro h
    exact ⟨number, ⟨_, h, rfl⟩, name, h, rfl, rfl⟩

theorem nodup_aliases_grouped (named : List (String × Int64)) :
    (aliases (Enumeration.grouped named)).Nodup := by
  rw [aliases_grouped, List.nodup_flatMap]
  refine ⟨fun n _ => (nodup_eraseDups _).map fun a b h => (Prod.mk.inj h).1,
    (nodup_eraseDups _).imp fun hne entry h h' => ?_⟩
  obtain ⟨_, -, rfl⟩ := List.mem_map.mp h
  obtain ⟨_, -, heq⟩ := List.mem_map.mp h'
  exact hne (Prod.mk.inj heq).2.symm

/-- The table of numbers: each with the name by which it is known. -/
theorem filterMap_canonicalName?_grouped (named : List (String × Int64)) :
    ((Enumeration.grouped named).values.filterMap fun v => v.canonicalName?.map (v.number, ·)) =
      (named.map (·.2)).eraseDups.filterMap fun n =>
        (namesOf named n).eraseDups.getLast?.map (n, ·) := by
  rw [Enumeration.values_grouped, List.filterMap_map]
  rfl

/-- A number that was named leads to one name, which was given to it. -/
theorem exists_filter_byValue_grouped (h : number ∈ (Enumeration.grouped named).keys) :
    ∃ name, (name, number) ∈ named ∧
      ((Enumeration.grouped named).values.filterMap fun v =>
        v.canonicalName?.map (v.number, ·)).filter (·.1 = number) = [(number, name)] := by
  rw [Enumeration.keys_grouped] at h
  have hnames : (namesOf named number).eraseDups ≠ [] := by
    obtain ⟨entry, hentry, rfl⟩ := List.mem_map.mp (List.mem_eraseDups.mp h)
    exact List.ne_nil_of_mem (List.mem_eraseDups.mpr (mem_namesOf_iff.mpr hentry))
  obtain ⟨name, hname⟩ : ∃ name, (namesOf named number).eraseDups.getLast? = some name :=
    ⟨_, List.getLast?_eq_some_getLast hnames⟩
  refine ⟨name, mem_namesOf_iff.mp (List.mem_eraseDups.mp (List.mem_of_getLast? hname)), ?_⟩
  rw [filterMap_canonicalName?_grouped]
  refine (filter_eq_singleton_iff ?_ ?_ (by simp)).mpr ?_
  · refine (nodup_eraseDups _).filterMap fun n n' entry hentry hentry' => ?_
    obtain ⟨_, -, rfl⟩ := Option.map_eq_some_iff.mp hentry
    obtain ⟨_, -, heq⟩ := Option.map_eq_some_iff.mp hentry'
    exact (Prod.mk.inj heq).1.symm
  · exact List.mem_filterMap.mpr ⟨number, h, by rw [hname]; rfl⟩
  · intro entry hentry hnumber
    obtain ⟨n, -, hn⟩ := List.mem_filterMap.mp hentry
    obtain ⟨other, hother, rfl⟩ := Option.map_eq_some_iff.mp hn
    obtain rfl : n = number := of_decide_eq_true hnumber
    rw [Option.some.inj (hother.symm.trans hname)]

end Grouped

/-! ### The module of an attribute that was read -/

variable {m : AttributeModule}

theorem tables?_eq {values : Enumeration} (hvalues : m.subject.values = some values)
    (hnamed : m.kind.isNamed = true) :
    m.tables? = some {
      knownValues := values.keys
      byName := aliases values
      byValue := values.values.filterMap fun v => v.canonicalName?.map (v.number, ·) } := by
  obtain ⟨t, ht⟩ := Option.isSome_iff_exists.mp
    (tables?_isSome_iff.mpr ⟨hnamed, Option.isSome_iff_exists.mpr ⟨values, hvalues⟩⟩)
  unfold tables? at ht ⊢
  rw [hvalues] at ht ⊢
  split at ht
  · next heq => cases heq; rfl
  · cases ht

theorem aliasConstants_eq :
    m.aliasConstants = keepNew reservedItems
      ((aliases (m.subject.values.getD ∅)).map fun e => (aliasIdent e.1, e.2)) := by
  unfold aliasConstants
  cases m.subject.values <;> rfl

/-- The constant has the number of the first name with its identifier. -/
theorem mem_aliasConstants_iff_find? {ident : String} {number : Int64} :
    (ident, number) ∈ m.aliasConstants ↔ ident ∉ reservedItems ∧
      ((aliases (m.subject.values.getD ∅)).find? fun e => aliasIdent e.1 = ident).map (·.2) =
        some number := by
  rw [aliasConstants_eq, mem_keepNew_iff, List.find?_map, Option.map_map, Function.comp_def,
    Function.comp_def]

theorem mem_aliasConstants_iff {values : Enumeration} (hvalues : m.subject.values = some values)
    {ident : String} {number : Int64} : (ident, number) ∈ m.aliasConstants ↔
      ident ∉ reservedItems ∧
        ((aliases values).find? fun e => aliasIdent e.1 = ident).map (·.2) = some number := by
  rw [mem_aliasConstants_iff_find?, hvalues, Option.getD_some]

/-- The constants agree with the numbers of all names with their identifiers if and only if names
with one identifier, unless it is reserved, have one number. -/
theorem aliasConstants_agree_iff {values : Enumeration} (hvalues : m.subject.values = some values) :
    (∀ e ∈ aliases values, ∀ c, (aliasIdent e.1, c) ∈ m.aliasConstants → c = e.2) ↔
      ∀ e ∈ aliases values, ∀ e' ∈ aliases values, aliasIdent e.1 = aliasIdent e'.1 →
        aliasIdent e.1 ∉ reservedItems → e.2 = e'.2 := by
  simp only [mem_aliasConstants_iff hvalues, Option.map_eq_some_iff]
  constructor
  · intro h e he e' he' hident hreserved
    -- the constant is that of the first of the names, with which both agree
    have hsome : ((aliases values).find? fun e' =>
        aliasIdent e'.1 = aliasIdent e.1).isSome = true := List.find?_isSome.mpr ⟨e, he, by simp⟩
    obtain ⟨first, hfirst⟩ := Option.isSome_iff_exists.mp hsome
    rw [← h e he first.2 ⟨hreserved, first, hfirst, rfl⟩]
    rw [hident] at hreserved hfirst
    exact h e' he' first.2 ⟨hreserved, first, hfirst, rfl⟩
  · rintro h e he c ⟨hreserved, first, hfirst, rfl⟩
    have hident : aliasIdent first.1 = aliasIdent e.1 := by simpa using List.find?_some hfirst
    rw [← hident] at hreserved
    exact h first (List.mem_of_find?_eq_some hfirst) e he hident hreserved

end AttributeModule

open AttributeModule in
/-- **Tables and constants of named values.** Let an attribute that was read have named values for
its kind. Its module has the tables, and in them every number leads to one name, which has this
number once in the table of names. The name leads back to this number alone if and only if it has no
other number. A constant has the number of the first name with its identifier. So the constants
agree with all names if and only if names with one identifier have one number. -/
theorem Reading.named_values (r : Reading) {s : Spot} (hs : s ∈ r.registry.spots)
    (hkind : (ValueKind.ofAttribute s.subject).isNamed = true) (scope : Scope) (place : Place)
    (ids : TypeIds) (childModules : List String) :
    let m := attributeModule scope place s.subject ids childModules
    ∃ t, m.tables? = some t ∧
      (∀ n ∈ t.knownValues, ∃ name, t.byValue.filter (·.1 = n) = [(n, name)] ∧
        t.byName.count (name, n) = 1 ∧
        (t.byName.filter (·.1 = name) = [(name, n)] ↔ ∀ n', (name, n') ∈ t.byName → n' = n)) ∧
      (∀ e ∈ t.byName, ∀ c, (aliasIdent e.1, c) ∈ m.aliasConstants →
        (t.byName.find? fun e' => aliasIdent e'.1 = aliasIdent e.1).map (·.2) = some c) ∧
      ((∀ e ∈ t.byName, ∀ c, (aliasIdent e.1, c) ∈ m.aliasConstants → c = e.2) ↔
        ∀ e ∈ t.byName, ∀ e' ∈ t.byName, aliasIdent e.1 = aliasIdent e'.1 →
          aliasIdent e.1 ∉ reservedItems → e.2 = e'.2) := by
  intro m
  obtain ⟨-, hsome⟩ := ValueKind.isNamed_ofAttribute.mp hkind
  have hgroups := r.values_of_spot hs
  rw [Attribute.addValues_eq] at hgroups
  obtain ⟨named, hvalues⟩ : ∃ named, m.subject.values = some (.grouped named) := by
    rw [hgroups] at hsome
    split at hsome
    · cases hsome
    · next hnamed => exact ⟨_, hgroups.trans (if_neg hnamed)⟩
  refine ⟨_, tables?_eq hvalues hkind, fun n hn => ?_,
    fun e _ c hc => ((mem_aliasConstants_iff hvalues).mp hc).2, aliasConstants_agree_iff hvalues⟩
  obtain ⟨name, hname, hfilter⟩ := exists_filter_byValue_grouped hn
  have hmem := mem_aliases_grouped.mpr hname
  refine ⟨name, hfilter, List.count_eq_one_of_mem (nodup_aliases_grouped named) hmem, ?_⟩
  rw [filter_eq_singleton_iff (nodup_aliases_grouped named) hmem (by simp)]
  constructor
  · intro h n' hn'
    exact (Prod.mk.inj (h (name, n') hn' (by simp))).2
  · rintro h ⟨other, n'⟩ hn' hother
    obtain rfl : other = name := of_decide_eq_true hother
    rw [h n' hn']

/-- The module of an attribute without a vendor that was read from a text. -/
def plainModule (a : Attribute) : AttributeModule :=
  let scope : Scope := ⟨none, .ofText "out"⟩
  attributeModule scope (.top scope a.toDeclaration) a (.plain a.number) []

/-- Two names for one number and one for another do no harm. -/
theorem Reading.named_values_of_switch :
    let r : Reading := ⟨default, [.text
      ("ATTRIBUTE Switch 1 integer\nVALUE Switch On 1\nVALUE Switch Off 0\n"
        ++ "VALUE Switch Enabled 1\n")], false⟩
    let t : NamedValueTables :=
      ⟨[1, 0], [("On", 1), ("Enabled", 1), ("Off", 0)], [(1, "Enabled"), (0, "Off")]⟩
    ∃ s ∈ r.registry.spots, (ValueKind.ofAttribute s.subject).isNamed = true ∧
      (plainModule s.subject).tables? = some t ∧
      (∀ n ∈ t.knownValues, ∃ name, t.byValue.filter (·.1 = n) = [(n, name)] ∧
        t.byName.count (name, n) = 1) ∧
      ∀ e ∈ t.byName, ∀ c,
        (AttributeModule.aliasIdent e.1, c) ∈ (plainModule s.subject).aliasConstants → c = e.2 := by
  intro r t
  obtain ⟨s, hs, hkind, ht⟩ : ∃ s ∈ r.registry.spots,
      (ValueKind.ofAttribute s.subject).isNamed = true ∧
      (plainModule s.subject).tables? = some t := by decide +kernel
  obtain ⟨t', ht', hnames, -, hconstants⟩ := named_values r hs hkind ⟨none, .ofText "out"⟩
    (.top ⟨none, .ofText "out"⟩ s.subject.toDeclaration) (.plain s.subject.number) []
  obtain rfl : t = t' := Option.some.inj (ht.symm.trans ht')
  refine ⟨s, hs, hkind, ht, fun n hn => ?_, hconstants.mpr (by decide +kernel)⟩
  obtain ⟨name, hfilter, hcount, -⟩ := hnames n hn
  exact ⟨name, hfilter, hcount⟩

/-- A name that two numbers were given stands twice in the table of names, and its constant has the
first number only. -/
theorem Reading.name_of_two_numbers :
    let r : Reading :=
      ⟨default, [.text "ATTRIBUTE Mode 1 integer\nVALUE Mode X 1\nVALUE Mode X 2\n"], false⟩
    ∃ s ∈ r.registry.spots, (ValueKind.ofAttribute s.subject).isNamed = true ∧
      ∃ t, (plainModule s.subject).tables? = some t ∧
        (¬ ∀ n ∈ t.knownValues, ∃ name, t.byValue.filter (·.1 = n) = [(n, name)] ∧
          t.byName.filter (·.1 = name) = [(name, n)]) ∧
        ¬ ∀ e ∈ t.byName, ∀ c,
          (AttributeModule.aliasIdent e.1, c) ∈ (plainModule s.subject).aliasConstants →
            c = e.2 := by
  intro r
  obtain ⟨s, hs, hkind, ht, hconstant⟩ : ∃ s ∈ r.registry.spots,
      (ValueKind.ofAttribute s.subject).isNamed = true ∧
      (plainModule s.subject).tables? =
        some ⟨[1, 2], [("X", 1), ("X", 2)], [(1, "X"), (2, "X")]⟩ ∧
      (AttributeModule.aliasIdent "X", 1) ∈ (plainModule s.subject).aliasConstants := by
    decide +kernel
  refine ⟨s, hs, hkind, _, ht, fun h => ?_, fun h => ?_⟩
  · obtain ⟨name, hfilter, hback⟩ := h 1 (by decide)
    obtain rfl : "X" = name := by simpa using hfilter
    revert hback
    decide
  · exact absurd (h ("X", 2) (by decide) 1 hconstant) (by decide)

end RadiusDictionary
