import RadiusDictionary.Proofs.Identifier.Legal
import RadiusDictionary.Proofs.Source.Lines
import RadiusDictionary.Proofs.Source.NamedValues

/-! # The constants for the names of values

A generated type has its own items, the constants that identify the attribute and two functions, and
a constant for every identifier that the names of values have. Names are lost on the way: several
names have one identifier, and an identifier may be that of an item. What remains are identifiers
that the language accepts and that differ from each other and from those of the items, also where
some are in raw form (`nodup_words`). `AttributeModule.alias_constants` says which they are. -/

namespace RadiusDictionary.AttributeModule

open Identifier (Spelled IsLegal word escape)

/-- No identifier is kept twice. -/
theorem nodup_keepNew : ∀ {taken : List String} {entries : List (String × Int64)},
    ((keepNew taken entries).map (·.1)).Nodup
  | _, [] => List.nodup_nil
  | taken, (ident, number) :: rest => by
    rw [keepNew]
    by_cases htaken : taken.contains ident = true
    · rw [if_pos htaken]
      exact nodup_keepNew
    · rw [if_neg htaken, List.map_cons, List.nodup_cons]
      refine ⟨fun hmem => ?_, nodup_keepNew⟩
      -- the identifier is taken in what follows
      obtain ⟨entry, hentry, rfl⟩ := List.mem_map.mp hmem
      exact (mem_keepNew_iff.mp hentry).1 List.mem_cons_self

/-! ### The constants in the source -/

theorem filter_constants (constants : List Constant) :
    (constants.map fun c => "    " ++ c.text).filter isConstantLine =
      constants.map fun c => "    " ++ c.text := by
  rw [List.filter_eq_self, List.forall_mem_map]
  exact fun c _ => isConstantLine_constant c

theorem filter_aliasConstants (m : AttributeModule) :
    (if m.subject.values.isSome then
      "" :: m.aliasConstants.map (fun e => "    " ++ (aliasConstant e).text) else []).filter
        isConstantLine = (m.aliasConstants.map aliasConstant).map fun c => "    " ++ c.text := by
  cases hvalues : m.subject.values with
  | none => simp [aliasConstants, hvalues]
  | some values =>
    have hempty : ¬ isConstantLine "" = true := by decide
    have hconstants := filter_constants (m.aliasConstants.map aliasConstant)
    rw [Option.isSome_some, if_pos rfl, List.filter_cons_of_neg hempty]
    rwa [List.map_map] at hconstants ⊢

/-- The lines that define constants are those of the constants. -/
theorem filter_lines (m : AttributeModule) (runtime stamp : String) :
    (m.lines runtime stamp).filter isConstantLine =
      (m.constants ++ m.aliasConstants.map aliasConstant).map fun c => "    " ++ c.text := by
  have hdrop : ∀ {ls : List String}, (∀ line ∈ ls, ¬ isConstantLine line = true) →
      ls.filter isConstantLine = [] := List.filter_eq_nil_iff.mpr
  have hdocs := hdrop fun line hline =>
    not_isConstantLine_of_isDocLine (m.isDocLine_of_mem_docs line hline)
  obtain ⟨before, between, after, hlines, hother⟩ := m.exists_lines_eq runtime stamp
  rw [List.forall_mem_append, List.forall_mem_append] at hother
  obtain ⟨⟨hbefore, hbetween⟩, hafter⟩ := hother
  rw [hlines, List.map_append]
  simp only [List.filter_append, hdocs, filter_constants, filter_aliasConstants,
    hdrop fun line hline => (hbefore line hline).not_isConstantLine,
    hdrop fun line hline => (hbetween line hline).not_isConstantLine,
    hdrop fun line hline => (hafter line hline).not_isConstantLine, List.nil_append,
    List.append_nil]

variable (m : AttributeModule)

/-! ### The items of the type -/

/-- The identifiers of the items that every type of its kind has: the constants that identify the
attribute, and the functions. -/
def ownNames : List String := m.constants.map (·.name) ++ ["setup", "create"]

/-- The identifiers of all items of the generated type. -/
def itemNames : List String := m.ownNames ++ m.aliasConstants.map (·.1)

theorem map_name_constants : m.constants.map (·.name) =
    match m.ids with
    | .plain _ => ["NAME", "TYPE"]
    | .vendor _ _ => ["NAME", "VENDOR_ID", "VSA_TYPE", "TYPE"]
    | .nested _ _ _ => ["NAME", "VENDOR_ID", "PARENT_TYPE", "VSA_TYPE", "TYPE"] := by
  unfold constants idConstants
  cases m.ids <;> rfl

theorem nodup_ownNames : m.ownNames.Nodup := by
  rw [ownNames, map_name_constants]
  cases m.ids <;> dsimp only <;> decide

variable {m}

theorem mem_reservedItems_of_mem_ownNames {ident : String} (h : ident ∈ m.ownNames) :
    ident ∈ reservedItems := by
  have hnames : ∀ name ∈ m.ownNames, name ∈ reservedItems := by
    rw [ownNames, map_name_constants]
    cases m.ids <;> dsimp only <;> decide
  exact hnames ident h

/-- An identifier has a constant if it is that of a name and not reserved. -/
theorem mem_map_fst_aliasConstants_iff {ident : String} :
    ident ∈ m.aliasConstants.map (·.1) ↔ ident ∉ reservedItems ∧
      ∃ e ∈ aliases (m.subject.values.getD ∅), aliasIdent e.1 = ident := by
  have hfind : (∃ e ∈ aliases (m.subject.values.getD ∅), aliasIdent e.1 = ident) ↔
      ((aliases (m.subject.values.getD ∅)).find? fun e =>
        aliasIdent e.1 = ident).isSome = true := by
    simp only [List.find?_isSome, decide_eq_true_eq]
  rw [hfind, List.mem_map]
  constructor
  · rintro ⟨⟨_, number⟩, hentry, rfl⟩
    obtain ⟨hfree, hnumber⟩ := mem_aliasConstants_iff_find?.mp hentry
    obtain ⟨first, hfirst, -⟩ := Option.map_eq_some_iff.mp hnumber
    exact ⟨hfree, Option.isSome_iff_exists.mpr ⟨first, hfirst⟩⟩
  · rintro ⟨hfree, hsome⟩
    obtain ⟨first, hfirst⟩ := Option.isSome_iff_exists.mp hsome
    refine ⟨(ident, first.2), mem_aliasConstants_iff_find?.mpr ⟨hfree, ?_⟩, rfl⟩
    rw [hfirst, Option.map_some]

/-- Every item has the escaped form of a name. -/
theorem exists_escape_of_mem_itemNames {ident : String} (h : ident ∈ m.itemNames) :
    ∃ s, Spelled s ∧ escape s = ident := by
  rcases List.mem_append.mp h with hown | hname
  · have hreserved : ∀ name ∈ reservedItems, Spelled name ∧ escape name = name := by decide
    exact ⟨ident, hreserved ident (mem_reservedItems_of_mem_ownNames hown)⟩
  · obtain ⟨-, e, -, rfl⟩ := mem_map_fst_aliasConstants_iff.mp hname
    exact ⟨sanitize e.1, Identifier.spelled_sanitize _, rfl⟩

theorem nodup_map_fst_aliasConstants : (m.aliasConstants.map (·.1)).Nodup := by
  rw [aliasConstants_eq]
  exact nodup_keepNew

theorem nodup_itemNames : m.itemNames.Nodup := by
  rw [itemNames, List.nodup_append]
  refine ⟨m.nodup_ownNames, nodup_map_fst_aliasConstants, fun ident hown _ hname heq => ?_⟩
  exact (mem_map_fst_aliasConstants_iff.mp hname).1 (heq ▸ mem_reservedItems_of_mem_ownNames hown)

/-- **No two items of the generated type stand for one word**, in raw form or not. -/
theorem nodup_words : (m.itemNames.map word).Nodup := by
  refine nodup_itemNames.map_on fun ident hident ident' hident' heq => ?_
  obtain ⟨s, hs, rfl⟩ := exists_escape_of_mem_itemNames hident
  obtain ⟨s', hs', rfl⟩ := exists_escape_of_mem_itemNames hident'
  exact Identifier.escape_eq_of_word_eq hs hs' heq

/-- **The constants for the names of values.** The constants that the generated type defines are
those that identify the attribute and those for the names of its values. The latter have identifiers
that the language accepts, that differ from each other, and of which none is reserved for the type's
own items; so no two items have one name, even where some are in raw form. An identifier has a
constant if and only if it is not reserved and a name has it, and the constant is the number of the
first name with this identifier, in the order of the numbers and of the names of each. -/
theorem alias_constants (m : AttributeModule) (runtime stamp : String) :
    let named := aliases (m.subject.values.getD ∅)
    (m.lines runtime stamp).filter isConstantLine =
      (m.constants ++ m.aliasConstants.map aliasConstant).map (fun c => "    " ++ c.text) ∧
    (m.aliasConstants.map (·.1)).Nodup ∧
    (∀ ident ∈ m.aliasConstants.map (·.1), ident ∉ reservedItems ∧ IsLegal ident) ∧
    (∀ name ∈ m.ownNames, name ∈ reservedItems) ∧ (m.itemNames.map word).Nodup ∧
    (∀ ident, ident ∈ m.aliasConstants.map (·.1) ↔
      ident ∉ reservedItems ∧ ∃ e ∈ named, aliasIdent e.1 = ident) ∧
    ∀ ident number, (ident, number) ∈ m.aliasConstants ↔
      ident ∉ reservedItems ∧
        (named.find? fun e => aliasIdent e.1 = ident).map (·.2) = some number := by
  intro named
  refine ⟨m.filter_lines runtime stamp, nodup_map_fst_aliasConstants, ?_,
    fun _ => mem_reservedItems_of_mem_ownNames, nodup_words,
    fun _ => mem_map_fst_aliasConstants_iff, fun _ _ => mem_aliasConstants_iff_find?⟩
  intro ident hident
  obtain ⟨hfree, e, -, rfl⟩ := mem_map_fst_aliasConstants_iff.mp hident
  exact ⟨hfree, Identifier.isLegal_escape_sanitize e.1⟩

/-- `TYPE` is the type's own, and the second spelling of `Framed-User` comes too late. -/
example : keepNew reservedItems
    ([("TYPE", 1), ("type", 2), ("Framed-User", 3), ("Framed_User", 4), ("self", 5)].map
      fun e => (aliasIdent e.1, e.2)) = [("r#type", 2), ("Framed_User", 3), ("self_", 5)] := by
  decide

end RadiusDictionary.AttributeModule
