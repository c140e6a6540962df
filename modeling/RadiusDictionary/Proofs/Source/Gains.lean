import RadiusDictionary.Proofs.Source.LoaderModule
import RadiusDictionary.Source.AttributeModule

/-! # Modules with one attribute more

Two modules that differ in the attributes they know differ in the lines for them. One list `Gains` a
block over another if the block stands in it at one place, and nothing else differs. A module of an
attribute gains the declaration of a nested module (`AttributeModule.gains_lines`). A loader gains
three blocks: the declarations of modules, the registrations by key and those by name
(`LoaderModule.gains_lines`). Where there were no declarations before, the blank line after them is
gained too. -/

namespace RadiusDictionary

/-- The list `long` is `short` with a block put in at one place. -/
def Gains {α : Type} (block short long : List α) : Prop :=
  ∃ front back, long = front ++ block ++ back ∧ short = front ++ back

namespace Gains

variable {α β : Type} {block short long : List α}

/-- Nothing is gained. -/
theorem refl (l : List α) : Gains [] l l := ⟨l, [], by simp, by simp⟩

/-- All is gained. -/
theorem nil (block : List α) : Gains block [] block := ⟨[], [], by simp, rfl⟩

theorem append_left (h : Gains block short long) (l : List α) :
    Gains block (l ++ short) (l ++ long) := by
  obtain ⟨front, back, rfl, rfl⟩ := h
  exact ⟨l ++ front, back, by simp, by simp⟩

theorem append_right (h : Gains block short long) (l : List α) :
    Gains block (short ++ l) (long ++ l) := by
  obtain ⟨front, back, rfl, rfl⟩ := h
  exact ⟨front, back ++ l, by simp, by simp⟩

theorem map (h : Gains block short long) (f : α → β) :
    Gains (block.map f) (short.map f) (long.map f) := by
  obtain ⟨front, back, rfl, rfl⟩ := h
  exact ⟨front.map f, back.map f, by simp, by simp⟩

theorem filterMap (h : Gains block short long) (f : α → Option β) :
    Gains (block.filterMap f) (short.filterMap f) (long.filterMap f) := by
  obtain ⟨front, back, rfl, rfl⟩ := h
  exact ⟨front.filterMap f, back.filterMap f, by simp, by simp⟩

theorem subset (h : Gains block short long) : block ⊆ long ∧ short ⊆ long := by
  obtain ⟨front, back, rfl, rfl⟩ := h
  exact ⟨by simp, by simp⟩

end Gains

/-! ### Declarations -/

/-- The declarations of modules in files of their own. -/
def declarationLines (names : List String) : List String :=
  names.map fun name => "pub mod " ++ Identifier.escape name ++ ";"

/-- Declarations with a blank line after them if there are any. -/
def closed (lines : List String) : List String := if lines.isEmpty then [] else lines ++ [""]

/-- The blank line that is gained with the first declarations. -/
def closing (before gained : List String) : List String :=
  if before.isEmpty && !gained.isEmpty then [""] else []

theorem Gains.closed {block short long : List String} (h : Gains block short long) :
    Gains (block ++ closing short block) (closed short) (closed long) := by
  obtain ⟨front, back, rfl, rfl⟩ := h
  unfold closing RadiusDictionary.closed
  by_cases hshort : front ++ back = []
  · obtain ⟨rfl, rfl⟩ := List.append_eq_nil_iff.mp hshort
    obtain _ | ⟨line, block⟩ := block
    · exact .refl _
    · simpa using Gains.nil (line :: block ++ [""])
  · have hlong : front ++ block ++ back ≠ [] := by
      intro heq
      simp only [List.append_eq_nil_iff] at heq hshort
      exact hshort ⟨heq.1.1, heq.2⟩
    rw [if_neg (by simp [hshort]), if_neg (by simpa using hshort), if_neg (by simpa using hlong),
      List.append_nil]
    exact Gains.append_right ⟨front, back, rfl, rfl⟩ [""]

theorem closing_declarationLines (before : List String) (name : String) :
    closing (declarationLines before) (declarationLines [name]) =
      if before.isEmpty then [""] else [] := by
  cases before <;> rfl

namespace AttributeModule

variable {m m' : AttributeModule} {name : String}

theorem childModuleLines_eq (m : AttributeModule) :
    m.childModuleLines = closed (declarationLines m.childModules) := by
  unfold childModuleLines closed declarationLines
  rw [List.isEmpty_map]

/-- **The module of an attribute gains a declaration**, with the blank line after it if there was
none before. -/
theorem gains_lines (h : Gains [name] m'.childModules m.childModules)
    (hsame : m' = { m with childModules := m'.childModules }) (runtime stamp : String) :
    Gains (declarationLines [name] ++ if m'.childModules.isEmpty then [""] else [])
      (m'.lines runtime stamp) (m.lines runtime stamp) := by
  have hchildren := (h.map fun name => "pub mod " ++ Identifier.escape name ++ ";").closed
  rw [← closing_declarationLines]
  have hlines : ∀ children : List String,
      ({ m with childModules := children } : AttributeModule).lines runtime stamp =
        Source.banner stamp ++ [""] ++ m.docs ++
        ["", "#![allow(non_camel_case_types, non_upper_case_globals)]", "",
         importLine (runtime ++ "::value") m.valueImports,
         importLine runtime m.runtimeImports, ""] ++
        closed (declarationLines children) ++ m.typeLines ++
        (m.tables?.toList.flatMap tableLines) := by
    intro children
    rw [← childModuleLines_eq { m with childModules := children }]
    rfl
  have hlong := hlines m.childModules
  have hshort := hlines m'.childModules
  rw [← hsame] at hshort
  rw [hshort, show m.lines runtime stamp = _ from hlong]
  exact ((hchildren.append_left _).append_right _).append_right _

end AttributeModule

/-! ### Loaders -/

theorem ModuleItem.linesOf_append (indent : String) : ∀ items items' : List ModuleItem,
    linesOf indent (items ++ items') = linesOf indent items ++ linesOf indent items'
  | [], _ => rfl
  | item :: rest, items' => by
    rw [List.cons_append, linesOf, linesOf, linesOf_append indent rest, List.append_assoc]

theorem ModuleItem.linesOf_files (names : List String) :
    linesOf "" (names.map .file) = declarationLines names := by
  induction names with
  | nil => rfl
  | cons name rest ih =>
    rw [List.map_cons, linesOf, ih, lines, String.empty_append]
    rfl

theorem ModuleItem.linesOf_eq_nil_iff (indent : String) : ∀ {items : List ModuleItem},
    linesOf indent items = [] ↔ items = []
  | [] => by simp [linesOf]
  | .file name :: rest => by simp [linesOf, lines]
  | .inline name items :: rest => by simp [linesOf, lines]

/-- The modules of registrations that lie in the folder of the loader. -/
def directModules (registrations : List Registration) : List String :=
  registrations.filterMap fun r =>
    match r.path with
    | [name] => some name
    | _ => none

namespace LoaderModule

variable {m m' : LoaderModule} {lost : List Registration}

theorem itemLines_eq (m : LoaderModule) : m.itemLines = closed (ModuleItem.linesOf "" m.items) := by
  unfold itemLines closed
  by_cases hitems : m.items = []
  · rw [hitems]
    rfl
  · rw [if_neg (by simpa using hitems), if_neg]
    rw [List.isEmpty_iff]
    exact fun hnil => hitems ((ModuleItem.linesOf_eq_nil_iff "").mp hnil)

/-- The declarations that a loader gains with registrations: those of modules in its folder, with
the blank line after them if there were none before. -/
def gainedDeclarations (m' : LoaderModule) (lost : List Registration) : List String :=
  declarationLines (directModules lost) ++
    if m'.items.isEmpty && !(directModules lost).isEmpty then [""] else []

theorem gains_itemLines (h : Gains lost m'.registrations m.registrations)
    (hsame : m' = { m with registrations := m'.registrations }) :
    Gains (m'.gainedDeclarations lost) m'.itemLines m.itemLines := by
  have hvendors : m'.vendorModules = m.vendorModules := by rw [hsame]
  have hitems : Gains (declarationLines (directModules lost)) (ModuleItem.linesOf "" m'.items)
      (ModuleItem.linesOf "" m.items) := by
    unfold items
    rw [ModuleItem.linesOf_append, ModuleItem.linesOf_append, hvendors, ModuleItem.linesOf_files,
      ModuleItem.linesOf_files]
    exact ((h.filterMap _).map _).append_right _
  have hclosing : closing (ModuleItem.linesOf "" m'.items) (declarationLines (directModules lost)) =
      if m'.items.isEmpty && !(directModules lost).isEmpty then [""] else [] := by
    have hempty : (ModuleItem.linesOf "" m'.items).isEmpty = m'.items.isEmpty := by
      rw [Bool.eq_iff_iff, List.isEmpty_iff, List.isEmpty_iff, ModuleItem.linesOf_eq_nil_iff]
    unfold closing declarationLines
    rw [hempty, List.isEmpty_map]
  rw [itemLines_eq, itemLines_eq, gainedDeclarations, ← hclosing]
  exact hitems.closed

/-- **A loader gains registrations**: the declarations of their modules, and twice a line for each,
by key and by name. -/
theorem gains_lines (h : Gains lost m'.registrations m.registrations)
    (hsame : m' = { m with registrations := m'.registrations }) (runtime stamp : String) :
    ∃ front mid mid' back,
      m.lines runtime stamp = front ++ m'.gainedDeclarations lost ++ mid ++ lost.map keyLine ++
        mid' ++ lost.map nameLine ++ back ∧
      m'.lines runtime stamp = front ++ mid ++ mid' ++ back := by
  obtain ⟨front, back, hlong, hshort⟩ := gains_itemLines h hsame
  obtain ⟨before, after, hall, hleft⟩ := h
  have hhead : m'.ns = m.ns ∧ m'.runtimeImports = m.runtimeImports ∧
      m'.kindLines = m.kindLines := by
    rw [hsame]
    exact ⟨rfl, rfl, rfl⟩
  unfold lines
  rw [hhead.1, hhead.2.1, hhead.2.2, hlong, hshort, hall, hleft]
  refine ⟨Source.banner stamp ++ ["", "//! Dictionary for namespace " ++ m.ns, ""] ++ front,
    back ++ ["use std::collections::HashMap;",
      "use " ++ runtime ++ "::\x7b" ++ ", ".intercalate m.runtimeImports ++ "\x7d;", ""] ++
      m.kindLines ++
      ["    fn load_attributes(&self, map: &mut HashMap<u64, AttributeFactory>) \x7b"] ++
      before.map keyLine,
    after.map keyLine ++ ["    \x7d", "",
      "    fn load_attributes_names(&self, map: &mut HashMap<&'static str, AttributeFactory>) \x7b"] ++
      before.map nameLine,
    after.map nameLine ++ ["    \x7d", "\x7d"], ?_, ?_⟩
  · simp only [List.map_append, List.append_assoc]
  · simp only [List.map_append, List.append_assoc]

end LoaderModule

end RadiusDictionary
