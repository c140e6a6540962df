import RadiusDictionary.Source.AttributeModule
import RadiusDictionary.Text.Front

/-! # The lines of a module

What a line of a module's file is for can be told from its first characters. There are lines of
documentation and definitions of constants, and the others start in some other way (`otherFronts`).
The documentation is one block, and so are the definitions of constants but for an empty line
(`exists_lines_eq`). -/

namespace RadiusDictionary.AttributeModule

/-- Whether the line is one of the documentation. -/
def isDocLine (line : String) : Bool := Text.startsWith line "//!"

/-- Whether the line defines a constant of the generated type. -/
def isConstantLine (line : String) : Bool := Text.startsWith line "    pub const "

/-- How lines start that are neither. -/
def otherFronts : List String :=
  ["// ", "#!", "use ", "pub mod ", "pub struct ", "impl ", "    pub fn ", "        ", "    \x7d",
   "\x7d", "pub static ", "    known_values", "    by_", "    ]"]

/-- The text starts in one of these ways. -/
def HasOtherFront (text : String) : Prop := ∃ front ∈ otherFronts, front.toList <+: text.toList

/-- The line is neither: it starts in another way, or it is empty. -/
def IsOther (line : String) : Prop := line = "" ∨ HasOtherFront line

instance (text : String) : Decidable (HasOtherFront text) :=
  inferInstanceAs (Decidable (∃ front ∈ otherFronts, front.toList <+: text.toList))

instance (line : String) : Decidable (IsOther line) :=
  inferInstanceAs (Decidable (line = "" ∨ HasOtherFront line))

theorem isDocLine_iff {line : String} : isDocLine line = true ↔ "//!".toList <+: line.toList := by
  rw [isDocLine, Text.startsWith, List.isPrefixOf_iff_prefix]

theorem isConstantLine_iff {line : String} :
    isConstantLine line = true ↔ "    pub const ".toList <+: line.toList := by
  rw [isConstantLine, Text.startsWith, List.isPrefixOf_iff_prefix]

theorem IsOther.not_prefix {line : String} (h : IsOther line) {text : List Char} (hne : text ≠ [])
    (hfronts : ∀ front ∈ otherFronts, ¬ front.toList <+: text ∧ ¬ text <+: front.toList) :
    ¬ text <+: line.toList := by
  intro htext
  rcases h with rfl | ⟨front, hfront, hline⟩
  · exact hne (List.prefix_nil.mp htext)
  · rcases List.prefix_or_prefix_of_prefix hline htext with hle | hle
    · exact (hfronts front hfront).1 hle
    · exact (hfronts front hfront).2 hle

theorem IsOther.not_isDocLine {line : String} (h : IsOther line) : ¬ isDocLine line = true :=
  mt isDocLine_iff.mp (h.not_prefix (by decide) (by decide +kernel))

theorem IsOther.not_isConstantLine {line : String} (h : IsOther line) :
    ¬ isConstantLine line = true :=
  mt isConstantLine_iff.mp (h.not_prefix (by decide) (by decide +kernel))

theorem isConstantLine_constant (c : Constant) : isConstantLine ("    " ++ c.text) = true := by
  rw [isConstantLine_iff]
  delta Constant.text
  simp

/-- No line is of both sorts. -/
theorem not_isConstantLine_of_isDocLine {line : String} (h : isDocLine line = true) :
    ¬ isConstantLine line = true := by
  rw [isDocLine_iff] at h
  rw [isConstantLine_iff]
  intro hconstant
  have hfronts : ¬ "//!".toList <+: "    pub const ".toList ∧
      ¬ "    pub const ".toList <+: "//!".toList := by decide
  exact (List.prefix_or_prefix_of_prefix h hconstant).elim hfronts.1 hfronts.2

/-! ### The lines of the file -/

theorem isDocLine_of_mem_docs (m : AttributeModule) :
    ∀ line ∈ m.docs, isDocLine line = true := by
  have hvalues : ∀ line ∈ m.valueDocs, isDocLine line = true := by
    unfold valueDocs
    split
    · exact List.forall_mem_nil _
    · simp only [List.forall_mem_cons, List.forall_mem_map]
      simp [isDocLine_iff]
  rw [docs, List.forall_mem_append, List.forall_mem_map]
  exact ⟨fun line _ => isDocLine_iff.mpr (by simp), hvalues⟩

theorem isOther_append {text : String} (h : HasOtherFront text) (rest : String) :
    IsOther (text ++ rest) := by
  obtain ⟨front, hfront, hprefix⟩ := h
  refine Or.inr ⟨front, hfront, hprefix.trans ?_⟩
  rw [String.toList_append]
  exact List.prefix_append _ _

theorem isOther_importLine (path : String) (names : List String) :
    IsOther (importLine path names) := by
  have huse : HasOtherFront "use " := by decide
  unfold importLine
  split
  · simpa only [String.append_assoc] using isOther_append huse _
  · simpa only [String.append_assoc] using isOther_append huse _

theorem isOther_childModuleLines (m : AttributeModule) :
    ∀ line ∈ m.childModuleLines, IsOther line := by
  have hmodule : HasOtherFront "pub mod " := by decide
  unfold childModuleLines
  split
  · exact List.forall_mem_nil _
  · rw [List.forall_mem_append, List.forall_mem_map, List.forall_mem_singleton]
    refine ⟨fun name _ => ?_, Or.inl rfl⟩
    rw [String.append_assoc]
    exact isOther_append hmodule _

theorem isOther_tableLines (t : NamedValueTables) : ∀ line ∈ tableLines t, IsOther line := by
  have hknown : HasOtherFront "    known_values: &[" := by decide
  have hentry : HasOtherFront "        (" := by decide
  unfold tableLines
  simp only [List.forall_mem_append, List.forall_mem_map, List.forall_mem_cons,
    String.append_assoc]
  refine ⟨⟨⟨⟨⟨?_, ?_, isOther_append hknown _, ?_, List.forall_mem_nil _⟩,
    fun _ _ => isOther_append hentry _⟩, ?_, ?_, List.forall_mem_nil _⟩,
    fun _ _ => isOther_append hentry _⟩, ?_, ?_, List.forall_mem_nil _⟩
  all_goals decide

theorem isOther_banner (stamp : String) : ∀ line ∈ Source.banner stamp, IsOther line := by
  have hcomment : HasOtherFront "// Generated by: " ∧ HasOtherFront "// Generated on: " := by
    decide
  unfold Source.banner
  simp only [List.forall_mem_cons]
  exact ⟨by decide, isOther_append hcomment.1 _, isOther_append hcomment.2 _,
    List.forall_mem_nil _⟩

/-- **The lines of a file** are its documentation, the constants, and others around them. -/
theorem exists_lines_eq (m : AttributeModule) (runtime stamp : String) :
    ∃ before between after, m.lines runtime stamp =
        before ++ m.docs ++ between ++ m.constants.map (fun c => "    " ++ c.text) ++
          (if m.subject.values.isSome then
            "" :: m.aliasConstants.map (fun e => "    " ++ (aliasConstant e).text) else []) ++
          after ∧
      ∀ line ∈ before ++ between ++ after, IsOther line := by
  have htables : ∀ line ∈ m.tables?.toList.flatMap tableLines, IsOther line := by
    intro line hline
    obtain ⟨t, -, hline⟩ := List.mem_flatMap.mp hline
    exact isOther_tableLines t line hline
  have hstruct : HasOtherFront "pub struct " := by decide
  have himpl : HasOtherFront "impl " := by decide
  have hsetup : HasOtherFront "    pub fn setup() -> " := by decide
  have hstep : HasOtherFront "        " := by decide
  have hallow : IsOther "#![allow(non_camel_case_types, non_upper_case_globals)]" := by
    decide
  have hcreate : ∀ line ∈ ["    \x7d", "", "    pub fn create() -> Box<dyn Attribute> \x7b",
      "        Box::new(Self::setup())", "    \x7d", "\x7d"], IsOther line := by decide
  refine ⟨Source.banner stamp ++ [""],
    ["", "#![allow(non_camel_case_types, non_upper_case_globals)]", "",
      importLine (runtime ++ "::value") m.valueImports, importLine runtime m.runtimeImports, ""] ++
      m.childModuleLines ++
      ["pub struct " ++ m.typeName ++ ";", "", "impl " ++ m.typeName ++ " \x7b"],
    ["", "    pub fn setup() -> " ++ m.shape.typeName ++ " \x7b"] ++
      m.setup.map (fun step => "        " ++ step.text) ++
      ["    \x7d", "", "    pub fn create() -> Box<dyn Attribute> \x7b",
       "        Box::new(Self::setup())", "    \x7d", "\x7d"] ++
      m.tables?.toList.flatMap tableLines,
    by simp only [lines, typeLines, List.append_assoc], ?_⟩
  rw [List.forall_mem_append, List.forall_mem_append]
  refine ⟨⟨?before, ?between⟩, ?after⟩
  case before => exact List.forall_mem_append.mpr ⟨isOther_banner stamp, by simp [IsOther]⟩
  case between =>
    simp only [List.forall_mem_append, List.forall_mem_cons, String.append_assoc]
    exact ⟨⟨⟨Or.inl rfl, hallow, Or.inl rfl, isOther_importLine _ _, isOther_importLine _ _,
      Or.inl rfl, List.forall_mem_nil _⟩, m.isOther_childModuleLines⟩,
      isOther_append hstruct _, Or.inl rfl, isOther_append himpl _, List.forall_mem_nil _⟩
  case after =>
    simp only [List.forall_mem_append, List.forall_mem_map]
    refine ⟨⟨⟨?_, fun step _ => isOther_append hstep _⟩, hcreate⟩, htables⟩
    simp only [List.forall_mem_cons, String.append_assoc]
    exact ⟨Or.inl rfl, isOther_append hsetup _, List.forall_mem_nil _⟩

end RadiusDictionary.AttributeModule
