import RadiusDictionary.Proofs.Generation.Renderings
import RadiusDictionary.Proofs.Reading.Lines
import RadiusDictionary.Proofs.Source.Lines

/-! # The documentation of a module

The module of an attribute starts with a block of documentation, in which the names of the attribute
and of its values stand as they are in the dictionary. Such a name is cut from a line, so it has no
line feed and cannot add a line to the block. But a line of a dictionary may have carriage returns
anywhere, and one that stands bare, with no line feed after it, is not accepted in documentation:
`Reading.docs_of_modules` says what the block is, and that it has a bare carriage return exactly if
a name brings it in. -/

namespace RadiusDictionary

namespace Text

/-! ### Bare carriage returns -/

/-- Whether a carriage return has something else than a line feed after it, or nothing. -/
def hasBareReturn : List Char → Bool
  | [] => false
  | c :: cs => (c == '\r' && cs.head? != some '\n') || hasBareReturn cs

theorem dropReturn_cons {c d : Char} {w : List Char} :
    dropReturn (c :: d :: w) = c :: dropReturn (d :: w) := by
  unfold dropReturn
  rw [List.getLast?_cons_cons, apply_ite (List.cons c), List.dropLast_cons_cons]

/-- A carriage return at the end of a line is not bare, and every other one in the line is. -/
theorem hasBareReturn_append : ∀ {w cs : List Char}, '\n' ∉ w →
    (hasBareReturn (w ++ '\n' :: cs) = true ↔ '\r' ∈ dropReturn w ∨ hasBareReturn cs = true)
  | [], cs, _ => by simp [hasBareReturn, dropReturn]
  | [c], cs, _ => by
    by_cases hc : c = '\r'
    · simp [hasBareReturn, dropReturn, hc]
    · simp [hasBareReturn, dropReturn, hc, Ne.symm hc]
  | c :: d :: w, cs, h => by
    have hd : d ≠ '\n' := by
      rintro rfl
      exact h (List.mem_cons_of_mem _ List.mem_cons_self)
    have hrest : hasBareReturn (d :: w ++ '\n' :: cs) = true ↔
        '\r' ∈ dropReturn (d :: w) ∨ hasBareReturn cs = true :=
      hasBareReturn_append fun hmem => h (List.mem_cons_of_mem _ hmem)
    have hnext : ((d :: w ++ '\n' :: cs).head? != some '\n') = true := by simpa using hd
    rw [dropReturn_cons, List.mem_cons, or_assoc, ← hrest, List.cons_append, hasBareReturn, hnext,
      Bool.and_true, Bool.or_eq_true, beq_iff_eq, eq_comm]

theorem hasBareReturn_unlines : ∀ {ls : List String}, (∀ line ∈ ls, '\n' ∉ line.toList) →
    (hasBareReturn (unlines ls).toList = true ↔ ∃ line ∈ ls, '\r' ∈ dropReturn line.toList)
  | [], _ => by simp [unlines, hasBareReturn]
  | line :: ls, h => by
    obtain ⟨hline, hls⟩ := List.forall_mem_cons.mp h
    have htext : (unlines (line :: ls)).toList = line.toList ++ '\n' :: (unlines ls).toList := by
      simp [unlines, String.join_cons]
    rw [htext, hasBareReturn_append hline, hasBareReturn_unlines hls, List.exists_mem_cons_iff]

/-- What stands before a text that has no carriage returns makes no difference. -/
theorem mem_dropReturn_append {front w : List Char} (h : '\r' ∉ front) :
    '\r' ∈ dropReturn (front ++ w) ↔ '\r' ∈ dropReturn w := by
  cases w with
  | nil =>
    rw [List.append_nil]
    exact iff_of_false (fun hmem => h (mem_of_mem_dropReturn hmem)) nofun
  | cons c w =>
    have hne : c :: w ≠ [] := List.cons_ne_nil c w
    unfold dropReturn
    rw [List.getLast?_append_of_ne_nil _ hne, List.dropLast_append_of_ne_nil hne]
    split <;> simp [h]

theorem mem_dropReturn_concat {w : List Char} {c : Char} (hc : c ≠ '\r') :
    '\r' ∈ dropReturn (w ++ [c]) ↔ '\r' ∈ w := by
  have hlast : (w ++ [c]).getLast? ≠ some '\r' := by simpa using hc
  rw [dropReturn, if_neg hlast, List.mem_append, List.mem_singleton]
  exact or_iff_left (Ne.symm hc)

/-! ### Texts that stay in their line -/

/-- There is nothing in the text that ends a line. -/
def InLine (text : String) : Prop := '\n' ∉ text.toList ∧ '\r' ∉ text.toList

instance (text : String) : Decidable (InLine text) :=
  inferInstanceAs (Decidable ('\n' ∉ text.toList ∧ '\r' ∉ text.toList))

theorem InLine.append {text text' : String} (h : InLine text) (h' : InLine text') :
    InLine (text ++ text') := by
  unfold InLine
  rw [String.toList_append, List.mem_append, List.mem_append]
  exact ⟨not_or.mpr ⟨h.1, h'.1⟩, not_or.mpr ⟨h.2, h'.2⟩⟩

theorem inLine_decimal (n : Nat) : InLine (Numeral.decimal n) := by
  have hdigit : ∀ c ∈ (Numeral.decimal n).toList, c.isDigit = true := by
    intro c hc
    rw [Numeral.decimal, String.toList_ofList] at hc
    exact Nat.isDigit_of_mem_toDigits (by decide) (by decide) hc
  exact ⟨fun h => absurd (hdigit _ h) (by decide), fun h => absurd (hdigit _ h) (by decide)⟩

theorem inLine_signedDecimal (n : Int) : InLine (Numeral.signedDecimal n) := by
  unfold Numeral.signedDecimal
  split
  · exact InLine.append (by decide) (inLine_decimal _)
  · exact inLine_decimal _

end Text

namespace AttributeModule

open Text (InLine)

variable (m : AttributeModule)

/-- The line for the name of the attribute. -/
def nameDoc : String := "//! Attribute Name: " ++ m.subject.name

theorem toList_nameDoc :
    m.nameDoc.toList = "//! Attribute Name: ".toList ++ m.subject.name.toList :=
  String.toList_append ..

/-- The lines for the type codes and the kind. -/
def typeDocs : List String :=
  m.idDocs.map ("//! " ++ ·) ++ ["//! Value Type: " ++ m.kind.containerType]

/-- The line for a name of a value. -/
def aliasDoc (e : String × Int64) : String :=
  "//! - " ++ e.1 ++ " (" ++ Numeral.signedDecimal e.2.toInt ++ ")"

/-- The lines in front of those for the names of values. -/
def valueHeading : List String := ["//!", "//! Possible Values:"]

theorem valueDocs_eq : m.valueDocs = if m.subject.values.isSome then
    valueHeading ++ (aliases (m.subject.values.getD ∅)).map aliasDoc else [] := by
  unfold valueDocs
  cases m.subject.values with
  | none => rw [Option.isSome_none, if_neg Bool.false_ne_true]
  | some values =>
    rw [Option.isSome_some, if_pos rfl, Option.getD_some]
    dsimp only [valueHeading, List.cons_append, List.nil_append]
    congr 1

theorem docs_eq : m.docs = m.nameDoc :: m.typeDocs ++ m.valueDocs := by
  rw [docs, List.map_append, List.map_cons]
  rfl

/-! ### The lines of the documentation -/

theorem length_idDocs : m.idDocs.length = 1 ∨ m.idDocs.length = 3 := by
  unfold idDocs
  cases m.ids with
  | plain number => exact Or.inl rfl
  | vendor vendorId number => exact Or.inr rfl
  | nested vendorId parentType number => exact Or.inr rfl

theorem inLine_of_mem_idDocs : ∀ line ∈ m.idDocs, InLine line := by
  have htype : ∀ n : Nat, InLine ("Attribute Type: " ++ Numeral.decimal n) := fun n =>
    InLine.append (by decide) (Text.inLine_decimal n)
  have hvendor : ∀ n : Nat, InLine ("Vendor Id: " ++ Numeral.decimal n) := fun n =>
    InLine.append (by decide) (Text.inLine_decimal n)
  have hvsa : ∀ n : Nat, InLine ("VSA Type: " ++ Numeral.decimal n) := fun n =>
    InLine.append (by decide) (Text.inLine_decimal n)
  unfold idDocs
  cases m.ids with
  | plain number =>
    refine List.forall_mem_singleton.mpr ((htype _).append ?_)
    split
    · decide
    · decide
  | vendor vendorId number | nested vendorId parentType number =>
    exact List.forall_mem_cons.mpr ⟨htype _, List.forall_mem_cons.mpr
      ⟨hvendor _, List.forall_mem_singleton.mpr (hvsa _)⟩⟩

theorem inLine_containerType (kind : ValueKind) : InLine kind.containerType := by
  unfold ValueKind.containerType
  split <;> decide

theorem inLine_of_mem_typeDocs : ∀ line ∈ m.typeDocs, InLine line := by
  rw [typeDocs, List.forall_mem_append, List.forall_mem_map, List.forall_mem_singleton]
  exact ⟨fun line hline => InLine.append (by decide) (m.inLine_of_mem_idDocs line hline),
    InLine.append (by decide) (inLine_containerType _)⟩

variable {m}

theorem mem_dropReturn_nameDoc :
    '\r' ∈ Text.dropReturn m.nameDoc.toList ↔ '\r' ∈ Text.dropReturn m.subject.name.toList := by
  have hfront : '\r' ∉ "//! Attribute Name: ".toList := by decide
  exact m.toList_nameDoc ▸ Text.mem_dropReturn_append hfront

theorem mem_dropReturn_aliasDoc {e : String × Int64} :
    '\r' ∈ Text.dropReturn (aliasDoc e).toList ↔ '\r' ∈ e.1.toList := by
  have hfront : '\r' ∉ "//! - ".toList := by decide
  have hnumber : '\r' ∉ (" (" ++ Numeral.signedDecimal e.2.toInt).toList :=
    (InLine.append (by decide) (Text.inLine_signedDecimal _)).2
  have happend : (aliasDoc e).toList = ("//! - ".toList ++ e.1.toList ++
      (" (" ++ Numeral.signedDecimal e.2.toInt).toList) ++ [')'] := by
    simp [aliasDoc]
  rw [happend, Text.mem_dropReturn_concat (by decide), List.mem_append, List.mem_append]
  exact (or_iff_left hnumber).trans (or_iff_right hfront)

/-- What holds of the four sorts of lines holds of the documentation. -/
theorem forall_mem_docs {P : String → Prop} (hname : P m.nameDoc)
    (htypes : ∀ line ∈ m.typeDocs, P line) (hheading : ∀ line ∈ valueHeading, P line)
    (haliases : ∀ e ∈ aliases (m.subject.values.getD ∅), P (aliasDoc e)) :
    ∀ line ∈ m.docs, P line := by
  rw [docs_eq, List.cons_append, List.forall_mem_cons, List.forall_mem_append, valueDocs_eq]
  refine ⟨hname, htypes, ?_⟩
  split
  · rw [List.forall_mem_append, List.forall_mem_map]
    exact ⟨hheading, haliases⟩
  · exact List.forall_mem_nil _

theorem nameDoc_mem_docs : m.nameDoc ∈ m.docs := by
  rw [docs_eq]
  exact List.mem_cons_self

theorem aliasDoc_mem_docs {e : String × Int64}
    (he : e ∈ aliases (m.subject.values.getD ∅)) : aliasDoc e ∈ m.docs := by
  have hvalues : m.subject.values.isSome = true := by
    cases hnone : m.subject.values with
    | none =>
      rw [hnone] at he
      cases he
    | some values => rfl
  rw [docs_eq, valueDocs_eq, if_pos hvalues]
  exact List.mem_append_right _ (List.mem_append_right _ (List.mem_map_of_mem he))

section Names

variable (hname : '\n' ∉ m.subject.name.toList)
  (haliases : ∀ e ∈ aliases (m.subject.values.getD ∅), '\n' ∉ e.1.toList)
include hname haliases

/-- Without a line feed in a name there is none in the documentation. -/
theorem not_mem_newline_docs : ∀ line ∈ m.docs, '\n' ∉ line.toList := by
  refine forall_mem_docs ?_ (fun line hline => (m.inLine_of_mem_typeDocs line hline).1) ?_ ?_
  · simpa [toList_nameDoc] using hname
  · decide
  · intro e he
    have hnumber := (Text.inLine_signedDecimal e.2.toInt).1
    have hfront := haliases e he
    simp [aliasDoc, hnumber, hfront]

/-- **A name brings in the bare carriage returns** of the documentation. At the end of the
attribute's name one is not bare, since the line ends there. -/
theorem hasBareReturn_docs : Text.hasBareReturn (Text.unlines m.docs).toList = true ↔
    '\r' ∈ Text.dropReturn m.subject.name.toList ∨
      ∃ e ∈ aliases (m.subject.values.getD ∅), '\r' ∈ e.1.toList := by
  rw [Text.hasBareReturn_unlines (not_mem_newline_docs hname haliases)]
  constructor
  · rintro ⟨line, hline, hreturn⟩
    revert hreturn
    have hfree : ∀ {line : String}, InLine line → '\r' ∉ Text.dropReturn line.toList :=
      fun hline hmem => hline.2 (Text.mem_of_mem_dropReturn hmem)
    revert line
    refine forall_mem_docs (fun hreturn => Or.inl (mem_dropReturn_nameDoc.mp hreturn))
      (fun line hline hreturn => absurd hreturn (hfree (m.inLine_of_mem_typeDocs line hline)))
      (fun line hline hreturn => ?_)
      fun e he hreturn => Or.inr ⟨e, he, mem_dropReturn_aliasDoc.mp hreturn⟩
    have hheading : ∀ line ∈ valueHeading, InLine line := by decide
    exact absurd hreturn (hfree (hheading line hline))
  · rintro (hreturn | ⟨e, he, hreturn⟩)
    · exact ⟨_, nameDoc_mem_docs, mem_dropReturn_nameDoc.mpr hreturn⟩
    · exact ⟨_, aliasDoc_mem_docs he, mem_dropReturn_aliasDoc.mpr hreturn⟩

end Names

/-! ### The documentation in the file -/

/-- **The documentation is one block** in the file: no line before it or after it is one of the
documentation. -/
theorem exists_block (m : AttributeModule) (runtime stamp : String) : ∃ front back,
    m.lines runtime stamp = front ++ m.docs ++ back ∧
      ∀ line ∈ front ++ back, ¬ isDocLine line = true := by
  have hconstant : ∀ c : Constant, ¬ isDocLine ("    " ++ c.text) = true := fun c hdoc =>
    not_isConstantLine_of_isDocLine hdoc (isConstantLine_constant c)
  have hempty : ¬ isDocLine "" = true := by decide
  obtain ⟨before, between, after, hlines, hother⟩ := m.exists_lines_eq runtime stamp
  refine ⟨before, _, by simpa only [List.append_assoc] using hlines, ?_⟩
  simp only [List.forall_mem_append, List.forall_mem_map] at hother ⊢
  obtain ⟨⟨hbefore, hbetween⟩, hafter⟩ := hother
  refine ⟨fun line hline => (hbefore line hline).not_isDocLine,
    fun line hline => (hbetween line hline).not_isDocLine, fun c _ => hconstant c, ?_,
    fun line hline => (hafter line hline).not_isDocLine⟩
  split
  · rw [List.forall_mem_cons, List.forall_mem_map]
    exact ⟨hempty, fun e _ => hconstant _⟩
  · exact List.forall_mem_nil _

end AttributeModule

namespace Reading

open Generation (renderings)

variable (r : Reading)

/-- Every module that is rendered is that of an attribute which was read. -/
theorem exists_spot_of_rendering {t : Target} {disk : Disk} :
    ∀ p ∈ renderings t r.registry disk,
      ∃ s ∈ r.registry.spots, s.subject = p.content.subject := by
  have hincludes : ∀ p ∈ renderings t r.registry disk, r.registry.Includes p.content.subject :=
    Generation.subject_renderings r.wellFormed.includes_nested t disk
      (fun a ha => ⟨none, a, ha, Or.inl rfl⟩) fun v hv a ha => ⟨some v, a, ⟨hv, ha⟩, Or.inl rfl⟩
  exact fun p hp => (hincludes p hp).exists_spot

/-- **The documentation of modules.** The file of a module that is rendered for an attribute which
was read has one block of documentation, which is the whole documentation of the module: a line for
the attribute's name, one or three for its type codes, one for its kind, and if it has values two
lines of heading and one for each name of a value. No line of it has a line feed in it. But a name
may bring in carriage returns, as the dictionary has them: there is a bare one in the block exactly
if there is one in the name of a value, or in the attribute's name before its last character. -/
theorem docs_of_modules (t : Target) (disk : Disk) : ∀ p ∈ renderings t r.registry disk,
    let m := p.content
    let named := AttributeModule.aliases (m.subject.values.getD ∅)
    (∃ front back, m.render t.runtime t.stamp = Text.unlines (front ++ m.docs ++ back) ∧
      ∀ line ∈ front ++ back, ¬ AttributeModule.isDocLine line = true) ∧
    (m.docs = ["//! Attribute Name: " ++ m.subject.name] ++ m.idDocs.map ("//! " ++ ·) ++
        ["//! Value Type: " ++ m.kind.containerType] ++
        (if m.subject.values.isSome then
          ["//!", "//! Possible Values:"] ++ named.map AttributeModule.aliasDoc else []) ∧
      (m.idDocs.length = 1 ∨ m.idDocs.length = 3)) ∧
    (∀ line ∈ m.docs, AttributeModule.isDocLine line = true ∧ '\n' ∉ line.toList) ∧
    (Text.hasBareReturn (Text.unlines m.docs).toList = true ↔
      '\r' ∈ Text.dropReturn m.subject.name.toList ∨ ∃ e ∈ named, '\r' ∈ e.1.toList) := by
  intro p hp m named
  obtain ⟨s, hs, hsubject⟩ := r.exists_spot_of_rendering p hp
  have hname : '\n' ∉ m.subject.name.toList := hsubject ▸ (r.isCut_name hs).not_mem_newline
  have haliases : ∀ e ∈ named, '\n' ∉ e.1.toList := fun e he =>
    (r.isCut_alias hs e (by rwa [hsubject])).not_mem_newline
  refine ⟨?_, ?_, ?_, AttributeModule.hasBareReturn_docs hname haliases⟩
  · obtain ⟨front, back, hlines, hfree⟩ := m.exists_block t.runtime t.stamp
    exact ⟨front, back, congrArg Text.unlines hlines, hfree⟩
  · refine ⟨?_, m.length_idDocs⟩
    rw [m.docs_eq, m.valueDocs_eq]
    rfl
  · exact fun line hline => ⟨m.isDocLine_of_mem_docs line hline,
      AttributeModule.not_mem_newline_docs hname haliases line hline⟩

/-- A reading of a name with a carriage return in it. -/
def returnReading : Reading := ⟨default, [.text "ATTRIBUTE Foo\rBar 1 string\n"], false⟩

/-- The carriage return in the name stands bare in the documentation. -/
theorem docs_of_modules_with_return : ∃ p ∈ renderings default returnReading.registry .empty,
    p.content.docs =
      ["//! Attribute Name: Foo\rBar", "//! Attribute Type: 1", "//! Value Type: StringValue"] ∧
    Text.hasBareReturn (Text.unlines p.content.docs).toList = true := by
  have hmodule : ("Foo\rBar",
      ["//! Attribute Name: Foo\rBar", "//! Attribute Type: 1", "//! Value Type: StringValue"]) ∈
      (renderings default returnReading.registry .empty).map
        fun p => (p.content.subject.name, p.content.docs) := by
    decide +kernel
  obtain ⟨p, hp, heq⟩ := List.mem_map.mp hmodule
  obtain ⟨hname, hdocs⟩ := Prod.mk.inj heq
  obtain ⟨-, -, -, hreturn⟩ := returnReading.docs_of_modules default .empty p hp
  refine ⟨p, hp, hdocs, hreturn.mpr (Or.inl ?_)⟩
  rw [hname]
  decide +kernel

end Reading

end RadiusDictionary
