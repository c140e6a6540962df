import RadiusDictionary.Proofs.Reading.Plain

/-! # The built-in declarations

The built-in text has four lines, none of which includes anything: the first declares a vendor, the
others declare an attribute of this vendor each. -/

namespace RadiusDictionary

/-- The vendor that is built in. -/
def builtinVendor : VendorLine := ⟨"JRadius", "19211", none⟩

/-- The attributes that are built in. -/
def builtinAttributes : List AttributeLine :=
  [⟨"JRadius-Request-Id", "1", "string", [builtinVendor.name]⟩,
   ⟨"JRadius-Session-Id", "2", "string", [builtinVendor.name]⟩,
   ⟨"JRadius-Proxy-Client", "3", "octets", [builtinVendor.name]⟩]

/-- What the built-in text says. -/
def builtinStatements : List Statement :=
  .declareVendor builtinVendor :: builtinAttributes.map .declareAttribute

/-- The lines of the built-in text. -/
def builtinLines : List String :=
  ["VENDOR\tJRadius\t19211", "ATTRIBUTE\tJRadius-Request-Id\t1\tstring\tJRadius",
   "ATTRIBUTE\tJRadius-Session-Id\t2\tstring\tJRadius",
   "ATTRIBUTE\tJRadius-Proxy-Client\t3\toctets\tJRadius"]

theorem builtinExtension_eq : builtinExtension = Text.unlines builtinLines := by decide +kernel

theorem read_builtinLines : builtinLines.map Line.read =
    builtinStatements.map fun statement => .directive (.statement statement) := by
  decide +kernel

/-- **The lines of the built-in text are its statements.** -/
theorem read_builtinExtension : (Text.lines builtinExtension).map Line.read =
    builtinStatements.map fun statement => .directive (.statement statement) := by
  have hlines : ∀ line ∈ builtinLines, '\n' ∉ line.toList := by decide +kernel
  rw [builtinExtension_eq, map_read_lines_unlines hlines, read_builtinLines]

theorem exists_statement_of_mem {line : String} (hline : line ∈ Text.lines builtinExtension) :
    ∃ statement, Line.read line = .directive (.statement statement) := by
  have hmem : Line.read line ∈ (Text.lines builtinExtension).map Line.read :=
    List.mem_map_of_mem hline
  rw [read_builtinExtension] at hmem
  obtain ⟨statement, -, hread⟩ := List.mem_map.mp hmem
  exact ⟨statement, hread.symm⟩

theorem inclusions_builtinExtension : inclusions builtinExtension = [] := by
  refine List.filterMap_eq_nil_iff.mpr fun line hline => ?_
  obtain ⟨statement, hread⟩ := exists_statement_of_mem hline
  rw [hread]

theorem statements_builtinExtension :
    statements (Text.lines builtinExtension) = builtinStatements := by
  have hstatement : (Line.statement? ∘ fun statement => .directive (.statement statement)) = some :=
    rfl
  rw [statements, read_builtinExtension, List.filterMap_map, hstatement, List.filterMap_some]

namespace Dictionary

/-- **Reading the built-in text has its statements carried out.** -/
theorem obeys_interpretBuiltin (dict : Dictionary) (s : Session) :
    (dict.interpretBuiltin s).Obeys (Text.lines builtinExtension) s := by
  rw [interpretBuiltin]
  refine obeys_interpretLines "<built-in>" 1 s fun line hline => ?_
  obtain ⟨statement, hread⟩ := exists_statement_of_mem hline
  rw [hread]
  rfl

end Dictionary

end RadiusDictionary
