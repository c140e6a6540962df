import RadiusDictionary.Proofs.Directive.Operands
import RadiusDictionary.Proofs.Source.NamedValues

/-! # Names come from lines

A statement that a reading carries out stands in a line of some text: one that was to be read, one
of a file, or the built-in one (`Reading.inLine_moves`). What is declared has the name that is an
operand of a statement (`Session.mem_declared_run`), and a value has a name that is one
(`Session.mem_givenValues`). So the names of attributes and of their values are cut from lines
(`Reading.isCut_name`, `Reading.isCut_alias`); above all there is no line feed in them. -/

namespace RadiusDictionary

/-- The statement of the move stands in a line. -/
def Move.InLine : Move → Prop
  | .statement _ stated => ∃ text, ∃ line ∈ Text.lines text,
      Line.read line = .directive (.statement stated)
  | _ => True

/-! ### Statements stand in lines -/

namespace Dictionary

variable {dict : Dictionary} {nested : String → Session → Outcome}
  {nestedMoves : String → Session → List Move}

section Lines

variable (h : ∀ file s, ∀ m ∈ nestedMoves file s, m.InLine)
include h

theorem inLine_inclusionMoves {file : String} {isOptional : Bool} {s : Session} :
    ∀ m ∈ dict.inclusionMoves nested nestedMoves file isOptional s, m.InLine := by
  intro m hm
  unfold inclusionMoves at hm
  dsimp only at hm
  split_ifs at hm
  · cases hm
  · cases hm
  · rcases List.mem_append.mp hm with hm | hm
    · exact h file s m hm
    · rw [List.mem_singleton.mp hm]
      trivial
  · rw [List.append_nil] at hm
    exact h file s m hm

theorem inLine_lineMoves {text line : String} (hline : line ∈ Text.lines text) {origin : Origin}
    {s : Session} : ∀ m ∈ dict.lineMoves nested nestedMoves origin (.read line) s, m.InLine := by
  cases hread : Line.read line with
  | blank => exact List.forall_mem_nil _
  | malformed => exact List.forall_mem_nil _
  | directive d =>
    cases d with
    | inclusion file isOptional => exact inLine_inclusionMoves h
    | statement statement => exact List.forall_mem_singleton.mpr ⟨text, line, hline, hread⟩

theorem inLine_linesMoves {text file : String} : ∀ (number : Nat) (lines : List String)
    (s : Session), lines ⊆ Text.lines text →
      ∀ m ∈ dict.linesMoves nested nestedMoves file number lines s, m.InLine
  | _, [], _, _ => List.forall_mem_nil _
  | number, line :: rest, s, hlines => by
    obtain ⟨hline, hrest⟩ := List.cons_subset.mp hlines
    intro m hm
    rw [linesMoves] at hm
    rcases List.mem_append.mp hm with hm | hm
    · exact inLine_lineMoves h hline m hm
    · split_ifs at hm
      · exact inLine_linesMoves (number + 1) rest _ hrest m hm
      · cases hm

end Lines

theorem inLine_fileMovesTo : ∀ (depth : Nat) (file : String) (s : Session),
    ∀ m ∈ dict.fileMovesTo depth file s, m.InLine
  | 0, _, _ => List.forall_mem_nil _
  | depth + 1, file, s => by
    cases htext : dict.disk.readText (dict.pathOf file) with
    | error e =>
      rw [fileMovesTo_of_error htext]
      exact List.forall_mem_nil _
    | ok text =>
      have hlines : ∀ m ∈ dict.linesMoves (dict.interpretFileTo depth) (dict.fileMovesTo depth)
          file 1 (Text.lines text) (s.move (.openFile (dict.pathOf file))), m.InLine :=
        inLine_linesMoves (inLine_fileMovesTo depth) 1 (Text.lines text) _ (List.Subset.refl _)
      rw [fileMovesTo_of_ok htext]
      intro m hm
      rcases List.mem_append.mp hm with hm | hm
      · rcases List.mem_cons.mp hm with rfl | hm
        · trivial
        · exact hlines m hm
      · rw [List.mem_singleton.mp hm]
        trivial

theorem inLine_textMoves (file text : String) (s : Session) :
    ∀ m ∈ dict.textMoves file text s, m.InLine :=
  inLine_linesMoves (inLine_fileMovesTo _) 1 (Text.lines text) s (List.Subset.refl _)

theorem inLine_requestMoves (q : Request) (s : Session) :
    ∀ m ∈ dict.requestMoves q s, m.InLine := by
  cases q with
  | text text => exact inLine_textMoves "<string>" text s
  | file file => exact inLine_fileMovesTo _ file s

theorem inLine_requestsMoves : ∀ (requests : List Request) (s : Session),
    ∀ m ∈ dict.requestsMoves requests s, m.InLine
  | [], _ => List.forall_mem_nil _
  | q :: rest, s => by
    rw [requestsMoves, List.forall_mem_append]
    exact ⟨inLine_requestMoves q s, inLine_requestsMoves rest _⟩

theorem inLine_finishMoves (s : Session) : ∀ m ∈ dict.finishMoves s, m.InLine := by
  unfold finishMoves
  split_ifs
  · dsimp only
    rw [List.forall_mem_append]
    refine ⟨inLine_requestMoves (.file extensionFile) s, ?_⟩
    split
    · exact List.forall_mem_nil _
    · exact inLine_textMoves "<built-in>" builtinExtension _
  · exact List.forall_mem_nil _

end Dictionary

/-- **The statements of a reading stand in lines.** -/
theorem Reading.inLine_moves (r : Reading) : ∀ m ∈ r.moves, m.InLine := by
  rw [moves, List.forall_mem_append]
  refine ⟨Dictionary.inLine_requestsMoves r.requests .start, ?_⟩
  split_ifs
  · exact Dictionary.inLine_finishMoves _
  · exact List.forall_mem_nil _

/-! ### Names are operands -/

namespace Session

variable {s : Session} {e : String × Declaration}

/-- What a statement declares has an operand of it as its name. -/
theorem mem_declared_apply (hs : s.NamesAgree) {origin : Origin} {statement : Statement}
    (h : e ∈ (s.apply origin statement).1.registry.declared) :
    e ∈ s.registry.declared ∨ e.2.name ∈ statement.operands := by
  cases statement with
  | beginTlv name => exact Or.inl h
  | endTlv name => exact Or.inl h
  | beginVendor name => exact Or.inl h
  | endVendor name => exact Or.inl h
  | declareVendor line =>
    left
    simp only [apply, declareVendor] at h
    cases hnumber : Numeral.unsigned? line.number with
    | none =>
      rw [hnumber] at h
      exact h
    | some number =>
      rw [hnumber] at h
      dsimp only at h
      rwa [Registry.declared_declareVendor] at h
  | declareAttribute line =>
    simp only [apply, declareAttribute] at h
    cases hcheck : s.check line with
    | error why =>
      rw [hcheck] at h
      exact Or.inl h
    | ok d =>
      obtain ⟨target, htarget, hnew⟩ := exists_target hs hcheck
      obtain ⟨number, -, rfl, -⟩ := check_eq_ok_iff.mp hcheck
      rw [hcheck] at h
      have hmem := (Registry.perm_declared_declare (fun _ => contains_of_vendorFor) htarget
        hnew).mem_iff.mp h
      rcases List.mem_cons.mp hmem with rfl | hmem
      · exact Or.inr List.mem_cons_self
      · exact Or.inl hmem
  | declareValue line =>
    left
    simp only [apply, declareValue] at h
    cases hnumber : Numeral.signed? line.number with
    | none =>
      rw [hnumber] at h
      exact h
    | some number =>
      cases hhome : s.valueHome? line.attributeName with
      | none =>
        rw [hnumber, hhome] at h
        exact h
      | some vendor =>
        rw [hnumber, hhome] at h
        refine (Registry.perm_declared_addValue ?_ _ _ _).mem_iff.mp h
        rintro name rfl
        exact contains_of_valueHome? hhome

/-- **What moves declare has operands of their statements as names.** -/
theorem mem_declared_run : ∀ (moves : List Move) {s : Session}, s.NamesAgree →
    e ∈ (s.run moves).registry.declared → e ∈ s.registry.declared ∨
      ∃ origin statement, .statement origin statement ∈ moves ∧ e.2.name ∈ statement.operands
  | [], _, _, h => Or.inl h
  | m :: moves, s, hs, h => by
    rcases mem_declared_run moves (namesAgree_run [m] hs) h with
      hmem | ⟨origin, statement, hmem, hname⟩
    · cases m with
      | openFile path => exact Or.inl hmem
      | closeFile => exact Or.inl hmem
      | noteExtension => exact Or.inl hmem
      | statement origin statement =>
        exact (mem_declared_apply hs hmem).imp_right fun hname =>
          ⟨origin, statement, List.mem_cons_self, hname⟩
    · exact Or.inr ⟨origin, statement, List.mem_cons_of_mem _ hmem, hname⟩

/-- **The names that values are given** are operands. -/
theorem mem_givenValues {vendor : Option String} {name : String} {value : String × Int64} :
    ∀ {moves : List Move} {s : Session}, value ∈ s.givenValues vendor name moves →
      ∃ origin statement, .statement origin statement ∈ moves ∧ value.1 ∈ statement.operands
  | m :: moves, s, h => by
    rw [givenValues] at h
    rcases List.mem_append.mp h with hgiven | h
    · rw [Option.mem_toList] at hgiven
      unfold givenValue? at hgiven
      split at hgiven
      · next origin line =>
        refine ⟨origin, .declareValue line, List.mem_cons_self, ?_⟩
        split_ifs at hgiven
        obtain ⟨number, -, rfl⟩ := Option.map_eq_some_iff.mp hgiven
        exact List.mem_cons_of_mem _ List.mem_cons_self
      · cases hgiven
    · obtain ⟨origin, statement, hmem, hname⟩ := mem_givenValues h
      exact ⟨origin, statement, List.mem_cons_of_mem _ hmem, hname⟩

end Session

/-! ### Names of a reading -/

namespace Reading

variable (r : Reading) {s : Spot}

/-- The word is cut from a line of some text. -/
def IsCut (word : String) : Prop :=
  ∃ text, ∃ line ∈ Text.lines text, Grammar.CutFrom line.toList word

theorem IsCut.not_mem_newline {word : String} (h : IsCut word) : '\n' ∉ word.toList := by
  obtain ⟨text, line, hline, hcut⟩ := h
  exact fun hmem => Text.not_mem_of_mem_lines hline (hcut.subset hmem)

theorem isCut_of_mem_operands {origin : Origin} {statement : Statement} {word : String}
    (h : .statement origin statement ∈ r.moves) (hword : word ∈ statement.operands) :
    IsCut word := by
  obtain ⟨text, line, hline, hread⟩ := r.inLine_moves _ h
  exact ⟨text, line, hline, Line.cutFrom_read hread word hword⟩

/-- **The name of an attribute is cut from a line.** -/
theorem isCut_name (hs : s ∈ r.registry.spots) : IsCut s.subject.name := by
  have hmem : s.declaration ∈ r.registry.declared.map (·.2) := by
    rw [← r.wellFormed.declaration_spots]
    exact List.mem_map_of_mem hs
  obtain ⟨e, he, hdeclaration⟩ := List.mem_map.mp hmem
  have hname : e.2.name = s.subject.name := congrArg Declaration.name hdeclaration
  unfold registry at he
  rw [r.session_eq_run] at he
  rcases Session.mem_declared_run r.moves Session.namesAgree_start he with
    hstart | ⟨origin, statement, hmoves, hoperand⟩
  · cases hstart
  · exact r.isCut_of_mem_operands hmoves (hname ▸ hoperand)

/-- **The names of values are cut from lines.** -/
theorem isCut_alias (hs : s ∈ r.registry.spots) :
    ∀ e ∈ AttributeModule.aliases (s.subject.values.getD ∅), IsCut e.1 := by
  rintro ⟨name, number⟩ he
  rw [r.values_of_spot hs, Attribute.addValues_eq] at he
  have hgiven : (name, number) ∈ r.valuesFor s := by
    by_cases hnone : r.valuesFor s = []
    · rw [if_pos hnone] at he
      cases he
    · rw [if_neg hnone] at he
      exact AttributeModule.mem_aliases_grouped.mp he
  obtain ⟨origin, statement, hmoves, hoperand⟩ := Session.mem_givenValues hgiven
  exact r.isCut_of_mem_operands hmoves hoperand

end Reading

end RadiusDictionary
