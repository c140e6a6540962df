import RadiusDictionary.Proofs.Directive.ByWords

/-! # Where operands come from

Whatever a statement takes from its line is an operand (`Statement.operands`), and an operand is a
word that is cut out of the line: it has no separators, at least one character, and no character
that the line does not have (`CutFrom`). Other characters go through as they are, whatever they do
to a text in which the operand is written again. -/

namespace RadiusDictionary

/-- The operands of a statement. -/
def Statement.operands : Statement → List String
  | .beginTlv name | .beginVendor name => [name]
  | .endTlv name | .endVendor name => name.toList
  | .declareVendor line => line.name :: line.number :: line.extra.toList
  | .declareAttribute line => line.name :: line.number :: line.typeTag :: line.trailing
  | .declareValue line => [line.attributeName, line.name, line.number]

namespace Grammar

/-- The word is made of characters of `cs` and is not cut by separators. -/
structure CutFrom (cs : List Char) (word : String) : Prop where
  isWord : IsWord word.toList
  subset : word.toList ⊆ cs

variable {cs cs' rest : List Char} {word : String}

theorem CutFrom.mono (h : CutFrom cs word) (hsubset : cs ⊆ cs') : CutFrom cs' word :=
  ⟨h.isWord, List.Subset.trans h.subset hsubset⟩

/-! ### Operands of a line -/

theorem operand_eq_some (h : operand cs = some (word, rest)) :
    ∃ gap, cs = gap ++ (word.toList ++ rest) ∧ IsWord word.toList := by
  by_cases hapart : Apart cs
  · rcases hapart.cases with hall | ⟨gap, w, rest', rfl, hne, hgap, hw, hrest⟩
    · rw [operand_of_gap hall] at h
      cases h
    · rw [operand_append hne hgap hw hrest] at h
      cases h
      rw [String.toList_ofList]
      exact ⟨gap, rfl, hw⟩
  · rw [operand_of_not_apart hapart] at h
    cases h

theorem cutFrom_of_operand (h : operand cs = some (word, rest)) :
    CutFrom cs word ∧ rest ⊆ cs := by
  obtain ⟨gap, rfl, hword⟩ := operand_eq_some h
  have hsubset : word.toList ++ rest ⊆ gap ++ (word.toList ++ rest) := List.subset_append_right ..
  exact ⟨⟨hword, List.Subset.trans (List.subset_append_left ..) hsubset⟩,
    List.Subset.trans (List.subset_append_right ..) hsubset⟩

theorem cutFrom_of_mem_operands {cs : List Char} {word : String} (h : word ∈ (operands cs).1) :
    CutFrom cs word := by
  rw [operands_eq] at h
  cases hop : operand cs with
  | none =>
    rw [hop] at h
    cases h
  | some next =>
    obtain ⟨first, rest⟩ := next
    obtain ⟨hfirst, hrest⟩ := cutFrom_of_operand hop
    have hlt := length_lt_of_operand hop
    rw [hop] at h
    rcases List.mem_cons.mp h with rfl | h
    · exact hfirst
    · exact (cutFrom_of_mem_operands h).mono hrest
termination_by cs.length

/-! ### Operands of a statement -/

theorem subset_of_keyword {word : String} (h : keyword word cs = some rest) : rest ⊆ cs := by
  obtain ⟨front, rfl, -⟩ := afterKeyword?_eq_some h
  exact List.subset_append_right ..

theorem optionMark_subset (cs : List Char) : (optionMark cs).2 ⊆ cs := by
  unfold optionMark
  split
  · exact List.subset_cons_self _ _
  · exact List.Subset.refl _

/-- What a phrase recognizes has operands of the line. -/
theorem cutFrom_of_recognize? {p : Parse} (h : recognize? cs = some (some p)) :
    ∀ word ∈ p.operands, CutFrom cs word := by
  obtain ⟨phrase, hphrase, rest, hp⟩ := exists_phrase_of_recognize?_eq_some h
  simp only [phrases, List.mem_cons, List.mem_map] at hphrase
  rcases hphrase with rfl | rfl | ⟨form, -, rfl⟩
  · simp only [recognizeComment, Option.map_eq_some_iff] at hp
    obtain ⟨_, -, hp⟩ := hp
    cases hp
    exact List.forall_mem_nil _
  · simp only [recognizeInclusion, Option.bind_eq_some_iff] at hp
    obtain ⟨after, hkeyword, ⟨file, rest⟩, hoperand, hp⟩ := hp
    cases hp
    intro word hword
    rw [List.mem_singleton.mp hword]
    exact (cutFrom_of_operand hoperand).1.mono
      (List.Subset.trans (optionMark_subset after) (subset_of_keyword hkeyword))
  · simp only [Form.recognize, Option.bind_eq_some_iff, Option.map_eq_some_iff] at hp
    obtain ⟨after, hkeyword, ⟨words, rest⟩, hoperands, hp⟩ := hp
    unfold operandsFrom at hoperands
    split at hoperands
    · cases hoperands
    · have hwords : (operands after).1 = words := congrArg (·.1) (Option.some.inj hoperands)
      cases hp
      intro word hword
      exact (cutFrom_of_mem_operands (hwords ▸ hword)).mono (subset_of_keyword hkeyword)

/-- A statement takes its operands from those that were recognized. -/
theorem Parse.operands_subset {p : Parse} {statement : Statement}
    (h : p.line = .directive (.statement statement)) : statement.operands ⊆ p.operands := by
  obtain ⟨form, isOptional, words⟩ := p
  match form, words, h with
  | .inclusion, [], h | .inclusion, _ :: _, h => cases h
  | .endTlv, [], h | .endVendor, [], h =>
    cases h
    exact List.nil_subset _
  | .beginTlv, _ :: _, h | .beginVendor, _ :: _, h | .endTlv, _ :: _, h | .endVendor, _ :: _, h
  | .declareVendor, [_, _], h | .declareVendor, _ :: _ :: _ :: _, h
  | .declareAttribute, _ :: _ :: _ :: _, h | .declareValue, _ :: _ :: _ :: _, h =>
    cases h
    simp [Statement.operands]

end Grammar

/-- **The operands of a statement are cut from its line.** -/
theorem Line.cutFrom_read {text : String} {statement : Statement}
    (h : Line.read text = .directive (.statement statement)) :
    ∀ word ∈ statement.operands, Grammar.CutFrom text.toList word := by
  rw [Line.read, Grammar.read_eq_recognize] at h
  split at h
  · cases h
  · cases h
  · next p hp =>
    intro word hword
    exact (Grammar.cutFrom_of_recognize? hp word (p.operands_subset h hword)).mono
      fun c => Text.mem_of_mem_trimChars

end RadiusDictionary
