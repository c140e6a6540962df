import RadiusDictionary.Proofs.Directive.Words

/-! # Recognizing a line before it is given a meaning

The rules of the grammar read a keyword, then operands, and make a directive of them on the way.
Here the two are taken apart. A rule for `phrases` recognizes a `Parse` only: which form the line
has, and its operands. `Parse.build` makes a directive of that, and names the operand that is
missing if there are too few. The rules are the same as these two steps (`rules_eq`), and what a
phrase recognizes can always be built (`exists_build_eq_ok`). -/

namespace RadiusDictionary.Grammar

/-- The forms of a line. -/
inductive Form where
  | comment
  | inclusion
  | beginTlv
  | endTlv
  | beginVendor
  | endVendor
  | declareAttribute
  | declareValue
  | declareVendor
deriving DecidableEq, Repr

/-- What is recognized in a line. -/
structure Parse where
  form : Form
  isOptional : Bool
  operands : List String
deriving DecidableEq, Repr

/-- The operand at a position; if there is none, it is reported missing. -/
def Parse.operand (p : Parse) (i : Nat) (missing : String) : Except String String :=
  match p.operands[i]? with
  | some word => .ok word
  | none => .error missing

/-- The line that is recognized, or the operand that is missing. -/
def Parse.build (p : Parse) : Except String Line :=
  match p.form with
  | .comment => return .blank
  | .inclusion => do
    return .directive (.inclusion (← p.operand 0 "$INCLUDE: path") p.isOptional)
  | .beginTlv => do return .directive (.statement (.beginTlv (← p.operand 0 "BEGIN-TLV: name")))
  | .endTlv => return .directive (.statement (.endTlv p.operands.head?))
  | .beginVendor => do
    return .directive (.statement (.beginVendor (← p.operand 0 "BEGIN-VENDOR: name")))
  | .endVendor => return .directive (.statement (.endVendor p.operands.head?))
  | .declareAttribute => do
    let name ← p.operand 0 "ATTRIBUTE: name"
    let number ← p.operand 1 "ATTRIBUTE: number"
    let typeTag ← p.operand 2 "ATTRIBUTE: type"
    let line : AttributeLine := { name, number, typeTag, trailing := p.operands.drop 3 }
    return .directive (.statement (.declareAttribute line))
  | .declareValue => do
    let attributeName ← p.operand 0 "VALUE: attribute"
    let name ← p.operand 1 "VALUE: name"
    let number ← p.operand 2 "VALUE: number"
    return .directive (.statement (.declareValue { attributeName, name, number }))
  | .declareVendor => do
    let name ← p.operand 0 "VENDOR: name"
    let number ← p.operand 1 "VENDOR: number"
    let line : VendorLine := { name, number, extra := (p.operands.drop 2).head? }
    return .directive (.statement (.declareVendor line))

/-- The line that is recognized; without all its operands it is malformed. -/
def Parse.line (p : Parse) : Line :=
  match p.build with
  | .ok line => line
  | .error _ => .malformed

/-! ### Recognizing the forms -/

/-- The keyword of a form. -/
def Form.word : Form → String
  | comment => "#"
  | inclusion => "$INCLUDE"
  | beginTlv => "BEGIN-TLV"
  | endTlv => "END-TLV"
  | beginVendor => "BEGIN-VENDOR"
  | endVendor => "END-VENDOR"
  | declareAttribute => "ATTRIBUTE"
  | declareValue => "VALUE"
  | declareVendor => "VENDOR"

/-- How many operands a form needs. -/
def Form.least : Form → Nat
  | comment | endTlv | endVendor => 0
  | inclusion | beginTlv | beginVendor => 1
  | declareVendor => 2
  | declareAttribute | declareValue => 3

/-- All operands at the front of a line, which have to be `least` at least. -/
def operandsFrom (least : Nat) : Rule (List String) := fun cs =>
  if (operands cs).1.length < least then none else some (operands cs)

/-- Recognizes a comment. -/
def recognizeComment : Rule Parse := fun cs =>
  (comment cs).map fun (_, rest) => (⟨.comment, false, []⟩, rest)

/-- Recognizes an inclusion, which takes one operand and no more. -/
def recognizeInclusion : Rule Parse := fun cs =>
  (keyword Form.inclusion.word cs).bind fun cs =>
    (operand (optionMark cs).2).bind fun (file, rest) =>
      some (⟨.inclusion, (optionMark cs).1, [file]⟩, rest)

/-- Recognizes a statement: its keyword, and all operands that follow. -/
def Form.recognize (form : Form) : Rule Parse := fun cs =>
  (keyword form.word cs).bind fun cs =>
    (operandsFrom form.least cs).map fun (words, rest) => (⟨form, false, words⟩, rest)

/-- The forms of statements. -/
def statementForms : List Form :=
  [.beginTlv, .endTlv, .beginVendor, .endVendor, .declareAttribute, .declareValue, .declareVendor]

/-- What recognizes the forms, in the order in which they are tried. -/
def phrases : List (Rule Parse) :=
  recognizeComment :: recognizeInclusion :: statementForms.map Form.recognize

/-- What is recognized in a line: nothing in an empty one. A line with anything else left in it is
not recognized. -/
def recognize? (cs : List Char) : Option (Option Parse) :=
  match phrases.findSome? fun rule => rule cs with
  | none => if cs.all isSeparator then some none else none
  | some (p, rest) => if rest.all isSeparator then some (some p) else none

/-! ### Rules are phrases with a meaning -/

/-- A rule takes operands, `least` at least, and makes `f` of them. -/
def Takes {α : Type} (least : Nat) (f : List String → α) (rule : Rule α) : Prop :=
  ∀ cs, rule cs = (operandsFrom least cs).map fun (words, rest) => (f words, rest)

section Takes

variable {α : Type} {least : Nat} {f : List String → α}

theorem takes_all (f : List String → α) :
    Takes 0 f fun cs => some (f (operands cs).1, (operands cs).2) :=
  fun _ => rfl

/-- One operand more. -/
theorem takes_operand {k : String → Rule α}
    (h : ∀ word, Takes least (fun words => f (word :: words)) (k word)) :
    Takes (least + 1) f fun cs => (operand cs).bind fun next => k next.1 next.2 := by
  intro cs
  show (operand cs).bind _ = _
  unfold operandsFrom
  rw [operands_eq cs]
  cases hop : operand cs with
  | none => rfl
  | some next =>
    obtain ⟨word, rest⟩ := next
    show k word rest = _
    rw [h word rest, operandsFrom]
    by_cases hfew : (operands rest).1.length < least
    · simp [hfew]
    · simp [hfew]

/-- A rule that reads a keyword and takes operands is a form with a meaning. -/
theorem Takes.eq_recognize {form : Form} {rule body : Rule Line}
    (h : Takes form.least (fun words => Parse.line ⟨form, false, words⟩) body)
    (hrule : ∀ cs, rule cs = (keyword form.word cs).bind body) (cs : List Char) :
    rule cs = (form.recognize cs).map fun (p, rest) => (p.line, rest) := by
  rw [hrule cs]
  unfold Form.recognize
  cases keyword form.word cs with
  | none => rfl
  | some cs =>
    rw [Option.bind_some, Option.bind_some, h cs, Option.map_map]
    rfl

end Takes

/-- **The rules are the phrases with a meaning,** in the same order. -/
theorem rules_eq (cs : List Char) : (rules.map fun rule => rule cs) =
    phrases.map fun phrase => (phrase cs).map fun (p, rest) => (p.line, rest) := by
  simp only [rules, phrases, statementForms, List.map_cons, List.map_nil, List.cons.injEq,
    and_true]
  refine ⟨?comment, ?inclusion, ?beginTlv, ?endTlv, ?beginVendor, ?endVendor, ?declareAttribute,
    ?declareValue, ?declareVendor⟩
  case comment =>
    rw [recognizeComment, Option.map_map]
    unfold comment
    split <;> rfl
  case inclusion =>
    simp only [inclusion, recognizeInclusion, Option.bind_eq_bind, Option.map_bind,
      Function.comp_def]
    rfl
  case endTlv | endVendor =>
    apply Takes.eq_recognize
    · exact takes_all _
    · intro cs
      simp only [asLine, endTlv, endVendor, Option.bind_eq_bind, Option.map_bind,
        Function.comp_def]
      rfl
  case beginTlv | beginVendor =>
    apply Takes.eq_recognize
    · exact takes_operand fun _ => takes_all _
    · intro cs
      simp only [asLine, beginTlv, beginVendor, Option.bind_eq_bind, Option.map_bind,
        Function.comp_def]
      rfl
  case declareVendor =>
    apply Takes.eq_recognize
    · exact takes_operand fun _ => takes_operand fun _ => takes_all _
    · intro cs
      simp only [asLine, declareVendor, Option.bind_eq_bind, Option.map_bind,
        Function.comp_def]
      rfl
  case declareAttribute | declareValue =>
    apply Takes.eq_recognize
    · exact takes_operand fun _ => takes_operand fun _ => takes_operand fun _ => takes_all _
    · intro cs
      simp only [asLine, declareAttribute, declareValue, Option.bind_eq_bind, Option.map_bind,
        Function.comp_def]
      rfl

/-- **Reading is recognizing and then building.** -/
theorem read_eq_recognize (cs : List Char) : read cs =
    match recognize? cs with
    | none => .malformed
    | some none => .blank
    | some (some p) => p.line := by
  have hfind : (rules.findSome? fun rule => rule cs) =
      (phrases.findSome? fun phrase => phrase cs).map fun (p, rest) => (p.line, rest) := by
    have h := congrArg (List.findSome? id) (rules_eq cs)
    simpa only [List.findSome?_map, List.map_findSome?, Function.comp_def, id_eq] using h
  unfold read recognize?
  rw [hfind]
  cases phrases.findSome? fun phrase => phrase cs with
  | none =>
    by_cases hrest : cs.all isSeparator
    · simp [hrest]
    · simp [hrest]
  | some found =>
    obtain ⟨p, rest⟩ := found
    by_cases hrest : rest.all isSeparator
    · simp [hrest]
    · simp [hrest]

/-! ### What is recognized can be built -/

theorem Parse.exists_build_eq_ok {p : Parse} (h : p.form.least ≤ p.operands.length) :
    ∃ line, p.build = .ok line := by
  obtain ⟨form, isOptional, words⟩ := p
  match form, words, h with
  | .comment, _, _ | .endTlv, _, _ | .endVendor, _, _ => exact ⟨_, rfl⟩
  | .inclusion, _ :: _, _ | .beginTlv, _ :: _, _ | .beginVendor, _ :: _, _ => exact ⟨_, rfl⟩
  | .declareVendor, _ :: _ :: _, _ => exact ⟨_, rfl⟩
  | .declareAttribute, _ :: _ :: _ :: _, _ | .declareValue, _ :: _ :: _ :: _, _ => exact ⟨_, rfl⟩

theorem Parse.line_of_few {p : Parse} (h : p.operands.length < p.form.least) :
    p.line = .malformed := by
  obtain ⟨form, isOptional, words⟩ := p
  match form, words, h with
  | .inclusion, [], _ | .beginTlv, [], _ | .beginVendor, [], _ => rfl
  | .declareVendor, [], _ | .declareVendor, [_], _ => rfl
  | .declareAttribute, [], _ | .declareAttribute, [_], _ | .declareAttribute, [_, _], _ => rfl
  | .declareValue, [], _ | .declareValue, [_], _ | .declareValue, [_, _], _ => rfl

theorem exists_phrase_of_recognize?_eq_some {cs : List Char} {p : Parse}
    (h : recognize? cs = some (some p)) :
    ∃ phrase ∈ phrases, ∃ rest, phrase cs = some (p, rest) := by
  have hfound : ∃ rest, (phrases.findSome? fun phrase => phrase cs) = some (p, rest) := by
    unfold recognize? at h
    split at h
    · split at h <;> cases h
    · next hfind =>
      split at h
      · cases h
        exact ⟨_, hfind⟩
      · cases h
  obtain ⟨rest, hfind⟩ := hfound
  obtain ⟨phrase, hphrase, hp⟩ := List.exists_of_findSome?_eq_some hfind
  exact ⟨phrase, hphrase, rest, hp⟩

/-- **A form is recognized only with all the operands it needs.** -/
theorem least_le_of_recognize?_eq_some {cs : List Char} {p : Parse}
    (h : recognize? cs = some (some p)) : p.form.least ≤ p.operands.length := by
  obtain ⟨phrase, hphrase, rest, hp⟩ := exists_phrase_of_recognize?_eq_some h
  simp only [phrases, List.mem_cons, List.mem_map] at hphrase
  rcases hphrase with rfl | rfl | ⟨form, -, rfl⟩
  · simp only [recognizeComment, Option.map_eq_some_iff] at hp
    obtain ⟨_, -, hp⟩ := hp
    cases hp
    exact Nat.le_refl _
  · simp only [recognizeInclusion, Option.bind_eq_some_iff] at hp
    obtain ⟨_, -, _, -, hp⟩ := hp
    cases hp
    exact Nat.le_refl _
  · simp only [Form.recognize, Option.bind_eq_some_iff, Option.map_eq_some_iff] at hp
    obtain ⟨_, -, _, hwords, hp⟩ := hp
    unfold operandsFrom at hwords
    split at hwords
    · cases hwords
    · next hmany =>
      cases hwords
      cases hp
      exact Nat.le_of_not_lt hmany

end RadiusDictionary.Grammar
