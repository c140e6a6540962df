import RadiusDictionary.Directive
import RadiusDictionary.Text.Blank
import RadiusDictionary.Text.Lowercase

/-! # The grammar of a line

Each rule reads a directive from the front of a line and returns what follows it, or fails. The
first rule that succeeds decides: if anything but separators follows, the line is malformed, and no
other rule is tried. Keywords are read in any case of their ASCII letters; operands are runs of
characters between separators, which are spaces and tabs. -/

namespace RadiusDictionary.Grammar

/-- A rule of the grammar. -/
abbrev Rule (α : Type) := List Char → Option (α × List Char)

/-- Whether a character parts operands. -/
def isSeparator (c : Char) : Bool := c = ' ' || c = '\t'

/-- What follows a keyword at the front of a line. -/
def afterKeyword? : (keyword line : List Char) → Option (List Char)
  | [], cs => some cs
  | _ :: _, [] => none
  | k :: ks, c :: cs => if Text.asciiLower k = Text.asciiLower c then afterKeyword? ks cs else none

/-- A keyword. -/
def keyword (word : String) (cs : List Char) : Option (List Char) := afterKeyword? word.toList cs

/-- An operand with the separators in front of it: one or more of each. -/
def operand : Rule String := fun cs =>
  let afterGap := cs.dropWhile isSeparator
  let word := afterGap.takeWhile (!isSeparator ·)
  if (cs.takeWhile isSeparator).isEmpty || word.isEmpty then none
  else some (.ofList word, afterGap.dropWhile (!isSeparator ·))

/-- The operands at the front of a line, at most `limit` of them. -/
def operandsUpTo : (limit : Nat) → List Char → List String × List Char
  | 0, cs => ([], cs)
  | limit + 1, cs =>
    match operand cs with
    | none => ([], cs)
    | some (word, rest) =>
      let (words, rest) := operandsUpTo limit rest
      (word :: words, rest)

/-- All the operands at the front of a line. Each has a character of its own, so the length of the
line is limit enough (`operand_operands`). -/
def operands (cs : List Char) : List String × List Char := operandsUpTo cs.length cs

/-- An operand takes up at least one character. -/
theorem length_lt_of_operand {cs rest : List Char} {word : String}
    (h : operand cs = some (word, rest)) : rest.length < cs.length := by
  simp only [operand] at h
  split at h
  · simp at h
  · next hgap =>
    obtain ⟨-, rfl⟩ := Prod.mk.inj (Option.some.inj h)
    have hword : (cs.dropWhile isSeparator).takeWhile (!isSeparator ·) ≠ [] := by simp_all
    have htotal := congrArg List.length
      (List.takeWhile_append_dropWhile (p := (!isSeparator ·)) (l := cs.dropWhile isSeparator))
    have hdrop := (List.dropWhile_suffix isSeparator (l := cs)).length_le
    have hpos := List.length_pos_iff.2 hword
    simp only [List.length_append] at htotal
    omega

theorem operand_operandsUpTo {limit : Nat} {cs : List Char} (h : cs.length ≤ limit) :
    operand (operandsUpTo limit cs).2 = none := by
  induction limit generalizing cs with
  | zero =>
    obtain rfl := List.length_eq_zero_iff.1 (Nat.le_zero.1 h)
    rfl
  | succ limit ih =>
    rw [operandsUpTo]
    split
    · assumption
    · next word rest hop =>
      have hlt := length_lt_of_operand hop
      exact ih (by omega)

/-- `operands` stops only where there is no further operand. -/
theorem operand_operands (cs : List Char) : operand (operands cs).2 = none :=
  operand_operandsUpTo (Nat.le_refl _)

/-- `# ...` -/
def comment : Rule Line
  | '#' :: _ => some (.blank, [])
  | _ => none

/-- A minus sign, or nothing. -/
def optionMark : List Char → Bool × List Char
  | '-' :: cs => (true, cs)
  | cs => (false, cs)

/-- `$INCLUDE file`, or `$INCLUDE- file` for a file that may be missing. -/
def inclusion : Rule Directive := fun cs => do
  let cs ← keyword "$INCLUDE" cs
  let (isOptional, cs) := optionMark cs
  let (file, cs) ← operand cs
  return (.inclusion file isOptional, cs)

/-- `BEGIN-TLV name ...` -/
def beginTlv : Rule Statement := fun cs => do
  let cs ← keyword "BEGIN-TLV" cs
  let (name, cs) ← operand cs
  return (.beginTlv name, (operands cs).2)

/-- `END-TLV [name ...]` -/
def endTlv : Rule Statement := fun cs => do
  let cs ← keyword "END-TLV" cs
  let (names, cs) := operands cs
  return (.endTlv names.head?, cs)

/-- `BEGIN-VENDOR name ...` -/
def beginVendor : Rule Statement := fun cs => do
  let cs ← keyword "BEGIN-VENDOR" cs
  let (name, cs) ← operand cs
  return (.beginVendor name, (operands cs).2)

/-- `END-VENDOR [name ...]` -/
def endVendor : Rule Statement := fun cs => do
  let cs ← keyword "END-VENDOR" cs
  let (names, cs) := operands cs
  return (.endVendor names.head?, cs)

/-- `ATTRIBUTE name number type ...` -/
def declareAttribute : Rule Statement := fun cs => do
  let cs ← keyword "ATTRIBUTE" cs
  let (name, cs) ← operand cs
  let (number, cs) ← operand cs
  let (typeTag, cs) ← operand cs
  let (trailing, cs) := operands cs
  return (.declareAttribute { name, number, typeTag, trailing }, cs)

/-- `VALUE attribute name number ...` -/
def declareValue : Rule Statement := fun cs => do
  let cs ← keyword "VALUE" cs
  let (attributeName, cs) ← operand cs
  let (name, cs) ← operand cs
  let (number, cs) ← operand cs
  return (.declareValue { attributeName, name, number }, (operands cs).2)

/-- `VENDOR name number [extra ...]` -/
def declareVendor : Rule Statement := fun cs => do
  let cs ← keyword "VENDOR" cs
  let (name, cs) ← operand cs
  let (number, cs) ← operand cs
  let (extra, cs) := operands cs
  return (.declareVendor { name, number, extra := extra.head? }, cs)

/-- A rule for statements, as one for lines. -/
def asLine (rule : Rule Statement) : Rule Line := fun cs =>
  (rule cs).map fun (s, rest) => (.directive (.statement s), rest)

/-- The rules in the order in which they are tried. -/
def rules : List (Rule Line) :=
  [comment, fun cs => (inclusion cs).map fun (d, rest) => (.directive d, rest),
   asLine beginTlv, asLine endTlv, asLine beginVendor, asLine endVendor,
   asLine declareAttribute, asLine declareValue, asLine declareVendor]

/-- Reads the characters of a line without blanks at its ends. -/
def read (cs : List Char) : Line :=
  let (line, rest) := (rules.findSome? fun rule => rule cs).getD (.blank, cs)
  if rest.all isSeparator then line else .malformed

end RadiusDictionary.Grammar

namespace RadiusDictionary

/-- Reads a line. -/
def Line.read (text : String) : Line := Grammar.read (Text.trimChars text.toList)

end RadiusDictionary
