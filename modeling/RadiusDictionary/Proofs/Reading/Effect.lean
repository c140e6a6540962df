import RadiusDictionary.Session

/-! # The effects of statements

What a statement can do to a session, said once for all statements. `check_eq_ok_iff` says when an
`ATTRIBUTE` line declares something, and what; `effect_apply` says that every statement has one of
five effects. What all effects keep, every reading keeps. -/

namespace RadiusDictionary.Session

theorem hasSeen_eq_false_iff {s : Session} {name : String} :
    s.hasSeen name = false ↔ Text.lowercase name ∉ s.seenNames := by
  unfold hasSeen
  rw [← Bool.not_eq_true, List.contains_iff_mem]

/-- **What an `ATTRIBUTE` line declares.** -/
theorem check_eq_ok_iff {s : Session} {line : AttributeLine} {d : Declaration} :
    s.check line = .ok d ↔ ∃ number, Numeral.unsigned? line.number = some number ∧
      d = s.declarationOf line number ∧ s.hasSeen line.name = false ∧
      ∀ parent, s.openTlv = some parent → number ≤ TypeCode.maxChildNumber ∧
        (s.registry.attributesOf d.vendor).contains parent = true := by
  unfold check
  cases hnumber : Numeral.unsigned? line.number with
  | none => simp
  | some number =>
    cases hseen : s.hasSeen line.name with
    | true => simp
    | false =>
      cases htlv : s.openTlv with
      | none =>
        simp only [Bool.false_eq_true, if_false, Except.ok.injEq, Option.some.injEq,
          exists_eq_left', reduceCtorEq, false_implies, implies_true, and_true]
        exact eq_comm
      | some parent =>
        by_cases hlarge : TypeCode.maxChildNumber < number
        · have hnot : ¬ number ≤ TypeCode.maxChildNumber := UInt32.not_le.mpr hlarge
          simp only [hlarge, if_true, reduceCtorEq, Bool.false_eq_true, if_false, Option.some.injEq,
            exists_eq_left', true_and, false_iff]
          exact fun h => hnot (h.2 parent rfl).1
        · have hle : number ≤ TypeCode.maxChildNumber := UInt32.not_lt.mp hlarge
          cases hparent : (s.registry.attributesOf (s.declarationOf line number).vendor).contains
              parent with
          | true =>
            simp only [hlarge, hparent, if_true, if_false, Bool.false_eq_true, Except.ok.injEq,
              Option.some.injEq, exists_eq_left', true_and]
            constructor
            · rintro rfl
              refine ⟨rfl, fun p hp => ?_⟩
              rw [← hp]
              exact ⟨hle, hparent⟩
            · rintro ⟨rfl, -⟩; rfl
          | false =>
            simp only [hlarge, hparent, if_false, Bool.false_eq_true, reduceCtorEq,
              Option.some.injEq, exists_eq_left', true_and, false_iff]
            rintro ⟨rfl, h⟩
            rw [(h parent rfl).2] at hparent
            cases hparent

/-- What a statement can do to a session. -/
inductive Effect (s : Session) : Session → Prop
  | nothing : Effect s s
  | scope (kind : ScopeKind) (name : Option String) : Effect s (s.setScope kind name)
  | vendor (name : String) (number : UInt32) (extra : Option String) :
    Effect s { s with registry := s.registry.declareVendor name number extra }
  | declaration {line : AttributeLine} {d : Declaration} (h : s.check line = .ok d) :
    Effect s { s with
      registry := s.registry.declare s.openTlv d
      seenNames := Text.lowercase d.name :: s.seenNames }
  | value {attributeName : String} {vendor : Option String} (name : String) (number : Int64)
    (h : s.valueHome? attributeName = some vendor) :
    Effect s { s with registry := s.registry.modifyAttributes vendor fun attributes =>
      attributes.modify attributeName fun a => a.addValue name number }

/-- **Every statement has one of the effects.** -/
theorem effect_apply (s : Session) (origin : Origin) (statement : Statement) :
    Effect s (s.apply origin statement).1 := by
  cases statement with
  | beginTlv name => exact .scope .tlv (some name)
  | endTlv name => exact .scope .tlv none
  | beginVendor name => exact .scope .vendor (some name)
  | endVendor name => exact .scope .vendor none
  | declareVendor line =>
    simp only [apply, declareVendor]
    cases Numeral.unsigned? line.number with
    | none => exact .nothing
    | some number => exact .vendor line.name number line.extra
  | declareAttribute line =>
    simp only [apply, declareAttribute]
    cases h : s.check line with
    | error why => exact .nothing
    | ok d => exact .declaration h
  | declareValue line =>
    simp only [apply, declareValue]
    cases Numeral.signed? line.number with
    | none => exact .nothing
    | some number =>
      cases h : s.valueHome? line.attributeName with
      | none => simpa only [h] using Effect.nothing
      | some vendor => simpa only [h] using Effect.value line.name number h

end RadiusDictionary.Session
