import RadiusDictionary.Proofs.Registry.Spots
import RadiusDictionary.Proofs.Text.Lowercase

/-! # Looking names up

A name is looked up by a search through the registry that compares ASCII letters only, while a line
is refused for its name by the names seen, which are in full lower case. The search goes through the
spots of the registry in their order (`WellFormed.find?_eq`), the names seen are those of the spots
(`hasSeen_iff`), and of the two comparisons one implies the other. So the search finds nothing but
what has been seen, and it misses what it seeks if and only if that has its name in another case
beyond ASCII (`lookup_and_names`). -/

namespace RadiusDictionary

variable {sought : Declaration → Bool}

/-! ### The search goes through the spots -/

namespace Attribute

/-- The outermost attribute comes first. -/
theorem find?_eq (a : Attribute) :
    a.find? sought = if sought a.toDeclaration then some a else findIn? sought a.nested := by
  obtain ⟨d, values, _ | ⟨⟨entries⟩⟩⟩ := a
  · rfl
  · rfl

theorem findIn?_cons (key : String) (a : Attribute) (rest : List (String × Attribute)) :
    findIn? sought ((key, a) :: rest) = (a.find? sought).or (findIn? sought rest) := by
  rw [findIn?]
  cases a.find? sought with
  | none => rfl
  | some found => rfl

end Attribute

/-- The search among nested attributes that are bare. -/
theorem findIn?_nested (vendor : Option Vendor) (p : Attribute) :
    ∀ (entries : List (String × Attribute)) (elder : List Attribute),
      (∀ e ∈ entries, e.2.children = none) → Attribute.findIn? sought entries =
        ((nestedSpots vendor p elder (entries.map (·.2))).find? fun s => sought s.declaration).map
          Spot.subject
  | [], _, _ => rfl
  | (key, c) :: rest, elder, h => by
    obtain ⟨hc, hrest⟩ := List.forall_mem_cons.mp h
    have hbelow : Attribute.findIn? sought c.nested = none := by
      rw [Attribute.nested_of_children_eq_none hc]; rfl
    rw [Attribute.findIn?_cons, Attribute.find?_eq, hbelow,
      findIn?_nested vendor p rest (elder ++ [c]) hrest, List.map_cons, nestedSpots,
      List.find?_cons, Spot.declaration]
    cases sought c.toDeclaration with
    | true => rfl
    | false => rfl

theorem findIn?_eq_find?_spotsOf (sought : Declaration → Bool) (vendor : Option Vendor)
    {owner : Option String} :
    ∀ entries : List (String × Attribute), (∀ e ∈ entries, e.2.WellFormed owner) →
      Attribute.findIn? sought entries =
        ((spotsOf vendor (entries.map (·.2))).find? fun s => sought s.declaration).map Spot.subject
  | [], _ => rfl
  | (key, a) :: rest, h => by
    obtain ⟨ha, hrest⟩ := List.forall_mem_cons.mp h
    rw [Attribute.findIn?_cons, Attribute.find?_eq, findIn?_nested vendor a a.nested [] ha.bare,
      findIn?_eq_find?_spotsOf sought vendor rest hrest, List.map_cons, spotsOf, List.find?_cons,
      List.find?_append, Spot.declaration]
    cases sought a.toDeclaration with
    | true => rfl
    | false => exact Option.map_or.symm

theorem findSome?_eq_find?_flatMap (sought : Declaration → Bool) :
    ∀ entries : List (String × Vendor), (∀ e ∈ entries, e.2.WellFormed e.1) →
      ((entries.map (·.2)).findSome? fun v => Attribute.findIn? sought v.attributes.entries) =
        (((entries.map (·.2)).flatMap fun v => spotsOf (some v) v.attributes.values).find?
          fun s => sought s.declaration).map Spot.subject
  | [], _ => rfl
  | (key, v) :: rest, h => by
    obtain ⟨hv, hrest⟩ := List.forall_mem_cons.mp h
    rw [List.map_cons, List.findSome?_cons, List.flatMap_cons, List.find?_append, Option.map_or,
      findIn?_eq_find?_spotsOf sought (some v) v.attributes.entries hv.attributes,
      findSome?_eq_find?_flatMap sought rest hrest, ← OrderedMap.values]
    cases (List.find? _ (spotsOf (some v) v.attributes.values)).map Spot.subject with
    | none => rfl
    | some found => rfl

/-- **The search goes through the spots in their order.** -/
theorem Registry.WellFormed.find?_eq {r : Registry} (h : r.WellFormed) (name : String) :
    r.find? name =
      (r.spots.find? fun s => Text.sameAscii s.subject.name name).map Spot.subject := by
  have htop := findIn?_eq_find?_spotsOf (fun d => Text.sameAscii d.name name) none
    r.attributes.entries h.attributes
  have hvendors := findSome?_eq_find?_flatMap (fun d => Text.sameAscii d.name name)
    r.vendors.entries h.vendors
  simp only [find?, spots, OrderedMap.values] at htop hvendors ⊢
  rw [htop, hvendors, List.find?_append, Option.map_or]
  simp only [Spot.declaration]
  cases (List.find? _ _).map Spot.subject with
  | none => rfl
  | some found => rfl

/-! ### Lookup and the names seen -/

/-- A line with a number is refused for its name if and only if the name has been seen. -/
theorem Session.check_eq_alreadyDefined_iff {s : Session} {line : AttributeLine} {number : UInt32}
    (hnumber : Numeral.unsigned? line.number = some number) :
    s.check line = .error .alreadyDefined ↔ s.hasSeen line.name = true := by
  unfold check
  cases s.hasSeen line.name with
  | true => simp [hnumber]
  | false =>
    cases s.openTlv with
    | none => simp [hnumber]
    | some parent =>
      by_cases hlarge : TypeCode.maxChildNumber < number
      · simp [hnumber, hlarge]
      · cases hparent : (s.registry.attributesOf (s.declarationOf line number).vendor).contains
            parent with
        | true => simp [hnumber, hlarge, hparent]
        | false => simp [hnumber, hlarge, hparent]

namespace Reading

variable (r : Reading) {name : String}

theorem hasSeen_iff : r.session.hasSeen name = true ↔
    ∃ s ∈ r.registry.spots, Text.lowercase s.subject.name = Text.lowercase name := by
  rw [Session.hasSeen, List.contains_iff_mem, r.perm_spotNames.mem_iff, List.mem_map]

theorem find?_eq_some_iff {a : Attribute} : r.registry.find? name = some a ↔
    ∃ s ∈ r.registry.spots, s.subject = a ∧ Text.sameAscii a.name name = true := by
  rw [r.wellFormed.find?_eq, Option.map_eq_some_iff]
  constructor
  · rintro ⟨s, hs, rfl⟩
    have hname : Text.sameAscii s.subject.name name = true := by simpa using List.find?_some hs
    exact ⟨s, List.mem_of_find?_eq_some hs, rfl, hname⟩
  · rintro ⟨s, hs, rfl, hname⟩
    have hsome : (r.registry.spots.find? fun s =>
        Text.sameAscii s.subject.name name).isSome = true := List.find?_isSome.mpr ⟨s, hs, hname⟩
    obtain ⟨s', hs'⟩ := Option.isSome_iff_exists.mp hsome
    refine ⟨s', hs', congrArg Spot.subject ?_⟩
    -- both have the name sought, up to case
    have hname' : Text.sameAscii s'.subject.name name = true := by simpa using List.find?_some hs'
    exact r.spot_unique_lowercase (List.mem_of_find?_eq_some hs') hs
      ((Text.lowercase_eq_of_sameAscii hname').trans (Text.lowercase_eq_of_sameAscii hname).symm)

theorem isSome_find?_iff : (r.registry.find? name).isSome = true ↔
    ∃ s ∈ r.registry.spots, Text.sameAscii s.subject.name name = true := by
  simp only [Option.isSome_iff_exists, r.find?_eq_some_iff]
  constructor
  · rintro ⟨_, s, hs, rfl, hname⟩
    exact ⟨s, hs, hname⟩
  · rintro ⟨s, hs, hname⟩
    exact ⟨_, s, hs, rfl, hname⟩

/-- What has been seen is found if and only if its name differs in the case of ASCII letters
only. -/
theorem isSome_find?_eq_hasSeen_iff :
    (r.registry.find? name).isSome = r.session.hasSeen name ↔
      ∀ s ∈ r.registry.spots, Text.lowercase s.subject.name = Text.lowercase name →
        Text.sameAscii s.subject.name name = true := by
  rw [Bool.eq_iff_iff, r.isSome_find?_iff, r.hasSeen_iff]
  constructor
  · intro h s hs hname
    obtain ⟨s', hs', hname'⟩ := h.mpr ⟨s, hs, hname⟩
    obtain rfl := r.spot_unique_lowercase hs' hs
      ((Text.lowercase_eq_of_sameAscii hname').trans hname.symm)
    exact hname'
  · intro h
    exact ⟨fun ⟨s, hs, hname⟩ => ⟨s, hs, Text.lowercase_eq_of_sameAscii hname⟩,
      fun ⟨s, hs, hname⟩ => ⟨s, hs, h s hs hname⟩⟩

/-- **Lookup and the names seen.** Whatever was read, a line with a number is refused for its name
if and only if some attribute, wherever it stands, has this name in full lower case, and then there
is one such attribute. The lookup finds an attribute if and only if it has the name up to the ASCII
letters, and then it is that one. So lookup and the names seen agree on a name if and only if the
attribute that has it in full lower case, if there is one, has it up to the ASCII letters: always
for names of ASCII characters, not for others. -/
theorem lookup_and_names (r : Reading) (name : String) :
    (∀ line : AttributeLine, line.name = name →
      ∀ number, Numeral.unsigned? line.number = some number →
        (r.session.check line = .error .alreadyDefined ↔ r.session.hasSeen name = true)) ∧
    (r.session.hasSeen name = true ↔
      ∃! s, s ∈ r.registry.spots ∧ Text.lowercase s.subject.name = Text.lowercase name) ∧
    (∀ a, r.registry.find? name = some a ↔
      ∃ s ∈ r.registry.spots, s.subject = a ∧ Text.sameAscii a.name name = true) ∧
    (∀ a, r.registry.find? name = some a → Text.lowercase a.name = Text.lowercase name) ∧
    ((r.registry.find? name).isSome = r.session.hasSeen name ↔
      ∀ s ∈ r.registry.spots, Text.lowercase s.subject.name = Text.lowercase name →
        Text.sameAscii s.subject.name name = true) ∧
    (Text.IsAscii name → (∀ s ∈ r.registry.spots, Text.IsAscii s.subject.name) →
      (r.registry.find? name).isSome = r.session.hasSeen name) := by
  refine ⟨?_, ?_, fun a => r.find?_eq_some_iff, ?_, r.isSome_find?_eq_hasSeen_iff, ?_⟩
  · rintro line rfl number hnumber
    exact Session.check_eq_alreadyDefined_iff hnumber
  · rw [r.hasSeen_iff]
    refine ⟨fun ⟨s, hs, hname⟩ => ⟨s, ⟨hs, hname⟩, ?_⟩, fun ⟨s, ⟨hs, hname⟩, _⟩ => ⟨s, hs, hname⟩⟩
    rintro s' ⟨hs', hname'⟩
    exact r.spot_unique_lowercase hs' hs (hname'.trans hname.symm)
  · intro a ha
    obtain ⟨-, -, -, hname⟩ := r.find?_eq_some_iff.mp ha
    exact Text.lowercase_eq_of_sameAscii hname
  · intro hascii hspots
    exact r.isSome_find?_eq_hasSeen_iff.mpr fun s hs hname =>
      (Text.sameAscii_iff_of_isAscii (hspots s hs) hascii).mpr hname

/-- The attribute `É` is in the way of a line for `é`, and is not found under that name; `User-Name`
is found in any case. -/
theorem lookup_misses_accented_letter :
    let r : Reading := ⟨default, [.text "ATTRIBUTE É 1 string\n"], false⟩
    let r' : Reading := ⟨default, [.text "ATTRIBUTE User-Name 1 string\n"], false⟩
    r.session.check ⟨"é", "2", "string", []⟩ = .error .alreadyDefined ∧
      r.registry.find? "é" = none ∧ r.session.hasSeen "é" = true ∧
      (¬ ∀ s ∈ r.registry.spots, Text.lowercase s.subject.name = Text.lowercase "é" →
        Text.sameAscii s.subject.name "é" = true) ∧
      r'.session.hasSeen "USER-NAME" = true ∧
      (r'.registry.find? "USER-NAME").isSome = r'.session.hasSeen "USER-NAME" := by
  intro r r'
  obtain ⟨hseen, hmissing⟩ : r.session.hasSeen "é" = true ∧ r.registry.find? "é" = none := by
    decide +kernel
  obtain ⟨hrefused, -, -, -, hagree, -⟩ := lookup_and_names r "é"
  obtain ⟨-, -, -, -, -, hascii⟩ := lookup_and_names r' "USER-NAME"
  refine ⟨(hrefused ⟨"é", "2", "string", []⟩ rfl 2 (by decide +kernel)).mpr hseen, hmissing, hseen,
    fun hall => ?_, by decide +kernel, hascii (by decide +kernel) fun s hs => ?_⟩
  · have heq := hagree.mpr hall
    rw [hmissing, hseen] at heq
    cases heq
  · have hnames : r'.registry.spots.map (·.subject.name) = ["User-Name"] := by decide +kernel
    have hname : s.subject.name ∈ r'.registry.spots.map (·.subject.name) :=
      List.mem_map_of_mem hs
    rw [hnames] at hname
    rw [List.mem_singleton.mp hname]
    decide +kernel

end Reading

end RadiusDictionary
