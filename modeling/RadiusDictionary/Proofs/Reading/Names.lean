import RadiusDictionary.Proofs.Reading.Moves
import RadiusDictionary.Proofs.Registry.Declared

/-! # The names of a reading

A session notes the name of every attribute in lower case, and refuses a name that it has noted. The
notes and the registry are changed by different steps; `NamesAgree` says that they agree all the
same: every declaration is noted once, under the name that is its key. Every effect keeps this
(`namesAgree_effect`), so every reading has it (`reading_names`), and no declaration replaces
another. -/

namespace RadiusDictionary

namespace Session

/-- The names seen are those of the declarations in lower case, no two of which are the same, and
every declaration has its name as its key. -/
structure NamesAgree (s : Session) : Prop where
  perm : s.seenNames.Perm (s.registry.declared.map fun e => Text.lowercase e.2.name)
  nodup : s.seenNames.Nodup
  keyed : ∀ e ∈ s.registry.declared, e.1 = e.2.name

theorem NamesAgree.of_perm {s s' : Session} (hs : s.NamesAgree) (hseen : s'.seenNames = s.seenNames)
    (hperm : s'.registry.declared.Perm s.registry.declared) : s'.NamesAgree := by
  refine ⟨?_, ?_, fun e he => hs.keyed e (hperm.mem_iff.mp he)⟩
  · rw [hseen]
    exact hs.perm.trans (hperm.symm.map _)
  · rw [hseen]
    exact hs.nodup

theorem namesAgree_start : start.NamesAgree :=
  ⟨List.Perm.refl [], List.nodup_nil, fun _ he => nomatch he⟩

/-! ### Vendors that are declared -/

theorem contains_of_vendorFor {s : Session} {operands : List String} {name : String}
    (h : s.vendorFor operands = some name) : s.registry.vendors.contains name = true := by
  unfold vendorFor at h
  rcases Option.or_eq_some_iff.mp h with h | ⟨-, h⟩
  · exact List.find?_some h
  · exact (Option.filter_eq_some_iff.mp h).2

theorem contains_of_valueHome? {s : Session} {attributeName name : String}
    (h : s.valueHome? attributeName = some (some name)) :
    s.registry.vendors.contains name = true := by
  unfold valueHome? at h
  by_cases htop : s.registry.attributes.contains attributeName = true
  · rw [if_pos htop] at h; cases h
  rw [if_neg htop] at h
  obtain ⟨vendor, -, h⟩ := Option.bind_eq_some_iff.mp h
  by_cases hthere : (s.registry.attributesOf (some vendor)).contains attributeName = true
  · rw [if_pos hthere] at h
    cases h
    cases hv : s.registry.vendors.get? name with
    | none => rw [Registry.attributesOf_of_get?_eq_none hv] at hthere; cases hthere
    | some v => rw [OrderedMap.contains, hv]; rfl
  · rw [if_neg hthere] at h; cases h

/-! ### Declarations that replace nothing -/

/-- **The target of a declaration has no attribute of that name.** -/
theorem exists_target {s : Session} (hs : s.NamesAgree) {line : AttributeLine} {d : Declaration}
    (h : s.check line = .ok d) : ∃ target,
      s.registry.target? s.openTlv d.vendor = some target ∧ target.contains d.name = false := by
  obtain ⟨number, -, hd, hseen, hparent⟩ := check_eq_ok_iff.mp h
  have htarget : ∃ target, s.registry.target? s.openTlv d.vendor = some target := by
    cases htlv : s.openTlv with
    | none => exact ⟨_, rfl⟩
    | some parent =>
      have hcontains := (hparent parent htlv).2
      unfold OrderedMap.contains at hcontains
      obtain ⟨p, hp⟩ := Option.isSome_iff_exists.mp hcontains
      exact ⟨p.children.getD ∅, by simp [Registry.target?, hp]⟩
  obtain ⟨target, htarget⟩ := htarget
  refine ⟨target, htarget, OrderedMap.contains_eq_false_iff.mpr ?_⟩
  -- An attribute in the way would be declared under the same name, which would have been seen.
  cases ha : target.get? d.name with
  | none => rfl
  | some a =>
    have hmem := Registry.mem_declared_of_target?_get? htarget ha
    have hname : d.name = a.name := hs.keyed _ hmem
    have hname' : line.name = a.name := by rw [← hname, hd]; rfl
    have hnot := hasSeen_eq_false_iff.mp hseen
    rw [hname'] at hnot
    exact absurd (hs.perm.mem_iff.mpr (List.mem_map.mpr ⟨_, hmem, rfl⟩)) hnot

/-! ### Effects -/

/-- **Every effect keeps the agreement.** -/
theorem namesAgree_effect {s s' : Session} (h : Effect s s') (hs : s.NamesAgree) :
    s'.NamesAgree := by
  cases h with
  | nothing => exact hs
  | scope kind name => cases kind <;> exact hs.of_perm rfl (List.Perm.refl _)
  | vendor name number extra =>
    exact hs.of_perm rfl (by rw [Registry.declared_declareVendor])
  | @declaration line d h =>
    obtain ⟨target, htarget, hnew⟩ := exists_target hs h
    obtain ⟨number, -, hd, hseen, -⟩ := check_eq_ok_iff.mp h
    have hvendor : ∀ name, d.vendor = some name → s.registry.vendors.contains name = true := by
      intro name hname
      rw [hd] at hname
      exact contains_of_vendorFor hname
    have hperm := Registry.perm_declared_declare hvendor htarget hnew
    have hname : d.name = line.name := by rw [hd]; rfl
    refine ⟨?_, ?_, ?_⟩
    · refine (hs.perm.cons (Text.lowercase d.name)).trans ?_
      exact hperm.symm.map fun e : String × Declaration => Text.lowercase e.2.name
    · show (Text.lowercase d.name :: s.seenNames).Nodup
      rw [hname]
      exact List.nodup_cons.mpr ⟨hasSeen_eq_false_iff.mp hseen, hs.nodup⟩
    · intro e he
      rcases List.mem_cons.mp (hperm.mem_iff.mp he) with rfl | he
      · rfl
      · exact hs.keyed e he
  | @value attributeName vendor name number h =>
    refine hs.of_perm rfl (Registry.perm_declared_addValue ?_ attributeName name number)
    rintro vendorName rfl
    exact contains_of_valueHome? h

theorem namesAgree_run (moves : List Move) {s : Session} (hs : s.NamesAgree) :
    (s.run moves).NamesAgree :=
  run_induction namesAgree_effect (fun _ hs => hs.of_perm rfl (List.Perm.refl _))
    (fun hs => hs.of_perm rfl (List.Perm.refl _)) moves hs

end Session

namespace Reading

theorem namesAgree (r : Reading) : r.session.NamesAgree := by
  rw [r.session_eq_run]
  exact Session.namesAgree_run _ Session.namesAgree_start

/-- No two declarations have the same name up to case. -/
theorem nodup_declaredNames (r : Reading) :
    (r.registry.declared.map fun e => Text.lowercase e.2.name).Nodup :=
  r.namesAgree.perm.nodup_iff.mp r.namesAgree.nodup

/-- **The names of a reading.** Whatever is read, the names seen are those of the declarations in
lower case; no two declarations have the same name up to case, and each has its name as its key; so
there are as many attributes as names seen, and no declaration on the way replaced another. -/
theorem reading_names (r : Reading) :
    (∀ key, key ∈ r.session.seenNames ↔
      ∃ e ∈ r.registry.declared, Text.lowercase e.2.name = key) ∧
    (r.registry.declared.map fun e => Text.lowercase e.2.name).Nodup ∧
    (∀ e ∈ r.registry.declared, e.1 = e.2.name) ∧
    r.session.seenNames.Nodup ∧ r.registry.count = r.session.seenNames.length ∧
    ∀ front origin line back d,
      r.moves = front ++ .statement origin (.declareAttribute line) :: back →
      (Session.start.run front).check line = .ok d →
      ∃ target, (Session.start.run front).registry.target? (Session.start.run front).openTlv
        d.vendor = some target ∧ target.contains d.name = false := by
  have hr := r.namesAgree
  refine ⟨fun key => ?_, r.nodup_declaredNames, hr.keyed, hr.nodup, ?_, ?_⟩
  · rw [hr.perm.mem_iff, List.mem_map]; rfl
  · rw [Registry.count_eq_length, hr.perm.length_eq, List.length_map]; rfl
  · intro front origin line back d _ hcheck
    exact Session.exists_target (Session.namesAgree_run front Session.namesAgree_start) hcheck

/-- The first of two lines with one name finds no attribute in its way. -/
theorem reading_names_of_repeated_name :
    ∃ target, (Session.start.run []).registry.target? (Session.start.run []).openTlv none =
      some target ∧ target.contains "User-Name" = false :=
  (reading_names ⟨default,
      [.text "ATTRIBUTE User-Name 1 string\nATTRIBUTE USER-NAME 2 string\n"], false⟩).2.2.2.2.2
    [] ⟨"<string>", 1⟩ ⟨"User-Name", "1", "string", []⟩
    [.statement ⟨"<string>", 2⟩ (.declareAttribute ⟨"USER-NAME", "2", "string", []⟩)]
    ⟨"User-Name", 1, "string", none, none⟩ (by decide +kernel) rfl

end Reading

end RadiusDictionary
