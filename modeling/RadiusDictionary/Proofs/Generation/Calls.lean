import RadiusDictionary.Proofs.Generation.Enlisted

/-! # The attributes that a run reaches

`attributeTree` is called for the attributes of a loader and, once the path of an attribute is
claimed, for those nested in it. `calls` are the calls of a whole run in their order, each with the
generation that it finds; the log has one record for each of them. A nested attribute is looked up
by the name of the one around it. The number of that one was noted when it was reached, and it may
be replaced since but not removed, whatever failed or was taken back: `Proceeds` says what calls
leave behind, a loader makes no call, and so the lookup never fails in a run (`parents_known`). No
registry is excluded, however deep its attributes are nested and whatever they are called. -/

namespace RadiusDictionary

/-- The name of the attribute that is reached, if the event is of that kind. -/
def GenerationEvent.reached? : GenerationEvent → Option String
  | attributeReached name => some name
  | _ => none

/-- The error is another one than that no number is known for the attribute around. -/
def GenerationError.IsResolved (e : GenerationError) : Prop :=
  ∀ attributeName parent, e ≠ .unresolvedParent attributeName parent

theorem GenerationError.IsResolved.of_isFile {e : GenerationError} (h : e.isFile = true) :
    e.IsResolved := by
  rintro attributeName parent rfl
  cases h

/-- A number is known for the attribute of a name. -/
def Generation.Knows (g : Generation) (name : String) : Prop :=
  ∃ number, g.numbers.get? (sanitize name) = some number

/-- A number is known for the attribute around the place, if there is one. -/
def Place.IsKnown (place : Place) (g : Generation) : Prop :=
  ∀ parent, place.parent = some parent → g.Knows parent

/-- A call of `attributeTree`. -/
structure Call where
  scope : Scope
  place : Place
  subject : Attribute
  /-- The generation that the call finds. -/
  before : Generation

namespace Generation

/-- The names of the attributes that the log has as reached. -/
def reached (g : Generation) : List String := g.events.toList.filterMap GenerationEvent.reached?

mutual

/-- The calls that generating an attribute makes, its own in front. -/
def treeCalls (t : Target) (scope : Scope) (place : Place) : Attribute → Generation → List Call
  | ⟨d, values, children⟩, g =>
    let a : Attribute := ⟨d, values, children⟩
    ⟨scope, place, a, g⟩ ::
      match (g.reach a).idsAt scope place a with
      | .error _ => []
      | .ok _ =>
        match ((g.reach a).setNumber d).claim? (place.file d) with
        | none => []
        | some g =>
          match children with
          | none => []
          | some ⟨entries⟩ => nestedCalls t scope place d entries g

/-- The calls that generating the attributes nested in `d` makes. -/
def nestedCalls (t : Target) (scope : Scope) (place : Place) (d : Declaration) :
    List (String × Attribute) → Generation → List Call
  | [], _ => []
  | (_, child) :: rest, g =>
    let place' := place.below d child.toDeclaration
    treeCalls t scope place' child g ++
      nestedCalls t scope place d rest (attributeTree t scope place' child g).1

end

/-- The calls that generating the attributes of a loader makes. -/
def scopeCalls (t : Target) (scope : Scope) : List Attribute → Generation → List Call
  | [], _ => []
  | a :: rest, g =>
    treeCalls t scope (.top scope a.toDeclaration) a g ++
      scopeCalls t scope rest (attributeTree t scope (.top scope a.toDeclaration) a g).1

/-- The calls that running plans makes. -/
def planCalls (t : Target) : List Plan → Generation → List Call
  | [], _ => []
  | p :: rest, g => scopeCalls t p.scope p.attributes g ++ planCalls t rest (p.run t g)

/-- The calls that generating a registry makes. -/
def calls (t : Target) (r : Registry) (disk : Disk) : List Call :=
  planCalls t (plans t r) (.start disk)

section Ways

variable {t : Target} {scope : Scope} {place : Place} {a : Attribute} {g g' : Generation}
  {ids : TypeIds}

theorem treeCalls_of_unresolved {e : GenerationError}
    (h : (g.reach a).idsAt scope place a = .error e) :
    treeCalls t scope place a g = [⟨scope, place, a, g⟩] := by
  obtain ⟨d, values, children⟩ := a
  unfold treeCalls
  simp only [h]

theorem treeCalls_of_taken (hids : (g.reach a).idsAt scope place a = .ok ids)
    (h : ((g.reach a).setNumber a.toDeclaration).claim? (place.file a.toDeclaration) = none) :
    treeCalls t scope place a g = [⟨scope, place, a, g⟩] := by
  obtain ⟨d, values, children⟩ := a
  unfold treeCalls
  simp only [hids, h]

theorem treeCalls_of_claimed (hids : (g.reach a).idsAt scope place a = .ok ids)
    (h : ((g.reach a).setNumber a.toDeclaration).claim? (place.file a.toDeclaration) = some g') :
    treeCalls t scope place a g =
      ⟨scope, place, a, g⟩ :: nestedCalls t scope place a.toDeclaration a.nested g' := by
  obtain ⟨d, values, _ | ⟨⟨entries⟩⟩⟩ := a
  · unfold treeCalls
    simp only [hids, h]
    rfl
  · unfold treeCalls
    simp only [hids, h]
    rfl

/-- What identifies an attribute is found if a number is known for the attribute around. -/
theorem exists_idsAt (h : place.IsKnown g) (scope : Scope) (a : Attribute) :
    ∃ ids, g.idsAt scope place a = .ok ids := by
  unfold idsAt
  cases hparent : place.parent with
  | none =>
    dsimp only
    split
    · exact ⟨_, rfl⟩
    · exact ⟨_, rfl⟩
  | some parent =>
    obtain ⟨number, hnumber⟩ := h parent hparent
    dsimp only
    rw [hnumber]
    exact ⟨_, rfl⟩

end Ways

/-! ### What calls leave behind -/

/-- A part of a run makes the calls: the log has them, and each finds a number for the attribute
around its own. Known numbers stay known, and no lookup fails. -/
structure Proceeds (made : List Call) (g g' : Generation) : Prop where
  reached : g'.reached = g.reached ++ made.map (·.subject.name)
  known : ∀ name, g.Knows name → g'.Knows name
  found : ∀ c ∈ made, c.place.IsKnown c.before
  resolved : ∀ x ∈ g'.failures, x ∈ g.failures ∨ x.error.IsResolved

theorem reached_note (g : Generation) (event : GenerationEvent) :
    (g.note event).reached = g.reached ++ event.reached?.toList := by
  unfold reached note
  rw [Array.toList_push, List.filterMap_append]
  cases h : event.reached? with
  | none => rw [List.filterMap_cons_none h]; rfl
  | some name => rw [List.filterMap_cons_some h]; rfl

namespace Proceeds

variable {made made' : List Call} {g g' g'' : Generation} {t : Target} {path : Path}
  {artifact : Artifact}

theorem trans (h : Proceeds made g g') (h' : Proceeds made' g' g'') :
    Proceeds (made ++ made') g g'' where
  reached := by rw [h'.reached, h.reached, List.map_append, List.append_assoc]
  known name hname := h'.known name (h.known name hname)
  found := List.forall_mem_append.mpr ⟨h.found, h'.found⟩
  resolved x hx := by
    rcases h'.resolved x hx with hx | hx
    · exact h.resolved x hx
    · exact Or.inr hx

theorem trans_nil (h : Proceeds made g g') (h' : Proceeds [] g' g'') : Proceeds made g g'' := by
  have happend := h.trans h'
  rwa [List.append_nil] at happend

/-- Nothing is reached, noted or recorded. -/
theorem of_eq (hevents : g'.events = g.events) (hnumbers : g'.numbers = g.numbers)
    (hfailures : g'.failures = g.failures) : Proceeds [] g g' where
  reached := by rw [List.map_nil, List.append_nil, Generation.reached, hevents, Generation.reached]
  known name hname := by rwa [Knows, hnumbers]
  found := List.forall_mem_nil _
  resolved x hx := Or.inl (hfailures ▸ hx)

/-- Other events make no call. -/
theorem note {event : GenerationEvent} (h : event.reached? = none) (g : Generation) :
    Proceeds [] g (g.note event) where
  reached := by rw [reached_note, h]; rfl
  known _ hname := hname
  found := List.forall_mem_nil _
  resolved _ hx := Or.inl hx

/-- The call for an attribute is on the log first. -/
theorem reach {place : Place} (h : place.IsKnown g) (scope : Scope) (a : Attribute) :
    Proceeds [⟨scope, place, a, g⟩] g (g.reach a) where
  reached := reached_note g _
  known _ hname := hname
  found := List.forall_mem_singleton.mpr h
  resolved _ hx := Or.inl hx

/-- A number that is noted replaces one at most. -/
theorem setNumber (g : Generation) (d : Declaration) : Proceeds [] g (g.setNumber d) where
  reached := (List.append_nil _).symm
  known name := by
    rintro ⟨number, hnumber⟩
    unfold Knows Generation.setNumber
    rw [OrderedMap.get?_insert]
    split
    · exact ⟨_, rfl⟩
    · exact ⟨number, hnumber⟩
  found := List.forall_mem_nil _
  resolved _ hx := Or.inl hx

theorem fail {e : GenerationError} (h : e.IsResolved) (name : String) (g : Generation) :
    Proceeds [] g (g.fail name e) := by
  have hrecorded : Proceeds [] g { g with failures := g.failures ++ [⟨name, e⟩] } := by
    refine ⟨(List.append_nil _).symm, fun _ hname => hname, List.forall_mem_nil _, fun x hx => ?_⟩
    refine (List.mem_append.mp hx).imp_right fun hlast => ?_
    rw [List.mem_singleton.mp hlast]
    exact h
  exact hrecorded.trans (note rfl _)

theorem alreadyGenerated (name : String) (path : Path) (g : Generation) :
    Proceeds [] g (g.fail name (.alreadyGenerated path)) := by
  refine fail ?_ name g
  rintro attributeName parent ⟨⟩

theorem giveUp (g : Generation) (a : Attribute) (path : Path) :
    Proceeds [] g (g.giveUp a path) := by
  unfold Generation.giveUp
  dsimp only
  split
  · exact (note rfl g).trans (alreadyGenerated a.name path _)
  · exact alreadyGenerated a.name path g

theorem claim? (h : g.claim? path = some g') : Proceeds [] g g' := by
  obtain ⟨-, rfl⟩ := claim?_eq_some h
  exact of_eq rfl rfl rfl

theorem write (h : g.write t path artifact = (g', none)) : Proceeds [] g g' := by
  obtain ⟨disk, -, rfl⟩ := write_eq_none h
  exact of_eq rfl rfl rfl

/-- What cannot be written fails for another reason. -/
theorem write_some {e : GenerationError} (h : g.write t path artifact = (g', some e))
    (name : String) : Proceeds [] g (g'.fail name e) := by
  have hresolved := GenerationError.IsResolved.of_isFile (isFile_of_write h)
  obtain ⟨disk, -, rfl⟩ := write_eq_some h
  have hdisk : Proceeds [] g { g with disk } := of_eq rfl rfl rfl
  exact hdisk.trans (fail hresolved name _)

theorem remove (g : Generation) (file : WrittenFile) : Proceeds [] g (g.remove file) := by
  unfold Generation.remove
  dsimp only
  split
  · exact (note rfl g).trans (of_eq rfl rfl rfl)
  · exact (note rfl g).trans (note rfl _)

theorem foldl_remove : ∀ (files : List WrittenFile) (g : Generation),
    Proceeds [] g (files.foldl Generation.remove g)
  | [], _ => of_eq rfl rfl rfl
  | file :: rest, g => by
    rw [List.foldl_cons]
    exact (remove g file).trans (foldl_remove rest _)

/-- Files are taken back, numbers are not. -/
theorem discardFrom (g : Generation) (mark : Nat) : Proceeds [] g (g.discardFrom mark) := by
  have hrecord : Proceeds [] g { g with written := g.written.take mark } := of_eq rfl rfl rfl
  exact hrecord.trans (foldl_remove _ _)

theorem close (t : Target) (scope : Scope) (place : Place) (a : Attribute) (ids : TypeIds)
    (mark : Nat) (nested : NestedModules) (g : Generation) :
    Proceeds [] g (Generation.close t scope place a ids mark nested g).1 := by
  rcases hwrite : g.write t (place.file a.toDeclaration) (ownArtifact scope place a ids nested)
    with ⟨after, _ | e⟩
  · rw [close_of_write_eq_none hwrite]
    exact write hwrite
  · rw [close_of_write_eq_some hwrite]
    exact (write_some hwrite a.name).trans (discardFrom _ mark)

theorem writeLoader (t : Target) (folder : Path) (m : LoaderModule) (g : Generation) :
    Proceeds [] g (g.writeLoader t folder m) := by
  have hway := loaderWay t folder m g
  generalize g.writeLoader t folder m = g'', loaderWrites t folder m g = files at hway ⊢
  cases hway with
  | taken hclaim => exact alreadyGenerated m.ns _ g
  | failed hclaim hwrite => exact (claim? hclaim).trans (write_some hwrite m.ns)
  | written hclaim hwrite => exact (claim? hclaim).trans (write hwrite)

end Proceeds

/-! ### Whole runs -/

theorem knows_setNumber (g : Generation) (d : Declaration) : (g.setNumber d).Knows d.name := by
  refine ⟨d.number, ?_⟩
  unfold setNumber
  rw [OrderedMap.get?_insert, if_pos rfl]

/-- An attribute that is reached where a number is known for the one around has its own number noted
before those nested in it are reached. -/
theorem treeInvariant_proceeds (t : Target) (scope : Scope) : TreeInvariant t scope
    (fun place a g r => place.IsKnown g → Proceeds (treeCalls t scope place a g) g r.1)
    (fun place d entries g r => g.Knows d.name →
      Proceeds (nestedCalls t scope place d entries g) g r.1) where
  unresolved {place a g e} h hplace := by
    have hreach : place.IsKnown (g.reach a) := hplace
    obtain ⟨ids, hids⟩ := exists_idsAt hreach scope a
    rw [hids] at h
    cases h
  taken {place a g ids} hids h hplace := by
    rw [treeCalls_of_taken hids h]
    exact ((Proceeds.reach hplace scope a).trans_nil (.setNumber _ _)).trans_nil (.giveUp _ _ _)
  claimed {place a g g' ids} hids h hnested hplace := by
    rw [treeCalls_of_claimed hids h]
    have hclaim := Proceeds.claim? h
    have hown := ((Proceeds.reach hplace scope a).trans_nil (.setNumber _ _)).trans_nil hclaim
    -- What was noted just now is what the nested attributes look up.
    have hrest := hnested (hclaim.known _ (knows_setNumber _ _))
    exact (hown.trans hrest).trans_nil (.close t scope place a ids g'.written.length _ _)
  nil _ := .of_eq rfl rfl rfl
  cons {place d key child rest g} hchild hrest hd := by
    have hplace : (place.below d child.toDeclaration).IsKnown g := by
      rintro parent ⟨⟩
      exact hd
    exact (hchild hplace).trans (hrest ((hchild hplace).known _ hd))

theorem proceeds_attributeTrees (t : Target) (scope : Scope) : ∀ (attributes : List Attribute)
    (g : Generation), Proceeds (scopeCalls t scope attributes g) g
      (attributeTrees t scope attributes g).1
  | [], _ => .of_eq rfl rfl rfl
  | a :: rest, g =>
    ((treeInvariant_proceeds t scope).attributeTree a (.top scope a.toDeclaration) g
      (fun _ => nofun)).trans (proceeds_attributeTrees t scope rest _)

theorem proceeds_runPlans (t : Target) : ∀ (ps : List Plan) (g : Generation),
    Proceeds (planCalls t ps g) g (runPlans t ps g)
  | [], _ => .of_eq rfl rfl rfl
  | p :: rest, g => by
    have hrun := (proceeds_attributeTrees t p.scope p.attributes g).trans_nil
      (.writeLoader t p.scope.folder (p.loader (p.registrations t g)) _)
    exact hrun.trans (proceeds_runPlans t rest (p.run t g))

/-- The log has every call, by the name of its attribute. -/
theorem reached_generate (t : Target) (r : Registry) (disk : Disk) :
    (generate t r disk).reached = (calls t r disk).map (·.subject.name) := by
  rw [generate_eq, reached_note, (proceeds_runPlans t (plans t r) (.start disk)).reached]
  exact List.append_nil _

/-- **The attribute around is always known.** Whatever a registry holds and whatever the disk
refuses, the log of a run has as reached the attributes for which there was a call, in their order;
every call for a nested attribute finds a number under the sanitized name of the attribute around;
and no failure of the run is that there was none. -/
theorem parents_known (t : Target) (r : Registry) (disk : Disk) :
    (generate t r disk).reached = (calls t r disk).map (·.subject.name) ∧
    (∀ c ∈ calls t r disk, ∀ parent, c.place.parent = some parent →
      ∃ number, c.before.numbers.get? (sanitize parent) = some number) ∧
    ∀ failure ∈ (generate t r disk).failures, ∀ attributeName parent,
      failure.error ≠ .unresolvedParent attributeName parent := by
  have hplans := proceeds_runPlans t (plans t r) (.start disk)
  refine ⟨reached_generate t r disk, hplans.found, fun failure hfailure => ?_⟩
  rw [generate_eq] at hfailure
  rcases hplans.resolved failure hfailure with hstart | hresolved
  · cases hstart
  · exact hresolved

/-- The attribute `A_B` with `C` in it. -/
def deepChild : Attribute :=
  Attribute.addChild (Declaration.toAttribute ⟨"A_B", 2, "tlv", none, none⟩) "C"
    (Declaration.toAttribute ⟨"C", 3, "string", none, none⟩)

/-- A registry that no dictionary has: `C` is nested in `A_B`, and that one in `A-B`. -/
def deepRegistry : Registry :=
  ⟨⟨[("A-B", Attribute.addChild (Declaration.toAttribute ⟨"A-B", 1, "tlv", none, none⟩) "A_B"
    deepChild)]⟩, ∅⟩

/-- The call for `C` finds a number for `A_B`. -/
theorem parents_known_of_deep : ∃ c ∈ calls default deepRegistry .empty,
    c.subject.name = "C" ∧ c.place.parent = some "A_B" ∧
    ∃ number, c.before.numbers.get? (sanitize "A_B") = some number := by
  have hmem : ("C", some "A_B") ∈ (calls default deepRegistry .empty).map fun c =>
      (c.subject.name, c.place.parent) := by
    decide +kernel
  obtain ⟨c, hc, heq⟩ := List.mem_map.mp hmem
  obtain ⟨hname, hparent⟩ := Prod.mk.inj heq
  exact ⟨c, hc, hname, hparent, (parents_known default deepRegistry .empty).2.1 c hc _ hparent⟩

end Generation

end RadiusDictionary
