import RadiusDictionary.Disk
import RadiusDictionary.Proofs.OrderedMap

/-! # Files that come and go on a disk

The program writes files and may remove them again. `Disk.Change touched kept d d'` says what is
certain of the disk `d'` that it leaves: folders stay where they are, and whatever file lies on `d'`
is one of the paths `kept` or lay on `d` and is none of the paths `touched`. Making folders, writing
a file and removing a file are such changes (`change_createFolder`, `change_writeFile`,
`Change.without`), and changes add up (`Change.trans`).

The paths matter only through the places to which they lead. Folders that stay are the reason why a
path leads to one place all the time (`LeadsTo.mono`, `LeadsTo.unique`), so that what is removed is
what was written. -/

namespace RadiusDictionary.Disk

variable {d d' d'' : Disk} {p : Path} {loc loc' : Location}

theorem entry?_put (d : Disk) (hloc : loc ≠ []) (entry : Entry) (l : Location) :
    entry? (d.put loc entry) l = if loc = l then some entry else d.entry? l := by
  cases l with
  | nil => rw [if_neg hloc]; rfl
  | cons name outer => exact OrderedMap.get?_insert d.entries loc (name :: outer) entry

theorem entry?_erase (d : Disk) (hloc : loc ≠ []) (l : Location) :
    entry? { d with entries := d.entries.erase loc } l =
      if loc = l then none else d.entry? l := by
  cases l with
  | nil => rw [if_neg hloc]; rfl
  | cons name outer => exact OrderedMap.get?_erase d.entries loc (name :: outer)

/-! ### Folders that stay -/

/-- Folders stay where they are, and relative paths start where they did. -/
structure KeepsFolders (d d' : Disk) : Prop where
  here_eq : d'.here = d.here
  folder : ∀ loc, d.entry? loc = some .folder → d'.entry? loc = some .folder

theorem KeepsFolders.refl (d : Disk) : KeepsFolders d d := ⟨rfl, fun _ h => h⟩

theorem KeepsFolders.trans (h : KeepsFolders d d') (h' : KeepsFolders d' d'') :
    KeepsFolders d d'' :=
  ⟨h'.here_eq.trans h.here_eq, fun loc hloc => h'.folder loc (h.folder loc hloc)⟩

/-- A step goes well after another if both do. -/
theorem bind_eq_ok_iff {ε α β : Type} {x : Except ε α} {f : α → Except ε β} {b : β} :
    x >>= f = .ok b ↔ ∃ a, x = .ok a ∧ f a = .ok b := by
  cases x <;> simp [bind, Except.bind]

theorem requireFolder_eq_ok_iff {u : Unit} :
    d.requireFolder loc = .ok u ↔ d.entry? loc = some .folder := by
  unfold requireFolder
  rcases d.entry? loc with _ | _ | _ <;> simp

theorem requireFolder_mono (h : KeepsFolders d d') {u : Unit}
    (hrequire : d.requireFolder loc = .ok u) : d'.requireFolder loc = .ok u :=
  requireFolder_eq_ok_iff.mpr (h.folder loc (requireFolder_eq_ok_iff.mp hrequire))

theorem enter_mono (h : KeepsFolders d d') {piece : String} (he : d.enter loc piece = .ok loc') :
    d'.enter loc piece = .ok loc' := by
  unfold enter at he ⊢
  obtain ⟨u, hrequire, he⟩ := bind_eq_ok_iff.mp he
  exact bind_eq_ok_iff.mpr ⟨u, requireFolder_mono h hrequire, he⟩

theorem foldlM_enter_mono (h : KeepsFolders d d') : ∀ {pieces : List String} {loc : Location},
    pieces.foldlM d.enter loc = .ok loc' → pieces.foldlM d'.enter loc = .ok loc'
  | [], _, he => he
  | piece :: pieces, loc, he => by
    rw [List.foldlM_cons] at he ⊢
    obtain ⟨next, hpiece, he⟩ := bind_eq_ok_iff.mp he
    exact bind_eq_ok_iff.mpr ⟨next, enter_mono h hpiece, foldlM_enter_mono h he⟩

theorem locate_mono (h : KeepsFolders d d') {start : Location} {outer : List String}
    {name : String} (he : d.locate start outer name = .ok loc) :
    d'.locate start outer name = .ok loc := by
  unfold locate at he ⊢
  obtain ⟨around, houter, he⟩ := bind_eq_ok_iff.mp he
  obtain ⟨u, hrequire, he⟩ := bind_eq_ok_iff.mp he
  refine bind_eq_ok_iff.mpr ⟨around, foldlM_enter_mono h houter, ?_⟩
  exact bind_eq_ok_iff.mpr ⟨u, requireFolder_mono h hrequire, he⟩

theorem ne_nil_of_locate {start : Location} {outer : List String} {name : String}
    (he : d.locate start outer name = .ok loc) : loc ≠ [] := by
  unfold locate at he
  obtain ⟨around, -, he⟩ := bind_eq_ok_iff.mp he
  obtain ⟨u, -, he⟩ := bind_eq_ok_iff.mp he
  by_cases hlong : isTooLong name = true
  · rw [if_pos hlong] at he; cases he
  · rw [if_neg hlong] at he; cases he; exact List.cons_ne_nil _ _

/-! ### The place of a file -/

/-- The path leads to a place for a file: all folders on the way are there. -/
def LeadsTo (d : Disk) (p : Path) (loc : Location) : Prop :=
  refusal? p = none ∧ ∃ name outer, p.names.reverse = name :: outer ∧ name ≠ ".." ∧
    d.locate (d.start p) outer name = .ok loc

/-- Whether a file lies where the path leads. -/
def holdsFile (d : Disk) (p : Path) : Bool :=
  match d.fileLocation p with
  | .ok loc => (d.entry? loc).isSome
  | .error _ => false

theorem LeadsTo.ne_nil (h : d.LeadsTo p loc) : loc ≠ [] := by
  obtain ⟨-, name, outer, -, -, hlocate⟩ := h
  exact ne_nil_of_locate hlocate

theorem LeadsTo.mono (hd : KeepsFolders d d') (h : d.LeadsTo p loc) : d'.LeadsTo p loc := by
  obtain ⟨hrefusal, name, outer, hnames, hname, hlocate⟩ := h
  refine ⟨hrefusal, name, outer, hnames, hname, ?_⟩
  have hstart : d'.start p = d.start p := by unfold start; rw [hd.here_eq]
  rw [hstart]
  exact locate_mono hd hlocate

theorem LeadsTo.unique (h : d.LeadsTo p loc) (h' : d.LeadsTo p loc') : loc = loc' := by
  obtain ⟨-, name, outer, hnames, -, hlocate⟩ := h
  obtain ⟨-, name', outer', hnames', -, hlocate'⟩ := h'
  rw [hnames] at hnames'
  cases hnames'
  rw [hlocate] at hlocate'
  cases hlocate'
  rfl

theorem fileLocation_eq_ok_iff :
    d.fileLocation p = .ok loc ↔ d.LeadsTo p loc ∧ d.entry? loc ≠ some .folder := by
  unfold fileLocation LeadsTo
  cases hrefusal : refusal? p with
  | some fault => simp
  | none =>
    rcases hnames : p.names.reverse with _ | ⟨name, outer⟩
    · simp
    constructor
    · intro h
      obtain ⟨there, hlocate, h⟩ := bind_eq_ok_iff.mp h
      by_cases hbad : (name = ".." || d.entry? there = some .folder) = true
      · rw [if_pos hbad] at h; cases h
      · rw [if_neg hbad] at h
        cases h
        simp only [Bool.or_eq_true, decide_eq_true_eq, not_or] at hbad
        exact ⟨⟨rfl, name, outer, rfl, hbad.1, hlocate⟩, hbad.2⟩
    · rintro ⟨⟨-, name', outer', hcons, hname, hlocate⟩, hfolder⟩
      cases hcons
      refine bind_eq_ok_iff.mpr ⟨loc, hlocate, ?_⟩
      rw [if_neg (by simp [hname, hfolder])]
      rfl

theorem holdsFile_eq_true_iff :
    d.holdsFile p = true ↔ ∃ loc content, d.LeadsTo p loc ∧ d.entry? loc = some (.file content) := by
  unfold holdsFile
  cases hloc : d.fileLocation p with
  | error fault =>
    simp only [Bool.false_eq_true, false_iff]
    rintro ⟨loc, content, hleads, hentry⟩
    rw [fileLocation_eq_ok_iff.mpr ⟨hleads, by rw [hentry]; nofun⟩] at hloc
    cases hloc
  | ok loc =>
    obtain ⟨hleads, hfolder⟩ := fileLocation_eq_ok_iff.mp hloc
    constructor
    · intro hsome
      obtain ⟨_ | content, hentry⟩ := Option.isSome_iff_exists.mp hsome
      · exact absurd hentry hfolder
      · exact ⟨loc, content, hleads, hentry⟩
    · rintro ⟨loc', content, hleads', hentry⟩
      show (d.entry? loc).isSome = true
      rw [hleads.unique hleads', hentry]
      rfl

/-! ### Changes -/

/-- What is certain of a disk on which files were written and removed: `touched` are the paths of
all files that were written, `kept` those of files that may lie there still. -/
structure Change (touched kept : List Path) (d d' : Disk) : Prop extends KeepsFolders d d' where
  reached : ∀ p ∈ touched, ∃ loc, d'.LeadsTo p loc
  file : ∀ loc content, d'.entry? loc = some (.file content) →
    (∃ p ∈ kept, d'.LeadsTo p loc) ∨
      (d.entry? loc = some (.file content) ∧ ∀ p ∈ touched, ¬ d'.LeadsTo p loc)

/-- A path that was reached leads to no other place later. -/
theorem not_leadsTo_of_keepsFolders (h : KeepsFolders d d') (hreached : ∃ loc, d.LeadsTo p loc)
    (hnot : ¬ d.LeadsTo p loc) : ¬ d'.LeadsTo p loc := by
  obtain ⟨there, hthere⟩ := hreached
  intro hleads
  rw [hleads.unique (hthere.mono h)] at hnot
  exact hnot hthere

theorem Change.refl (d : Disk) : Change [] [] d d :=
  ⟨.refl d, nofun, fun _ _ h => Or.inr ⟨h, nofun⟩⟩

/-- **Changes add up.** -/
theorem Change.trans {touched kept touched' kept' : List Path} (h : Change touched kept d d')
    (h' : Change touched' kept' d' d'') :
    Change (touched ++ touched') (kept ++ kept') d d'' := by
  refine ⟨h.toKeepsFolders.trans h'.toKeepsFolders, ?_, ?_⟩
  · intro p hp
    rcases List.mem_append.mp hp with hp | hp
    · obtain ⟨loc, hloc⟩ := h.reached p hp
      exact ⟨loc, hloc.mono h'.toKeepsFolders⟩
    · exact h'.reached p hp
  · intro loc content hentry
    rcases h'.file loc content hentry with ⟨p, hp, hleads⟩ | ⟨hentry', hnot'⟩
    · exact Or.inl ⟨p, List.mem_append_right _ hp, hleads⟩
    rcases h.file loc content hentry' with ⟨p, hp, hleads⟩ | ⟨hold, hnot⟩
    · exact Or.inl ⟨p, List.mem_append_left _ hp, hleads.mono h'.toKeepsFolders⟩
    refine Or.inr ⟨hold, fun p hp => ?_⟩
    rcases List.mem_append.mp hp with hp | hp
    · exact not_leadsTo_of_keepsFolders h'.toKeepsFolders (h.reached p hp) (hnot p hp)
    · exact hnot' p hp

/-- A change without files that are kept leaves no file of its own. -/
theorem Change.holdsFile_eq_false {touched : List Path} (h : Change touched [] d d')
    (hp : p ∈ touched) : d'.holdsFile p = false := by
  rw [← Bool.not_eq_true, holdsFile_eq_true_iff]
  rintro ⟨loc, content, hleads, hentry⟩
  rcases h.file loc content hentry with ⟨q, hq, -⟩ | ⟨-, hnot⟩
  · cases hq
  · exact hnot p hp hleads

/-! ### Operations -/

theorem change_put_folder (hloc : loc ≠ []) : Change [] [] d (d.put loc .folder) := by
  refine ⟨⟨rfl, fun l hl => ?_⟩, nofun, fun l content hl => Or.inr ⟨?_, nofun⟩⟩
  · rw [entry?_put d hloc]
    by_cases h : loc = l
    · rw [if_pos h]
    · rw [if_neg h]; exact hl
  · rw [entry?_put d hloc] at hl
    by_cases h : loc = l
    · rw [if_pos h] at hl; cases hl
    · rw [if_neg h] at hl; exact hl

theorem change_makeFolder {start : Location} {names : List String}
    (h : d.makeFolder start names = .ok d') : Change [] [] d d' := by
  rcases names with _ | ⟨name, outer⟩
  · cases h
  unfold makeFolder at h
  obtain ⟨loc, hlocate, h⟩ := bind_eq_ok_iff.mp h
  by_cases hthere : (name = ".." || (d.entry? loc).isSome) = true
  · rw [if_pos hthere] at h; cases h
  · rw [if_neg hthere] at h
    cases h
    exact change_put_folder (ne_nil_of_locate hlocate)

theorem change_makeFolders (start : Location) : ∀ names : List String,
    Change [] [] d (d.makeFolders start names).1
  | [] => .refl d
  | name :: outer => by
    have houter := change_makeFolders start outer
    unfold makeFolders
    cases hmade : d.makeFolder start (name :: outer) with
    | ok made => exact change_makeFolder hmade
    | error fault =>
      cases fault with
      | notFound =>
        rcases haround : d.makeFolders start outer with ⟨around, _ | fault⟩
        · rw [haround] at houter
          simp only
          cases hlast : around.makeFolder start (name :: outer) with
          | ok made => exact houter.trans (change_makeFolder hlast)
          | error fault => exact houter
        · rw [haround] at houter
          exact houter
      | _ => exact .refl d

theorem change_createFolder (d : Disk) (p : Path) : Change [] [] d (d.createFolder p).1 := by
  unfold createFolder
  cases refusal? p with
  | some fault => exact .refl d
  | none => exact change_makeFolders (d.start p) p.names.reverse

theorem change_writeFile {value : String} (h : d.writeFile p value = .ok d') :
    Change [p] [p] d d' := by
  unfold writeFile at h
  cases hloc : d.fileLocation p with
  | error fault => rw [hloc] at h; cases h
  | ok loc =>
    rw [hloc] at h
    cases h
    obtain ⟨hleads, hfolder⟩ := fileLocation_eq_ok_iff.mp hloc
    have hkeeps : KeepsFolders d (d.put loc (.file (.text value))) := by
      refine ⟨rfl, fun l hl => ?_⟩
      rw [entry?_put d hleads.ne_nil, if_neg]
      · exact hl
      · rintro rfl
        exact hfolder hl
    have hleads' := hleads.mono hkeeps
    refine ⟨hkeeps, fun q hq => ?_, fun l content hl => ?_⟩
    · rw [List.mem_singleton.mp hq]
      exact ⟨loc, hleads'⟩
    · by_cases h : loc = l
      · exact Or.inl ⟨p, List.mem_singleton_self p, h ▸ hleads'⟩
      · rw [entry?_put d hleads.ne_nil, if_neg h] at hl
        refine Or.inr ⟨hl, fun q hq hq' => h ?_⟩
        rw [List.mem_singleton.mp hq] at hq'
        exact hleads'.unique hq'

/-- What is left when the removal of a file was tried. -/
def without (d : Disk) (p : Path) : Disk :=
  match d.removeFile p with
  | .ok d' => d'
  | .error _ => d

/-- The removal changes nothing but the place to which the path leads, and leaves no file there. -/
theorem without_spec (hleads : d.LeadsTo p loc) : KeepsFolders d (d.without p) ∧
    ∀ l content, entry? (d.without p) l = some (.file content) →
      loc ≠ l ∧ d.entry? l = some (.file content) := by
  unfold without removeFile
  cases hloc : d.fileLocation p with
  | error fault =>
    refine ⟨.refl d, fun l content hl => ⟨?_, hl⟩⟩
    rintro rfl
    rw [fileLocation_eq_ok_iff.mpr ⟨hleads, by rw [hl]; nofun⟩] at hloc
    cases hloc
  | ok there =>
    obtain ⟨hthere, hfolder⟩ := fileLocation_eq_ok_iff.mp hloc
    cases hleads.unique hthere
    cases hentry : d.entry? loc with
    | none =>
      simp only [hentry, Option.isSome_none, Bool.false_eq_true, if_false]
      refine ⟨.refl d, fun l content hl => ⟨?_, hl⟩⟩
      rintro rfl
      rw [hentry] at hl; cases hl
    | some entry =>
      simp only [hentry, Option.isSome_some, if_true]
      refine ⟨⟨rfl, fun l hl => ?_⟩, fun l content hl => ?_⟩
      · rw [entry?_erase d hleads.ne_nil, if_neg]
        · exact hl
        · rintro rfl
          exact hfolder hl
      · rw [entry?_erase d hleads.ne_nil] at hl
        by_cases h : loc = l
        · rw [if_pos h] at hl; cases hl
        · rw [if_neg h] at hl
          exact ⟨h, hl⟩

/-- **What was written and is removed is kept no longer.** -/
theorem Change.without {touched kept : List Path} (h : Change touched (p :: kept) d d')
    (hp : p ∈ touched) : Change touched kept d (d'.without p) := by
  obtain ⟨there, hthere⟩ := h.reached p hp
  obtain ⟨hkeeps, hfile⟩ := without_spec hthere
  refine ⟨h.toKeepsFolders.trans hkeeps, fun q hq => ?_, fun l content hl => ?_⟩
  · obtain ⟨loc, hloc⟩ := h.reached q hq
    exact ⟨loc, hloc.mono hkeeps⟩
  · obtain ⟨hne, hl'⟩ := hfile l content hl
    rcases h.file l content hl' with ⟨q, hq, hleads⟩ | ⟨hold, hnot⟩
    · rcases List.mem_cons.mp hq with rfl | hq
      · exact absurd (hthere.unique hleads) hne
      · exact Or.inl ⟨q, hq, hleads.mono hkeeps⟩
    · exact Or.inr ⟨hold, fun q hq =>
        not_leadsTo_of_keepsFolders hkeeps (h.reached q hq) (hnot q hq)⟩

/-- Removing all that is kept leaves no file of the change's own. -/
theorem Change.foldl_without {touched : List Path} : ∀ {kept : List Path} {d' : Disk},
    Change touched kept d d' → kept ⊆ touched →
      Change touched [] d (kept.foldl Disk.without d')
  | [], _, h, _ => h
  | _ :: _, _, h, hsub => by
    have hrest := foldl_without (h.without (hsub List.mem_cons_self)) fun _ hq =>
      hsub (List.mem_cons_of_mem _ hq)
    exact hrest

end RadiusDictionary.Disk
