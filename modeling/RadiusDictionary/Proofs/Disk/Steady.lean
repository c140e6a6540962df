import RadiusDictionary.Proofs.Disk.Folders

/-! # What a run leaves as it was

A run makes folders and writes and removes files, all below one folder. Whether any of this succeeds
depends on what lies on the disk, but not on what the run does to it (`Disk.Steady`): surveys of the
ways to the files find the same obstacles, and the same files cannot be written as folders are in
their places. So on two disks that went different ways from the same one, the same things succeed,
and the same is done to both (`Disk.Abreast`): making the folder of a file
(`Abreast.createFolder`), writing it (`Abreast.writeFile`) and removing it (`Abreast.without`). -/

namespace RadiusDictionary

/-- Two errors of one operation on one path. The fault is the same, too, unless a folder could not
be made and the faults of that are not `exact`. -/
structure FileError.Alike (exact : Prop) (e e' : FileError) : Prop where
  action : e.action = e'.action
  path : e.path = e'.path
  fault : e.action ≠ .createFolder ∨ exact → e.fault = e'.fault

theorem FileError.Alike.refl (exact : Prop) (e : FileError) : e.Alike exact e :=
  ⟨rfl, rfl, fun _ => rfl⟩

theorem FileError.Alike.mono {exact exact' : Prop} (himp : exact' → exact) {e e' : FileError}
    (h : e.Alike exact e') : e.Alike exact' e' :=
  ⟨h.action, h.path, fun hor => h.fault (hor.imp_right himp)⟩

theorem FileError.Alike.eq {exact : Prop} {e e' : FileError} (h : e.Alike exact e')
    (hexact : exact) : e = e' := by
  obtain ⟨action, path, fault⟩ := e
  obtain ⟨action', path', fault'⟩ := e'
  obtain ⟨rfl, rfl, hfault⟩ := h
  obtain rfl := hfault (Or.inr hexact)
  rfl

namespace Disk

open RadiusDictionary.Path (Bare LeadToFile)

/-- Where a path leads if all that is missing on the way is made. -/
def root (o : Disk) (base : Path) : Location := base.names.foldl next (o.start base)

/-- What a survey finds on the way to a folder, by the names from another one. -/
def way (o : Disk) (base : Path) (outer : List String) : List Location × Option Obstacle :=
  o.survey (o.start base) (base.names ++ outer.reverse)

/-- The location of a folder some names further down, or of that folder itself. -/
def Inner (root loc : Location) : Prop := ∃ outer, (∀ s ∈ outer, Bare s) ∧ loc = outer ++ root

/-- A disk in the course of a run that goes on below a folder, and the disk `o` with which the run
started. Files are where they were, but for those of the run. So are folders, but for those on the
way. -/
structure Steady (base : Path) (o d : Disk) : Prop where
  tree : d.IsTree
  here_eq : d.here = o.here
  survey_eq : d.survey (o.start base) base.names = o.survey (o.start base) base.names
  isFile_eq : ∀ loc, Inner (o.root base) loc → d.isFile loc = o.isFile loc
  folder_iff : ∀ names, LeadToFile names → names ++ o.root base ∉ (o.way base []).1 →
    (d.entry? (names ++ o.root base) = some .folder ↔
      o.entry? (names ++ o.root base) = some .folder)

/-- A file can be put in a place: nothing keeps the folder from being made, and no folder is in the
place of the file. -/
structure Vacant (base : Path) (o : Disk) (names : List String) : Prop where
  clear : (o.way base []).2 = none
  aside : names ++ o.root base ∉ (o.way base []).1
  noFolder : o.entry? (names ++ o.root base) ≠ some .folder

variable {base : Path} {o d d' d₁ d₁' : Disk} {name : String} {names outer : List String}

/-! ### The way to a folder -/

theorem way_nil (o : Disk) (base : Path) :
    o.way base [] = o.survey (o.start base) base.names := by
  rw [way, List.reverse_nil, List.append_nil]

theorem Inner.self (root : Location) : Inner root root := ⟨[], List.forall_mem_nil _, rfl⟩

theorem Inner.next {root : Location} (houter : ∀ s ∈ outer, Bare s) :
    ∀ l, Inner root l → ∀ n ∈ outer.reverse, Inner root (next l n) := by
  rintro l ⟨front, hfront, rfl⟩ n hn
  have hbare := houter n (List.mem_reverse.mp hn)
  exact ⟨n :: front, List.forall_mem_cons.mpr ⟨hbare, hfront⟩, next_of_ne hbare.proper.up⟩

/-- No file of a run is in the place of a folder. -/
theorem Inner.ne_file {root loc : Location} (h : Inner root loc) (hnames : LeadToFile names) :
    loc ≠ names ++ root := by
  obtain ⟨outer, houter, rfl⟩ := h
  intro heq
  rw [List.append_cancel_right heq] at houter
  exact hnames.not_bare houter

theorem foldl_next {root : Location} : ∀ {outer : List String}, (∀ s ∈ outer, Bare s) →
    outer.reverse.foldl next root = outer ++ root
  | [], _ => rfl
  | name :: outer, hbare => by
    obtain ⟨hname, houter⟩ := List.forall_mem_cons.mp hbare
    rw [List.reverse_cons, List.foldl_append, foldl_next houter]
    exact next_of_ne hname.proper.up

/-- What is surveyed on the way to a folder lies on the way to the outermost one, or below it. -/
theorem mem_way (houter : ∀ s ∈ outer, Bare s) {loc : Location}
    (hloc : loc ∈ (o.way base outer).1) :
    loc ∈ (o.way base []).1 ∨ Inner (o.root base) loc := by
  unfold way at hloc
  rw [way_nil]
  cases hfound : (o.survey (o.start base) base.names).2 with
  | some obstacle =>
    rw [survey_append_of_some hfound] at hloc
    exact Or.inl hloc
  | none =>
    rw [survey_append_of_none hfound] at hloc
    refine (List.mem_append.mp hloc).imp_right fun hloc => ?_
    exact survey_subset (Inner.self _) (Inner.next houter) loc hloc

theorem counts_of_mem_names : ∀ n ∈ base.names, counts n = true :=
  fun _ hn => (List.mem_filter.mp hn).2

theorem counts_names (base : Path) (houter : ∀ s ∈ outer, Bare s) :
    ∀ n ∈ outer ++ base.names.reverse, counts n = true := by
  intro n hn
  rcases List.mem_append.mp hn with hn | hn
  · have hbare := houter n hn
    simp [counts, hbare.empty, hbare.here]
  · exact counts_of_mem_names n (List.mem_reverse.mp hn)

namespace Steady

theorem refl (h : o.IsTree) : Steady base o o :=
  ⟨h, rfl, rfl, fun _ _ => rfl, fun _ _ _ => Iff.rfl⟩

theorem start_eq (h : Steady base o d) : d.start base = o.start base := by
  unfold start
  rw [h.here_eq]

theorem folder_start (h : Steady base o d) : d.entry? (o.start base) = some .folder := by
  rw [← h.start_eq]
  exact h.tree.folder_start base

/-- Surveys below the folder find the same as in the beginning. -/
theorem below_eq (h : Steady base o d) (houter : ∀ s ∈ outer, Bare s) :
    d.survey (o.root base) outer.reverse = o.survey (o.root base) outer.reverse :=
  survey_congr h.isFile_eq (Inner.self _) (Inner.next houter)

/-- **Surveys find the same as in the beginning.** -/
theorem way_eq (h : Steady base o d) (houter : ∀ s ∈ outer, Bare s) :
    d.survey (o.start base) (base.names ++ outer.reverse) = o.way base outer := by
  have hbase := h.survey_eq
  unfold way
  cases hfound : (o.survey (o.start base) base.names).2 with
  | some obstacle =>
    rw [survey_append_of_some hfound, survey_append_of_some (by rw [hbase]; exact hfound), hbase]
  | none =>
    have hbelow := h.below_eq houter
    rw [survey_append_of_none hfound, survey_append_of_none (by rw [hbase]; exact hfound), hbase]
    unfold root at hbelow
    rw [hbelow]

theorem not_folder (h : Steady base o d) (hnames : LeadToFile names)
    (hvacant : Vacant base o names) :
    d.entry? (names ++ o.root base) ≠ some .folder := fun hfolder =>
  hvacant.noFolder ((h.folder_iff names hnames hvacant.aside).mp hfolder)

/-- Folders are put on the way to one. -/
theorem sets_way (h : Steady base o d) (houter : ∀ s ∈ outer, Bare s)
    (hsets : Sets (o.way base outer).1 (some .folder) d d₁) (htree : d₁.IsTree) :
    Steady base o d₁ := by
  have hfile : d₁.isFile = d.isFile := by
    rw [← h.way_eq houter] at hsets
    exact h.tree.isFile_of_sets h.folder_start hsets
  refine ⟨htree, hsets.here_eq.trans h.here_eq, ?_, fun loc hloc => ?_,
    fun names hnames haside => ?_⟩
  · rw [← h.survey_eq]
    exact survey_of_isFile_eq hfile _ _
  · rw [hfile]
    exact h.isFile_eq loc hloc
  · rw [hsets.entry?_of_not_mem, h.folder_iff names hnames haside]
    intro hmem
    exact (mem_way houter hmem).elim haside fun hinner => hinner.ne_file hnames rfl

/-- A file is put in a place, or removed from it. -/
theorem sets_file (h : Steady base o d) (hnames : LeadToFile names) (hvacant : Vacant base o names)
    {value? : Option Entry} (hsets : Sets [names ++ o.root base] value? d d₁)
    (hentry : value? ≠ some .folder)
    (haround : value? ≠ none → d.entry? (names ++ o.root base).tail = some .folder) :
    Steady base o d₁ := by
  have hother : ∀ {l}, l ≠ names ++ o.root base → l ∉ [names ++ o.root base] := fun hne hmem =>
    hne (List.mem_singleton.mp hmem)
  have hnotFolder := h.not_folder hnames hvacant
  refine ⟨h.tree.sets hsets haround (Or.inr hnotFolder), hsets.here_eq.trans h.here_eq, ?_,
    fun loc hloc => ?_, fun names' hnames' haside => ?_⟩
  · -- The place is not on the way to the outermost folder.
    have hclear := hvacant.clear
    have haside := hvacant.aside
    rw [way_nil, ← h.survey_eq] at hclear haside
    rw [← h.survey_eq]
    refine survey_congr_of_none hclear fun l hl => ?_
    rw [hsets.isFile_of_not_mem (hother fun heq => haside (heq ▸ hl))]
    exact h.tree.isFile_of_mem_survey h.folder_start l hl
  · rw [hsets.isFile_of_not_mem (hother (hloc.ne_file hnames)), h.isFile_eq loc hloc]
  · by_cases heq : names' ++ o.root base = names ++ o.root base
    · rw [heq, hsets.entry?_of_mem (List.mem_singleton_self _)]
      exact ⟨fun hfolder => absurd hfolder hentry, fun hfolder => absurd hfolder hvacant.noFolder⟩
    · rw [hsets.entry?_of_not_mem (hother heq), h.folder_iff names' hnames' haside]

end Steady

/-! ### Operations on a disk -/

/-- The way to a folder is made. -/
structure Open (base : Path) (o : Disk) (outer : List String) (d : Disk) : Prop where
  clear : (o.way base outer).2 = none
  folder : ∀ l ∈ (o.way base outer).1, d.entry? l = some .folder

/-- A way that is clear goes on below the outermost folder. -/
theorem way_of_clear (h : (o.way base outer).2 = none) : (o.way base []).2 = none ∧
    (o.survey (o.root base) outer.reverse).2 = none ∧
    (o.way base outer).1 = (o.way base []).1 ++ (o.survey (o.root base) outer.reverse).1 := by
  unfold way at h ⊢
  rw [List.reverse_nil, List.append_nil]
  cases hfound : (o.survey (o.start base) base.names).2 with
  | some obstacle =>
    rw [survey_append_of_some hfound] at h
    cases h
  | none =>
    rw [survey_append_of_none hfound] at h ⊢
    exact ⟨rfl, h, rfl⟩

/-- The folder around a place to which a path leads is there. -/
theorem LeadsTo.folder_tail {p : Path} {loc : Location} (h : d.LeadsTo p loc) :
    d.entry? loc.tail = some .folder := by
  obtain ⟨-, name, outer, -, -, hlocate⟩ := h
  rw [locate_eq_walk] at hlocate
  obtain ⟨around, hwalk, hloc⟩ := bind_eq_ok_iff.mp hlocate
  split at hloc
  · cases hloc
  · cases hloc
    exact (walk_eq_ok_iff.mp hwalk).2

theorem keepsFolders_of_createFolder {p : Path} {e? : Option FileError}
    (h : d.createFolder p = (d₁, e?)) : KeepsFolders d d₁ := by
  have hkeeps := (change_createFolder d p).toKeepsFolders
  rwa [h] at hkeeps

/-- The removal of a file empties its place. -/
theorem sets_without {p : Path} {loc : Location} (h : d.LeadsTo p loc)
    (hfolder : d.entry? loc ≠ some .folder) : Sets [loc] none d (d.without p) := by
  unfold without removeFile
  rw [fileLocation_eq_ok_iff.mpr ⟨h, hfolder⟩]
  dsimp only
  cases hentry : d.entry? loc with
  | none => exact .refl (List.forall_mem_singleton.mpr hentry)
  | some entry => exact .single rfl (entry?_erase d h.ne_nil)

namespace Steady

/-- **Making the folder of a file.** Whether it succeeds was certain in the beginning. -/
theorem createFolder (h : Steady base o d) (hnames : LeadToFile (name :: outer)) :
    match refusal? (base.descend (name :: outer)).parent with
    | some fault => d.createFolder (base.descend (name :: outer)).parent =
        (d, some ⟨.createFolder, (base.descend (name :: outer)).parent, fault⟩)
    | none => ∃ disk fault?, d.createFolder (base.descend (name :: outer)).parent =
          (disk, fault?.map (⟨.createFolder, (base.descend (name :: outer)).parent, ·⟩)) ∧
        Sets (o.way base outer).1 (some .folder) d disk ∧ Steady base o disk ∧
        (fault? = none ↔ (o.way base outer).2 = none) ∧
        (Direct base.names →
          fault? = verdict (outer ++ base.names.reverse).length (o.way base outer)) := by
  obtain ⟨hname, houter⟩ := List.forall_mem_cons.mp hnames.plain
  have hstart : d.start (base.descend (name :: outer)).parent = o.start base := by
    rw [← h.start_eq]
    unfold start
    rw [Path.descend, Path.isAbsolute_parent_joinText hname, Path.isAbsolute_descend houter]
  have hparent : (base.descend (name :: outer)).parent.names.reverse =
      outer ++ base.names.reverse := by
    rw [Path.descend, Path.names_parent_joinText hname, Path.names_descend houter,
      List.reverse_append, List.reverse_reverse]
  have hreverse : (outer ++ base.names.reverse).reverse = base.names ++ outer.reverse := by
    rw [List.reverse_append, List.reverse_reverse]
  unfold Disk.createFolder
  rw [hstart, hparent]
  cases refusal? (base.descend (name :: outer)).parent with
  | some fault => rfl
  | none =>
    have hmade := h.tree.makeFolders_spec h.folder_start (counts_names base hnames.outer)
    obtain ⟨hsets, htree, hnone, hfault⟩ := hmade
    rw [hreverse, h.way_eq hnames.outer] at hsets hnone hfault
    refine ⟨_, _, rfl, hsets, h.sets_way hnames.outer hsets htree, hnone, fun hdirect => ?_⟩
    refine hfault (hdirect.append fun hup => ?_)
    exact (hnames.outer ".." (List.mem_reverse.mp hup)).proper.up rfl

/-- **Finding the place of a file** whose folder is made. -/
theorem fileLocation (h : Steady base o d) (hnames : LeadToFile (name :: outer))
    (hopen : Open base o outer d) : d.fileLocation (base.descend (name :: outer)) =
      match refusal? (base.descend (name :: outer)) with
      | some fault => .error fault
      | none =>
        if isTooLong name then .error .nameTooLong
        else if d.entry? (name :: outer ++ o.root base) = some .folder then .error .isAFolder
        else .ok (name :: outer ++ o.root base) := by
  obtain ⟨hbase, hbelow, hplaces⟩ := way_of_clear hopen.clear
  have hfolder := hopen.folder
  rw [hplaces, way_nil, List.forall_mem_append] at hfolder
  rw [way_nil] at hbase
  have hwalk : d.walk (o.start base) base.names = .ok (o.root base) := by
    rw [h.tree.walk_of_whole h.folder_start counts_of_mem_names
      (by rw [h.survey_eq]; exact hfolder.1), h.survey_eq, hbase]
    rfl
  obtain ⟨hreaches, hroot⟩ := walk_eq_ok_iff.mp hwalk
  have hrooted : d.Rooted base (o.root base) := by
    refine ⟨?_, hroot⟩
    unfold Reaches
    rw [h.start_eq]
    exact hreaches
  have hcounts : ∀ n ∈ outer.reverse, counts n = true := fun n hn =>
    counts_names base hnames.outer n (List.mem_append_left _ (List.mem_reverse.mp hn))
  have hwalkBelow : d.walk (o.root base) outer.reverse = .ok (outer ++ o.root base) := by
    rw [h.tree.walk_of_whole hroot hcounts (by rw [h.below_eq hnames.outer]; exact hfolder.2),
      h.below_eq hnames.outer, hbelow]
    dsimp only
    rw [foldl_next hnames.outer]
  rw [hrooted.fileLocation_eq hnames, locate_eq_walk, hwalkBelow]
  cases refusal? (base.descend (name :: outer)) with
  | some fault => rfl
  | none =>
    show (if _ then _ else _) >>= _ = _
    split <;> rfl

/-- A folder is in the place of a file if one was there in the beginning, or if the place is on the
way to the outermost folder. -/
theorem folder_iff_of_open (h : Steady base o d) (hnames : LeadToFile (name :: outer))
    (hopen : Open base o outer d) : d.entry? (name :: outer ++ o.root base) = some .folder ↔
      name :: outer ++ o.root base ∈ (o.way base []).1 ∨
        o.entry? (name :: outer ++ o.root base) = some .folder := by
  by_cases hmem : name :: outer ++ o.root base ∈ (o.way base []).1
  · have hplaces := (way_of_clear hopen.clear).2.2
    have hfolder := hopen.folder _ (by rw [hplaces]; exact List.mem_append_left _ hmem)
    exact ⟨fun _ => Or.inl hmem, fun _ => hfolder⟩
  · rw [h.folder_iff _ hnames hmem]
    exact ⟨Or.inr, fun hor => hor.resolve_left hmem⟩

end Steady

/-! ### Two disks -/

/-- Two disks in the course of runs that started with `o`. The second one lags behind the first:
where they differ it is as it was at first. -/
structure Abreast (base : Path) (o first d d' : Disk) : Prop where
  steady : Steady base o d
  steady' : Steady base o d'
  lag : ∀ loc, d'.entry? loc = first.entry? loc ∨ d'.entry? loc = d.entry? loc

namespace Abreast

variable {first : Disk}

/-- The same is put in the same places on both disks. -/
theorem sets (h : Abreast base o first d d') {places : List Location} {value? : Option Entry}
    (hsets : Sets places value? d d₁) (hsets' : Sets places value? d' d₁')
    (hsteady : Steady base o d₁) (hsteady' : Steady base o d₁') :
    Abreast base o first d₁ d₁' := by
  refine ⟨hsteady, hsteady', fun loc => ?_⟩
  by_cases hmem : loc ∈ places
  · rw [hsets.entry?_of_mem hmem, hsets'.entry?_of_mem hmem]
    exact Or.inr rfl
  · rw [hsets.entry?_of_not_mem hmem, hsets'.entry?_of_not_mem hmem]
    exact h.lag loc

/-- **Making the folder of a file** fails on both disks, or is done on both. -/
theorem createFolder (h : Abreast base o first d d') (hnames : LeadToFile (name :: outer)) :
    (∃ disk disk' e e', d.createFolder (base.descend (name :: outer)).parent = (disk, some e) ∧
      d'.createFolder (base.descend (name :: outer)).parent = (disk', some e') ∧
      e.Alike (Direct base.names) e' ∧ Abreast base o first disk disk') ∨
    ∃ disk disk', d.createFolder (base.descend (name :: outer)).parent = (disk, none) ∧
      d'.createFolder (base.descend (name :: outer)).parent = (disk', none) ∧
      Abreast base o first disk disk' ∧ Open base o outer disk ∧ Open base o outer disk' := by
  have hcreate := h.steady.createFolder hnames
  have hcreate' := h.steady'.createFolder hnames
  cases hrefusal : refusal? (base.descend (name :: outer)).parent with
  | some fault =>
    rw [hrefusal] at hcreate hcreate'
    exact Or.inl ⟨_, _, _, _, hcreate, hcreate', .refl _ _, h⟩
  | none =>
    rw [hrefusal] at hcreate hcreate'
    obtain ⟨disk, fault?, hcreate, hsets, hsteady, hnone, hfault⟩ := hcreate
    obtain ⟨disk', fault?', hcreate', hsets', hsteady', hnone', hfault'⟩ := hcreate'
    have habreast := h.sets hsets hsets' hsteady hsteady'
    cases fault? with
    | none =>
      have hclear := hnone.mp rfl
      obtain rfl := hnone'.mpr hclear
      exact Or.inr ⟨_, _, hcreate, hcreate', habreast,
        ⟨hclear, fun l hl => hsets.entry?_of_mem hl⟩, ⟨hclear, fun l hl => hsets'.entry?_of_mem hl⟩⟩
    | some fault =>
      cases fault?' with
      | none => exact nomatch hnone.mpr (hnone'.mp rfl)
      | some fault' =>
        refine Or.inl ⟨_, _, _, _, hcreate, hcreate', ⟨rfl, rfl, fun hor => ?_⟩, habreast⟩
        have hdirect := hor.resolve_left (not_not_intro rfl)
        exact Option.some.inj ((hfault hdirect).trans (hfault' hdirect).symm)

/-- **Writing a file** whose folder is made fails on both disks, or is done on both. -/
theorem writeFile (h : Abreast base o first d d') (hnames : LeadToFile (name :: outer))
    (hopen : Open base o outer d) (hopen' : Open base o outer d') (value : String) :
    (∃ e, d.writeFile (base.descend (name :: outer)) value = .error e ∧
      d'.writeFile (base.descend (name :: outer)) value = .error e) ∨
    ∃ disk disk', d.writeFile (base.descend (name :: outer)) value = .ok disk ∧
      d'.writeFile (base.descend (name :: outer)) value = .ok disk' ∧
      Abreast base o first disk disk' ∧ Vacant base o (name :: outer) ∧
      d.LeadsTo (base.descend (name :: outer)) (name :: outer ++ o.root base) ∧
      d'.LeadsTo (base.descend (name :: outer)) (name :: outer ++ o.root base) := by
  have hloc := h.steady.fileLocation hnames hopen
  have hloc' := h.steady'.fileLocation hnames hopen'
  have hiff := h.steady.folder_iff_of_open hnames hopen
  have hiff' := h.steady'.folder_iff_of_open hnames hopen'
  unfold Disk.writeFile
  cases hrefusal : refusal? (base.descend (name :: outer)) with
  | some fault =>
    rw [hrefusal] at hloc hloc'
    rw [hloc, hloc']
    exact Or.inl ⟨_, rfl, rfl⟩
  | none =>
    rw [hrefusal] at hloc hloc'
    dsimp only at hloc hloc'
    by_cases hlong : isTooLong name = true
    · rw [if_pos hlong] at hloc hloc'
      rw [hloc, hloc']
      exact Or.inl ⟨_, rfl, rfl⟩
    rw [if_neg hlong] at hloc hloc'
    by_cases hfolder : d.entry? (name :: outer ++ o.root base) = some .folder
    · have hfolder' := hiff'.mpr (hiff.mp hfolder)
      rw [if_pos hfolder] at hloc
      rw [if_pos hfolder'] at hloc'
      rw [hloc, hloc']
      exact Or.inl ⟨_, rfl, rfl⟩
    · have hfolder' := fun hfolder' => hfolder (hiff.mpr (hiff'.mp hfolder'))
      obtain ⟨haside, hnoFolder⟩ := not_or.mp ((not_congr hiff).mp hfolder)
      have hvacant : Vacant base o (name :: outer) :=
        ⟨(way_of_clear hopen.clear).1, haside, hnoFolder⟩
      rw [if_neg hfolder] at hloc
      rw [if_neg hfolder'] at hloc'
      obtain ⟨hleads, -⟩ := fileLocation_eq_ok_iff.mp hloc
      obtain ⟨hleads', -⟩ := fileLocation_eq_ok_iff.mp hloc'
      have hsets := Sets.put (d := d) hleads.ne_nil (.file (.text value))
      have hsets' := Sets.put (d := d') hleads.ne_nil (.file (.text value))
      rw [hloc, hloc']
      refine Or.inr ⟨_, _, rfl, rfl, h.sets hsets hsets' ?_ ?_, hvacant, hleads, hleads'⟩
      · exact h.steady.sets_file hnames hvacant hsets nofun fun _ => hleads.folder_tail
      · exact h.steady'.sets_file hnames hvacant hsets' nofun fun _ => hleads'.folder_tail

/-- **Removing a file** is done on both disks. -/
theorem without (h : Abreast base o first d d') (hnames : LeadToFile names)
    (hvacant : Vacant base o names)
    (hleads : d.LeadsTo (base.descend names) (names ++ o.root base))
    (hleads' : d'.LeadsTo (base.descend names) (names ++ o.root base)) :
    Abreast base o first (d.without (base.descend names)) (d'.without (base.descend names)) := by
  have hsets := sets_without hleads (h.steady.not_folder hnames hvacant)
  have hsets' := sets_without hleads' (h.steady'.not_folder hnames hvacant)
  exact h.sets hsets hsets'
    (h.steady.sets_file hnames hvacant hsets nofun fun hne => absurd rfl hne)
    (h.steady'.sets_file hnames hvacant hsets' nofun fun hne => absurd rfl hne)

end Abreast

end Disk

end RadiusDictionary
