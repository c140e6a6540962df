import RadiusDictionary.Proofs.Disk.Agreement

/-! # Surveys

`Disk.makeFolders` tries the innermost folder first and goes outwards until it finds one. A
`Disk.survey` goes the other way, from the outside in, over names that need not be there: it lists
the places on the way, up to the first one that can be no folder because its name is too long or a
file lies there. On a disk on which everything lies in a folder (`Disk.IsTree`) it foretells how far
a walk gets: to the end or to the obstacle if all places on the way are there
(`IsTree.walk_of_whole`), and nowhere if one is missing (`IsTree.walk_of_missing`).

A survey depends on nothing but where files are (`survey_congr`), so that it finds the same after
folders were made. If `..` comes first on the way or not at all (`Direct`), then everything before a
file that is in the way is there (`IsTree.folder_of_direct`): no folder that is missing is left
again. -/

namespace RadiusDictionary.Disk

/-- Everything lies in a folder, and relative paths start in one. -/
structure IsTree (d : Disk) : Prop where
  parent : ∀ loc, d.entry? loc ≠ none → d.entry? loc.tail = some .folder
  here : d.entry? d.here = some .folder

/-- Whether a file lies at the location. -/
def isFile (d : Disk) (loc : Location) : Bool :=
  match d.entry? loc with
  | some (.file _) => true
  | _ => false

/-- What keeps a folder from being made. -/
inductive Obstacle where
  | tooLong
  | file

/-- The fault of going on behind the obstacle. -/
def Obstacle.fault : Obstacle → Fault
  | tooLong => .nameTooLong
  | file => .notAFolder

/-- The location one name further. -/
def next (loc : Location) (name : String) : Location :=
  if name = ".." then loc.tail else name :: loc

/-- What keeps the folder of a name from being made at a location. -/
def obstacle? (d : Disk) (loc : Location) (name : String) : Option Obstacle :=
  if name = ".." then none
  else if isTooLong name then some .tooLong
  else if d.isFile (name :: loc) then some .file
  else none

/-- The places to which names lead, up to the first obstacle, and the obstacle. -/
def survey (d : Disk) : Location → List String → List Location × Option Obstacle
  | _, [] => ([], none)
  | loc, name :: rest =>
    match d.obstacle? loc name with
    | some o => ([], some o)
    | none =>
      let there := next loc name
      (there :: (d.survey there rest).1, (d.survey there rest).2)

/-- All pieces `..` come first. -/
def Direct (names : List String) : Prop := ".." ∉ names.dropWhile (· = "..")

instance (names : List String) : Decidable (Direct names) :=
  inferInstanceAs (Decidable (".." ∉ names.dropWhile (· = "..")))

/-- The disk with the same entry, or none, put at some places. -/
structure Sets (places : List Location) (value? : Option Entry) (d d' : Disk) : Prop where
  here_eq : d'.here = d.here
  entry?_eq : ∀ loc, d'.entry? loc = if loc ∈ places then value? else d.entry? loc

variable {d d' d'' : Disk} {loc start : Location} {name : String} {names outer : List String}
  {places places' : List Location} {value? : Option Entry}

theorem isFile_iff : d.isFile loc = true ↔ ∃ content, d.entry? loc = some (.file content) := by
  unfold isFile
  rcases d.entry? loc with _ | _ | content <;> simp

theorem isFile_eq_false_of_folder (h : d.entry? loc = some .folder) : d.isFile loc = false := by
  unfold isFile
  rw [h]

/-! ### Putting something somewhere -/

namespace Sets

theorem refl (h : ∀ l ∈ places, d.entry? l = value?) : Sets places value? d d := by
  refine ⟨rfl, fun l => ?_⟩
  split
  · next hl => exact h l hl
  · rfl

theorem trans (h : Sets places value? d d') (h' : Sets places' value? d' d'') :
    Sets (places ++ places') value? d d'' := by
  refine ⟨h'.here_eq.trans h.here_eq, fun l => ?_⟩
  rw [h'.entry?_eq, h.entry?_eq]
  by_cases hl' : l ∈ places'
  · rw [if_pos hl', if_pos (List.mem_append_right _ hl')]
  · by_cases hl : l ∈ places
    · rw [if_neg hl', if_pos hl, if_pos (List.mem_append_left _ hl)]
    · rw [if_neg hl', if_neg hl, if_neg fun hmem => (List.mem_append.mp hmem).elim hl hl']

/-- The entry of one place is replaced. -/
theorem single (hhere : d'.here = d.here)
    (h : ∀ l, d'.entry? l = if loc = l then value? else d.entry? l) : Sets [loc] value? d d' := by
  refine ⟨hhere, fun l => ?_⟩
  rw [h]
  by_cases heq : loc = l
  · rw [if_pos heq, if_pos (List.mem_singleton.mpr heq.symm)]
  · rw [if_neg heq, if_neg fun hmem => heq (List.mem_singleton.mp hmem).symm]

theorem put (hloc : loc ≠ []) (entry : Entry) : Sets [loc] (some entry) d (d.put loc entry) :=
  single rfl (entry?_put d hloc entry)

theorem entry?_of_mem (h : Sets places value? d d') (hloc : loc ∈ places) :
    d'.entry? loc = value? := by
  rw [h.entry?_eq, if_pos hloc]

theorem entry?_of_not_mem (h : Sets places value? d d') (hloc : loc ∉ places) :
    d'.entry? loc = d.entry? loc := by
  rw [h.entry?_eq, if_neg hloc]

theorem isFile_of_not_mem (h : Sets places value? d d') (hloc : loc ∉ places) :
    d'.isFile loc = d.isFile loc := by
  unfold isFile
  rw [h.entry?_of_not_mem hloc]

end Sets

/-! ### Trees -/

namespace IsTree

theorem folder_start (h : d.IsTree) (p : Path) : d.entry? (d.start p) = some .folder := by
  unfold Disk.start
  split
  · rfl
  · exact h.here

/-- A disk stays a tree if what is put somewhere lies in a folder and is in no folder's place. -/
theorem sets (h : d.IsTree) (hsets : Sets [loc] value? d d')
    (haround : value? ≠ none → d.entry? loc.tail = some .folder)
    (hfolder : value? = some .folder ∨ d.entry? loc ≠ some .folder) : d'.IsTree := by
  have hkeeps : ∀ l, d.entry? l = some .folder → d'.entry? l = some .folder := by
    intro l hl
    rw [hsets.entry?_eq]
    split
    · next hmem =>
      rw [List.mem_singleton.mp hmem] at hl
      exact hfolder.resolve_right fun hnot => hnot hl
    · exact hl
  refine ⟨fun l hl => hkeeps _ ?_, by rw [hsets.here_eq]; exact hkeeps _ h.here⟩
  rw [hsets.entry?_eq] at hl
  split at hl
  · next hmem =>
    rw [List.mem_singleton.mp hmem]
    exact haround hl
  · exact h.parent l hl

end IsTree

theorem isTree_iff : d.IsTree ↔ (∀ loc ∈ d.entries.keys, d.entry? loc.tail = some .folder) ∧
    d.entry? d.here = some .folder := by
  constructor
  · refine fun h => ⟨fun loc hloc => h.parent loc ?_, h.here⟩
    cases loc with
    | nil => nofun
    | cons name around =>
      have hsome := OrderedMap.contains_iff_mem_keys.mpr hloc
      exact Option.isSome_iff_ne_none.mp hsome
  · rintro ⟨hkeys, hhere⟩
    refine ⟨fun loc hloc => ?_, hhere⟩
    cases loc with
    | nil => rfl
    | cons name around =>
      have hsome : d.entries.contains (name :: around) = true :=
        Option.isSome_iff_ne_none.mpr hloc
      exact hkeys _ (OrderedMap.contains_iff_mem_keys.mp hsome)

instance : Decidable d.IsTree := decidable_of_iff _ isTree_iff.symm

/-! ### Going from folder to folder -/

/-- The folder to which names lead. -/
def walk (d : Disk) (loc : Location) (names : List String) : Except Fault Location :=
  names.foldlM d.enter loc >>= fun last => d.requireFolder last >>= fun _ => .ok last

theorem walk_of_error {fault : Fault} (h : d.requireFolder loc = .error fault) :
    ∀ names : List String, d.walk loc names = .error fault
  | [] => by
    show (d.requireFolder loc >>= fun _ => _) = _
    rw [h]
    rfl
  | name :: rest => by
    unfold walk
    rw [List.foldlM_cons, enter, h]
    rfl

theorem walk_cons (d : Disk) (loc : Location) (name : String) (rest : List String) :
    d.walk loc (name :: rest) = d.enter loc name >>= fun l => d.walk l rest := by
  unfold walk
  rw [List.foldlM_cons]
  cases d.enter loc name <;> rfl

theorem locate_eq_walk (d : Disk) (start : Location) (outer : List String) (name : String) :
    d.locate start outer name = d.walk start outer.reverse >>= fun around =>
      if isTooLong name then .error .nameTooLong else .ok (name :: around) := by
  unfold locate walk
  cases outer.reverse.foldlM d.enter start with
  | error fault => rfl
  | ok around =>
    show (d.requireFolder around >>= fun _ => _) = (d.requireFolder around >>= fun _ => _) >>= _
    cases d.requireFolder around with
    | error fault => rfl
    | ok u =>
      show (if isTooLong name then _ else _) = _
      split <;> rfl

theorem walk_eq_ok_iff {last : Location} : d.walk loc names = .ok last ↔
    names.foldlM d.enter loc = .ok last ∧ d.entry? last = some .folder := by
  unfold walk
  rw [bind_eq_ok_iff]
  constructor
  · rintro ⟨there, hfold, hlast⟩
    obtain ⟨u, hrequire, hlast⟩ := bind_eq_ok_iff.mp hlast
    cases hlast
    exact ⟨hfold, requireFolder_eq_ok_iff.mp hrequire⟩
  · rintro ⟨hfold, hfolder⟩
    exact ⟨last, hfold, bind_eq_ok_iff.mpr ⟨(), requireFolder_eq_ok_iff.mpr hfolder, rfl⟩⟩

/-- Names lead to a folder if all but the last one do, and the last one leads on to a folder. -/
theorem isFolder_cons_iff : d.isFolder start (name :: outer) = true ↔
    ∃ around loc, d.walk start outer.reverse = .ok around ∧ d.enter around name = .ok loc ∧
      d.entry? loc = some .folder := by
  have hunfold : d.isFolder start (name :: outer) = true ↔
      ∃ loc, (name :: outer).reverse.foldlM d.enter start = .ok loc ∧
        d.entry? loc = some .folder := by
    unfold isFolder
    cases (name :: outer).reverse.foldlM d.enter start <;> simp
  rw [hunfold, List.reverse_cons]
  constructor
  · rintro ⟨loc, hfold, hfolder⟩
    rw [List.foldlM_append] at hfold
    obtain ⟨around, hfold, hlast⟩ := bind_eq_ok_iff.mp hfold
    rw [List.foldlM_cons] at hlast
    obtain ⟨there, hlast, hend⟩ := bind_eq_ok_iff.mp hlast
    cases hend
    have haround := folder_of_enter hlast
    exact ⟨around, loc, walk_eq_ok_iff.mpr ⟨hfold, haround⟩, hlast, hfolder⟩
  · rintro ⟨around, loc, hwalk, hlast, hfolder⟩
    refine ⟨loc, ?_, hfolder⟩
    rw [List.foldlM_append]
    refine bind_eq_ok_iff.mpr ⟨around, (walk_eq_ok_iff.mp hwalk).1, ?_⟩
    rw [List.foldlM_cons]
    exact bind_eq_ok_iff.mpr ⟨loc, hlast, rfl⟩

theorem requireFolder_of_folder (h : d.entry? loc = some .folder) : d.requireFolder loc = .ok () :=
  requireFolder_eq_ok_iff.mpr h

theorem enter_of_folder (hloc : d.entry? loc = some .folder) (hname : counts name = true) :
    d.enter loc name =
      if name = ".." then .ok loc.tail
      else if isTooLong name then .error .nameTooLong else .ok (name :: loc) := by
  have hpiece : ¬ (name = "" || name = ".") = true := by
    simpa [counts] using hname
  unfold enter
  rw [requireFolder_of_folder hloc]
  show (if _ then _ else _) = _
  rw [if_neg hpiece]
  split
  · rfl
  · split <;> rfl

/-! ### Obstacles -/

/-- What a step of a survey finds. -/
inductive Step (d : Disk) (loc : Location) (name : String) : Option Obstacle → Prop
  | up (hname : name = "..") : Step d loc name none
  | down (hname : name ≠ "..") (hlong : ¬ isTooLong name = true)
    (hfile : d.isFile (name :: loc) = false) : Step d loc name none
  | tooLong (hname : name ≠ "..") (hlong : isTooLong name = true) :
    Step d loc name (some .tooLong)
  | file (hname : name ≠ "..") (hlong : ¬ isTooLong name = true)
    (hfile : d.isFile (name :: loc) = true) : Step d loc name (some .file)

theorem step (d : Disk) (loc : Location) (name : String) :
    Step d loc name (d.obstacle? loc name) := by
  unfold obstacle?
  by_cases hname : name = ".."
  · rw [if_pos hname]
    exact .up hname
  rw [if_neg hname]
  by_cases hlong : isTooLong name = true
  · rw [if_pos hlong]
    exact .tooLong hname hlong
  rw [if_neg hlong]
  by_cases hfile : d.isFile (name :: loc) = true
  · rw [if_pos hfile]
    exact .file hname hlong hfile
  · rw [if_neg hfile]
    exact .down hname hlong (Bool.eq_false_iff.mpr hfile)

theorem next_of_ne (hname : name ≠ "..") : next loc name = name :: loc := if_neg hname

theorem next_up : next loc ".." = loc.tail := if_pos rfl

theorem survey_cons_of_some {o : Obstacle} {rest : List String}
    (h : d.obstacle? loc name = some o) : d.survey loc (name :: rest) = ([], some o) := by
  rw [survey, h]

theorem survey_cons_of_none {rest : List String} (h : d.obstacle? loc name = none) :
    d.survey loc (name :: rest) =
      (next loc name :: (d.survey (next loc name) rest).1, (d.survey (next loc name) rest).2) := by
  rw [survey, h]

/-- Behind an obstacle nothing is surveyed. -/
theorem survey_append_of_some {o : Obstacle} {more : List String} : ∀ {names : List String}
    {loc : Location}, (d.survey loc names).2 = some o →
      d.survey loc (names ++ more) = ((d.survey loc names).1, some o)
  | [], _, h => by cases h
  | name :: rest, loc, h => by
    rw [List.cons_append]
    cases hstep : d.obstacle? loc name with
    | some o' =>
      rw [survey_cons_of_some hstep] at h
      cases h
      rw [survey_cons_of_some hstep, survey_cons_of_some hstep]
    | none =>
      rw [survey_cons_of_none hstep] at h ⊢
      rw [survey_cons_of_none hstep, survey_append_of_some h]

theorem survey_append_of_none {more : List String} : ∀ {names : List String} {loc : Location},
    (d.survey loc names).2 = none → d.survey loc (names ++ more) =
      ((d.survey loc names).1 ++ (d.survey (names.foldl next loc) more).1,
        (d.survey (names.foldl next loc) more).2)
  | [], _, _ => rfl
  | name :: rest, loc, h => by
    rw [List.cons_append]
    cases hstep : d.obstacle? loc name with
    | some o =>
      rw [survey_cons_of_some hstep] at h
      cases h
    | none =>
      rw [survey_cons_of_none hstep] at h ⊢
      rw [survey_cons_of_none hstep, survey_append_of_none h]
      rfl

/-! ### Surveys and walks -/

/-- If all that is surveyed is there, a walk ends where the survey does. -/
theorem IsTree.walk_of_whole (h : d.IsTree) : ∀ {names : List String} {loc : Location},
    d.entry? loc = some .folder → (∀ n ∈ names, counts n = true) →
    (∀ l ∈ (d.survey loc names).1, d.entry? l = some .folder) →
    d.walk loc names = match (d.survey loc names).2 with
      | none => .ok (names.foldl next loc)
      | some o => .error o.fault
  | [], loc, hloc, _, _ => by
    show (d.requireFolder loc >>= fun _ => _) = _
    rw [requireFolder_of_folder hloc]
    rfl
  | name :: rest, loc, hloc, hcounts, hall => by
    obtain ⟨hname, hrest⟩ := List.forall_mem_cons.mp hcounts
    rw [walk_cons, enter_of_folder hloc hname]
    have hstep := d.step loc name
    cases hobstacle : d.obstacle? loc name with
    | none =>
      rw [survey_cons_of_none hobstacle] at hall ⊢
      obtain ⟨hnext, hall⟩ := List.forall_mem_cons.mp hall
      rw [List.foldl_cons, ← h.walk_of_whole hnext hrest hall]
      rw [hobstacle] at hstep
      cases hstep with
      | up hup =>
        rw [if_pos hup, hup, next_up]
        rfl
      | down hup hlong hfile =>
        rw [if_neg hup, if_neg hlong, next_of_ne hup]
        rfl
    | some o =>
      rw [survey_cons_of_some hobstacle]
      rw [hobstacle] at hstep
      cases hstep with
      | tooLong hup hlong =>
        rw [if_neg hup, if_pos hlong]
        rfl
      | file hup hlong hfile =>
        rw [if_neg hup, if_neg hlong]
        obtain ⟨content, hentry⟩ := isFile_iff.mp hfile
        refine walk_of_error ?_ rest
        rw [requireFolder, hentry]
        rfl

/-- If some of it is missing, a walk gets no further. -/
theorem IsTree.walk_of_missing (h : d.IsTree) : ∀ {names : List String} {loc : Location},
    d.entry? loc = some .folder → (∀ n ∈ names, counts n = true) →
    (¬ ∀ l ∈ (d.survey loc names).1, d.entry? l = some .folder) →
    d.walk loc names = .error .notFound
  | [], _, _, _, hnot => absurd (List.forall_mem_nil _) hnot
  | name :: rest, loc, hloc, hcounts, hnot => by
    obtain ⟨hname, hrest⟩ := List.forall_mem_cons.mp hcounts
    rw [walk_cons, enter_of_folder hloc hname]
    have hstep := d.step loc name
    cases hobstacle : d.obstacle? loc name with
    | some o =>
      rw [survey_cons_of_some hobstacle] at hnot
      exact absurd (List.forall_mem_nil _) hnot
    | none =>
      rw [survey_cons_of_none hobstacle, List.forall_mem_cons, not_and] at hnot
      rw [hobstacle] at hstep
      cases hstep with
      | up hup =>
        subst hup
        rw [next_up] at hnot
        have htail : d.entry? loc.tail = some .folder := h.parent loc (by rw [hloc]; nofun)
        rw [if_pos rfl]
        exact h.walk_of_missing htail hrest (hnot htail)
      | down hup hlong hfile =>
        rw [next_of_ne hup] at hnot
        rw [if_neg hup, if_neg hlong]
        rcases hentry : d.entry? (name :: loc) with _ | _ | content
        · refine walk_of_error ?_ rest
          rw [requireFolder, hentry]
        · exact h.walk_of_missing hentry hrest (hnot hentry)
        · rw [isFile_iff.mpr ⟨content, hentry⟩] at hfile
          cases hfile

/-! ### What a survey depends on -/

/-- A survey depends on the files in the places where it can get. -/
theorem survey_congr {S : Location → Prop} (hsame : ∀ l, S l → d'.isFile l = d.isFile l) :
    ∀ {names : List String} {loc : Location}, S loc → (∀ l, S l → ∀ n ∈ names, S (next l n)) →
      d'.survey loc names = d.survey loc names
  | [], _, _, _ => rfl
  | name :: rest, loc, hloc, hnext => by
    have hthere := hnext loc hloc name List.mem_cons_self
    have hobstacle : d'.obstacle? loc name = d.obstacle? loc name := by
      unfold obstacle?
      by_cases hup : name = ".."
      · rw [if_pos hup, if_pos hup]
      · rw [next_of_ne hup] at hthere
        rw [hsame _ hthere]
    have hrest : d'.survey (next loc name) rest = d.survey (next loc name) rest :=
      survey_congr hsame hthere fun l hl n hn => hnext l hl n (List.mem_cons_of_mem _ hn)
    rw [survey, survey, hobstacle]
    dsimp only
    rw [hrest]

theorem survey_of_isFile_eq (h : d'.isFile = d.isFile) (loc : Location) (names : List String) :
    d'.survey loc names = d.survey loc names :=
  survey_congr (S := fun _ => True) (fun l _ => congrFun h l) trivial fun _ _ _ _ => trivial

/-- A survey gets nowhere else. -/
theorem survey_subset {S : Location → Prop} : ∀ {names : List String} {start : Location},
    S start → (∀ l, S l → ∀ n ∈ names, S (next l n)) → ∀ loc ∈ (d.survey start names).1, S loc
  | [], _, _, _, _, hloc => nomatch hloc
  | name :: rest, start, hstart, hnext, loc, hloc => by
    have hthere := hnext start hstart name List.mem_cons_self
    cases hobstacle : d.obstacle? start name with
    | some o =>
      rw [survey_cons_of_some hobstacle] at hloc
      cases hloc
    | none =>
      rw [survey_cons_of_none hobstacle] at hloc
      rcases List.mem_cons.mp hloc with rfl | hloc
      · exact hthere
      · exact survey_subset hthere (fun l hl n hn => hnext l hl n (List.mem_cons_of_mem _ hn)) loc
          hloc

/-- A survey without an obstacle stays as it is while no file gets in its way. -/
theorem survey_congr_of_none : ∀ {names : List String} {loc : Location},
    (d.survey loc names).2 = none → (∀ l ∈ (d.survey loc names).1, d'.isFile l = false) →
      d'.survey loc names = d.survey loc names
  | [], _, _, _ => rfl
  | name :: rest, loc, hnone, hfile => by
    have hstep := d.step loc name
    cases hobstacle : d.obstacle? loc name with
    | some o =>
      rw [survey_cons_of_some hobstacle] at hnone
      cases hnone
    | none =>
      rw [survey_cons_of_none hobstacle] at hnone hfile ⊢
      obtain ⟨hthere, hfile⟩ := List.forall_mem_cons.mp hfile
      have hobstacle' : d'.obstacle? loc name = none := by
        rw [hobstacle] at hstep
        unfold obstacle?
        cases hstep with
        | up hup => rw [if_pos hup]
        | down hup hlong =>
          rw [next_of_ne hup] at hthere
          rw [if_neg hup, if_neg hlong, hthere]
          rfl
      rw [survey_cons_of_none hobstacle', survey_congr_of_none hnone hfile]

/-- No file lies in a place that is surveyed. -/
theorem isFile_of_mem_survey : ∀ {names : List String} {start : Location},
    (∀ l, l <:+ start → d.isFile l = false) → ∀ loc ∈ (d.survey start names).1,
      d.isFile loc = false
  | [], _, _, _, hloc => nomatch hloc
  | name :: rest, start, hstart, loc, hloc => by
    have hstep := d.step start name
    cases hobstacle : d.obstacle? start name with
    | some o =>
      rw [survey_cons_of_some hobstacle] at hloc
      cases hloc
    | none =>
      have hnext : ∀ l, l <:+ next start name → d.isFile l = false := by
        intro l hl
        rw [hobstacle] at hstep
        cases hstep with
        | up hup =>
          rw [hup, next_up] at hl
          exact hstart l (hl.trans (List.tail_suffix start))
        | down hup hlong hfile =>
          rw [next_of_ne hup] at hl
          rcases List.suffix_cons_iff.mp hl with rfl | hl
          · exact hfile
          · exact hstart l hl
      rw [survey_cons_of_none hobstacle] at hloc
      rcases List.mem_cons.mp hloc with rfl | hloc
      · exact hnext _ (List.suffix_refl _)
      · exact isFile_of_mem_survey hnext loc hloc

namespace IsTree

theorem folder_of_suffix (h : d.IsTree) : ∀ {start : Location}, d.entry? start = some .folder →
    ∀ l, l <:+ start → d.entry? l = some .folder
  | [], hstart, l, hl => by
    rw [List.suffix_nil.mp hl]
    exact hstart
  | name :: around, hstart, l, hl => by
    rcases List.suffix_cons_iff.mp hl with rfl | hl
    · exact hstart
    · exact h.folder_of_suffix (h.parent (name :: around) (by rw [hstart]; nofun)) l hl

theorem isFile_of_mem_survey (h : d.IsTree) (hstart : d.entry? start = some .folder) :
    ∀ l ∈ (d.survey start names).1, d.isFile l = false :=
  Disk.isFile_of_mem_survey fun l hl => isFile_eq_false_of_folder (h.folder_of_suffix hstart l hl)

/-- Folders on the way of a survey are no files before and after. -/
theorem isFile_of_sets (h : d.IsTree) (hstart : d.entry? start = some .folder)
    (hsets : Sets (d.survey start names).1 (some .folder) d d') : d'.isFile = d.isFile := by
  funext l
  by_cases hl : l ∈ (d.survey start names).1
  · rw [isFile_eq_false_of_folder (hsets.entry?_of_mem hl), h.isFile_of_mem_survey hstart l hl]
  · exact hsets.isFile_of_not_mem hl

end IsTree

theorem obstacle?_congr (h : d'.isFile = d.isFile) (loc : Location) (name : String) :
    d'.obstacle? loc name = d.obstacle? loc name := by
  unfold obstacle?
  rw [h]

/-! ### Ways that lead out of no folder -/

/-- Where a file is in the way, everything up to it is there. -/
theorem IsTree.folder_of_file (h : d.IsTree) : ∀ {names : List String} {loc : Location},
    ".." ∉ names → (d.survey loc names).2 = some .file →
      d.entry? loc = some .folder ∧ ∀ l ∈ (d.survey loc names).1, d.entry? l = some .folder
  | [], _, _, hfile => nomatch hfile
  | name :: rest, loc, hnot, hfile => by
    obtain ⟨hname, hrest⟩ := not_or.mp fun hor => hnot (List.mem_cons.mpr hor)
    have hstep := d.step loc name
    cases hobstacle : d.obstacle? loc name with
    | some o =>
      rw [survey_cons_of_some hobstacle] at hfile ⊢
      cases hfile
      rw [hobstacle] at hstep
      cases hstep with
      | file hup hlong hentry =>
        obtain ⟨content, hentry⟩ := isFile_iff.mp hentry
        exact ⟨h.parent (name :: loc) (by rw [hentry]; nofun), List.forall_mem_nil _⟩
    | none =>
      rw [survey_cons_of_none hobstacle, next_of_ne (Ne.symm hname)] at hfile ⊢
      obtain ⟨hthere, hall⟩ := h.folder_of_file hrest hfile
      refine ⟨h.parent (name :: loc) (by rw [hthere]; nofun), ?_⟩
      exact List.forall_mem_cons.mpr ⟨hthere, hall⟩

theorem IsTree.folder_of_direct (h : d.IsTree) : ∀ {names : List String} {loc : Location},
    Direct names → d.entry? loc = some .folder → (d.survey loc names).2 = some .file →
      ∀ l ∈ (d.survey loc names).1, d.entry? l = some .folder
  | [], _, _, _, hfile => nomatch hfile
  | name :: rest, loc, hdirect, hloc, hfile => by
    by_cases hup : name = ".."
    · subst hup
      have htail : d.entry? loc.tail = some .folder := h.parent loc (by rw [hloc]; nofun)
      have hnone : d.obstacle? loc ".." = none := if_pos rfl
      rw [survey_cons_of_none hnone, next_up] at hfile ⊢
      have hdirect : Direct rest := by
        unfold Direct at hdirect
        rwa [List.dropWhile_cons_of_pos (by decide)] at hdirect
      exact List.forall_mem_cons.mpr ⟨htail, h.folder_of_direct hdirect htail hfile⟩
    · unfold Direct at hdirect
      rw [List.dropWhile_cons_of_neg (by simpa using hup)] at hdirect
      exact (h.folder_of_file hdirect hfile).2

theorem Direct.of_append {front back : List String} (h : Direct (front ++ back)) :
    Direct front := by
  unfold Direct at h ⊢
  rw [List.dropWhile_append] at h
  split at h
  · next hempty =>
    rw [List.isEmpty_iff.mp hempty]
    exact List.not_mem_nil
  · exact fun hmem => h (List.mem_append_left _ hmem)

theorem Direct.append {front back : List String} (h : Direct front) (hback : ".." ∉ back) :
    Direct (front ++ back) := by
  unfold Direct at h ⊢
  rw [List.dropWhile_append]
  split
  · exact fun hmem => hback ((List.dropWhile_suffix _).subset hmem)
  · exact fun hmem => (List.mem_append.mp hmem).elim h hback

end RadiusDictionary.Disk
