import RadiusDictionary.Proofs.Disk.Contents
import RadiusDictionary.Proofs.Path.Descend

/-! # Disks that agree below a folder

What happens to a file below a folder depends on what lies there and nowhere else. So two disks may
differ without a run noticing: `Disk.Agree` says that below one folder they hold the same folders,
and the same files but for the paths that are `apart`. Making the folder of a file ends the same way
on both and they go on to agree (`Agree.createFolder`), and so does writing it unless its path is
apart (`Agree.writeFile`). What happens to a path that is apart goes unnoticed
(`Agree.change_left`). Disks that differ in the place of one file only agree but for that file
(`agree_of_resolve`). -/

namespace RadiusDictionary.Disk

open RadiusDictionary.Path (Bare LeadToFile)

variable {d d' d₁ : Disk} {base : Path} {root loc : Location} {names outer : List String}

theorem eq_of_locate {start : Location} {name : String} (houter : ∀ s ∈ outer, Path.Proper s)
    (h : d.locate start outer name = .ok loc) : loc = name :: outer ++ start := by
  unfold locate at h
  obtain ⟨around, haround, h⟩ := bind_eq_ok_iff.mp h
  obtain rfl := foldlM_enter_eq_ok (fun s hs => houter s (List.mem_reverse.mp hs)) haround
  obtain ⟨u, -, h⟩ := bind_eq_ok_iff.mp h
  split at h
  · cases h
  · cases h
    rw [List.reverse_reverse]
    rfl

/-! ### Seen from a folder -/

theorem start_descend (d : Disk) (h : ∀ s ∈ names, Path.Plain s) :
    d.start (base.descend names) = d.start base := by
  unfold start
  rw [Path.isAbsolute_descend h]

theorem makeFolder_cons (d : Disk) (start : Location) (name : String) (outer : List String) :
    d.makeFolder start (name :: outer) = d.locate start outer name >>= fun loc =>
      if name = ".." || (d.entry? loc).isSome then .error .alreadyExists
      else .ok (d.put loc .folder) := by
  unfold makeFolder
  refine congrArg (d.locate start outer name >>= ·) (funext fun loc => ?_)
  split <;> rfl

/-- The path leads to a folder. -/
structure Rooted (d : Disk) (base : Path) (root : Location) : Prop where
  reaches : d.Reaches base root
  folder : d.entry? root = some .folder

namespace Rooted

theorem mono (h : d.Rooted base root) (hd : KeepsFolders d d₁) : d₁.Rooted base root :=
  ⟨h.reaches.mono hd, hd.folder root h.folder⟩

/-- Names lead on from the folder to which the path leads. -/
theorem foldlM_enter_eq (h : d.Rooted base root) (outer : List String) :
    (outer ++ base.names.reverse).reverse.foldlM d.enter (d.start base) =
      outer.reverse.foldlM d.enter root := by
  rw [List.reverse_append, List.reverse_reverse, List.foldlM_append,
    show base.names.foldlM d.enter (d.start base) = .ok root from h.reaches]
  rfl

theorem locate_eq (h : d.Rooted base root) (outer : List String) (name : String) :
    d.locate (d.start base) (outer ++ base.names.reverse) name = d.locate root outer name := by
  unfold locate
  rw [h.foldlM_enter_eq]

theorem makeFolder_eq (h : d.Rooted base root) (name : String) (outer : List String) :
    d.makeFolder (d.start base) (name :: (outer ++ base.names.reverse)) =
      d.makeFolder root (name :: outer) := by
  rw [makeFolder_cons, makeFolder_cons, h.locate_eq]

theorem isFolder_eq (h : d.Rooted base root) (outer : List String) :
    d.isFolder (d.start base) (outer ++ base.names.reverse) = d.isFolder root outer := by
  unfold isFolder
  rw [h.foldlM_enter_eq]

theorem isFolder_self (h : d.Rooted base root) :
    d.isFolder (d.start base) base.names.reverse = true := by
  have hself := h.isFolder_eq []
  rw [List.nil_append] at hself
  rw [hself, isFolder]
  exact decide_eq_true h.folder

/-- The folder is there, so that it cannot be made. -/
theorem makeFolder_self (h : d.Rooted base root) :
    d.makeFolder (d.start base) base.names.reverse = .error .alreadyExists := by
  rcases hnames : base.names.reverse with _ | ⟨name, outer⟩
  · rfl
  have hall : base.names = outer.reverse ++ [name] := by
    rw [← List.reverse_reverse base.names, hnames, List.reverse_cons]
  have hreaches : base.names.foldlM d.enter (d.start base) = .ok root := h.reaches
  have hcounts : name ∈ base.names := by
    rw [hall]
    exact List.mem_append_right _ List.mem_cons_self
  rw [hall, List.foldlM_append] at hreaches
  obtain ⟨around, haround, hlast⟩ := bind_eq_ok_iff.mp hreaches
  rw [List.foldlM_cons] at hlast
  obtain ⟨there, hlast, hend⟩ := bind_eq_ok_iff.mp hlast
  cases hend
  unfold enter at hlast
  obtain ⟨u, hrequire, hlast⟩ := bind_eq_ok_iff.mp hlast
  have hname : ¬ (name = "" || name = ".") = true := by
    have hfilter := (List.mem_filter.mp hcounts).2
    simpa using hfilter
  rw [if_neg hname] at hlast
  have hlocate : d.locate (d.start base) outer name =
      if isTooLong name then .error .nameTooLong else .ok (name :: around) := by
    unfold locate
    rw [haround]
    show (d.requireFolder around >>= fun _ => _) = _
    rw [hrequire]
    rfl
  rw [makeFolder_cons, hlocate]
  by_cases hup : name = ".."
  · subst hup
    rw [if_neg (by decide)]
    rfl
  · rw [if_neg hup] at hlast
    by_cases hlong : isTooLong name = true
    · rw [if_pos hlong] at hlast
      cases hlast
    · rw [if_neg hlong] at hlast
      cases hlast
      rw [if_neg hlong]
      exact if_pos (by simp [h.folder])

theorem makeFolders_self (h : d.Rooted base root) :
    d.makeFolders (d.start base) base.names.reverse = (d, none) := by
  have hmake := h.makeFolder_self
  have hfolder := h.isFolder_self
  generalize base.names.reverse = names at hmake hfolder
  cases names with
  | nil => rfl
  | cons name outer =>
    unfold makeFolders
    rw [hmake]
    dsimp only
    rw [if_pos hfolder]

/-- Only what is below the folder may have to be made. -/
theorem makeFolders_eq (h : d.Rooted base root) : ∀ names : List String,
    d.makeFolders (d.start base) (names ++ base.names.reverse) = d.makeFolders root names
  | [] => h.makeFolders_self
  | name :: outer => by
    have houter := makeFolders_eq h outer
    have hkeeps := (change_makeFolders (d := d) root outer).toKeepsFolders
    rw [List.cons_append, makeFolders, makeFolders, h.makeFolder_eq, houter,
      ← List.cons_append, h.isFolder_eq, List.cons_append]
    rcases hmade : d.makeFolders root outer with ⟨around, _ | fault⟩
    · rw [hmade] at hkeeps
      have hstart : d.start base = around.start base := by
        unfold start
        rw [hkeeps.here_eq]
      have haround : around.Rooted base root := h.mono hkeeps
      dsimp only
      rw [hstart, haround.makeFolder_eq, ← List.cons_append, haround.isFolder_eq]
    · rfl

/-- The folder of a path below is made from there. -/
theorem createFolder_eq (h : d.Rooted base root) (hnames : LeadToFile (name :: outer)) :
    d.createFolder (base.descend (name :: outer)).parent =
      match refusal? (base.descend (name :: outer)).parent with
      | some fault => (d, some ⟨.createFolder, (base.descend (name :: outer)).parent, fault⟩)
      | none => ((d.makeFolders root outer).1, (d.makeFolders root outer).2.map
          (⟨.createFolder, (base.descend (name :: outer)).parent, ·⟩)) := by
  obtain ⟨hname, houter⟩ := List.forall_mem_cons.mp hnames.plain
  have hstart : d.start (base.descend (name :: outer)).parent = d.start base := by
    unfold start
    rw [Path.descend, Path.isAbsolute_parent_joinText hname, Path.isAbsolute_descend houter]
  have hparent : (base.descend (name :: outer)).parent.names.reverse =
      outer ++ base.names.reverse := by
    rw [Path.descend, Path.names_parent_joinText hname, Path.names_descend houter,
      List.reverse_append, List.reverse_reverse]
  unfold createFolder
  rw [hstart, hparent, h.makeFolders_eq]
  cases refusal? (base.descend (name :: outer)).parent <;> rfl

/-- A file below is found from there. -/
theorem fileLocation_eq (h : d.Rooted base root) (hnames : LeadToFile (name :: outer)) :
    d.fileLocation (base.descend (name :: outer)) =
      match refusal? (base.descend (name :: outer)) with
      | some fault => .error fault
      | none => d.locate root outer name >>= fun loc =>
          if d.entry? loc = some .folder then .error .isAFolder else .ok loc := by
  have hup := (hnames.proper name List.mem_cons_self).up
  have hreverse : (base.descend (name :: outer)).names.reverse =
      name :: (outer ++ base.names.reverse) := by
    rw [Path.names_descend hnames.plain, List.reverse_append, List.reverse_reverse]
    rfl
  unfold fileLocation
  rw [start_descend d hnames.plain, hreverse]
  cases refusal? (base.descend (name :: outer)) with
  | some fault => rfl
  | none =>
    dsimp only
    rw [h.locate_eq]
    refine congrArg (d.locate root outer name >>= ·) (funext fun loc => ?_)
    simp only [hup, decide_false, Bool.false_or, decide_eq_true_eq]
    split <;> rfl

/-- A file below lies where its names say. -/
theorem eq_of_fileLocation (h : d.Rooted base root) (hnames : LeadToFile names)
    (hloc : d.fileLocation (base.descend names) = .ok loc) : loc = names ++ root := by
  obtain _ | ⟨name, outer⟩ := names
  · cases hnames
  rw [h.fileLocation_eq hnames] at hloc
  cases hrefusal : refusal? (base.descend (name :: outer)) with
  | some fault => rw [hrefusal] at hloc; cases hloc
  | none =>
    rw [hrefusal] at hloc
    obtain ⟨there, hlocate, hloc⟩ := bind_eq_ok_iff.mp hloc
    have hthere := eq_of_locate (fun s hs => hnames.proper s (List.mem_cons_of_mem _ hs)) hlocate
    split at hloc
    · cases hloc
    · cases hloc
      exact hthere

end Rooted

/-! ### Agreement -/

theorem keepsFolders_without (d : Disk) (p : Path) : KeepsFolders d (d.without p) := by
  cases hloc : d.fileLocation p with
  | error fault =>
    unfold without removeFile
    rw [hloc]
    exact .refl d
  | ok loc => exact (without_spec (fileLocation_eq_ok_iff.mp hloc).1).1

theorem keepsFolders_foldl_without : ∀ (paths : List Path) (d : Disk),
    KeepsFolders d (paths.foldl without d)
  | [], d => .refl d
  | p :: rest, d => (keepsFolders_without d p).trans (keepsFolders_foldl_without rest _)

/-- Below a folder the disks hold the same folders, and the same files but for paths that are
apart. -/
structure Agree (base : Path) (root : Location) (apart : Path.Key → Prop) (d d' : Disk) : Prop where
  rooted : d.Rooted base root
  rooted' : d'.Rooted base root
  folder : ∀ outer, (∀ s ∈ outer, Bare s) → d.entry? (outer ++ root) = d'.entry? (outer ++ root)
  file : ∀ names, LeadToFile names → ¬ apart (base.descend names).key →
    d.entry? (names ++ root) = d'.entry? (names ++ root)

namespace Agree

variable {apart apart' : Path.Key → Prop}

theorem symm (h : Agree base root apart d d') : Agree base root apart d' d :=
  ⟨h.rooted', h.rooted, fun outer houter => (h.folder outer houter).symm,
    fun names hnames hkey => (h.file names hnames hkey).symm⟩

theorem mono (h : Agree base root apart d d') (hapart : ∀ key, apart key → apart' key) :
    Agree base root apart' d d' :=
  ⟨h.rooted, h.rooted', h.folder,
    fun names hnames hkey => h.file names hnames fun happly => hkey (hapart _ happly)⟩

/-- **A change to a path that is apart goes unnoticed.** -/
theorem change_left (h : Agree base root apart d d') (hnames : LeadToFile names)
    (hapart : apart (base.descend names).key) (hkeeps : KeepsFolders d d₁)
    (hsame : ∀ l, l ≠ names ++ root → d₁.entry? l = d.entry? l) : Agree base root apart d₁ d' where
  rooted := h.rooted.mono hkeeps
  rooted' := h.rooted'
  folder outer houter := by
    rw [hsame, h.folder outer houter]
    intro heq
    rw [List.append_cancel_right heq] at houter
    exact hnames.not_bare houter
  file names' hnames' hkey := by
    rw [hsame, h.file names' hnames' hkey]
    intro heq
    rw [List.append_cancel_right heq] at hkey
    exact hkey hapart

theorem without_left (h : Agree base root apart d d') (hnames : LeadToFile names)
    (hapart : apart (base.descend names).key) :
    Agree base root apart (d.without (base.descend names)) d' := by
  cases hloc : d.fileLocation (base.descend names) with
  | error fault =>
    unfold without removeFile
    rw [hloc]
    exact h
  | ok loc =>
    obtain ⟨hleads, -⟩ := fileLocation_eq_ok_iff.mp hloc
    obtain rfl := h.rooted.eq_of_fileLocation hnames hloc
    refine h.change_left hnames hapart (without_spec hleads).1 fun l hl => ?_
    unfold without removeFile
    rw [hloc]
    dsimp only
    cases hentry : d.entry? (names ++ root) with
    | none => rfl
    | some entry => exact (entry?_erase d hleads.ne_nil l).trans (if_neg (Ne.symm hl))

theorem foldl_without_left : ∀ {paths : List Path} {d : Disk}, Agree base root apart d d' →
    (∀ p ∈ paths, ∃ names, LeadToFile names ∧ p = base.descend names ∧ apart p.key) →
    Agree base root apart (paths.foldl without d) d'
  | [], _, h, _ => h
  | p :: rest, d, h, hpaths => by
    obtain ⟨⟨names, hnames, rfl, hapart⟩, hrest⟩ := List.forall_mem_cons.mp hpaths
    rw [List.foldl_cons]
    exact foldl_without_left (h.without_left hnames hapart) hrest

/-! ### Making folders -/

/-- Bare names lead to the same place. -/
theorem foldlM_enter_eq (h : Agree base root apart d d') : ∀ outer : List String,
    (∀ s ∈ outer, Bare s) → outer.reverse.foldlM d.enter root = outer.reverse.foldlM d'.enter root
  | [], _ => rfl
  | name :: outer, hbare => by
    obtain ⟨-, houter⟩ := List.forall_mem_cons.mp hbare
    have ih := h.foldlM_enter_eq outer houter
    rw [List.reverse_cons, List.foldlM_append, List.foldlM_append, ← ih]
    cases hloc : outer.reverse.foldlM d.enter root with
    | error fault => rfl
    | ok loc =>
      obtain rfl := foldlM_enter_eq_ok (fun s hs => (houter s (List.mem_reverse.mp hs)).proper) hloc
      rw [List.reverse_reverse]
      show (d.enter (outer ++ root) name >>= _) = (d'.enter (outer ++ root) name >>= _)
      unfold enter requireFolder
      rw [h.folder outer houter]
      rfl

theorem locate_eq (h : Agree base root apart d d') (houter : ∀ s ∈ outer, Bare s) (name : String) :
    d.locate root outer name = d'.locate root outer name := by
  unfold locate
  rw [← h.foldlM_enter_eq outer houter]
  cases hloc : outer.reverse.foldlM d.enter root with
  | error fault => rfl
  | ok loc =>
    obtain rfl := foldlM_enter_eq_ok (fun s hs => (houter s (List.mem_reverse.mp hs)).proper) hloc
    rw [List.reverse_reverse]
    show (d.requireFolder (outer ++ root) >>= _) = (d'.requireFolder (outer ++ root) >>= _)
    unfold requireFolder
    rw [h.folder outer houter]

theorem isFolder_eq (h : Agree base root apart d d') (houter : ∀ s ∈ outer, Bare s) :
    d.isFolder root outer = d'.isFolder root outer := by
  unfold isFolder
  rw [← h.foldlM_enter_eq outer houter]
  cases hloc : outer.reverse.foldlM d.enter root with
  | error fault => rfl
  | ok loc =>
    obtain rfl := foldlM_enter_eq_ok (fun s hs => (houter s (List.mem_reverse.mp hs)).proper) hloc
    rw [List.reverse_reverse]
    dsimp only
    rw [h.folder outer houter]

/-- A folder is put in one place on both disks. -/
theorem put_folder (h : Agree base root apart d d') (houter : outer ≠ []) :
    Agree base root apart (d.put (outer ++ root) .folder) (d'.put (outer ++ root) .folder) := by
  have hne : outer ++ root ≠ [] := List.append_ne_nil_of_left_ne_nil houter _
  refine ⟨h.rooted.mono (change_put_folder hne).toKeepsFolders,
    h.rooted'.mono (change_put_folder hne).toKeepsFolders, fun outer' houter' => ?_,
    fun names hnames hkey => ?_⟩
  · rw [entry?_put d hne, entry?_put d' hne, h.folder outer' houter']
  · rw [entry?_put d hne, entry?_put d' hne, h.file names hnames hkey]

theorem makeFolder (h : Agree base root apart d d') (hbare : ∀ s ∈ outer, Bare s) :
    (∃ fault, d.makeFolder root outer = .error fault ∧ d'.makeFolder root outer = .error fault) ∨
    ∃ made made', d.makeFolder root outer = .ok made ∧ d'.makeFolder root outer = .ok made' ∧
      Agree base root apart made made' := by
  obtain _ | ⟨name, outer⟩ := outer
  · exact Or.inl ⟨_, rfl, rfl⟩
  obtain ⟨-, houter⟩ := List.forall_mem_cons.mp hbare
  rw [makeFolder_cons, makeFolder_cons, ← h.locate_eq houter]
  cases hlocate : d.locate root outer name with
  | error fault => exact Or.inl ⟨fault, rfl, rfl⟩
  | ok loc =>
    obtain rfl := eq_of_locate (fun s hs => (houter s hs).proper) hlocate
    have hentry := h.folder (name :: outer) hbare
    by_cases hthere : (name = ".." || (d.entry? (name :: outer ++ root)).isSome) = true
    · have hthere' := hthere
      rw [hentry] at hthere'
      exact Or.inl ⟨.alreadyExists, if_pos hthere, if_pos hthere'⟩
    · have hthere' := hthere
      rw [hentry] at hthere'
      exact Or.inr ⟨_, _, if_neg hthere, if_neg hthere', h.put_folder (List.cons_ne_nil _ _)⟩

theorem makeFolders (h : Agree base root apart d d') : ∀ outer : List String,
    (∀ s ∈ outer, Bare s) → (d.makeFolders root outer).2 = (d'.makeFolders root outer).2 ∧
      Agree base root apart (d.makeFolders root outer).1 (d'.makeFolders root outer).1
  | [], _ => ⟨rfl, h⟩
  | name :: outer, hbare => by
    obtain ⟨-, houter⟩ := List.forall_mem_cons.mp hbare
    obtain ⟨hfault, haround⟩ := h.makeFolders outer houter
    unfold Disk.makeFolders
    obtain ⟨fault, hmade, hmade'⟩ | ⟨made, made', hmade, hmade', hagree⟩ := h.makeFolder hbare
    · rw [hmade, hmade', ← h.isFolder_eq hbare]
      cases fault with
      | notFound =>
        rcases hmake : d.makeFolders root outer with ⟨around, fault?⟩
        rcases hmake' : d'.makeFolders root outer with ⟨around', fault?'⟩
        rw [hmake, hmake'] at hfault haround
        dsimp only at hfault haround
        subst hfault
        cases fault? with
        | some fault => exact ⟨rfl, haround⟩
        | none =>
          dsimp only
          obtain ⟨fault, hlast, hlast'⟩ | ⟨made, made', hlast, hlast', hagree⟩ :=
            haround.makeFolder hbare
          · rw [hlast, hlast', ← haround.isFolder_eq hbare]
            exact ⟨rfl, haround⟩
          · rw [hlast, hlast']
            exact ⟨rfl, hagree⟩
      | _ => exact ⟨rfl, h⟩
    · rw [hmade, hmade']
      exact ⟨rfl, hagree⟩

/-- **Making the folder of a file** ends the same way on both disks. -/
theorem createFolder (h : Agree base root apart d d') (hnames : LeadToFile names) :
    (d.createFolder (base.descend names).parent).2 =
        (d'.createFolder (base.descend names).parent).2 ∧
      Agree base root apart (d.createFolder (base.descend names).parent).1
        (d'.createFolder (base.descend names).parent).1 := by
  obtain _ | ⟨name, outer⟩ := names
  · cases hnames
  have houter := hnames.outer
  obtain ⟨hfault, hagree⟩ := h.makeFolders outer houter
  rw [h.rooted.createFolder_eq hnames, h.rooted'.createFolder_eq hnames]
  cases refusal? (base.descend (name :: outer)).parent with
  | some fault => exact ⟨rfl, h⟩
  | none =>
    dsimp only
    rw [hfault]
    exact ⟨rfl, hagree⟩

/-! ### Writing files -/

/-- A file cannot be found on either disk, or else it is found unless a folder is in its place. -/
theorem fileLocation (h : Agree base root apart d d') (hnames : LeadToFile names) :
    (∃ fault, d.fileLocation (base.descend names) = .error fault ∧
      d'.fileLocation (base.descend names) = .error fault) ∨
    (d.fileLocation (base.descend names) =
        if d.entry? (names ++ root) = some .folder then .error .isAFolder
        else .ok (names ++ root)) ∧
      d'.fileLocation (base.descend names) =
        if d'.entry? (names ++ root) = some .folder then .error .isAFolder
        else .ok (names ++ root) := by
  obtain _ | ⟨name, outer⟩ := names
  · cases hnames
  have houter := hnames.outer
  rw [h.rooted.fileLocation_eq hnames, h.rooted'.fileLocation_eq hnames, ← h.locate_eq houter]
  cases refusal? (base.descend (name :: outer)) with
  | some fault => exact Or.inl ⟨fault, rfl, rfl⟩
  | none =>
    cases hlocate : d.locate root outer name with
    | error fault => exact Or.inl ⟨fault, rfl, rfl⟩
    | ok loc =>
      obtain rfl := eq_of_locate (fun s hs => (houter s hs).proper) hlocate
      exact Or.inr ⟨rfl, rfl⟩

/-- A file is put in a place that is apart. -/
theorem put_left (h : Agree base root apart d d') (hnames : LeadToFile names)
    (hapart : apart (base.descend names).key) (hfolder : d.entry? (names ++ root) ≠ some .folder)
    (content : Content) : Agree base root apart (d.put (names ++ root) (.file content)) d' := by
  have hne : names ++ root ≠ [] := by
    cases hnames
    exact List.cons_ne_nil _ _
  refine h.change_left hnames hapart ⟨rfl, fun l hl => ?_⟩ fun l hl => ?_
  · rw [entry?_put d hne, if_neg]
    · exact hl
    · rintro rfl
      exact hfolder hl
  · rw [entry?_put d hne, if_neg (Ne.symm hl)]

/-- **Writing a file that is not apart** ends the same way on both disks, whatever is written. -/
theorem writeFile (h : Agree base root apart d d') (hnames : LeadToFile names)
    (hkey : ¬ apart (base.descend names).key) (value value' : String) :
    (∃ e, d.writeFile (base.descend names) value = .error e ∧
      d'.writeFile (base.descend names) value' = .error e) ∨
    ∃ made made', d.writeFile (base.descend names) value = .ok made ∧
      d'.writeFile (base.descend names) value' = .ok made' ∧
      Agree base root (fun key => apart key ∨ key = (base.descend names).key) made made' := by
  have hentry := h.file names hnames hkey
  unfold Disk.writeFile
  obtain ⟨fault, hloc, hloc'⟩ | ⟨hloc, hloc'⟩ := h.fileLocation hnames
  · rw [hloc, hloc']
    exact Or.inl ⟨_, rfl, rfl⟩
  · by_cases hfolder : d.entry? (names ++ root) = some .folder
    · rw [hloc, hloc', ← hentry, if_pos hfolder]
      exact Or.inl ⟨_, rfl, rfl⟩
    · rw [hloc, hloc', ← hentry, if_neg hfolder]
      have hapart : Agree base root (fun key => apart key ∨ key = (base.descend names).key) d d' :=
        h.mono fun key => Or.inl
      have hleft := hapart.put_left hnames (Or.inr rfl) hfolder (.text value)
      rw [hentry] at hfolder
      exact Or.inr ⟨_, _, rfl, rfl,
        (hleft.symm.put_left hnames (Or.inr rfl) hfolder (.text value')).symm⟩

/-- **Writing a file where a folder is in its place** on the second disk: what fails on the first
one fails likewise on the second, and what is written on the first fails there. -/
theorem writeFile_of_folder (h : Agree base root apart d d') (hnames : LeadToFile names)
    (hapart : apart (base.descend names).key)
    (hfolder : d'.entry? (names ++ root) = some .folder) (value value' : String) :
    (∃ e, d.writeFile (base.descend names) value = .error e ∧
      d'.writeFile (base.descend names) value' = .error e) ∨
    ∃ made, d.writeFile (base.descend names) value = .ok made ∧
      d'.writeFile (base.descend names) value' =
        .error ⟨.createFile, base.descend names, .isAFolder⟩ ∧
      Agree base root apart made d' := by
  unfold Disk.writeFile
  obtain ⟨fault, hloc, hloc'⟩ | ⟨hloc, hloc'⟩ := h.fileLocation hnames
  · rw [hloc, hloc']
    exact Or.inl ⟨_, rfl, rfl⟩
  · rw [hloc, hloc', if_pos hfolder]
    by_cases hthere : d.entry? (names ++ root) = some .folder
    · rw [if_pos hthere]
      exact Or.inl ⟨_, rfl, rfl⟩
    · rw [if_neg hthere]
      exact Or.inr ⟨_, rfl, rfl, h.put_left hnames hapart hthere (.text value)⟩

end Agree

/-! ### Disks that differ in the place of one file -/

theorem rooted_of_resolve (hnames : LeadToFile names)
    (h : d.resolve (base.descend names) = .ok loc) : ∃ root, d.Rooted base root ∧
      loc = names ++ root := by
  have hreaches := reaches_of_resolve h
  unfold Reaches at hreaches
  rw [start_descend d hnames.plain, Path.names_descend hnames.plain, List.foldlM_append]
    at hreaches
  obtain ⟨root, hbase, hnamed⟩ := bind_eq_ok_iff.mp hreaches
  have hproper : ∀ s ∈ names.reverse, Path.Proper s := fun s hs =>
    hnames.proper s (List.mem_reverse.mp hs)
  have hloc := foldlM_enter_eq_ok hproper hnamed
  rw [List.reverse_reverse] at hloc
  refine ⟨root, ⟨hbase, ?_⟩, hloc⟩
  -- The first of the names is looked up in the folder.
  rcases hreverse : names.reverse with _ | ⟨first, rest⟩
  · cases hnames
    simp at hreverse
  · rw [hreverse] at hnamed hproper
    rw [List.foldlM_cons] at hnamed
    obtain ⟨next, hfirst, -⟩ := bind_eq_ok_iff.mp hnamed
    exact (enter_eq_ok (hproper first List.mem_cons_self) hfirst).1

/-- **Disks that differ in the place of one file only** agree but for that file. -/
theorem agree_of_resolve (hnames : LeadToFile names) (h : d.resolve (base.descend names) = .ok loc)
    (h' : d'.resolve (base.descend names) = .ok loc)
    (hsame : ∀ l, ¬ loc <:+ l → d'.entry? l = d.entry? l) : ∃ root, loc = names ++ root ∧
      Agree base root (· = (base.descend names).key) d d' := by
  obtain ⟨root, hrooted, rfl⟩ := rooted_of_resolve hnames h
  obtain ⟨root', hrooted', hloc⟩ := rooted_of_resolve hnames h'
  obtain rfl := List.append_cancel_left hloc
  refine ⟨root, rfl, hrooted, hrooted', fun outer houter => (hsame _ fun hsuffix => ?_).symm,
    fun names' hnames' hkey => (hsame _ fun hsuffix => ?_).symm⟩
  · exact hnames.not_suffix_of_bare houter (List.suffix_append_self_iff.mp hsuffix)
  · rw [hnames.eq_of_suffix hnames' (List.suffix_append_self_iff.mp hsuffix)] at hkey
    exact hkey rfl

end RadiusDictionary.Disk
