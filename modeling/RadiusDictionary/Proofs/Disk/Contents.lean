import RadiusDictionary.Proofs.Disk
import RadiusDictionary.Proofs.Path.Below

/-! # What files hold

`Disk.Change` says where files may lie. Here is what they hold. A file stays as it is unless a path
that was written or removed leads to its place (`Disk.Spares`), and a file that was written holds
its text (`Disk.Holds`).

Paths below one folder lead to one place only if they are equal (`Disk.LeadsTo.path_eq`), so that a
file below a folder is safe from all that is written there under other paths. -/

namespace RadiusDictionary

namespace Disk

open RadiusDictionary.Path (Proper Within Below)

variable {d d' d'' : Disk} {p q base : Path} {loc loc' : Location}

theorem enter_eq_ok {name : String} (h : Proper name) (he : d.enter loc name = .ok loc') :
    d.entry? loc = some .folder ∧ loc' = name :: loc := by
  unfold enter at he
  obtain ⟨u, hrequire, he⟩ := bind_eq_ok_iff.mp he
  rw [if_neg (by simp [h.empty, h.here]), if_neg h.up] at he
  by_cases hlong : isTooLong name = true
  · rw [if_pos hlong] at he; cases he
  · rw [if_neg hlong] at he
    cases he
    exact ⟨requireFolder_eq_ok_iff.mp hrequire, rfl⟩

/-- Names lead further down, each by one. -/
theorem foldlM_enter_eq_ok : ∀ {names : List String} {loc : Location}, (∀ s ∈ names, Proper s) →
    names.foldlM d.enter loc = .ok loc' → loc' = names.reverse ++ loc
  | [], _, _, he => by cases he; rfl
  | name :: rest, loc, h, he => by
    obtain ⟨hname, hrest⟩ := List.forall_mem_cons.mp h
    rw [List.foldlM_cons] at he
    obtain ⟨next, hnext, he⟩ := bind_eq_ok_iff.mp he
    obtain ⟨-, rfl⟩ := enter_eq_ok hname hnext
    rw [foldlM_enter_eq_ok hrest he, List.reverse_cons, List.append_assoc]
    rfl

/-- The place to which the names of a path lead. -/
def Reaches (d : Disk) (p : Path) (loc : Location) : Prop :=
  p.names.foldlM d.enter (d.start p) = .ok loc

/-- A path below a folder leads to a place below that of the folder. -/
theorem LeadsTo.below (h : d.LeadsTo p loc) (hp : Below base p) : ∃ names there,
    names ≠ [] ∧ p = names.foldl Path.joinText base ∧ d.Reaches base there ∧
      loc = names.reverse ++ there := by
  obtain ⟨folder, name, ⟨names, hnames, rfl⟩, hname, rfl⟩ := hp
  obtain ⟨-, last, outer, hreverse, -, hlocate⟩ := h
  rw [Path.names_joinText hname.toPlain,
    Path.names_foldl_joinText names base fun s hs => (hnames s hs).toPlain,
    List.reverse_append, List.reverse_singleton, List.singleton_append] at hreverse
  obtain ⟨rfl, rfl⟩ := List.cons.inj hreverse
  have hstart : d.start ((names.foldl Path.joinText base).joinText name) = d.start base := by
    unfold start
    rw [Path.isAbsolute_joinText hname.toPlain,
      Path.isAbsolute_foldl_joinText names base fun s hs => (hnames s hs).toPlain]
  rw [hstart] at hlocate
  unfold locate at hlocate
  obtain ⟨around, houter, hlocate⟩ := bind_eq_ok_iff.mp hlocate
  obtain ⟨u, -, hlocate⟩ := bind_eq_ok_iff.mp hlocate
  rw [List.reverse_reverse, List.foldlM_append] at houter
  obtain ⟨there, hthere, houter⟩ := bind_eq_ok_iff.mp houter
  obtain rfl := foldlM_enter_eq_ok hnames houter
  by_cases hlong : isTooLong name = true
  · rw [if_pos hlong] at hlocate; cases hlocate
  · rw [if_neg hlong] at hlocate
    cases hlocate
    refine ⟨names ++ [name], there, by simp, by rw [List.foldl_append]; rfl, hthere, ?_⟩
    rw [List.reverse_append]
    rfl

/-- **Different paths below one folder lead to different places.** -/
theorem LeadsTo.path_eq (h : d.LeadsTo p loc) (h' : d.LeadsTo q loc) (hp : Below base p)
    (hq : Below base q) : p = q := by
  obtain ⟨names, there, -, rfl, hthere, rfl⟩ := h.below hp
  obtain ⟨names', there', -, rfl, hthere', heq⟩ := h'.below hq
  unfold Reaches at hthere hthere'
  rw [hthere] at hthere'
  cases hthere'
  rw [List.reverse_inj.mp (List.append_cancel_right heq)]

/-! ### Reading what a path leads to -/

/-- Whether a piece of a path counts. -/
def counts (piece : String) : Bool := piece ≠ "" && piece ≠ "."

/-- A piece that does not count leads no further. -/
theorem enter_of_not_counts {piece : String} (h : ¬ counts piece = true) :
    d.enter loc piece = d.requireFolder loc >>= fun _ => .ok loc := by
  have hpiece : (piece = "" || piece = ".") = true := by
    unfold counts at h
    by_cases hempty : piece = ""
    · simp [hempty]
    · simpa [hempty] using h
  unfold enter
  simp only [hpiece, if_true]
  rfl

theorem folder_of_enter {piece : String} (h : d.enter loc piece = .ok loc') :
    d.entry? loc = some .folder := by
  unfold enter at h
  obtain ⟨u, hrequire, -⟩ := bind_eq_ok_iff.mp h
  exact requireFolder_eq_ok_iff.mp hrequire

/-- What leads somewhere starts in a folder, unless it leads nowhere else. -/
theorem folder_of_foldlM_enter {names : List String} (h : names.foldlM d.enter loc = .ok loc')
    (hfolder : d.entry? loc' = some .folder) : d.entry? loc = some .folder := by
  cases names with
  | nil => cases h; exact hfolder
  | cons name rest =>
    rw [List.foldlM_cons] at h
    obtain ⟨next, hnext, -⟩ := bind_eq_ok_iff.mp h
    exact folder_of_enter hnext

/-- The pieces of a path lead to a folder if its names do. -/
theorem foldlM_pieces {pieces : List String} :
    ∀ {loc : Location}, d.entry? loc' = some .folder →
    (pieces.filter counts).foldlM d.enter loc = .ok loc' →
    pieces.foldlM d.enter loc = .ok loc' := by
  induction pieces with
  | nil => exact fun _ h => h
  | cons piece rest ih =>
    intro loc hfolder h
    by_cases hcounts : counts piece = true
    · rw [List.filter_cons_of_pos hcounts, List.foldlM_cons] at h
      obtain ⟨next, hnext, h⟩ := bind_eq_ok_iff.mp h
      rw [List.foldlM_cons]
      exact bind_eq_ok_iff.mpr ⟨next, hnext, ih hfolder h⟩
    · rw [List.filter_cons_of_neg hcounts] at h
      rw [List.foldlM_cons, enter_of_not_counts hcounts]
      have hrequire : d.requireFolder loc = .ok () :=
        requireFolder_eq_ok_iff.mpr (folder_of_foldlM_enter h hfolder)
      exact bind_eq_ok_iff.mpr ⟨loc, bind_eq_ok_iff.mpr ⟨(), hrequire, rfl⟩, ih hfolder h⟩

/-- The names of a path lead where its pieces do. -/
theorem foldlM_names {pieces : List String} : ∀ {loc : Location},
    pieces.foldlM d.enter loc = .ok loc' →
    (pieces.filter counts).foldlM d.enter loc = .ok loc' := by
  induction pieces with
  | nil => exact fun h => h
  | cons piece rest ih =>
    intro loc h
    rw [List.foldlM_cons] at h
    obtain ⟨next, hnext, h⟩ := bind_eq_ok_iff.mp h
    by_cases hcounts : counts piece = true
    · rw [List.filter_cons_of_pos hcounts, List.foldlM_cons]
      exact bind_eq_ok_iff.mpr ⟨next, hnext, ih h⟩
    · rw [List.filter_cons_of_neg hcounts]
      rw [enter_of_not_counts hcounts] at hnext
      obtain ⟨u, -, hnext⟩ := bind_eq_ok_iff.mp hnext
      cases hnext
      exact ih h

theorem reaches_of_resolve (h : d.resolve p = .ok loc) : d.Reaches p loc := by
  unfold resolve at h
  cases hrefusal : refusal? p with
  | some fault => rw [hrefusal] at h; cases h
  | none =>
    rw [hrefusal] at h
    by_cases hempty : p.pieces = [""]
    · rw [if_pos hempty] at h; cases h
    · rw [if_neg hempty] at h
      exact foldlM_names h

theorem Reaches.mono (hd : KeepsFolders d d') (h : d.Reaches p loc) : d'.Reaches p loc := by
  have hstart : d'.start p = d.start p := by unfold start; rw [hd.here_eq]
  unfold Reaches at h ⊢
  rw [hstart]
  exact foldlM_enter_mono hd h

/-- A path that ends with a name is resolved to the place to which it leads. -/
theorem resolve_of_leadsTo {folder : Path} {name : String} (hname : Proper name)
    (h : d.LeadsTo (folder.joinText name) loc) : d.resolve (folder.joinText name) = .ok loc := by
  obtain ⟨hrefusal, last, outer, hreverse, -, hlocate⟩ := h
  rw [Path.names_joinText hname.toPlain, List.reverse_append, List.reverse_singleton,
    List.singleton_append] at hreverse
  obtain ⟨rfl, rfl⟩ := List.cons.inj hreverse
  have hpieces := congrArg Path.pieces (Path.joinText_eq (p := folder) hname.toPlain)
  unfold locate at hlocate
  obtain ⟨around, houter, hlocate⟩ := bind_eq_ok_iff.mp hlocate
  obtain ⟨u, hrequire, hlocate⟩ := bind_eq_ok_iff.mp hlocate
  have hfolder := requireFolder_eq_ok_iff.mp hrequire
  rw [List.reverse_reverse, ← Path.names_stem] at houter
  have hlast : d.enter around name = .ok loc := by
    unfold enter
    rw [if_neg (by simp [hname.empty, hname.here]), if_neg hname.up]
    exact bind_eq_ok_iff.mpr ⟨u, hrequire, hlocate⟩
  unfold resolve
  rw [hrefusal, if_neg, hpieces, List.foldlM_append]
  · refine bind_eq_ok_iff.mpr ⟨around, foldlM_pieces hfolder houter, ?_⟩
    rw [List.foldlM_cons]
    exact bind_eq_ok_iff.mpr ⟨loc, hlast, rfl⟩
  · rw [hpieces]
    intro heq
    have hend := congrArg List.getLast? heq
    rw [List.getLast?_concat] at hend
    exact hname.empty (Option.some.inj hend)

/-! ### Files that stay -/

/-- Files stay as they are, except where one of the paths `touched` leads. -/
def Spares (touched : List Path) (d d' : Disk) : Prop :=
  ∀ loc content, d.entry? loc = some (.file content) → (∀ p ∈ touched, ¬ d'.LeadsTo p loc) →
    d'.entry? loc = some (.file content)

theorem Spares.refl (touched : List Path) (d : Disk) : Spares touched d d := fun _ _ h _ => h

theorem Spares.trans {touched touched' : List Path} (h : Spares touched d d')
    (h' : Spares touched' d' d'') (hd : KeepsFolders d' d'') :
    Spares (touched ++ touched') d d'' := by
  intro loc content hentry hnot
  refine h' loc content (h loc content hentry fun p hp hleads => ?_) fun p hp => ?_
  · exact hnot p (List.mem_append_left _ hp) (hleads.mono hd)
  · exact hnot p (List.mem_append_right _ hp)

theorem spares_makeFolder {start : Location} {names : List String}
    (h : d.makeFolder start names = .ok d') : Spares [] d d' := by
  rcases names with _ | ⟨name, outer⟩
  · cases h
  unfold makeFolder at h
  obtain ⟨there, hlocate, h⟩ := bind_eq_ok_iff.mp h
  by_cases hthere : (name = ".." || (d.entry? there).isSome) = true
  · rw [if_pos hthere] at h; cases h
  · rw [if_neg hthere] at h
    cases h
    intro loc content hentry _
    rw [entry?_put d (ne_nil_of_locate hlocate), if_neg]
    · exact hentry
    · rintro rfl
      exact hthere (by simp [hentry])

theorem spares_makeFolders (start : Location) : ∀ names : List String,
    Spares [] d (d.makeFolders start names).1
  | [] => .refl [] d
  | name :: outer => by
    have houter := spares_makeFolders start outer
    unfold makeFolders
    cases hmade : d.makeFolder start (name :: outer) with
    | ok made => exact spares_makeFolder hmade
    | error fault =>
      cases fault with
      | notFound =>
        rcases haround : d.makeFolders start outer with ⟨around, _ | fault⟩
        · rw [haround] at houter
          simp only
          cases hlast : around.makeFolder start (name :: outer) with
          | ok made =>
            exact houter.trans (spares_makeFolder hlast) (change_makeFolder hlast).toKeepsFolders
          | error fault => exact houter
        · rw [haround] at houter
          exact houter
      | _ => exact .refl [] d

theorem spares_createFolder (d : Disk) (p : Path) : Spares [] d (d.createFolder p).1 := by
  unfold createFolder
  cases refusal? p with
  | some fault => exact .refl [] d
  | none => exact spares_makeFolders (d.start p) p.names.reverse

/-- The removal of a file spares all others. -/
theorem spares_without (hleads : d.LeadsTo p loc) : Spares [p] d (d.without p) := by
  have hkeeps := (without_spec hleads).1
  intro l content hentry hnot
  have hne : loc ≠ l := by
    rintro rfl
    exact hnot p (List.mem_singleton_self p) (hleads.mono hkeeps)
  unfold without removeFile
  cases hloc : d.fileLocation p with
  | error fault => exact hentry
  | ok there =>
    obtain ⟨hthere, -⟩ := fileLocation_eq_ok_iff.mp hloc
    cases hleads.unique hthere
    cases hsome : d.entry? loc with
    | none => simpa [hsome] using hentry
    | some entry =>
      simp only [hsome, Option.isSome_some, if_true]
      rw [entry?_erase d hleads.ne_nil, if_neg hne]
      exact hentry

/-- So does the removal of several files. -/
theorem Spares.foldl_without {touched : List Path} : ∀ {paths : List Path} {d' : Disk},
    Spares touched d d' → (∀ p ∈ paths, p ∈ touched ∧ ∃ loc, d'.LeadsTo p loc) →
      Spares touched d (paths.foldl without d')
  | [], _, h, _ => h
  | p :: paths, d', h, hpaths => by
    obtain ⟨⟨hp, there, hthere⟩, hrest⟩ := List.forall_mem_cons.mp hpaths
    have hkeeps := (without_spec hthere).1
    have hfirst : Spares touched d (d'.without p) := by
      intro loc content hentry hnot
      refine spares_without hthere loc content (h loc content hentry fun q hq hleads => ?_) ?_
      · exact hnot q hq (hleads.mono hkeeps)
      · exact List.forall_mem_singleton.mpr (hnot p hp)
    have hothers : ∀ q ∈ paths, q ∈ touched ∧ ∃ loc, LeadsTo (d'.without p) q loc := by
      intro q hq
      obtain ⟨hmem, loc, hloc⟩ := hrest q hq
      exact ⟨hmem, loc, hloc.mono hkeeps⟩
    rw [List.foldl_cons]
    exact foldl_without hfirst hothers

/-! ### Files with a text -/

/-- A file with the text lies where the path leads. -/
def Holds (d : Disk) (p : Path) (text : String) : Prop :=
  ∃ loc, d.LeadsTo p loc ∧ d.entry? loc = some (.file (.text text))

/-- The text can be read. -/
theorem Holds.readText {text : String} (h : d.Holds p text) (hp : Below base p) :
    d.readText p = .ok text := by
  obtain ⟨loc, hleads, hentry⟩ := h
  obtain ⟨folder, name, -, hname, rfl⟩ := hp
  unfold Disk.readText
  rw [resolve_of_leadsTo hname hleads]
  simp only [hentry]

/-- **A file holds its text while other paths below its folder are written.** -/
theorem Holds.mono {touched : List Path} {text : String} (h : d.Holds p text)
    (hspares : Spares touched d d') (hd : KeepsFolders d d') (hp : Below base p)
    (hother : ∀ q ∈ touched, Below base q ∧ q ≠ p) : d'.Holds p text := by
  obtain ⟨loc, hleads, hentry⟩ := h
  refine ⟨loc, hleads.mono hd, hspares loc _ hentry fun q hq hleads' => ?_⟩
  obtain ⟨hbelow, hne⟩ := hother q hq
  exact hne (hleads'.path_eq (hleads.mono hd) hbelow hp)

/-- A file that is written holds its text, and all others are spared. -/
theorem holds_writeFile {value : String} (h : d.writeFile p value = .ok d') :
    d'.Holds p value ∧ Spares [p] d d' := by
  have hchange := change_writeFile h
  unfold writeFile at h
  cases hloc : d.fileLocation p with
  | error fault => rw [hloc] at h; cases h
  | ok loc =>
    rw [hloc] at h
    cases h
    obtain ⟨hleads, -⟩ := fileLocation_eq_ok_iff.mp hloc
    have hleads' := hleads.mono hchange.toKeepsFolders
    refine ⟨⟨loc, hleads', ?_⟩, fun l content hentry hnot => ?_⟩
    · rw [entry?_put d hleads.ne_nil, if_pos rfl]
    · rw [entry?_put d hleads.ne_nil, if_neg]
      · exact hentry
      · rintro rfl
        exact hnot p (List.mem_singleton_self p) hleads'

end Disk

end RadiusDictionary
