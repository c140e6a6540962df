import RadiusDictionary.Proofs.Disk.Survey

/-! # Making folders

What `Disk.makeFolders` does is known from a survey of the way (`IsTree.makeFolders_spec`): it
leaves the disk with folders in all places that are surveyed, and fails exactly if the survey finds
an obstacle. If `..` comes first on the way, or not at all, then the survey tells the fault as well
(`Disk.verdict`). Otherwise it does not: a missing folder that is left again is made first, and what
is wrong behind it is found at another point once it is there. -/

namespace RadiusDictionary.Disk

/-- The fault of making a folder where the obstacle is. -/
def Obstacle.lastFault : Obstacle → Fault
  | tooLong => .nameTooLong
  | file => .alreadyExists

/-- The fault of making folders of so many names, by what a survey of the way finds. -/
def verdict (count : Nat) (found : List Location × Option Obstacle) : Option Fault :=
  found.2.map fun o => if found.1.length + 1 = count then o.lastFault else o.fault

/-- What came of making folders, given by their names with the innermost first. -/
structure Made (d : Disk) (start : Location) (names : List String) (r : Disk × Option Fault) :
    Prop where
  sets : Sets (d.survey start names.reverse).1 (some .folder) d r.1
  tree : r.1.IsTree
  none_iff : r.2 = none ↔ (d.survey start names.reverse).2 = none
  fault : Direct names.reverse →
    r.2 = verdict names.length (d.survey start names.reverse)

variable {d d' : Disk} {start : Location} {name : String} {names outer : List String}

/-! ### One folder -/

/-- Tries to make a folder in one that is there. -/
def tryFolder (d : Disk) (start : Location) (names : List String) : Disk × Option Fault :=
  match d.makeFolder start names with
  | .ok made => (made, none)
  | .error fault => (d, if d.isFolder start names then none else some fault)

theorem tryFolder_of_ok (h : d.makeFolder start names = .ok d') :
    d.tryFolder start names = (d', none) := by
  unfold tryFolder
  rw [h]

theorem tryFolder_of_error {fault : Fault} (h : d.makeFolder start names = .error fault) :
    d.tryFolder start names = (d, if d.isFolder start names then none else some fault) := by
  unfold tryFolder
  rw [h]

theorem makeFolders_of_ne (h : d.makeFolder start (name :: outer) ≠ .error .notFound) :
    d.makeFolders start (name :: outer) = d.tryFolder start (name :: outer) := by
  unfold makeFolders tryFolder
  cases hmade : d.makeFolder start (name :: outer) with
  | ok made => rfl
  | error fault =>
    cases fault with
    | notFound => exact absurd hmade h
    | _ => rfl

theorem makeFolders_of_notFound (h : d.makeFolder start (name :: outer) = .error .notFound) :
    d.makeFolders start (name :: outer) =
      match d.makeFolders start outer with
      | (around, some fault) => (around, some fault)
      | (around, none) => around.tryFolder start (name :: outer) := by
  rw [makeFolders, h]
  rcases d.makeFolders start outer with ⟨around, _ | fault⟩
  · unfold tryFolder
    rfl
  · rfl

/-- Where a walk gets stuck, nothing is made. -/
theorem tryFolder_of_walk_error (name : String) {fault : Fault}
    (hwalk : d.walk start outer.reverse = .error fault) :
    d.makeFolder start (name :: outer) = .error fault ∧
    d.tryFolder start (name :: outer) = (d, some fault) := by
  have hmake : d.makeFolder start (name :: outer) = .error fault := by
    rw [makeFolder_cons, locate_eq_walk, hwalk]
    rfl
  have hnot : d.isFolder start (name :: outer) = false := by
    refine Bool.eq_false_iff.mpr fun hfolder => ?_
    obtain ⟨around, loc, hwalk', -⟩ := isFolder_cons_iff.mp hfolder
    rw [hwalk] at hwalk'
    cases hwalk'
  refine ⟨hmake, ?_⟩
  rw [tryFolder_of_error hmake, hnot]
  rfl

section Walk

variable {around loc : Location} {fault : Fault}
  (hwalk : d.walk start outer.reverse = .ok around)
include hwalk

/-- Where a walk leads, a folder is made unless something is there. -/
theorem makeFolder_of_walk (name : String) : d.makeFolder start (name :: outer) =
    if isTooLong name then .error .nameTooLong
    else if name = ".." || (d.entry? (name :: around)).isSome then .error .alreadyExists
    else .ok (d.put (name :: around) .folder) := by
  rw [makeFolder_cons, locate_eq_walk, hwalk]
  show (if _ then _ else _) >>= _ = _
  split <;> rfl

/-- A folder that cannot be made may be there. -/
theorem tryFolder_of_folder (hmake : d.makeFolder start (name :: outer) = .error fault)
    (henter : d.enter around name = .ok loc) (hfolder : d.entry? loc = some .folder) :
    d.tryFolder start (name :: outer) = (d, none) := by
  have hthere : d.isFolder start (name :: outer) = true :=
    isFolder_cons_iff.mpr ⟨around, loc, hwalk, henter, hfolder⟩
  rw [tryFolder_of_error hmake, if_pos hthere]

/-- A folder that can neither be made nor is there is missing. -/
theorem tryFolder_of_not_folder (hmake : d.makeFolder start (name :: outer) = .error fault)
    (hnot : ∀ loc, d.enter around name = .ok loc → d.entry? loc ≠ some .folder) :
    d.tryFolder start (name :: outer) = (d, some fault) := by
  have hmissing : ¬ d.isFolder start (name :: outer) = true := by
    intro hfolder
    obtain ⟨around', loc, hwalk', henter, hfolder⟩ := isFolder_cons_iff.mp hfolder
    rw [hwalk] at hwalk'
    cases hwalk'
    exact hnot loc henter hfolder
  rw [tryFolder_of_error hmake, if_neg hmissing]

/-- Where a walk leads, the folder of one more name is made or is there, unless there is an
obstacle. -/
theorem IsTree.tryFolder_of_walk (h : d.IsTree) (hname : counts name = true) :
    d.makeFolder start (name :: outer) ≠ .error .notFound ∧
    (d.tryFolder start (name :: outer)).2 = (d.obstacle? around name).map Obstacle.lastFault ∧
    (d.tryFolder start (name :: outer)).1.IsTree ∧
    Sets (d.survey around [name]).1 (some .folder) d
      (d.tryFolder start (name :: outer)).1 := by
  have haround := (walk_eq_ok_iff.mp hwalk).2
  have hmake := makeFolder_of_walk hwalk name
  have henter := enter_of_folder haround hname
  have hstep := d.step around name
  cases hobstacle : d.obstacle? around name with
  | none =>
    rw [survey_cons_of_none hobstacle]
    rw [hobstacle] at hstep
    cases hstep with
    | up hup =>
      subst hup
      have htail : d.entry? around.tail = some .folder := h.parent around (by rw [haround]; nofun)
      rw [if_neg (by decide), if_pos (by simp)] at hmake
      rw [if_pos rfl] at henter
      rw [tryFolder_of_folder hwalk hmake henter htail, hmake, next_up]
      exact ⟨nofun, rfl, h, .refl (List.forall_mem_singleton.mpr htail)⟩
    | down hup hlong hfile =>
      rw [if_neg hlong] at hmake
      rw [if_neg hup, if_neg hlong] at henter
      rw [next_of_ne hup]
      rcases hentry : d.entry? (name :: around) with _ | _ | content
      · have hsets : Sets [name :: around] (some .folder) d (d.put (name :: around) .folder) :=
          .put (List.cons_ne_nil _ _) .folder
        rw [if_neg (by simp [hup, hentry])] at hmake
        rw [tryFolder_of_ok hmake, hmake]
        exact ⟨nofun, rfl, h.sets hsets (fun _ => haround) (Or.inl rfl), hsets⟩
      · rw [if_pos (by simp [hentry])] at hmake
        rw [tryFolder_of_folder hwalk hmake henter hentry, hmake]
        exact ⟨nofun, rfl, h, .refl (List.forall_mem_singleton.mpr hentry)⟩
      · rw [isFile_iff.mpr ⟨content, hentry⟩] at hfile
        cases hfile
  | some o =>
    rw [survey_cons_of_some hobstacle]
    rw [hobstacle] at hstep
    have hsets : Sets [] (some .folder) d d := .refl (List.forall_mem_nil _)
    cases hstep with
    | tooLong hup hlong =>
      rw [if_pos hlong] at hmake
      rw [if_neg hup, if_pos hlong] at henter
      rw [tryFolder_of_not_folder hwalk hmake (by rw [henter]; nofun), hmake]
      exact ⟨nofun, rfl, h, hsets⟩
    | file hup hlong hfile =>
      obtain ⟨content, hentry⟩ := isFile_iff.mp hfile
      have hnot : ∀ loc, d.enter around name = .ok loc → d.entry? loc ≠ some .folder := by
        intro loc hloc
        rw [henter, if_neg hup, if_neg hlong] at hloc
        cases hloc
        rw [hentry]
        nofun
      rw [if_neg hlong, if_pos (by simp [hentry])] at hmake
      rw [tryFolder_of_not_folder hwalk hmake hnot, hmake]
      exact ⟨nofun, rfl, h, hsets⟩

end Walk

/-! ### All folders on a way -/

/-- There is a place for every name before the obstacle. -/
theorem length_survey : ∀ (names : List String) (loc : Location),
    match (d.survey loc names).2 with
    | none => (d.survey loc names).1.length = names.length
    | some _ => (d.survey loc names).1.length < names.length
  | [], _ => rfl
  | name :: rest, loc => by
    have hrest := length_survey rest (next loc name)
    cases hobstacle : d.obstacle? loc name with
    | some o =>
      rw [survey_cons_of_some hobstacle]
      exact Nat.succ_pos _
    | none =>
      rw [survey_cons_of_none hobstacle]
      dsimp only
      split <;> rename_i hend <;> rw [hend] at hrest
      · rw [List.length_cons, hrest, List.length_cons]
      · rw [List.length_cons, List.length_cons]
        exact Nat.succ_lt_succ hrest

theorem verdict_of_some {o : Obstacle} (h : (d.survey start outer.reverse).2 = some o) :
    verdict (name :: outer).length (d.survey start (name :: outer).reverse) = some o.fault := by
  have hlength := d.length_survey outer.reverse start
  rw [h, List.length_reverse] at hlength
  rw [List.reverse_cons, survey_append_of_some h, verdict, Option.map_some, if_neg]
  exact fun heq => absurd (Nat.succ.inj heq) (Nat.ne_of_lt hlength)

theorem survey_concat_of_none (h : (d.survey start names).2 = none) :
    (d.survey start (names ++ [name])).2 = d.obstacle? (names.foldl next start) name := by
  rw [survey_append_of_none h]
  cases hobstacle : d.obstacle? (names.foldl next start) name with
  | none => rw [survey_cons_of_none hobstacle]; rfl
  | some o => rw [survey_cons_of_some hobstacle]

theorem verdict_of_none (h : (d.survey start outer.reverse).2 = none) :
    verdict (name :: outer).length (d.survey start (name :: outer).reverse) =
      (d.obstacle? (outer.reverse.foldl next start) name).map Obstacle.lastFault := by
  have hlength := d.length_survey outer.reverse start
  rw [h, List.length_reverse] at hlength
  rw [List.reverse_cons, survey_append_of_none h]
  cases hobstacle : d.obstacle? (outer.reverse.foldl next start) name with
  | none =>
    rw [survey_cons_of_none hobstacle]
    rfl
  | some o =>
    rw [survey_cons_of_some hobstacle, verdict, Option.map_some, if_pos]
    · rfl
    · rw [List.append_nil, hlength, List.length_cons]

/-- An obstacle before which something is missing has the same fault at the end and on the way. -/
theorem IsTree.verdict_of_missing (h : d.IsTree) (hstart : d.entry? start = some .folder)
    (hdirect : Direct names.reverse) {o : Obstacle}
    (ho : (d.survey start names.reverse).2 = some o)
    (hmissing : ¬ ∀ l ∈ (d.survey start names.reverse).1, d.entry? l = some .folder) :
    verdict names.length (d.survey start names.reverse) = some o.fault := by
  have hsame : o.lastFault = o.fault := by
    cases o with
    | tooLong => rfl
    | file => exact absurd (h.folder_of_direct hdirect hstart ho) hmissing
  obtain _ | ⟨name, outer⟩ := names
  · cases ho
  have hend := ho
  rw [List.reverse_cons] at hend
  cases houter : (d.survey start outer.reverse).2 with
  | some o' =>
    rw [survey_append_of_some houter] at hend
    cases hend
    exact verdict_of_some houter
  | none =>
    rw [survey_concat_of_none houter] at hend
    rw [verdict_of_none houter, hend, Option.map_some, hsame]

/-- Where a walk leads, the last folder is all that may have to be made. -/
theorem IsTree.made_of_walk (h : d.IsTree) (hname : counts name = true)
    (houter : (d.survey start outer.reverse).2 = none)
    (hall : ∀ l ∈ (d.survey start outer.reverse).1, d.entry? l = some .folder)
    (hwalk : d.walk start outer.reverse = .ok (outer.reverse.foldl next start)) :
    Made d start (name :: outer) (d.tryFolder start (name :: outer)) := by
  obtain ⟨-, hfault, htree, hsets⟩ := h.tryFolder_of_walk hwalk hname
  refine ⟨?_, htree, ?_, fun _ => ?_⟩
  · rw [List.reverse_cons, survey_append_of_none houter]
    exact (Sets.refl hall).trans hsets
  · rw [hfault, List.reverse_cons, survey_concat_of_none houter, Option.map_eq_none_iff]
  · rw [hfault, verdict_of_none houter]

section Around

variable {around : Disk} (h : d.IsTree) (hstart : d.entry? start = some .folder)
include h hstart

/-- If the folder around was made, the last one is made in it. -/
theorem IsTree.made_of_around (hcounts : ∀ n ∈ name :: outer, counts n = true)
    (hmade : Made d start outer (around, none)) :
    Made d start (name :: outer) (around.tryFolder start (name :: outer)) := by
  obtain ⟨hname, houter⟩ := List.forall_mem_cons.mp hcounts
  have hsurvey := hmade.none_iff.mp rfl
  have hfile := h.isFile_of_sets hstart hmade.sets
  have hsame := survey_of_isFile_eq hfile start
  have hstart' : around.entry? start = some .folder := by
    rw [hmade.sets.entry?_eq, hstart, ite_self]
  have hthere : ∀ l ∈ (around.survey start outer.reverse).1, around.entry? l = some .folder := by
    rw [hsame]
    exact fun l hl => hmade.sets.entry?_of_mem hl
  have hsurvey' : (around.survey start outer.reverse).2 = none := by rw [hsame, hsurvey]
  have hwalk := hmade.tree.walk_of_whole hstart'
    (fun n hn => houter n (List.mem_reverse.mp hn)) hthere
  rw [hsurvey'] at hwalk
  have hlast := hmade.tree.made_of_walk hname hsurvey' hthere hwalk
  refine ⟨?_, hlast.tree, ?_, fun hdirect => ?_⟩
  · have hboth := hmade.sets.trans hlast.sets
    rw [hsame, List.reverse_cons, survey_append_of_none hsurvey] at hboth
    rw [List.reverse_cons, survey_append_of_none hsurvey]
    refine ⟨hboth.here_eq, fun l => ?_⟩
    rw [hboth.entry?_eq]
    simp only [List.mem_append, or_self_left]
  · rw [hlast.none_iff, hsame]
  · rw [hlast.fault hdirect, verdict_of_none hsurvey', verdict_of_none hsurvey,
      obstacle?_congr hfile]

/-- If the folder around could not be made though something was missing, nor can the last one. -/
theorem IsTree.made_of_failed {fault : Fault}
    (hmissing : ¬ ∀ l ∈ (d.survey start outer.reverse).1, d.entry? l = some .folder)
    (hmade : Made d start outer (around, some fault)) :
    Made d start (name :: outer) (around, some fault) := by
  cases hsurvey : (d.survey start outer.reverse).2 with
  | none =>
    have hnone := hmade.none_iff.mpr hsurvey
    cases hnone
  | some o =>
    refine ⟨?_, hmade.tree, ?_, fun hdirect => ?_⟩
    · rw [List.reverse_cons, survey_append_of_some hsurvey]
      exact hmade.sets
    · rw [List.reverse_cons, survey_append_of_some hsurvey]
      simp
    · rw [List.reverse_cons] at hdirect
      rw [verdict_of_some hsurvey,
        ← h.verdict_of_missing hstart hdirect.of_append hsurvey hmissing]
      exact hmade.fault hdirect.of_append

end Around

/-- **Making folders puts folders in all places that are surveyed**, and fails exactly if there is
an obstacle. -/
theorem IsTree.makeFolders_spec (h : d.IsTree) (hstart : d.entry? start = some .folder) :
    ∀ {names : List String}, (∀ n ∈ names, counts n = true) →
      Made d start names (d.makeFolders start names)
  | [], _ => ⟨.refl (List.forall_mem_nil _), h, ⟨fun _ => rfl, fun _ => rfl⟩, fun _ => rfl⟩
  | name :: outer, hcounts => by
    obtain ⟨hname, houter⟩ := List.forall_mem_cons.mp hcounts
    have hcountsOuter : ∀ n ∈ outer.reverse, counts n = true := fun n hn =>
      houter n (List.mem_reverse.mp hn)
    by_cases hall : ∀ l ∈ (d.survey start outer.reverse).1, d.entry? l = some .folder
    · have hwalk := h.walk_of_whole hstart hcountsOuter hall
      cases hsurvey : (d.survey start outer.reverse).2 with
      | none =>
        rw [hsurvey] at hwalk
        rw [makeFolders_of_ne (h.tryFolder_of_walk hwalk hname).1]
        exact h.made_of_walk hname hsurvey hall hwalk
      | some o =>
        rw [hsurvey] at hwalk
        obtain ⟨hmake, htry⟩ := tryFolder_of_walk_error name hwalk
        have hne : d.makeFolder start (name :: outer) ≠ .error .notFound := by
          rw [hmake]
          cases o <;> nofun
        rw [makeFolders_of_ne hne, htry]
        refine ⟨?_, h, ?_, fun _ => (verdict_of_some hsurvey).symm⟩
        · rw [List.reverse_cons, survey_append_of_some hsurvey]
          exact .refl hall
        · rw [List.reverse_cons, survey_append_of_some hsurvey]
          simp
    · -- The folder around is made first.
      have hwalk := h.walk_of_missing hstart hcountsOuter hall
      rw [makeFolders_of_notFound (tryFolder_of_walk_error name hwalk).1]
      have hmade := h.makeFolders_spec hstart houter
      rcases hrest : d.makeFolders start outer with ⟨around, _ | fault⟩ <;> rw [hrest] at hmade
      · exact h.made_of_around hstart hcounts hmade
      · exact h.made_of_failed hstart hall hmade

end RadiusDictionary.Disk
