import RadiusDictionary.Proofs.OrderedMap
import RadiusDictionary.Proofs.Reading.Moves

/-! # How deep inclusions go

The texts on a disk mention finitely many inclusions (`mentioned`). A file that is being read is not
included once more, so that each inclusion opens one of the mentioned files that was not open before
(`unopened`), and there is one such file fewer afterwards (`length_unopened_lt`). A depth that is
left for as many files as are unopened is therefore never used up. -/

namespace RadiusDictionary

theorem Disk.mem_texts_of_readText {d : Disk} {p : Path} {text : String}
    (h : d.readText p = .ok text) : text ∈ d.texts := by
  unfold readText at h
  split at h
  · cases h
  · next loc hloc =>
    split at h
    · cases h
    · cases h
    · cases h
    · next value hentry =>
      obtain rfl := Except.ok.inj h
      refine List.mem_filterMap.mpr ⟨.file (.text value), ?_, rfl⟩
      cases loc with
      | nil => cases hentry
      | cons name outer => exact OrderedMap.mem_values_of_get?_eq_some hentry

theorem mem_inclusions {text line file : String} {isOptional : Bool} (hmem : line ∈ Text.lines text)
    (hline : Line.read line = .directive (.inclusion file isOptional)) : file ∈ inclusions text :=
  List.mem_filterMap.mpr ⟨line, hmem, by rw [hline]⟩

namespace Dictionary

variable (dict : Dictionary)

/-- All that the texts on the disk include. -/
def mentioned : List String := dict.disk.texts.flatMap inclusions

/-- Whether a file is one of the open ones. -/
def isOpen (openFiles : List Path) (file : String) : Bool :=
  openFiles.any (dict.pathOf file).same

/-- The mentioned files that are not open. -/
def unopened (openFiles : List Path) : List String :=
  dict.mentioned.filter (!dict.isOpen openFiles ·)

variable {dict} {openFiles : List Path} {file : String}

theorem mem_mentioned {text : String} {p : Path} (htext : dict.disk.readText p = .ok text)
    (hfile : file ∈ inclusions text) : file ∈ dict.mentioned :=
  List.mem_flatMap.mpr ⟨text, Disk.mem_texts_of_readText htext, hfile⟩

theorem length_unopened_le (dict : Dictionary) (openFiles : List Path) :
    (dict.unopened openFiles).length ≤ dict.mentioned.length :=
  List.length_filter_le _ _

/-- The depth of a reading is enough for all files, whichever are open. -/
theorem length_unopened_lt_depthFrom (dict : Dictionary) (openFiles : List Path) (text : String) :
    (dict.unopened openFiles).length < dict.depthFrom text := by
  have hle := length_unopened_le dict openFiles
  rw [mentioned] at hle
  rw [depthFrom]
  omega

/-- **Opening a mentioned file leaves fewer of them unopened.** -/
theorem length_unopened_lt (hmem : file ∈ dict.mentioned)
    (hopen : dict.isOpen openFiles file = false) :
    (dict.unopened (dict.pathOf file :: openFiles)).length < (dict.unopened openFiles).length := by
  have hcons : dict.unopened (dict.pathOf file :: openFiles) = (dict.unopened openFiles).filter
      fun other => !(dict.pathOf other).same (dict.pathOf file) := by
    simp [unopened, isOpen, List.filter_filter, Bool.not_or]
  have hfile : file ∈ dict.unopened openFiles := List.mem_filter.mpr ⟨hmem, by rw [hopen]; rfl⟩
  rw [hcons, List.length_filter_lt_length_iff_exists]
  refine ⟨file, hfile, ?_⟩
  simp [Path.same]

end Dictionary

end RadiusDictionary
