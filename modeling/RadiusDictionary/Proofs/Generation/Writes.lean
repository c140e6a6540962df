import RadiusDictionary.Proofs.Generation.Enlisted

/-! # All that a run writes

A run writes files one after the other, those of nested attributes before the one around them, and
takes some of them back. `writes` are all of them in the order in which they are written, whatever
becomes of them. What a run adds to the record and to the disk is said by `Advance`, here for whole
runs: nothing has to go well for it (`advance_generate`). A loader is never taken back
(`advance_writeLoader`). -/

namespace RadiusDictionary

namespace Generation

/-- The files that running plans writes. -/
def planWrites (t : Target) : List Plan → Generation → List WrittenFile
  | [], _ => []
  | p :: rest, g =>
    scopeWrites t p.scope p.attributes g ++
      loaderWrites t p.scope.folder (p.loader (p.registrations t g)) (p.trees t g) ++
      planWrites t rest (p.run t g)

/-- The files that generating a registry writes, those that are taken back included. -/
def writes (t : Target) (r : Registry) (disk : Disk) : List WrittenFile :=
  planWrites t (plans t r) (.start disk)

/-! ### What is added -/

theorem advance_writeLoader (t : Target) (folder : Path) (m : LoaderModule) (g : Generation) :
    Advance (loaderWrites t folder m g) (loaderWrites t folder m g) g (g.writeLoader t folder m) := by
  have hway := loaderWay t folder m g
  generalize g.writeLoader t folder m = g'', loaderWrites t folder m g = files at hway ⊢
  cases hway with
  | taken hclaim => exact .of_eq rfl rfl (List.Subset.refl _)
  | failed hclaim hwrite =>
    -- Folders may have been made on the way.
    obtain ⟨disk, hdisk, rfl⟩ := write_eq_some hwrite
    exact (Advance.claim? hclaim).trans
      ⟨(List.append_nil _).symm, List.Subset.refl _, List.Subset.refl _, List.forall_mem_nil _,
        List.nodup_nil, hdisk⟩
  | written hclaim hwrite =>
    exact (Advance.of_eq rfl rfl (List.Subset.refl _)).write hclaim hwrite

/-- No other file is written for a loader. -/
theorem eq_of_mem_loaderWrites {t : Target} {folder : Path} {m : LoaderModule} {g : Generation}
    {f : WrittenFile} (hf : f ∈ loaderWrites t folder m g) :
    f = ⟨folder.joinText "mod.rs", .loaderModule m⟩ := by
  have hway := loaderWay t folder m g
  generalize g.writeLoader t folder m = g'', loaderWrites t folder m g = files at hway hf
  cases hway with
  | taken hclaim => cases hf
  | failed hclaim hwrite => cases hf
  | written hclaim hwrite => exact List.mem_singleton.mp hf

theorem advance_planWrites (t : Target) : ∀ (ps : List Plan) (g : Generation),
    ∃ new, Advance (planWrites t ps g) new g (runPlans t ps g)
  | [], _ => ⟨[], .of_eq rfl rfl (List.Subset.refl _)⟩
  | p :: rest, g => by
    obtain ⟨new, hscope⟩ := advance_scopeWrites t p.scope p.attributes g
    obtain ⟨new', hrest⟩ := advance_planWrites t rest (p.run t g)
    have hloader := advance_writeLoader t p.scope.folder (p.loader (p.registrations t g))
      (p.trees t g)
    exact ⟨_, (hscope.trans hloader).trans hrest⟩

/-- **What generating a registry adds.** -/
theorem advance_generate (t : Target) (r : Registry) (disk : Disk) :
    Advance (writes t r disk) (generate t r disk).written (.start disk) (generate t r disk) := by
  obtain ⟨new, hadvance⟩ := advance_planWrites t (plans t r) (.start disk)
  obtain rfl : (generate t r disk).written = new := by
    rw [generate_eq]
    exact hadvance.written_eq
  rw [generate_eq] at hadvance ⊢
  exact ⟨hadvance.written_eq, hadvance.subset, hadvance.claimed, hadvance.key_claimed,
    hadvance.nodup, hadvance.disk⟩

end Generation

end RadiusDictionary
