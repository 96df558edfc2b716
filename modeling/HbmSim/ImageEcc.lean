/-
Injected errors and readers. With the check-bit shadow, checking on read and
single-bit correction on, an injected flip of bit 0 stays behind its check bits
until a read repairs it or a write overwrites it. The exception is a write that
leaves byte 0 of such a line alone: it reads the flipped byte back unchecked and
computes new check bits over it.
-/

import HbmSim.ImageRefinement

namespace HbmSim

section Ecc

variable {β : Type} [MemoryBackend β] {image after : MemoryImage β}
variable {spec : DramSpec} {flat : Patch Nat UInt8}

/-- No flip was absorbed: the check bits of every line the next access can see are those of the
line's content. -/
def Unabsorbed (image : MemoryImage β) (spec : DramSpec) (flat : Patch Nat UInt8) : Prop :=
  ∀ base, InGeometry image.config spec base → ∀ block,
    image.effectiveBlock base (some (decode spec base)) = .ok (some block) →
      block.eccValid = true → block.ShadowOf (lineBytes image.config flat base)

theorem Holds.unabsorbed (holds : Holds image spec flat) : Unabsorbed image spec flat := by
  intro base inside block effective valid
  rcases effectiveBlock_spec holds inside effective with settled | flipped
  · exact settled.bytes ▸ settled.clean valid
  · exact flipped.shadow

variable [LawfulMemoryBackend β]

/-- Whatever the injection period, a run whose writes overwrite the outstanding flips they meet
answers as a flat store does, and no flip is absorbed into a shadow. -/
theorem run_hides_flips {defaultValue : UInt8} {options : StorageModelOptions}
    {ops : List ImageOp} {outputs : List ImageOutput}
    (created : MemoryImage.create spec defaultValue options = .ok image)
    (separating : spec.Separating) (on : options.EccOn)
    (inside : ∀ op ∈ ops, op.InGeometry spec) (safe : image.FlipSafeRun spec ops)
    (returns : image.run ops = .ok (outputs, after)) :
    outputs = (FlatStore.run defaultValue Patch.empty ops).1 ∧
      Unabsorbed after spec (FlatStore.run defaultValue Patch.empty ops).2 := by
  have holds := create_holds created separating (Or.inr on)
  obtain ⟨answered, keeps⟩ := run_spec ops holds inside safe returns
  rw [(create_given created).1] at answered keeps
  exact ⟨answered, keeps.holds.unabsorbed⟩

end Ecc

/-- Every write injected, both read back right. -/
theorem run_hides_flips_small :
    [.silent, .silent, .bytes [5, 6, 7, 9] true] = (FlatStore.run 0 Patch.empty
        [.write 0 [5, 6, 7, 8] none {}, .write 0 [5, 6, 7, 9] none {}, .read 0 4]).1 := by
  have created : MemoryImage.create smallSpec 0 { eccInjectPeriod := 1 } =
      .ok (smallImage { eccInjectPeriod := 1, capacityBytes := 16 }) := rfl
  have overwrites : ∀ (image : MemoryImage SparseMemoryBackend) (last : UInt8),
      image.lineSize = 4 → FlipSafe image smallSpec 0 [5, 6, 7, last] none := by
    intro image last width index small
    refine Or.inr ?_
    have first : lineBase 4 (0 + index) = 0 := by
      rw [Nat.zero_add]
      exact Nat.sub_eq_zero_of_le (Nat.mod_eq_of_lt small).ge
    rw [width, first]
    exact Option.some_ne_none 5
  have returns : ∃ after, (smallImage { eccInjectPeriod := 1, capacityBytes := 16 }).run
      [.write 0 [5, 6, 7, 8] none {}, .write 0 [5, 6, 7, 9] none {}, .read 0 4] =
      .ok ([.silent, .silent, .bytes [5, 6, 7, 9] true], after) := ⟨_, rfl⟩
  obtain ⟨after, returns⟩ := returns
  refine (run_hides_flips created (fun family => nomatch family) ⟨rfl, rfl, rfl⟩ ?_ ?_ returns).1
  · intro op member
    fin_cases member <;> exact Or.inr (by decide)
  · refine ⟨overwrites _ _ rfl, fun _ _ steps => ⟨overwrites _ _ ?_, fun _ _ _ =>
      ⟨trivial, fun _ _ _ => trivial⟩⟩⟩
    cases steps
    rfl

/-- Every write injected: the second write leaves byte 0 alone, reads it back flipped and computes
new check bits over it. -/
theorem run_absorbs_flip :
    (do
      let image : MemoryImage SparseMemoryBackend ←
        MemoryImage.create smallSpec 0 { eccInjectPeriod := 1 }
      let (outputs, _) ←
        image.run [.write 0 [0, 0, 0, 0] none {}, .write 1 [7] none {}, .read 0 4]
      return outputs) = .ok [.silent, .silent, .bytes [1, 7, 0, 0] true] ∧
    (FlatStore.run 0 Patch.empty
      [.write 0 [0, 0, 0, 0] none {}, .write 1 [7] none {}, .read 0 4]).1 =
      [.silent, .silent, .bytes [0, 7, 0, 0] true] :=
  ⟨rfl, rfl⟩

end HbmSim
