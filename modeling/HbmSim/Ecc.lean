/-
The error-correction paths of the memory image: the shadow is refreshed when a
line is written, checked when it is read, and an injector flips bit 0 of every
`n`-th written line.

The verdict of a check depends on the exclusive or of the flipped bits'
positions. A single flip is repaired exactly when its position has an even
number of set bits, because the overall parity also counts the recomputed
Hamming word, and a double flip is reported exactly when the combined position
does not look like a repairable one. A single wrong bit, of the data or of the
Hamming word, always leaves a syndrome of its own.
-/

import HbmSim.Secded

namespace HbmSim

open Parity

/-! ### Refreshing, injecting and checking -/

structure EccCounters where
  shadowUpdates : Nat := 0
  checkedReads : Nat := 0
  correctedErrors : Nat := 0
  uncorrectableErrors : Nat := 0
  injectedErrors : Nat := 0
  parityRepairs : Nat := 0
  deriving DecidableEq, Repr

/-- `MemoryImage::refresh_ecc_shadow`. -/
def refreshEccShadow (options : StorageModelOptions) (block : DataBlock) (counters : EccCounters) :
    DataBlock × EccCounters :=
  if options.eccShadowEnabled = false then
    ({ block with eccValid := false, eccUncorrectable := false }, counters)
  else
    let shadow := computeSecdedShadow block.bytes
    ({ block with
        eccHamming := shadow.hamming
        eccOverall := shadow.overall
        eccParityBits := shadow.parityBits
        eccValid := true
        eccUncorrectable := false },
      { counters with shadowUpdates := counters.shadowUpdates + 1 })

/-- `MemoryImage::maybe_inject_ecc_error`. -/
def maybeInjectEccError (options : StorageModelOptions) (block : DataBlock)
    (counters : EccCounters) : DataBlock × EccCounters :=
  if options.eccShadowEnabled = false ∨ options.eccInjectPeriod ≤ 0 then (block, counters)
  else if block.version = 0 ∨ block.version % options.eccInjectPeriod.toNat ≠ 0 then
    (block, counters)
  else
    let bytes := flipByteBit block.bytes 0
    ({ block with
        bytes
        checksum := checksumBytes bytes
        eccErrorInjections := block.eccErrorInjections + 1 },
      { counters with injectedErrors := counters.injectedErrors + 1 })

/-- `MemoryImage::check_ecc_shadow`. -/
def checkEccShadow (options : StorageModelOptions) (block : DataBlock) (counters : EccCounters) :
    DataBlock × EccCounters :=
  if options.eccShadowEnabled = false ∨ options.eccCheckOnRead = false ∨ block.eccValid = false then
    (block, counters)
  else
    let counters := { counters with checkedReads := counters.checkedReads + 1 }
    let now := computeSecdedShadow block.bytes
    let syndrome := block.eccHamming ^^^ now.hamming
    let overallMismatch := block.eccOverall != now.overall
    if syndrome = 0 ∧ overallMismatch = false then (block, counters)
    else if syndrome = 0 ∧ overallMismatch = true then
      ({ block with eccOverall := now.overall },
        { counters with parityRepairs := counters.parityRepairs + 1 })
    else if overallMismatch = false then
      ({ block with eccUncorrectable := true },
        { counters with uncorrectableErrors := counters.uncorrectableErrors + 1 })
    else if isPowerOfTwoU64 syndrome then
      ({ block with eccHamming := now.hamming, eccOverall := now.overall },
        { counters with parityRepairs := counters.parityRepairs + 1 })
    else
      match dataBitForCodePosition syndrome (block.bytes.length * 8) with
      | some dataBit =>
        if options.eccCorrectSingleBit = false then
          ({ block with eccUncorrectable := true },
            { counters with uncorrectableErrors := counters.uncorrectableErrors + 1 })
        else
          let bytes := flipByteBit block.bytes dataBit
          let refreshed := refreshEccShadow options
            { block with bytes, checksum := checksumBytes bytes } counters
          (refreshed.1, { refreshed.2 with correctedErrors := refreshed.2.correctedErrors + 1 })
      | none =>
        ({ block with eccUncorrectable := true },
          { counters with uncorrectableErrors := counters.uncorrectableErrors + 1 })

/-- Every error-correction switch is on. -/
structure StorageModelOptions.EccOn (options : StorageModelOptions) : Prop where
  shadow : options.eccShadowEnabled = true
  check : options.eccCheckOnRead = true
  correct : options.eccCorrectSingleBit = true

/-- The check bits of the block are those of the given bytes. -/
structure DataBlock.ShadowOf (block : DataBlock) (bytes : ByteVector) : Prop where
  valid : block.eccValid = true
  hamming : block.eccHamming = (computeSecdedShadow bytes).hamming
  overall : block.eccOverall = (computeSecdedShadow bytes).overall

theorem refreshEccShadow_shadowOf {options : StorageModelOptions}
    (enabled : options.eccShadowEnabled = true) (block : DataBlock) (counters : EccCounters) :
    (refreshEccShadow options block counters).1.ShadowOf block.bytes := by
  unfold refreshEccShadow
  rw [if_neg (by rw [enabled]; exact Bool.noConfusion)]
  exact ⟨rfl, rfl, rfl⟩

@[simp] theorem refreshEccShadow_bytes (options : StorageModelOptions) (block : DataBlock)
    (counters : EccCounters) : (refreshEccShadow options block counters).1.bytes = block.bytes := by
  unfold refreshEccShadow
  split <;> rfl

/-! ### The verdict of a check -/

section Verdict

variable {options : StorageModelOptions} {block : DataBlock} {bytes : ByteVector}
variable (counters : EccCounters)

theorem checkEccShadow_active (switches : options.EccOn) (shadow : block.ShadowOf bytes) :
    ¬ (options.eccShadowEnabled = false ∨ options.eccCheckOnRead = false ∨
      block.eccValid = false) := by
  rw [switches.shadow, switches.check, shadow.valid]
  simp

/-- A line whose check bits fit its bytes passes unchanged, whatever the switches. -/
theorem checkEccShadow_clean (shadow : block.eccValid = true → block.ShadowOf block.bytes) :
    (checkEccShadow options block counters).1 = block := by
  unfold checkEccShadow
  split
  next => rfl
  next active =>
    have valid : block.eccValid = true := by
      simp only [not_or, Bool.not_eq_false] at active
      exact active.2.2
    rw [(shadow valid).hamming, (shadow valid).overall]
    simp

/-- A syndrome that is a data position of the line, seen with a parity mismatch, is repaired. -/
theorem checkEccShadow_repair (switches : options.EccOn) (shadow : block.ShadowOf bytes)
    {dataBit : Nat} (inside : dataBit < block.bytes.length * 8)
    (syndrome : block.eccHamming ^^^ (computeSecdedShadow block.bytes).hamming =
      codePositionForDataBit dataBit)
    (mismatch : (block.eccOverall != (computeSecdedShadow block.bytes).overall) = true) :
    (checkEccShadow options block counters).1.bytes = flipByteBit block.bytes dataBit ∧
      (checkEccShadow options block counters).2.correctedErrors = counters.correctedErrors + 1 ∧
      (checkEccShadow options block counters).1.eccUncorrectable = false ∧
      (checkEccShadow options block counters).1.ShadowOf (flipByteBit block.bytes dataBit) := by
  have data := codePositionForDataBit_dataPosition dataBit
  have notZero : codePositionForDataBit dataBit ≠ 0 := Nat.ne_of_gt data.1
  have notPower : ¬ isPowerOfTwoU64 (codePositionForDataBit dataBit) = true :=
    fun power => data.2 ((isPowerOfTwoU64_iff _).mp power)
  have found := (dataBitForCodePosition_eq_some_iff _ _ dataBit).mpr
    ⟨inside, rfl⟩
  unfold checkEccShadow
  rw [if_neg (checkEccShadow_active switches shadow)]
  simp only [syndrome, mismatch, notZero, notPower, found, false_and, Bool.true_eq_false, if_false,
    switches.correct, refreshEccShadow, switches.shadow, Bool.false_eq_true, true_and]
  exact ⟨rfl, rfl, rfl⟩

/-- A syndrome seen without a parity mismatch is reported. -/
theorem checkEccShadow_even (switches : options.EccOn) (shadow : block.ShadowOf bytes)
    (syndrome : block.eccHamming ^^^ (computeSecdedShadow block.bytes).hamming ≠ 0)
    (agrees : (block.eccOverall != (computeSecdedShadow block.bytes).overall) = false) :
    checkEccShadow options block counters =
      ({ block with eccUncorrectable := true },
        { counters with
          checkedReads := counters.checkedReads + 1
          uncorrectableErrors := counters.uncorrectableErrors + 1 }) := by
  unfold checkEccShadow
  rw [if_neg (checkEccShadow_active switches shadow)]
  simp only [syndrome, agrees, false_and, if_false, if_true]

/-- A syndrome outside the line's positions, seen with a parity mismatch, is reported. -/
theorem checkEccShadow_outside (switches : options.EccOn) (shadow : block.ShadowOf bytes)
    (syndrome : block.eccHamming ^^^ (computeSecdedShadow block.bytes).hamming ≠ 0)
    (mismatch : (block.eccOverall != (computeSecdedShadow block.bytes).overall) = true)
    (notPower : ¬ isPowerOfTwoU64
      (block.eccHamming ^^^ (computeSecdedShadow block.bytes).hamming) = true)
    (outside : dataBitForCodePosition
      (block.eccHamming ^^^ (computeSecdedShadow block.bytes).hamming)
      (block.bytes.length * 8) = none) :
    checkEccShadow options block counters =
      ({ block with eccUncorrectable := true },
        { counters with
          checkedReads := counters.checkedReads + 1
          uncorrectableErrors := counters.uncorrectableErrors + 1 }) := by
  unfold checkEccShadow
  rw [if_neg (checkEccShadow_active switches shadow)]
  simp only [syndrome, mismatch, notPower, outside, false_and, if_false, Bool.true_eq_false,
    Bool.false_eq_true]

/-- A syndrome that is a power of two, seen with a parity mismatch, passes as a parity
repair. -/
theorem checkEccShadow_parityRepair (switches : options.EccOn) (shadow : block.ShadowOf bytes)
    (mismatch : (block.eccOverall != (computeSecdedShadow block.bytes).overall) = true)
    (power : isPowerOfTwoU64
      (block.eccHamming ^^^ (computeSecdedShadow block.bytes).hamming) = true) :
    (checkEccShadow options block counters).2.parityRepairs = counters.parityRepairs + 1 := by
  have notZero : block.eccHamming ^^^ (computeSecdedShadow block.bytes).hamming ≠ 0 := by
    unfold isPowerOfTwoU64 at power
    exact (of_decide_eq_true power).1
  unfold checkEccShadow
  rw [if_neg (checkEccShadow_active switches shadow)]
  simp only [notZero, mismatch, power, false_and, if_false, Bool.true_eq_false, if_true]

end Verdict

/-! ### One flipped bit -/

/-- Store the block with a fresh shadow, flip the listed data bits, and check it. -/
def checkAfterFlips (options : StorageModelOptions) (block : DataBlock) (counters : EccCounters)
    (flips : List Nat) : DataBlock × EccCounters :=
  let stored := refreshEccShadow options block counters
  checkEccShadow options { stored.1 with bytes := flips.foldl flipByteBit stored.1.bytes } stored.2

/-- The check restores the bytes, counts one correction and does not report the line. -/
def CorrectsFlip (options : StorageModelOptions) (block : DataBlock) (counters : EccCounters)
    (bit : Nat) : Prop :=
  let checked := checkAfterFlips options block counters [bit]
  checked.1.bytes = block.bytes ∧
    checked.2.correctedErrors = counters.correctedErrors + 1 ∧
    checked.1.eccUncorrectable = false

instance (options : StorageModelOptions) (block : DataBlock) (counters : EccCounters)
    (bit : Nat) : Decidable (CorrectsFlip options block counters bit) :=
  inferInstanceAs (Decidable (_ ∧ _))

/-- What one flip leaves between the stored and the recomputed check bits. -/
theorem flip_syndrome {block : DataBlock} {bytes : ByteVector} (shadow : block.ShadowOf bytes)
    {bit : Nat} (inside : bit < bytes.length * 8) (flipped : block.bytes = flipByteBit bytes bit) :
    block.eccHamming ^^^ (computeSecdedShadow block.bytes).hamming = codePositionForDataBit bit ∧
      (block.eccOverall != (computeSecdedShadow block.bytes).overall) =
        !oddBelow (parityBitsForDataBits (bytes.length * 8)) (codePositionForDataBit bit) := by
  rw [shadow.hamming, shadow.overall, flipped, computeSecdedShadow_flip_hamming inside,
    computeSecdedShadow_flip_overall inside, ← Nat.xor_assoc, Nat.xor_self, Nat.zero_xor]
  refine ⟨rfl, ?_⟩
  cases (computeSecdedShadow bytes).overall <;> cases oddBelow _ _ <;> rfl

/-- A single flip is corrected exactly when its position has an even number of set bits. With
an odd number the recomputed Hamming word already explains the parity, so the line is reported
as uncorrectable instead. -/
theorem checkEccShadow_corrects_iff (options : StorageModelOptions) (switches : options.EccOn)
    (block : DataBlock) (counters : EccCounters) (bit : Nat)
    (inside : bit < block.bytes.length * 8) :
    CorrectsFlip options block counters bit ↔ Even (popcount (codePositionForDataBit bit)) := by
  have shadow := refreshEccShadow_shadowOf switches.shadow block counters
  have sameErrors : (refreshEccShadow options block counters).2.correctedErrors =
      counters.correctedErrors := by
    unfold refreshEccShadow
    split <;> rfl
  rw [← oddBelow_eq_false_iff (codePositionForDataBit_lt inside)]
  unfold CorrectsFlip checkAfterFlips
  simp only [List.foldl_cons, List.foldl_nil, refreshEccShadow_bytes]
  generalize refreshEccShadow options block counters = stored at shadow sameErrors
  set received : DataBlock := { stored.1 with bytes := flipByteBit block.bytes bit } with equal
  have receivedShadow : received.ShadowOf block.bytes :=
    ⟨shadow.valid, shadow.hamming, shadow.overall⟩
  obtain ⟨syndrome, mismatch⟩ := flip_syndrome receivedShadow inside rfl
  have notZero : codePositionForDataBit bit ≠ 0 :=
    Nat.ne_of_gt (codePositionForDataBit_dataPosition bit).1
  constructor
  · rintro ⟨-, -, notReported⟩
    by_contra odd
    rw [Bool.not_eq_false] at odd
    rw [odd] at mismatch
    rw [checkEccShadow_even stored.2 switches receivedShadow (by rw [syndrome]; exact notZero) mismatch]
      at notReported
    cases notReported
  · intro even
    rw [even] at mismatch
    have lengths : received.bytes.length = block.bytes.length := flipByteBit_length block.bytes bit
    obtain ⟨restored, counted, clean, -⟩ := checkEccShadow_repair stored.2 switches
      receivedShadow (by rw [lengths]; exact inside) syndrome mismatch
    refine ⟨?_, by rw [counted, sameErrors], clean⟩
    rw [restored]
    exact flipByteBit_flipByteBit block.bytes bit

/-- Bit 0, the bit the injector flips, is one of the corrected bits. -/
theorem checkEccShadow_corrects_bit_zero :
    ({} : StorageModelOptions).EccOn ∧
      (0 < ([0x5a] : ByteVector).length * 8) ∧
      (CorrectsFlip {} { bytes := [0x5a] } {} 0 ↔ Even (popcount (codePositionForDataBit 0))) :=
  ⟨⟨rfl, rfl, rfl⟩, by decide,
    checkEccShadow_corrects_iff {} ⟨rfl, rfl, rfl⟩ { bytes := [0x5a] } {} 0 (by decide)⟩

/-- Bit 3 of an accepted line sits at position 7, which has three set bits: its flip is
reported as uncorrectable. -/
theorem checkEccShadow_not_correcting_bit_three :
    ¬ ∀ (options : StorageModelOptions) (block : DataBlock) (counters : EccCounters) (bit : Nat),
      options.EccOn → bit < block.bytes.length * 8 → CorrectsFlip options block counters bit := by
  intro corrects
  have restored := corrects {} { bytes := [0] } {} 3 ⟨rfl, rfl, rfl⟩ (by decide)
  revert restored
  decide

/-! ### Two flipped bits -/

/-- The check reports the line, leaves the received bytes alone, and counts neither a
correction nor a parity repair. -/
def DetectsFlips (options : StorageModelOptions) (block : DataBlock) (counters : EccCounters)
    (first second : Nat) : Prop :=
  let checked := checkAfterFlips options block counters [first, second]
  checked.1.eccUncorrectable = true ∧
    checked.1.bytes = flipByteBit (flipByteBit block.bytes first) second ∧
    checked.2.correctedErrors = counters.correctedErrors ∧
    checked.2.parityRepairs = counters.parityRepairs

instance (options : StorageModelOptions) (block : DataBlock) (counters : EccCounters)
    (first second : Nat) : Decidable (DetectsFlips options block counters first second) :=
  inferInstanceAs (Decidable (_ ∧ _))

/-- What two flips leave between the stored and the recomputed check bits. -/
theorem flips_syndrome {block : DataBlock} {bytes : ByteVector} (shadow : block.ShadowOf bytes)
    {first second : Nat} (firstInside : first < bytes.length * 8)
    (secondInside : second < bytes.length * 8)
    (flipped : block.bytes = flipByteBit (flipByteBit bytes first) second) :
    block.eccHamming ^^^ (computeSecdedShadow block.bytes).hamming =
        codePositionForDataBit first ^^^ codePositionForDataBit second ∧
      (block.eccOverall != (computeSecdedShadow block.bytes).overall) =
        oddBelow (parityBitsForDataBits (bytes.length * 8))
          (codePositionForDataBit first ^^^ codePositionForDataBit second) := by
  have lengths := flipByteBit_length bytes first
  have moved : second < (flipByteBit bytes first).length * 8 := by rwa [lengths]
  rw [shadow.hamming, shadow.overall, flipped, computeSecdedShadow_flip_hamming moved,
    computeSecdedShadow_flip_overall moved, computeSecdedShadow_flip_hamming firstInside,
    computeSecdedShadow_flip_overall firstInside, lengths, oddBelow_xor, Nat.xor_assoc,
    ← Nat.xor_assoc, Nat.xor_self, Nat.zero_xor]
  refine ⟨rfl, ?_⟩
  cases (computeSecdedShadow bytes).overall <;>
    cases oddBelow _ (codePositionForDataBit first) <;>
    cases oddBelow _ (codePositionForDataBit second) <;> rfl

/-- A double flip is reported exactly when the combined position has an even number of set
bits, or is neither a power of two nor the position of a data bit of the line. Otherwise it
passes as a parity repair or flips a third bit. -/
theorem checkEccShadow_detects_iff (options : StorageModelOptions) (switches : options.EccOn)
    (block : DataBlock) (counters : EccCounters) (first second : Nat)
    (firstInside : first < block.bytes.length * 8)
    (secondInside : second < block.bytes.length * 8) (distinct : first ≠ second) :
    DetectsFlips options block counters first second ↔
      Even (popcount (codePositionForDataBit first ^^^ codePositionForDataBit second)) ∨
        (isPowerOfTwoU64 (codePositionForDataBit first ^^^ codePositionForDataBit second) = false ∧
          ∀ dataBit < block.bytes.length * 8, codePositionForDataBit dataBit ≠
            codePositionForDataBit first ^^^ codePositionForDataBit second) := by
  have shadow := refreshEccShadow_shadowOf switches.shadow block counters
  have sameCounts : (refreshEccShadow options block counters).2.correctedErrors =
        counters.correctedErrors ∧
      (refreshEccShadow options block counters).2.parityRepairs = counters.parityRepairs := by
    unfold refreshEccShadow
    split <;> exact ⟨rfl, rfl⟩
  have combined := Nat.xor_lt_two_pow (codePositionForDataBit_lt firstInside)
    (codePositionForDataBit_lt secondInside)
  have notZero : codePositionForDataBit first ^^^ codePositionForDataBit second ≠ 0 := by
    intro zero
    exact distinct (codePositionForDataBit_injective (Nat.xor_eq_zero_iff.mp zero))
  rw [← oddBelow_eq_false_iff combined]
  unfold DetectsFlips checkAfterFlips
  simp only [List.foldl_cons, List.foldl_nil, refreshEccShadow_bytes]
  generalize refreshEccShadow options block counters = stored at shadow sameCounts
  set received : DataBlock :=
    { stored.1 with bytes := flipByteBit (flipByteBit block.bytes first) second } with equal
  have receivedShadow : received.ShadowOf block.bytes :=
    ⟨shadow.valid, shadow.hamming, shadow.overall⟩
  obtain ⟨syndrome, mismatch⟩ := flips_syndrome receivedShadow firstInside secondInside rfl
  have lengths : received.bytes.length = block.bytes.length := by
    rw [equal]
    simp only [flipByteBit_length]
  rw [← syndrome] at notZero mismatch ⊢
  cases parity : oddBelow (parityBitsForDataBits (block.bytes.length * 8))
      (received.eccHamming ^^^ (computeSecdedShadow received.bytes).hamming) with
  | false =>
    rw [parity] at mismatch
    rw [checkEccShadow_even stored.2 switches receivedShadow notZero mismatch]
    exact iff_of_true ⟨rfl, rfl, sameCounts⟩ (Or.inl rfl)
  | true =>
    rw [parity] at mismatch
    simp only [Bool.true_eq_false, false_or]
    by_cases power : isPowerOfTwoU64
        (received.eccHamming ^^^ (computeSecdedShadow received.bytes).hamming) = true
    · have repaired := checkEccShadow_parityRepair stored.2 switches receivedShadow mismatch power
      refine iff_of_false ?_ ?_
      · rintro ⟨-, -, -, sameRepairs⟩
        rw [repaired, sameCounts.2] at sameRepairs
        omega
      · rintro ⟨notPower, -⟩
        rw [power] at notPower
        cases notPower
    have notPower := Bool.eq_false_of_not_eq_true power
    cases found : dataBitForCodePosition
        (received.eccHamming ^^^ (computeSecdedShadow received.bytes).hamming)
        (received.bytes.length * 8) with
    | some dataBit =>
      obtain ⟨inside, position⟩ := (dataBitForCodePosition_eq_some_iff _ _ _).mp found
      obtain ⟨-, -, accepted, -⟩ := checkEccShadow_repair stored.2 switches receivedShadow inside
        position.symm mismatch
      refine iff_of_false ?_ ?_
      · rintro ⟨reported, -⟩
        rw [accepted] at reported
        cases reported
      · rintro ⟨-, outside⟩
        exact outside dataBit (by rwa [lengths] at inside) position
    | none =>
      rw [checkEccShadow_outside stored.2 switches receivedShadow notZero mismatch power found]
      refine iff_of_true ⟨rfl, rfl, sameCounts⟩ ⟨notPower, fun dataBit inside position => ?_⟩
      have reached := (dataBitForCodePosition_eq_some_iff _ (received.bytes.length * 8)
        dataBit).mpr ⟨by rwa [lengths], position⟩
      rw [found] at reached
      cases reached

/-- Bits 0 and 1 sit at positions 3 and 5, whose combination 6 has two set bits. -/
theorem checkEccShadow_detects_bits_zero_one :
    ({} : StorageModelOptions).EccOn ∧
      (DetectsFlips {} { bytes := [0x5a] } {} 0 1 ↔
        Even (popcount (codePositionForDataBit 0 ^^^ codePositionForDataBit 1)) ∨
          (isPowerOfTwoU64 (codePositionForDataBit 0 ^^^ codePositionForDataBit 1) = false ∧
            ∀ dataBit < ([0x5a] : ByteVector).length * 8, codePositionForDataBit dataBit ≠
              codePositionForDataBit 0 ^^^ codePositionForDataBit 1)) :=
  ⟨⟨rfl, rfl, rfl⟩, checkEccShadow_detects_iff {} ⟨rfl, rfl, rfl⟩ { bytes := [0x5a] } {} 0 1
    (by decide) (by decide) (by decide)⟩

/-- Bits 0 and 3 sit at positions 3 and 7: their combination 4 is a power of two, and the line
passes as a parity repair. -/
theorem checkEccShadow_not_detecting_bits_zero_three :
    ¬ ∀ (options : StorageModelOptions) (block : DataBlock) (counters : EccCounters)
      (first second : Nat), options.EccOn → first < block.bytes.length * 8 →
      second < block.bytes.length * 8 → first ≠ second →
      DetectsFlips options block counters first second := by
  intro detects
  have reported := detects {} { bytes := [0] } {} 0 3 ⟨rfl, rfl, rfl⟩ (by decide) (by decide)
    (by decide)
  revert reported
  decide

/-! ### Where one wrong bit shows -/

/-- A bit that the Hamming word protects: a data bit of the line or a bit of the stored word. -/
inductive CodeBit
  | data (bit : Nat)
  | parity (bit : Nat)
  deriving DecidableEq, Repr

/-- The bits of a line: its data bits, and as many parity bits as its Hamming word has. -/
def CodeBit.Inside (bytes : ByteVector) : CodeBit → Prop
  | .data bit => bit < bytes.length * 8
  | .parity bit => bit < parityBitsForDataBits (bytes.length * 8)

/-- The block with one bit received wrong. -/
def DataBlock.flip (block : DataBlock) : CodeBit → DataBlock
  | .data bit => { block with bytes := flipByteBit block.bytes bit }
  | .parity bit => { block with eccHamming := block.eccHamming ^^^ 1 <<< bit }

/-- What the check compares: the stored Hamming word and that of the bytes received. -/
def DataBlock.syndrome (block : DataBlock) : Nat :=
  block.eccHamming ^^^ (computeSecdedShadow block.bytes).hamming

theorem syndrome_flip_data {block : DataBlock} (shadow : block.ShadowOf block.bytes) {bit : Nat}
    (inside : bit < block.bytes.length * 8) :
    (block.flip (.data bit)).syndrome = codePositionForDataBit bit := by
  have received : (block.flip (.data bit)).ShadowOf block.bytes :=
    ⟨shadow.valid, shadow.hamming, shadow.overall⟩
  exact (flip_syndrome received inside rfl).1

theorem syndrome_flip_parity {block : DataBlock} (shadow : block.ShadowOf block.bytes)
    (bit : Nat) : (block.flip (.parity bit)).syndrome = 2 ^ bit := by
  show (block.eccHamming ^^^ 1 <<< bit) ^^^ (computeSecdedShadow block.bytes).hamming = 2 ^ bit
  rw [shadow.hamming, Nat.xor_comm _ (1 <<< bit), Nat.xor_assoc, Nat.xor_self, Nat.xor_zero,
    Nat.one_shiftLeft]

theorem codePositionForDataBit_ne_two_pow (dataBit exponent : Nat) :
    codePositionForDataBit dataBit ≠ 2 ^ exponent :=
  fun same => (codePositionForDataBit_dataPosition dataBit).2 ⟨exponent, same⟩

/-- One wrong bit of the data or of the Hamming word leaves a syndrome that is not zero and that
no other wrong bit leaves. -/
theorem syndrome_flip_injective {block : DataBlock} (shadow : block.ShadowOf block.bytes)
    {first second : CodeBit} (inside : first.Inside block.bytes)
    (inside' : second.Inside block.bytes)
    (same : (block.flip first).syndrome = (block.flip second).syndrome) : first = second := by
  cases first with
  | data bit =>
    rw [syndrome_flip_data shadow inside] at same
    cases second with
    | data bit' =>
      rw [syndrome_flip_data shadow inside'] at same
      exact congrArg CodeBit.data (codePositionForDataBit_injective same)
    | parity bit' =>
      rw [syndrome_flip_parity shadow] at same
      exact absurd same (codePositionForDataBit_ne_two_pow bit bit')
  | parity bit =>
    rw [syndrome_flip_parity shadow] at same
    cases second with
    | data bit' =>
      rw [syndrome_flip_data shadow inside'] at same
      exact absurd same.symm (codePositionForDataBit_ne_two_pow bit' bit)
    | parity bit' =>
      rw [syndrome_flip_parity shadow] at same
      exact congrArg CodeBit.parity (Nat.pow_right_injective (Nat.le_refl 2) same)

theorem syndrome_flip_ne_zero {block : DataBlock} (shadow : block.ShadowOf block.bytes)
    {wrong : CodeBit} (inside : wrong.Inside block.bytes) : (block.flip wrong).syndrome ≠ 0 := by
  cases wrong with
  | data bit =>
    rw [syndrome_flip_data shadow inside]
    exact Nat.ne_of_gt (codePositionForDataBit_dataPosition bit).1
  | parity bit =>
    rw [syndrome_flip_parity shadow]
    exact Nat.ne_of_gt (Nat.two_pow_pos bit)

/-- The coding of positions, for a line of any length: the two directions undo each other on the
line's data bits, the positions increase, avoid the powers of two and fit the Hamming word, and so
every single wrong bit of a line has a syndrome of its own. -/
theorem hamming_positions (bytes : ByteVector) :
    (∀ dataBit position,
      dataBitForCodePosition position (bytes.length * 8) = some dataBit ↔
        dataBit < bytes.length * 8 ∧ codePositionForDataBit dataBit = position) ∧
    StrictMono codePositionForDataBit ∧
    (∀ dataBit exponent, codePositionForDataBit dataBit ≠ 2 ^ exponent) ∧
    (∀ dataBit < bytes.length * 8,
      codePositionForDataBit dataBit < 2 ^ parityBitsForDataBits (bytes.length * 8)) ∧
    ∀ block : DataBlock, block.bytes = bytes → block.ShadowOf bytes →
      (∀ wrong : CodeBit, wrong.Inside bytes → (block.flip wrong).syndrome ≠ 0) ∧
      ∀ first second : CodeBit, first.Inside bytes → second.Inside bytes → first ≠ second →
        (block.flip first).syndrome ≠ (block.flip second).syndrome := by
  refine ⟨fun dataBit position => dataBitForCodePosition_eq_some_iff _ _ _,
    codePositionForDataBit_strictMono, codePositionForDataBit_ne_two_pow,
    fun dataBit inside => codePositionForDataBit_lt inside, ?_⟩
  rintro block rfl shadow
  refine ⟨fun wrong inside => syndrome_flip_ne_zero shadow inside, ?_⟩
  intro first second inside inside' distinct same
  exact distinct (syndrome_flip_injective shadow inside inside' same)

end HbmSim
