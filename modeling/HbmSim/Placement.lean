/-
Where a line sits in the stack. The layer, the floorplan tile, the thermal cell and
the cell inside the bank are computed by divisions and remainders of sizes that need
not divide each other; every one of them stays below its own size, and the tile
tells the banks of different coordinates apart.

A slice of the floorplan holds the banks of one rank, stack id and pseudo channel in
a grid as wide as the root of their number, and the slices lie below each other.

The sizes are products of type `int`, and an organization that is accepted may be
too large for them.
-/

import HbmSim.Data
import HbmSim.TimingMeaning

namespace HbmSim

/-! ### Sizes -/

theorem ceilSqrtSearch_ge (value fuel root : Nat) : root ≤ ceilSqrtSearch value fuel root := by
  induction fuel generalizing root with
  | zero => exact Nat.le_refl root
  | succ fuel inductionHypothesis =>
    unfold ceilSqrtSearch
    split
    · exact Nat.le_trans (Nat.le_succ root) (inductionHypothesis (root + 1))
    · exact Nat.le_refl root

theorem ceilSqrtInt_pos (value : Nat) : 0 < ceilSqrtInt value := ceilSqrtSearch_ge _ _ 1

theorem positiveOption_pos (value : Int) : 0 < positiveOption value :=
  Nat.lt_of_lt_of_le Nat.zero_lt_one (Nat.le_max_left 1 value.toNat)

theorem scaledIndex_lt {buckets : Nat} (some : 0 < buckets) (value span : Nat) :
    scaledIndex value span buckets < buckets := by
  unfold scaledIndex
  omega

/-- The quotients of the numbers below a bound are below the bound divided upwards. -/
theorem div_lt_ceil {value bound divisor : Nat} (below : value < bound) (some : 0 < divisor) :
    value / divisor < (bound + divisor - 1) / divisor := by
  have whole := Nat.div_add_mod' (bound + divisor - 1) divisor
  have rest := Nat.mod_lt (bound + divisor - 1) some
  rw [Nat.div_lt_iff_lt_mul some]
  omega

/-! ### The ranges -/

/-- Every derived coordinate is below its size. A stack without layers counts as one layer, and an
option that is not positive as one. -/
structure PhysicalAddress.InRange (spec : DramSpec) (options : StorageModelOptions)
    (physical : PhysicalAddress) : Prop where
  layer : physical.layer < max 1 spec.stackHeight.toNat
  tileX : physical.tileX < physical.floorplanCols
  tileY : physical.tileY < physical.floorplanRows
  tileZ : physical.tileZ < max 1 spec.stackHeight.toNat
  thermalGridX : physical.thermalGridX < positiveOption options.thermalGridColsPerTile
  thermalGridY : physical.thermalGridY < positiveOption options.thermalGridRowsPerTile
  thermalX : physical.thermalX < physical.thermalCols
  thermalY : physical.thermalY < physical.thermalRows
  thermalZ : physical.thermalZ < max 1 spec.stackHeight.toNat
  subarray : physical.subarray < physical.subarraysPerBank
  matX : physical.matX < physical.matsPerSubarrayX
  matY : physical.matY < physical.matsPerSubarrayY
  matId : physical.matId < physical.matsPerSubarrayY * physical.matsPerSubarrayX
  cellX : physical.cellX < positiveOption options.cellsPerMatX
  cellY : physical.cellY < positiveOption options.cellsPerMatY
  microbumpX : physical.microbumpX < positiveOption options.microbumpsX
  microbumpY : physical.microbumpY < positiveOption options.microbumpsY

section Tiles

variable {spec : DramSpec} {options : StorageModelOptions} {decoded other : DecodedAddress}

/-- The place of a bank in its slice. -/
def bankIndex (spec : DramSpec) (decoded : DecodedAddress) : Nat :=
  decoded.bankGroup * max 1 spec.org.banksPerGroup + decoded.bank

/-- The slice of a rank, stack id and pseudo channel. -/
def sliceIndex (spec : DramSpec) (decoded : DecodedAddress) : Nat :=
  (decoded.rank * max 1 spec.org.sids + decoded.sid) * max 1 spec.org.pseudoChannels +
    decoded.pseudoChannel

/-- The banks of a slice. -/
def banksPerLayer (spec : DramSpec) : Nat :=
  max 1 (max 1 spec.org.bankGroups * max 1 spec.org.banksPerGroup)

/-- The rows of tiles in a slice. -/
def rowsPerSlice (spec : DramSpec) : Nat :=
  (banksPerLayer spec + ceilSqrtInt (banksPerLayer spec) - 1) / ceilSqrtInt (banksPerLayer spec)

theorem dimension_lt {value count : Nat} (inside : value < count) : value < max 1 count :=
  Nat.lt_of_lt_of_le inside (Nat.le_max_right 1 count)

theorem bankIndex_lt (inside : decoded.InBounds spec) :
    bankIndex spec decoded < banksPerLayer spec :=
  dimension_lt (place_lt (dimension_lt inside.bank) (dimension_lt inside.bankGroup))

theorem bankRow_lt (inside : decoded.InBounds spec) :
    bankIndex spec decoded / ceilSqrtInt (banksPerLayer spec) < rowsPerSlice spec :=
  div_lt_ceil (bankIndex_lt inside) (ceilSqrtInt_pos _)

theorem sliceIndex_lt (inside : decoded.InBounds spec) :
    sliceIndex spec decoded <
      max 1 spec.org.ranks * max 1 spec.org.sids * max 1 spec.org.pseudoChannels :=
  place_lt (dimension_lt inside.pseudoChannel)
    (place_lt (dimension_lt inside.sid) (dimension_lt inside.rank))

theorem bankIndex_eq_iff (inside : decoded.InBounds spec) (inside' : other.InBounds spec) :
    bankIndex spec decoded = bankIndex spec other ↔
      decoded.bankGroup = other.bankGroup ∧ decoded.bank = other.bank :=
  place_injective (dimension_lt inside.bank) (dimension_lt inside'.bank)

theorem sliceIndex_eq_iff (inside : decoded.InBounds spec) (inside' : other.InBounds spec) :
    sliceIndex spec decoded = sliceIndex spec other ↔
      (decoded.rank = other.rank ∧ decoded.sid = other.sid) ∧
        decoded.pseudoChannel = other.pseudoChannel :=
  (place_injective (dimension_lt inside.pseudoChannel) (dimension_lt inside'.pseudoChannel)).trans
    (and_congr_left' (place_injective (dimension_lt inside.sid) (dimension_lt inside'.sid)))

theorem placement_tile (enabled : options.floorplanEnabled = true) (lineSize address : Nat) :
    (placement lineSize (some spec) options address decoded).tileX =
        bankIndex spec decoded % ceilSqrtInt (banksPerLayer spec) ∧
      (placement lineSize (some spec) options address decoded).tileY =
        sliceIndex spec decoded * rowsPerSlice spec +
          bankIndex spec decoded / ceilSqrtInt (banksPerLayer spec) := by
  unfold placement
  simp only [enabled, if_true]
  exact ⟨rfl, rfl⟩

theorem placement_floorplan (enabled : options.floorplanEnabled = true) (lineSize address : Nat) :
    (placement lineSize (some spec) options address decoded).floorplanCols =
        ceilSqrtInt (banksPerLayer spec) ∧
      (placement lineSize (some spec) options address decoded).floorplanRows =
        max 1 (rowsPerSlice spec * max 1 spec.org.pseudoChannels * max 1 spec.org.sids *
          max 1 spec.org.ranks) := by
  unfold placement
  simp only [enabled, if_true]
  exact ⟨rfl, rfl⟩

theorem tile_lt (inside : decoded.InBounds spec) (enabled : options.floorplanEnabled = true)
    (lineSize address : Nat) :
    (placement lineSize (some spec) options address decoded).tileX <
        (placement lineSize (some spec) options address decoded).floorplanCols ∧
      (placement lineSize (some spec) options address decoded).tileY <
        (placement lineSize (some spec) options address decoded).floorplanRows := by
  obtain ⟨tileX, tileY⟩ := @placement_tile spec options decoded enabled lineSize address
  obtain ⟨cols, rows⟩ := @placement_floorplan spec options decoded enabled lineSize address
  rw [tileX, tileY, cols, rows]
  refine ⟨Nat.mod_lt _ (ceilSqrtInt_pos _), Nat.lt_of_lt_of_le ?_ (Nat.le_max_right 1 _)⟩
  calc sliceIndex spec decoded * rowsPerSlice spec +
        bankIndex spec decoded / ceilSqrtInt (banksPerLayer spec)
      < max 1 spec.org.ranks * max 1 spec.org.sids * max 1 spec.org.pseudoChannels *
          rowsPerSlice spec := place_lt (bankRow_lt inside) (sliceIndex_lt inside)
    _ = _ := by ring

/-- Two addresses on one tile have one bank. -/
theorem tile_injective (inside : decoded.InBounds spec) (inside' : other.InBounds spec)
    (enabled : options.floorplanEnabled = true) {lineSize address address' : Nat}
    (sameX : (placement lineSize (some spec) options address decoded).tileX =
      (placement lineSize (some spec) options address' other).tileX)
    (sameY : (placement lineSize (some spec) options address decoded).tileY =
      (placement lineSize (some spec) options address' other).tileY) :
    decoded.rank = other.rank ∧ decoded.sid = other.sid ∧
      decoded.pseudoChannel = other.pseudoChannel ∧ decoded.bankGroup = other.bankGroup ∧
      decoded.bank = other.bank := by
  obtain ⟨tileX, tileY⟩ := @placement_tile spec options decoded enabled lineSize address
  obtain ⟨tileX', tileY'⟩ := @placement_tile spec options other enabled lineSize address'
  rw [tileX, tileX'] at sameX
  rw [tileY, tileY'] at sameY
  obtain ⟨slices, rows⟩ := (place_injective (bankRow_lt inside) (bankRow_lt inside')).mp sameY
  have banks : bankIndex spec decoded = bankIndex spec other := by
    rw [← Nat.div_add_mod' (bankIndex spec decoded), rows, sameX, Nat.div_add_mod']
  obtain ⟨⟨rank, sid⟩, pseudoChannel⟩ := (sliceIndex_eq_iff inside inside').mp slices
  obtain ⟨bankGroup, bank⟩ := (bankIndex_eq_iff inside inside').mp banks
  exact ⟨rank, sid, pseudoChannel, bankGroup, bank⟩

theorem placement_layer_lt (lineSize address : Nat) :
    (placement lineSize (some spec) options address decoded).layer <
      max 1 spec.stackHeight.toNat := by
  have some : 0 < max 1 spec.stackHeight.toNat :=
    Nat.lt_of_lt_of_le Nat.zero_lt_one (Nat.le_max_left 1 _)
  have wrapped : ∀ raw : Nat,
      (if max 1 spec.stackHeight.toNat ≤ raw then raw % max 1 spec.stackHeight.toNat else raw) <
        max 1 spec.stackHeight.toNat := by
    intro raw
    split
    next => exact Nat.mod_lt raw some
    next below => exact Nat.lt_of_not_le below
  exact wrapped _

theorem placement_inRange (inside : decoded.InBounds spec)
    (enabled : options.floorplanEnabled = true) (lineSize address : Nat) :
    (placement lineSize (some spec) options address decoded).InRange spec options := by
  obtain ⟨tileX, tileY⟩ := tile_lt inside enabled lineSize address
  have layer := @placement_layer_lt spec options decoded lineSize address
  have index : ∀ (value span : Nat) (buckets : Int),
      scaledIndex value span (positiveOption buckets) < positiveOption buckets :=
    fun value span buckets => scaledIndex_lt (positiveOption_pos buckets) value span
  have bump : ∀ (value : Nat) (bumps : Int),
      min (value % positiveOption bumps) (positiveOption bumps - 1) < positiveOption bumps :=
    fun value bumps => Nat.lt_of_le_of_lt (Nat.min_le_left _ _)
      (Nat.mod_lt value (positiveOption_pos bumps))
  exact {
    layer
    tileX
    tileY
    tileZ := layer
    thermalGridX := index _ _ _
    thermalGridY := index _ _ _
    thermalX := dimension_lt (place_lt (index _ _ _) tileX)
    thermalY := dimension_lt (place_lt (index _ _ _) tileY)
    thermalZ := layer
    subarray := index _ _ _
    matX := index _ _ _
    matY := index _ _ _
    matId := place_lt (index _ _ _) (index _ _ _)
    cellX := index _ _ _
    cellY := index _ _ _
    microbumpX := bump _ _
    microbumpY := bump _ _ }

/-! ### Sizes of type `int` -/

/-- The layers of one stack id. -/
def layersPerSid (spec : DramSpec) : Nat :=
  max 1 ((max 1 spec.stackHeight.toNat + max 1 spec.org.sids - 1) / max 1 spec.org.sids)

/-- The rows of tiles of all slices. -/
def floorplanRows (spec : DramSpec) : Nat :=
  max 1 (rowsPerSlice spec * max 1 spec.org.pseudoChannels * max 1 spec.org.sids *
    max 1 spec.org.ranks)

/-- What `physical_address` computes in `int` with the floorplan enabled, in the order of the
source. The parts of a sum or a product are not above it, so they are left out. -/
def placementInts (spec : DramSpec) (options : StorageModelOptions) (d : DecodedAddress) :
    List Nat :=
  let physical := placement spec.org.lineSize (some spec) options 0 d
  let cols := ceilSqrtInt (banksPerLayer spec)
  let subarrays := positiveOption options.subarraysPerBank
  [bankIndex spec d, max 1 spec.stackHeight.toNat + max 1 spec.org.sids,
    d.sid * layersPerSid spec + bankIndex spec d % layersPerSid spec, banksPerLayer spec,
    -- The last square that `ceil_sqrt_int` compares.
    cols * cols, banksPerLayer spec + cols, sliceIndex spec d, floorplanRows spec, physical.tileY,
    physical.tileId, physical.thermalX, physical.thermalY, physical.thermalCols,
    physical.thermalRows, max 1 spec.org.rows + subarrays, physical.matId,
    physical.tileY + physical.layer]

/-- `physical_address` of given coordinates, in the types of the source: no place where an `int`
overflows. -/
def physicalAddressInt (lineSize : Nat) (spec : DramSpec) (options : StorageModelOptions)
    (address : Nat) (decoded : DecodedAddress) : Except Exception (Option PhysicalAddress) := do
  validateDecodedAddress (some spec) decoded
  return if ∀ value ∈ placementInts spec options decoded, value ≤ intMax then
    some (placement lineSize (some spec) options address decoded) else none

/-- Where nothing overflows it is the place among unbounded numbers. -/
theorem physicalAddress_of_int {lineSize address : Nat} {physical : PhysicalAddress}
    (placed : physicalAddressInt lineSize spec options address decoded = .ok (some physical)) :
    physicalAddress lineSize (some spec) options address (some decoded) = .ok physical := by
  obtain ⟨_, checked, placed⟩ := bind_eq_ok.mp placed
  unfold physicalAddress
  dsimp only
  rw [checked]
  have inside := Except.ok.inj placed
  split at inside
  · exact congrArg Except.ok (Option.some.inj inside)
  · cases inside

/-- The sizes of the geometry fit an `int`. -/
structure PlacementFits (spec : DramSpec) (options : StorageModelOptions) : Prop where
  layers : max 1 spec.stackHeight.toNat + max 1 spec.org.sids ≤ intMax
  square : ceilSqrtInt (banksPerLayer spec) * ceilSqrtInt (banksPerLayer spec) ≤ intMax
  banks : banksPerLayer spec + ceilSqrtInt (banksPerLayer spec) ≤ intMax
  tiles : max 1 spec.stackHeight.toNat *
    (floorplanRows spec * ceilSqrtInt (banksPerLayer spec)) ≤ intMax
  thermalCols : ceilSqrtInt (banksPerLayer spec) *
    positiveOption options.thermalGridColsPerTile ≤ intMax
  thermalRows : floorplanRows spec * positiveOption options.thermalGridRowsPerTile ≤ intMax
  subarrays : max 1 spec.org.rows + positiveOption options.subarraysPerBank ≤ intMax
  mats : positiveOption options.matsPerSubarrayY * positiveOption options.matsPerSubarrayX ≤ intMax

theorem layersPerSid_le (spec : DramSpec) :
    max 1 spec.org.sids * layersPerSid spec ≤
      max 1 spec.stackHeight.toNat + max 1 spec.org.sids := by
  have whole := Nat.mul_div_le (max 1 spec.stackHeight.toNat + max 1 spec.org.sids - 1)
    (max 1 spec.org.sids)
  unfold layersPerSid
  rcases le_total 1 ((max 1 spec.stackHeight.toNat + max 1 spec.org.sids - 1) /
    max 1 spec.org.sids) with some | none
  · rw [max_eq_right some]
    omega
  · rw [max_eq_left none]
    omega

theorem sliceIndex_le (inside : decoded.InBounds spec) :
    sliceIndex spec decoded ≤ floorplanRows spec := by
  have some : 0 < rowsPerSlice spec := Nat.zero_lt_of_lt (bankRow_lt inside)
  refine (sliceIndex_lt inside).le.trans (le_trans ?_ (Nat.le_max_right 1 _))
  calc max 1 spec.org.ranks * max 1 spec.org.sids * max 1 spec.org.pseudoChannels
      ≤ rowsPerSlice spec * (max 1 spec.org.ranks * max 1 spec.org.sids *
          max 1 spec.org.pseudoChannels) := Nat.le_mul_of_pos_left _ some
    _ = _ := by ring

theorem PlacementFits.rows (fits : PlacementFits spec options) :
    floorplanRows spec + max 1 spec.stackHeight.toNat ≤ intMax + 1 := by
  have tiles := fits.tiles
  have wide := ceilSqrtInt_pos (banksPerLayer spec)
  have narrow : max 1 spec.stackHeight.toNat * floorplanRows spec ≤ intMax := by
    refine le_trans (Nat.mul_le_mul_left _ ?_) tiles
    exact Nat.le_mul_of_pos_right _ wide
  obtain ⟨height, high⟩ := Nat.exists_eq_add_of_le (Nat.le_max_left 1 spec.stackHeight.toNat)
  obtain ⟨rows, long⟩ : ∃ rows, floorplanRows spec = 1 + rows :=
    Nat.exists_eq_add_of_le (Nat.le_max_left 1 _)
  rw [high, long] at narrow ⊢
  have spread : (1 + height) * (1 + rows) = 1 + height + rows + height * rows := by ring
  have rest := Nat.zero_le (height * rows)
  omega

/-- Where the sizes fit, so does everything computed from a valid address. -/
theorem PlacementFits.ints (fits : PlacementFits spec options)
    (enabled : options.floorplanEnabled = true) (inside : decoded.InBounds spec) :
    ∀ value ∈ placementInts spec options decoded, value ≤ intMax := by
  have range := placement_inRange inside enabled spec.org.lineSize 0
  obtain ⟨cols, rows⟩ := @placement_floorplan spec options decoded enabled spec.org.lineSize 0
  have tileId : (placement spec.org.lineSize (some spec) options 0 decoded).tileId =
      ((placement spec.org.lineSize (some spec) options 0 decoded).layer * floorplanRows spec +
        (placement spec.org.lineSize (some spec) options 0 decoded).tileY) *
          ceilSqrtInt (banksPerLayer spec) +
        (placement spec.org.lineSize (some spec) options 0 decoded).tileX := by
    unfold placement
    simp only [enabled, if_true]
    rfl
  have thermalCols : (placement spec.org.lineSize (some spec) options 0 decoded).thermalCols =
      max 1 (ceilSqrtInt (banksPerLayer spec) *
        positiveOption options.thermalGridColsPerTile) := by rw [← cols]; rfl
  have thermalRows : (placement spec.org.lineSize (some spec) options 0 decoded).thermalRows =
      max 1 (floorplanRows spec * positiveOption options.thermalGridRowsPerTile) := by
    unfold floorplanRows
    rw [← rows]
    rfl
  have layer := range.layer
  have tileX := range.tileX
  have tileY : _ < floorplanRows spec := range.tileY.trans_eq rows
  have thermalX := range.thermalX
  have thermalY := range.thermalY
  have matId := range.matId
  rw [cols] at tileX
  have raw : decoded.sid * layersPerSid spec + bankIndex spec decoded % layersPerSid spec <
      max 1 spec.org.sids * layersPerSid spec :=
    place_lt (Nat.mod_lt _ (Nat.lt_of_lt_of_le Nat.zero_lt_one (Nat.le_max_left 1 _)))
      (dimension_lt inside.sid)
  have id := place_lt tileX (place_lt tileY layer)
  rw [← tileId, Nat.mul_assoc] at id
  have banks := bankIndex_lt inside
  have layers := layersPerSid_le spec
  have slices := sliceIndex_le inside
  have square := fits.square
  have within := fits.rows
  have height : 1 ≤ max 1 spec.stackHeight.toNat := Nat.le_max_left 1 _
  simp only [placementInts, List.mem_cons, List.not_mem_nil, or_false, forall_eq_or_imp, forall_eq]
  have few := fits.banks
  have less := fits.layers
  have narrow : max 1 (ceilSqrtInt (banksPerLayer spec) *
      positiveOption options.thermalGridColsPerTile) ≤ intMax :=
    max_le (by decide) fits.thermalCols
  have short : max 1 (floorplanRows spec * positiveOption options.thermalGridRowsPerTile) ≤
      intMax := max_le (by decide) fits.thermalRows
  have mats : positiveOption options.matsPerSubarrayY * positiveOption options.matsPerSubarrayX ≤
      intMax := fits.mats
  refine ⟨by omega, less, by omega, by omega, square, few, by omega, by omega, by omega,
    id.le.trans fits.tiles, by omega, by omega, by omega, by omega, fits.subarrays,
    matId.le.trans mats, by omega⟩

/-- With the floorplan enabled and sizes that fit an `int`: a valid address is placed in range, and
addresses of different banks on different tiles. -/
theorem placed_in_range (enabled : options.floorplanEnabled = true)
    (fits : PlacementFits spec options) (lineSize : Nat) :
    (∀ (address : Nat) (decoded : DecodedAddress), decoded.InBounds spec →
      ∃ physical, physicalAddressInt lineSize spec options address decoded =
        .ok (some physical) ∧ physical.InRange spec options) ∧
    ∀ (address address' : Nat) (decoded other : DecodedAddress) (physical physical' :
        PhysicalAddress), decoded.InBounds spec → other.InBounds spec →
      physicalAddressInt lineSize spec options address decoded = .ok (some physical) →
      physicalAddressInt lineSize spec options address' other = .ok (some physical') →
      ¬ (decoded.rank = other.rank ∧ decoded.sid = other.sid ∧
        decoded.pseudoChannel = other.pseudoChannel ∧ decoded.bankGroup = other.bankGroup ∧
        decoded.bank = other.bank) →
      (physical.tileX, physical.tileY) ≠ (physical'.tileX, physical'.tileY) := by
  have placed : ∀ (address : Nat) (decoded : DecodedAddress), decoded.InBounds spec →
      physicalAddressInt lineSize spec options address decoded =
        .ok (some (placement lineSize (some spec) options address decoded)) := by
    intro address decoded inside
    unfold physicalAddressInt
    rw [validateDecodedAddress_eq_ok.mpr inside, if_pos (fits.ints enabled inside)]
    rfl
  refine ⟨fun address decoded inside =>
    ⟨_, placed address decoded inside, placement_inRange inside enabled lineSize address⟩, ?_⟩
  intro address address' decoded other physical physical' inside inside' returns returns' apart same
  rw [placed address decoded inside] at returns
  rw [placed address' other inside'] at returns'
  cases returns
  cases returns'
  obtain ⟨sameX, sameY⟩ := Prod.mk.inj same
  exact apart (tile_injective inside inside' enabled sameX sameY)

end Tiles

/-- An accepted device without a stack: four banks in one layer. -/
def unstackedSpec : DramSpec where
  org := { bankGroups := 2, banksPerGroup := 2, rows := 2, columns := 2, lineSize := 4 }
  speedBinMbps := 6400
  lpddrFamily := true
  lpddrWckRatio := 2

theorem placed_in_range_unstacked :
    ({} : StorageModelOptions).floorplanEnabled = true ∧ PlacementFits unstackedSpec {} ∧
      ∃ physical, physicalAddressInt 4 unstackedSpec {} 4 { bankGroup := 1, bank := 1 } =
        .ok (some physical) ∧ physical.InRange unstackedSpec {} := by
  have fits : PlacementFits unstackedSpec {} := by constructor <;> decide
  exact ⟨rfl, fits, (@placed_in_range unstackedSpec {} rfl fits 4).1 4 { bankGroup := 1, bank := 1 }
    ⟨by decide, by decide, by decide, by decide, by decide, by decide, by decide, by decide⟩⟩

/-- An accepted stack with more slices than an `int` counts. -/
def vastSlices : DramSpec where
  org := {
    sids := 65536, ranks := 65536, bankGroups := 1, banksPerGroup := 1, rows := 2, columns := 2 }
  speedBinMbps := 6400
  stackHeight := 1

/-- A height of zero has its banks on layer zero, and the rows of vast slices overflow. -/
theorem unstacked_on_layer :
    (validateSpec unstackedSpec = .ok () ∧
      ∃ physical, physicalAddressInt 4 unstackedSpec {} 0 {} = .ok (some physical) ∧
        ¬ (physical.layer : Int) < unstackedSpec.stackHeight) ∧
    validateSpec vastSlices = .ok () ∧ physicalAddressInt 64 vastSlices {} 0 {} = .ok none :=
  ⟨⟨by decide, placement 4 (some unstackedSpec) {} 0 {}, by decide, by decide⟩, by decide,
    by decide⟩

end HbmSim
