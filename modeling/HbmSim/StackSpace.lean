/-
The stacked address space: the configurations the memory system accepts, the
stack mapper it builds from them, and the extent the random traffic generator
draws from.

The mapper's own check and the generator compute the extent separately. They
agree when the stacks tile the space; where the interleave does not divide the
capacity of a stack, the last partial stripes leave holes below the aggregate
capacity.
-/

import HbmSim.StackAddress

namespace HbmSim

/-! ### The configuration -/

/-- The options that decide the routing. The images and the controllers the constructor makes
are left out. -/
structure MemorySystemOptions where
  channelMapper : ChannelMapperKind := .decoded
  stackCount : Int := 1
  stackMapping : StackMappingKind := .interleaved
  stackInterleaveBytes : Nat := 256
  stackIngressBufferSize : Nat := 256
  stackDispatchWidth : Nat := 4
  deriving DecidableEq, Repr

/-- The checks of the `MemorySystem` constructor. -/
def checkMemorySystem (spec : DramSpec) (options : MemorySystemOptions) :
    Except Exception Unit := do
  throwIf (options.stackCount ≤ 0) (invalidArgument "stack_count must be positive")
  validateSpec spec
  let _ ← spec.totalAddressableTransactions
  let _ ← checkedMultiplyU64 options.stackCount.toNat (max 1 spec.org.channels) "controller count"
  throwIf (options.stackInterleaveBytes = 0)
    (invalidArgument "stack_interleave_bytes must be positive")
  throwIf (options.stackMapping = .interleaved ∧
      (options.stackInterleaveBytes < spec.org.lineSize ∨
        options.stackInterleaveBytes % spec.org.lineSize ≠ 0))
    (invalidArgument ("interleaved stack mapping requires stack_interleave_bytes to be a " ++
      "positive multiple of line_size"))
  throwIf (options.stackIngressBufferSize = 0 ∨ options.stackDispatchWidth = 0)
    (invalidArgument "stack ingress buffer size and dispatch width must be positive")

/-- The stack mapper of a system, with the capacity of the geometry. -/
def stackMapper (spec : DramSpec) (options : MemorySystemOptions) :
    Except Exception StackAddressMapper := do
  StackAddressMapper.create options.stackCount options.stackInterleaveBytes
    (← spec.addressableCapacityBytes) options.stackMapping

/-- `random_start_count`: how many line-aligned addresses the random generator draws from. A
zero address space stands for all stacks. -/
def randomStartCount (spec : DramSpec) (stackCount : Int) (randomAddressSpaceBytes : Nat) :
    Except Exception Nat := do
  let aggregateCapacity ← checkedMultiply (← spec.addressableCapacityBytes)
    (max 1 stackCount).toNat "aggregate random traffic capacity"
  let addressSpace :=
    if randomAddressSpaceBytes = 0 then aggregateCapacity else randomAddressSpaceBytes
  let alignment := max 1 spec.org.lineSize
  let hostBytes := max 1 spec.org.lineSize
  throwIf (aggregateCapacity < addressSpace)
    (invalidArgument "random_address_space_bytes exceeds aggregate model capacity")
  throwIf (addressSpace < hostBytes)
    (invalidArgument "random_address_space_bytes is smaller than one host request")
  throwIf (addressSpace % alignment ≠ 0)
    (invalidArgument "random_address_space_bytes must be a multiple of line_size")
  return 1 + (addressSpace - hostBytes) / alignment

/-- What an accepted configuration guarantees of its mapper. -/
structure SystemMapper (spec : DramSpec) (options : MemorySystemOptions)
    (mapper : StackAddressMapper) : Prop where
  made : stackMapper spec options = .ok mapper
  stackCount : options.stackCount = mapper.stackCount
  interleaveBytes : options.stackInterleaveBytes = mapper.interleaveBytes
  capacity : mapper.stackCapacityBytes = spec.capacityOf
  kind : options.stackMapping = mapper.kind
  capacity_pos : 0 < spec.capacityOf
  capacity_le : spec.capacityOf ≤ uint64Max
  valid : validateSpec spec = .ok ()

theorem capacityOf_pos {spec : DramSpec} (positive : spec.org.Positive) : 0 < spec.capacityOf := by
  refine Nat.mul_pos ?_ (transactionBytes_pos spec)
  rw [← places_prod]
  exact List.prod_pos (places_positive positive)

/-- The constructor only accepts configurations it can build a mapper for. -/
theorem checkMemorySystem_mapper {spec : DramSpec} {options : MemorySystemOptions}
    (accepted : checkMemorySystem spec options = .ok ()) :
    ∃ mapper, SystemMapper spec options mapper := by
  obtain ⟨_, count, rest⟩ := bind_eq_ok.mp accepted
  obtain ⟨_, valid, rest⟩ := bind_eq_ok.mp rest
  obtain ⟨_, -, rest⟩ := bind_eq_ok.mp rest
  obtain ⟨_, -, rest⟩ := bind_eq_ok.mp rest
  obtain ⟨_, interleave, -⟩ := bind_eq_ok.mp rest
  rw [throwIf_eq_ok] at count interleave
  obtain ⟨capacity, -, fits⟩ := validateSpec_capacity valid
  have positive := capacityOf_pos (validateSpec_positive valid)
  let mapper : StackAddressMapper := {
    stackCount := options.stackCount.toNat
    interleaveBytes := options.stackInterleaveBytes
    stackCapacityBytes := spec.capacityOf
    kind := options.stackMapping
    stackCount_pos := by omega
    interleaveBytes_pos := Nat.pos_of_ne_zero interleave
    capacity_ne_zero := fun _ => positive.ne' }
  have same : options.stackCount = mapper.stackCount := (Int.toNat_of_nonneg (by omega)).symm
  refine ⟨mapper, ?_, same, rfl, rfl, rfl, positive, fits, valid⟩
  exact bind_eq_ok.mpr ⟨_, capacity, StackAddressMapper.create_eq_ok.mpr ⟨same, rfl, rfl, rfl⟩⟩

/-! ### Tiling -/

namespace StackAddressMapper

variable {mapper : StackAddressMapper}

/-- The stripes of the stacks fill the space up to the aggregate capacity. -/
def Tiles (mapper : StackAddressMapper) : Prop :=
  mapper.stackCount = 1 ∨ mapper.kind = .blocked ∨
    mapper.interleaveBytes ∣ mapper.stackCapacityBytes

theorem Tiles.holds_split_iff (tiles : mapper.Tiles) (limited : 0 < mapper.stackCapacityBytes)
    (systemAddress : Nat) :
    mapper.Holds (mapper.split systemAddress) ↔
      systemAddress < mapper.stackCount * mapper.stackCapacityBytes := by
  unfold Tiles at tiles
  unfold split
  by_cases single : mapper.stackCount = 1
  · rw [if_pos single, single, Nat.one_mul]
    exact ⟨fun holds => holds.localAddress limited.ne', fun inside =>
      ⟨single ▸ Nat.one_pos, fun _ => inside⟩⟩
  rw [if_neg single]
  cases kind : mapper.kind with
  | blocked =>
    rw [← Nat.div_lt_iff_lt_mul limited]
    exact ⟨fun holds => holds.stack, fun inside => ⟨inside, fun _ => Nat.mod_lt _ limited⟩⟩
  | interleaved =>
    obtain ⟨stripes, whole⟩ : mapper.interleaveBytes ∣ mapper.stackCapacityBytes := by
      rcases tiles with one | blocked | divides
      · exact absurd one single
      · rw [kind] at blocked
        cases blocked
      · exact divides
    have positive := mapper.interleaveBytes_pos
    have offset := Nat.mod_lt systemAddress positive
    have inside : systemAddress / mapper.interleaveBytes / mapper.stackCount *
        mapper.interleaveBytes + systemAddress % mapper.interleaveBytes <
          mapper.stackCapacityBytes ↔
        systemAddress < mapper.stackCount * mapper.stackCapacityBytes := by
      rw [whole, Nat.mul_comm mapper.interleaveBytes stripes, ← Nat.div_lt_iff_lt_mul positive,
        Nat.add_comm, Nat.add_mul_div_right _ _ positive, Nat.div_eq_of_lt offset, Nat.zero_add,
        Nat.div_lt_iff_lt_mul mapper.stackCount_pos, Nat.div_lt_iff_lt_mul positive,
        Nat.mul_right_comm, Nat.mul_comm (stripes * _)]
    exact ⟨fun holds => inside.mp (holds.localAddress limited.ne'), fun below =>
      ⟨Nat.mod_lt _ mapper.stackCount_pos, fun _ => inside.mpr below⟩⟩

/-- Where the stacks do not tile, the first address after the whole stripes of stack zero is
below the aggregate capacity and outside every stack. -/
theorem hole_of_not_tiles (gap : ¬ mapper.Tiles) :
    mapper.join 0 mapper.stackCapacityBytes < mapper.stackCount * mapper.stackCapacityBytes ∧
      ¬ mapper.Holds (mapper.split (mapper.join 0 mapper.stackCapacityBytes)) ∧
      ∃ localAddress, mapper.Holds (1, localAddress) ∧
        mapper.join 0 mapper.stackCapacityBytes < mapper.join 1 localAddress := by
  unfold Tiles at gap
  rw [not_or, not_or] at gap
  obtain ⟨several, striped, indivisible⟩ := gap
  have kind : mapper.kind = .interleaved := by
    cases kind : mapper.kind
    · rfl
    · exact absurd kind striped
  have two : 2 ≤ mapper.stackCount := by
    have := mapper.stackCount_pos
    omega
  have rest : 0 < mapper.stackCapacityBytes % mapper.interleaveBytes :=
    Nat.pos_of_ne_zero fun zero => indivisible (Nat.dvd_of_mod_eq_zero zero)
  have whole := Nat.div_add_mod' mapper.stackCapacityBytes mapper.interleaveBytes
  have joined : ∀ stack localAddress, mapper.join stack localAddress =
      (localAddress / mapper.interleaveBytes * mapper.stackCount + stack) *
        mapper.interleaveBytes + localAddress % mapper.interleaveBytes := by
    intro stack localAddress
    unfold join
    rw [if_neg several, kind]
  have positive := mapper.interleaveBytes_pos
  refine ⟨?_, ?_, ?_⟩
  · rw [joined]
    calc _ = mapper.stackCapacityBytes / mapper.interleaveBytes * mapper.interleaveBytes *
            mapper.stackCount + mapper.stackCapacityBytes % mapper.interleaveBytes := by ring
      _ < mapper.stackCapacityBytes / mapper.interleaveBytes * mapper.interleaveBytes *
            mapper.stackCount +
            mapper.stackCapacityBytes % mapper.interleaveBytes * mapper.stackCount :=
          Nat.add_lt_add_left (lt_mul_of_one_lt_right rest two) _
      _ = mapper.stackCount * mapper.stackCapacityBytes := by
          rw [← Nat.add_mul, whole, Nat.mul_comm]
  · rw [split_join mapper.stackCount_pos fun blocked => absurd blocked striped]
    intro holds
    have limited : mapper.stackCapacityBytes ≠ 0 := fun zero => indivisible (zero ▸ dvd_zero _)
    exact lt_irrefl _ (holds.localAddress limited)
  · refine ⟨mapper.stackCapacityBytes / mapper.interleaveBytes * mapper.interleaveBytes,
      ⟨two, fun _ => Nat.lt_of_lt_of_eq (Nat.lt_add_of_pos_right rest) whole⟩, ?_⟩
    rw [joined, joined, Nat.mul_div_cancel _ positive, Nat.mul_mod_left, Nat.add_zero,
      Nat.add_zero, Nat.add_mul, Nat.one_mul]
    exact Nat.add_lt_add_left (Nat.mod_lt _ positive) _

end StackAddressMapper

/-! ### The extent the parts agree on -/

/-- The stacked space has no holes: the 64-bit addresses that decode are those below the
aggregate capacity, every byte the random generator may ask for is routed, and every local
address of every stack has a system address. -/
structure NoHoles (spec : DramSpec) (options : MemorySystemOptions)
    (mapper : StackAddressMapper) : Prop where
  exact : ∀ systemAddress ≤ uint64Max, (∃ routed, mapper.decode systemAddress = .ok routed) ↔
    systemAddress < options.stackCount.toNat * spec.capacityOf
  traffic : ∀ space starts, randomStartCount spec options.stackCount space = .ok starts →
    ∀ index < starts, ∀ offset < spec.org.lineSize,
      ∃ routed, mapper.decode (index * spec.org.lineSize + offset) = .ok routed
  reachable : ∀ stack < options.stackCount.toNat, ∀ localAddress < spec.capacityOf,
    ∃ systemAddress ≤ uint64Max, mapper.decode systemAddress = .ok ⟨stack, localAddress⟩

/-- The interleave divides the capacity of a stack, unless the stacks are not interleaved, and
the aggregate fits the address space. -/
def StacksTile (spec : DramSpec) (options : MemorySystemOptions) : Prop :=
  (options.stackCount = 1 ∨ options.stackMapping = .blocked ∨
    options.stackInterleaveBytes ∣ spec.capacityOf) ∧
  options.stackCount.toNat * spec.capacityOf ≤ 2 ^ 64

section Space

variable {spec : DramSpec} {options : MemorySystemOptions} {mapper : StackAddressMapper}

theorem SystemMapper.stackCount_toNat (built : SystemMapper spec options mapper) :
    options.stackCount.toNat = mapper.stackCount := by
  rw [built.stackCount, Int.toNat_natCast]

theorem SystemMapper.tiles_iff (built : SystemMapper spec options mapper) :
    mapper.Tiles ↔ options.stackCount = 1 ∨ options.stackMapping = .blocked ∨
      options.stackInterleaveBytes ∣ spec.capacityOf := by
  unfold StackAddressMapper.Tiles
  rw [built.stackCount, built.interleaveBytes, built.kind, built.capacity, Nat.cast_eq_one]

/-- A random start lies a whole line below the aggregate capacity, which fits 64 bits. -/
theorem randomStartCount_below {space starts index : Nat} {stackCount : Int}
    (positive : 0 < stackCount) (line : 0 < spec.org.lineSize)
    (returns : randomStartCount spec stackCount space = .ok starts) (small : index < starts) :
    index * spec.org.lineSize + spec.org.lineSize ≤ stackCount.toNat * spec.capacityOf ∧
      stackCount.toNat * spec.capacityOf ≤ uint64Max := by
  obtain ⟨capacity, accepted, rest⟩ := bind_eq_ok.mp returns
  obtain ⟨aggregate, multiplied, rest⟩ := bind_eq_ok.mp rest
  obtain ⟨_, within, rest⟩ := bind_eq_ok.mp rest
  obtain ⟨_, holdsOne, rest⟩ := bind_eq_ok.mp rest
  obtain ⟨_, -, value⟩ := bind_eq_ok.mp rest
  obtain ⟨rfl, -⟩ := spec.addressableCapacityBytes_eq accepted
  obtain ⟨rfl, fits⟩ := checkedMultiply_eq_ok.mp multiplied
  rw [throwIf_eq_ok, Nat.not_lt] at within holdsOne
  replace value := Except.ok.inj value
  generalize (if space = 0 then _ else space) = extent at within holdsOne value
  rw [Int.max_eq_right (show (1 : Int) ≤ stackCount from positive), Nat.mul_comm] at within fits
  rw [Nat.max_eq_right line] at holdsOne value
  refine ⟨le_trans ?_ within, fits⟩
  have bounded : index ≤ (extent - spec.org.lineSize) / spec.org.lineSize := by omega
  have lines := (Nat.le_div_iff_mul_le line).mp bounded
  omega

/-- The stacked space has no holes exactly when the stacks tile it. -/
theorem noHoles_iff_stacksTile (accepted : checkMemorySystem spec options = .ok ()) :
    ∃ mapper, stackMapper spec options = .ok mapper ∧
      (NoHoles spec options mapper ↔ StacksTile spec options) := by
  obtain ⟨mapper, built⟩ := checkMemorySystem_mapper accepted
  refine ⟨mapper, built.made, ?_⟩
  have count := built.stackCount_toNat
  have capacity := built.capacity
  have limited : 0 < mapper.stackCapacityBytes := capacity ▸ built.capacity_pos
  unfold StacksTile
  rw [← built.tiles_iff, count]
  have decodes : ∀ systemAddress ≤ uint64Max,
      ((∃ routed, mapper.decode systemAddress = .ok routed) ↔
        mapper.Holds (mapper.split systemAddress)) := by
    intro systemAddress small
    simp only [StackAddressMapper.decode_eq_ok small, exists_and_left, exists_eq, and_true]
  constructor
  · intro noHoles
    have reached : ∀ place : Nat × Nat, mapper.Holds place →
        mapper.join place.1 place.2 ≤ uint64Max := by
      intro place holds
      obtain ⟨systemAddress, small, decoded⟩ := noHoles.reachable place.1
        (count ▸ holds.stack) place.2 (capacity ▸ holds.localAddress limited.ne')
      obtain ⟨-, same⟩ := (StackAddressMapper.decode_eq_ok small).mp decoded
      obtain ⟨stack, localAddress⟩ := StackAddress.mk.inj same
      rw [Nat.cast_inj.mp stack, localAddress, StackAddressMapper.join_split]
      exact small
    have tiles : mapper.Tiles := by
      by_contra gap
      obtain ⟨below, outside, localAddress, holds, above⟩ :=
        StackAddressMapper.hole_of_not_tiles gap
      have small := le_trans above.le (reached _ holds)
      refine outside ((decodes _ small).mp ((noHoles.exact _ small).mpr ?_))
      rw [count, ← capacity]
      exact below
    refine ⟨tiles, ?_⟩
    by_contra large
    rw [Nat.not_le, ← capacity] at large
    have beyond := reached _ ((tiles.holds_split_iff limited _).mpr large)
    rw [StackAddressMapper.join_split] at beyond
    exact absurd beyond (by decide)
  · rintro ⟨tiles, fits⟩
    have exact : ∀ systemAddress ≤ uint64Max,
        (∃ routed, mapper.decode systemAddress = .ok routed) ↔
          systemAddress < mapper.stackCount * spec.capacityOf := by
      intro systemAddress small
      rw [decodes _ small, tiles.holds_split_iff limited, capacity]
    refine ⟨count.symm ▸ exact, ?_, ?_⟩
    · intro space starts returns index small offset inside
      have positive := built.stackCount ▸ (Nat.cast_pos (α := Int)).mpr mapper.stackCount_pos
      have line := (validateSpec_positive built.valid).lineSize
      obtain ⟨below, bounded⟩ := randomStartCount_below positive line returns small
      rw [count] at below bounded
      have within := Nat.lt_of_lt_of_le (Nat.add_lt_add_left inside _) below
      exact (exact _ (le_trans within.le bounded)).mpr within
    · intro stack inRange localAddress inside
      have holds : mapper.Holds (stack, localAddress) :=
        ⟨count ▸ inRange, fun _ => capacity.symm ▸ inside⟩
      have below : mapper.join stack localAddress <
          mapper.stackCount * mapper.stackCapacityBytes := by
        rw [← tiles.holds_split_iff limited, holds.split_join]
        exact holds
      have small : mapper.join stack localAddress ≤ uint64Max := by
        rw [capacity] at below
        exact Nat.le_pred_of_lt (Nat.lt_of_lt_of_le below fits)
      refine ⟨_, small, (StackAddressMapper.decode_eq_ok small).mpr ?_⟩
      rw [holds.split_join]
      exact ⟨holds, rfl⟩

/-- Two stacks of the odd device, interleaved by two lines: the capacity is not a multiple. -/
def unevenOptions : MemorySystemOptions where
  stackCount := 2
  stackInterleaveBytes := 128

theorem noHoles_iff_stacksTile_uneven :
    ∃ mapper, stackMapper oddSpec unevenOptions = .ok mapper ∧
      (NoHoles oddSpec unevenOptions mapper ↔ StacksTile oddSpec unevenOptions) :=
  noHoles_iff_stacksTile rfl

/-- The address 64 bytes below the aggregate capacity is rejected, though the random generator
draws it. -/
theorem stackSpace_has_hole :
    checkMemorySystem oddSpec unevenOptions = .ok () ∧
      362816 < unevenOptions.stackCount.toNat * oddSpec.capacityOf ∧
      (do (← stackMapper oddSpec unevenOptions).decode 362816) =
        .error (outOfRange "system address exceeds aggregate multi-stack capacity") ∧
      (∃ starts, randomStartCount oddSpec unevenOptions.stackCount 0 = .ok starts ∧
        ∃ index < starts, index * oddSpec.org.lineSize = 362816) :=
  ⟨rfl, by decide, rfl, 5670, rfl, 5669, by decide, rfl⟩

end Space

end HbmSim
