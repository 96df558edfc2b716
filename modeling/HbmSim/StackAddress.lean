/-
The stack mapper: a system address is split into a stack and an address local to
it, and put together again.

Addresses are 64-bit words in the source. They are natural numbers here, and
every checked product and sum is reduced modulo `2 ^ 64` after its check, as the
machine reduces it. The layout in exact arithmetic is stated beside the code, and
the code is shown to compute it.
-/

import HbmSim.Address

namespace HbmSim

inductive StackMappingKind
  | interleaved
  | blocked
  deriving DecidableEq, Repr

structure StackAddress where
  stack : Int := 0
  localAddress : Nat := 0
  deriving DecidableEq, Repr

/-! ### Checked arithmetic -/

/-- A product of 64-bit words. One that does not fit names the range it exceeds. -/
def productWithin (range : String) (lhs rhs : Nat) (context : String) : Except Exception Nat := do
  throwIf (lhs ≠ 0 ∧ uint64Max / lhs < rhs) (overflowError (context ++ " exceeds " ++ range))
  return lhs * rhs % 2 ^ 64

/-- `checked_multiply` of the mapper, and `checked_multiply_u64` of the frontend. -/
def checkedMultiply : Nat → Nat → String → Except Exception Nat := productWithin "Address space"

/-- `checked_multiply_u64` of the memory system. -/
def checkedMultiplyU64 : Nat → Nat → String → Except Exception Nat := productWithin "uint64 range"

def checkedAdd (lhs rhs : Nat) (context : String) : Except Exception Nat := do
  throwIf (uint64Max - lhs < rhs) (overflowError (context ++ " exceeds Address space"))
  return (lhs + rhs) % 2 ^ 64

/-- The product is exact where it is accepted, and it is accepted where it fits. -/
theorem checkedMultiply_eq_ok {lhs rhs product : Nat} {context : String} :
    checkedMultiply lhs rhs context = .ok product ↔
      product = lhs * rhs ∧ lhs * rhs ≤ uint64Max := by
  have fits : ¬ (lhs ≠ 0 ∧ uint64Max / lhs < rhs) ↔ lhs * rhs ≤ uint64Max := by
    rcases Nat.eq_zero_or_pos lhs with zero | positive
    · simp [zero]
    · rw [not_and, Nat.not_lt, Nat.le_div_iff_mul_le positive, Nat.mul_comm]
      exact ⟨fun small => small positive.ne', fun small _ => small⟩
  have exact_of : lhs * rhs ≤ uint64Max → lhs * rhs % 2 ^ 64 = lhs * rhs := fun small =>
    Nat.mod_eq_of_lt (Nat.lt_of_le_of_lt small (by decide))
  unfold checkedMultiply productWithin
  rw [bind_eq_ok]
  constructor
  · rintro ⟨_, checked, value⟩
    rw [throwIf_eq_ok, fits] at checked
    exact ⟨(Except.ok.inj value).symm.trans (exact_of checked), checked⟩
  · rintro ⟨rfl, small⟩
    refine ⟨(), throwIf_eq_ok.mpr (fits.mpr small), ?_⟩
    rw [exact_of small]
    rfl

theorem checkedAdd_eq_ok {lhs rhs sum : Nat} {context : String} (small : lhs ≤ uint64Max) :
    checkedAdd lhs rhs context = .ok sum ↔ sum = lhs + rhs ∧ lhs + rhs ≤ uint64Max := by
  have fits : ¬ uint64Max - lhs < rhs ↔ lhs + rhs ≤ uint64Max := by omega
  have exact_of : lhs + rhs ≤ uint64Max → (lhs + rhs) % 2 ^ 64 = lhs + rhs := fun inside =>
    Nat.mod_eq_of_lt (Nat.lt_of_le_of_lt inside (by decide))
  unfold checkedAdd
  rw [bind_eq_ok]
  constructor
  · rintro ⟨_, checked, value⟩
    rw [throwIf_eq_ok, fits] at checked
    exact ⟨(Except.ok.inj value).symm.trans (exact_of checked), checked⟩
  · rintro ⟨rfl, inside⟩
    refine ⟨(), throwIf_eq_ok.mpr (fits.mpr inside), ?_⟩
    rw [exact_of inside]
    rfl

/-- A checked product and a checked sum, as the mapper puts an address together. -/
theorem checkedMultiplyAdd_eq_ok {high radix low value : Nat} {context : String} :
    (∃ product, checkedMultiply high radix context = .ok product ∧
      checkedAdd product low context = .ok value) ↔
      value = high * radix + low ∧ high * radix + low ≤ uint64Max := by
  constructor
  · rintro ⟨product, multiplied, added⟩
    obtain ⟨rfl, small⟩ := checkedMultiply_eq_ok.mp multiplied
    exact (checkedAdd_eq_ok small).mp added
  · rintro ⟨rfl, inside⟩
    have small : high * radix ≤ uint64Max := le_trans (Nat.le_add_right _ _) inside
    exact ⟨_, checkedMultiply_eq_ok.mpr ⟨rfl, small⟩, (checkedAdd_eq_ok small).mpr ⟨rfl, inside⟩⟩

/-! ### The mapper -/

/-- A mapper the constructor accepts. -/
structure StackAddressMapper where
  stackCount : Nat
  interleaveBytes : Nat
  stackCapacityBytes : Nat
  kind : StackMappingKind
  stackCount_pos : 0 < stackCount
  interleaveBytes_pos : 0 < interleaveBytes
  capacity_ne_zero : kind = .blocked → stackCapacityBytes ≠ 0

namespace StackAddressMapper

def create (stackCount : Int) (interleaveBytes stackCapacityBytes : Nat)
    (kind : StackMappingKind) : Except Exception StackAddressMapper :=
  if count : stackCount ≤ 0 then .error (invalidArgument "stack_count must be positive")
  else if interleave : interleaveBytes = 0 then
    .error (invalidArgument "stack_interleave_bytes must be positive")
  else if capacity : kind = .blocked ∧ stackCapacityBytes = 0 then
    .error (invalidArgument "blocked stack mapping requires non-zero stack capacity")
  else .ok {
    stackCount := stackCount.toNat
    interleaveBytes
    stackCapacityBytes
    kind
    stackCount_pos := by omega
    interleaveBytes_pos := Nat.pos_of_ne_zero interleave
    capacity_ne_zero := fun blocked zero => capacity ⟨blocked, zero⟩ }

theorem create_eq_ok {stackCount : Int} {interleaveBytes stackCapacityBytes : Nat}
    {kind : StackMappingKind} {mapper : StackAddressMapper} :
    create stackCount interleaveBytes stackCapacityBytes kind = .ok mapper ↔
      stackCount = mapper.stackCount ∧ interleaveBytes = mapper.interleaveBytes ∧
        stackCapacityBytes = mapper.stackCapacityBytes ∧ kind = mapper.kind := by
  constructor
  · intro made
    unfold create at made
    split at made
    · cases made
    split at made
    · cases made
    split at made
    · cases made
    cases made
    exact ⟨(Int.toNat_of_nonneg (by omega)).symm, rfl, rfl, rfl⟩
  · obtain ⟨count, interleave, capacity, mapperKind, countPos, interleavePos, nonzero⟩ := mapper
    rintro ⟨rfl, rfl, rfl, rfl⟩
    unfold create
    rw [dif_neg (show ¬ ((count : Int) ≤ 0) by omega),
      dif_neg (show interleaveBytes ≠ 0 from interleavePos.ne'),
      dif_neg fun blocked => nonzero blocked.1 blocked.2]
    rfl

def decode (mapper : StackAddressMapper) (systemAddress : Nat) : Except Exception StackAddress :=
  if mapper.stackCount = 1 then do
    throwIf (mapper.stackCapacityBytes ≠ 0 ∧ mapper.stackCapacityBytes ≤ systemAddress)
      (outOfRange "system address exceeds stack capacity")
    return { stack := 0, localAddress := systemAddress }
  else match mapper.kind with
    | .blocked => do
      let stack := systemAddress / mapper.stackCapacityBytes
      throwIf (mapper.stackCount ≤ stack)
        (outOfRange "system address exceeds aggregate multi-stack capacity")
      return { stack := stack, localAddress := systemAddress % mapper.stackCapacityBytes }
    | .interleaved => do
      let stripe := systemAddress / mapper.interleaveBytes
      let offset := systemAddress % mapper.interleaveBytes
      let stack := stripe % mapper.stackCount
      let localStripe := stripe / mapper.stackCount
      let localAddress ← do
        checkedAdd (← checkedMultiply localStripe mapper.interleaveBytes
          "decoded stack-local address") offset "decoded stack-local address"
      throwIf (mapper.stackCapacityBytes ≠ 0 ∧ mapper.stackCapacityBytes ≤ localAddress)
        (outOfRange "system address exceeds aggregate multi-stack capacity")
      return { stack := stack, localAddress }

def encode (mapper : StackAddressMapper) (stack : Int) (localAddress : Nat) :
    Except Exception Nat := do
  throwIf (stack < 0 ∨ mapper.stackCount ≤ stack) (outOfRange "stack_id out of range")
  throwIf (mapper.stackCapacityBytes ≠ 0 ∧ mapper.stackCapacityBytes ≤ localAddress)
    (outOfRange "local address exceeds stack capacity")
  if mapper.stackCount = 1 then return localAddress
  else match mapper.kind with
    | .blocked => do
      throwIf (mapper.stackCapacityBytes ≤ localAddress)
        (outOfRange "local address exceeds stack capacity")
      checkedAdd (← checkedMultiply stack.toNat mapper.stackCapacityBytes
        "blocked system address") localAddress "blocked system address"
    | .interleaved => do
      let localStripe := localAddress / mapper.interleaveBytes
      let offset := localAddress % mapper.interleaveBytes
      let stripe ← do
        checkedAdd (← checkedMultiply localStripe mapper.stackCount "interleaved system stripe")
          stack.toNat "interleaved system stripe"
      checkedAdd (← checkedMultiply stripe mapper.interleaveBytes "interleaved system address")
        offset "interleaved system address"

/-! ### The layout -/

/-- The system address of a local one, in exact arithmetic. -/
def join (mapper : StackAddressMapper) (stack localAddress : Nat) : Nat :=
  if mapper.stackCount = 1 then localAddress
  else match mapper.kind with
    | .blocked => stack * mapper.stackCapacityBytes + localAddress
    | .interleaved => (localAddress / mapper.interleaveBytes * mapper.stackCount + stack) *
        mapper.interleaveBytes + localAddress % mapper.interleaveBytes

/-- The stack and the local address of a system address, in exact arithmetic. -/
def split (mapper : StackAddressMapper) (systemAddress : Nat) : Nat × Nat :=
  if mapper.stackCount = 1 then (0, systemAddress)
  else match mapper.kind with
    | .blocked =>
      (systemAddress / mapper.stackCapacityBytes, systemAddress % mapper.stackCapacityBytes)
    | .interleaved => (systemAddress / mapper.interleaveBytes % mapper.stackCount,
        systemAddress / mapper.interleaveBytes / mapper.stackCount * mapper.interleaveBytes +
          systemAddress % mapper.interleaveBytes)

/-- A place of the stacked space. Capacity zero stands for no limit. -/
structure Holds (mapper : StackAddressMapper) (place : Nat × Nat) : Prop where
  stack : place.1 < mapper.stackCount
  localAddress : mapper.stackCapacityBytes ≠ 0 → place.2 < mapper.stackCapacityBytes

variable {mapper : StackAddressMapper} {stack localAddress systemAddress : Nat}

theorem join_split (mapper : StackAddressMapper) (systemAddress : Nat) :
    mapper.join (mapper.split systemAddress).1 (mapper.split systemAddress).2 = systemAddress := by
  unfold join split
  by_cases single : mapper.stackCount = 1
  · simp only [if_pos single]
  simp only [if_neg single]
  cases mapper.kind with
  | blocked => exact Nat.div_add_mod' systemAddress mapper.stackCapacityBytes
  | interleaved =>
    have offset : systemAddress % mapper.interleaveBytes < mapper.interleaveBytes :=
      Nat.mod_lt _ mapper.interleaveBytes_pos
    show ((_ * _ + _) / _ * _ + _) * _ + (_ * _ + _) % _ = systemAddress
    rw [Nat.add_comm (_ * mapper.interleaveBytes) (systemAddress % _),
      Nat.add_mul_div_right _ _ mapper.interleaveBytes_pos, Nat.div_eq_of_lt offset, Nat.zero_add,
      Nat.div_add_mod', Nat.add_mul_mod_self_right, Nat.mod_mod, Nat.div_add_mod']

theorem split_join (inRange : stack < mapper.stackCount)
    (inside : mapper.kind = .blocked → localAddress < mapper.stackCapacityBytes) :
    mapper.split (mapper.join stack localAddress) = (stack, localAddress) := by
  unfold join split
  by_cases single : mapper.stackCount = 1
  · have first : stack = 0 := Nat.lt_one_iff.mp (single ▸ inRange)
    simp only [if_pos single, first]
  simp only [if_neg single]
  cases kind : mapper.kind with
  | blocked =>
    have inside := inside kind
    have positive := Nat.zero_lt_of_lt inside
    simp only [Prod.mk.injEq]
    rw [Nat.add_comm, Nat.add_mul_div_right _ _ positive, Nat.div_eq_of_lt inside, Nat.zero_add,
      Nat.add_mul_mod_self_right, Nat.mod_eq_of_lt inside]
    exact ⟨rfl, rfl⟩
  | interleaved =>
    have offset : localAddress % mapper.interleaveBytes < mapper.interleaveBytes :=
      Nat.mod_lt _ mapper.interleaveBytes_pos
    simp only [Prod.mk.injEq]
    rw [Nat.add_comm (_ * mapper.interleaveBytes),
      Nat.add_mul_div_right _ _ mapper.interleaveBytes_pos, Nat.div_eq_of_lt offset, Nat.zero_add,
      Nat.add_mul_mod_self_right, Nat.mod_mod, Nat.add_comm (_ * mapper.stackCount),
      Nat.add_mul_mod_self_right, Nat.mod_eq_of_lt inRange,
      Nat.add_mul_div_right _ _ mapper.stackCount_pos, Nat.div_eq_of_lt inRange, Nat.zero_add,
      Nat.div_add_mod']
    exact ⟨rfl, rfl⟩

theorem Holds.split_join (holds : mapper.Holds (stack, localAddress)) :
    mapper.split (mapper.join stack localAddress) = (stack, localAddress) :=
  StackAddressMapper.split_join holds.stack fun blocked =>
    holds.localAddress (mapper.capacity_ne_zero blocked)

/-- A local address is no larger than the system address it came from. -/
theorem split_le (mapper : StackAddressMapper) (systemAddress : Nat) :
    (mapper.split systemAddress).2 ≤ systemAddress := by
  unfold split
  by_cases single : mapper.stackCount = 1
  · simp only [if_pos single, le_refl]
  simp only [if_neg single]
  cases mapper.kind with
  | blocked => exact Nat.mod_le _ _
  | interleaved =>
    calc _ ≤ systemAddress / mapper.interleaveBytes * mapper.interleaveBytes +
          systemAddress % mapper.interleaveBytes :=
        Nat.add_le_add_right (Nat.mul_le_mul_right _ (Nat.div_le_self _ _)) _
      _ = systemAddress := Nat.div_add_mod' _ _

/-! ### What the code computes -/

/-- Decoding accepts the addresses whose exact split is a place of the space, and answers with
that split: nothing wraps around. -/
theorem decode_eq_ok {routed : StackAddress} (small : systemAddress ≤ uint64Max) :
    mapper.decode systemAddress = .ok routed ↔
      mapper.Holds (mapper.split systemAddress) ∧
        routed = ⟨(mapper.split systemAddress).1, (mapper.split systemAddress).2⟩ := by
  have below := mapper.split_le systemAddress
  unfold decode
  unfold split at below ⊢
  by_cases single : mapper.stackCount = 1
  · simp only [if_pos single]
    rw [bind_eq_ok]
    constructor
    · rintro ⟨_, inside, value⟩
      rw [throwIf_eq_ok, not_and, Nat.not_le] at inside
      exact ⟨⟨single ▸ Nat.one_pos, inside⟩, (Except.ok.inj value).symm⟩
    · rintro ⟨⟨-, inside⟩, rfl⟩
      exact ⟨(), throwIf_eq_ok.mpr (by rw [not_and, Nat.not_le]; exact inside), rfl⟩
  simp only [if_neg single] at below ⊢
  cases kind : mapper.kind with
  | blocked =>
    simp only
    have positive := Nat.pos_of_ne_zero (mapper.capacity_ne_zero kind)
    rw [bind_eq_ok]
    constructor
    · rintro ⟨_, inside, value⟩
      rw [throwIf_eq_ok, Nat.not_le] at inside
      exact ⟨⟨inside, fun _ => Nat.mod_lt _ positive⟩, (Except.ok.inj value).symm⟩
    · rintro ⟨⟨inside, -⟩, rfl⟩
      exact ⟨(), throwIf_eq_ok.mpr (Nat.not_le.mpr inside), rfl⟩
  | interleaved =>
    simp only [kind] at below ⊢
    rw [bind_eq_ok]
    constructor
    · rintro ⟨_, multiplied, rest⟩
      obtain ⟨_, added, rest⟩ := bind_eq_ok.mp rest
      obtain ⟨rfl, -⟩ := checkedMultiplyAdd_eq_ok.mp ⟨_, multiplied, added⟩
      obtain ⟨_, inside, value⟩ := bind_eq_ok.mp rest
      rw [throwIf_eq_ok, not_and, Nat.not_le] at inside
      exact ⟨⟨Nat.mod_lt _ mapper.stackCount_pos, inside⟩, (Except.ok.inj value).symm⟩
    · rintro ⟨⟨-, inside⟩, rfl⟩
      obtain ⟨product, multiplied, added⟩ :=
        checkedMultiplyAdd_eq_ok.mpr ⟨rfl, le_trans below small⟩
      refine ⟨product, multiplied, bind_eq_ok.mpr ⟨_, added, bind_eq_ok.mpr ⟨(), ?_, rfl⟩⟩⟩
      rw [throwIf_eq_ok, not_and, Nat.not_le]
      exact inside

/-- Encoding accepts the places of the space whose exact system address fits 64 bits, and
answers with that address. -/
theorem encode_eq_ok {selected : Int} (small : localAddress ≤ uint64Max) :
    mapper.encode selected localAddress = .ok systemAddress ↔
      0 ≤ selected ∧ mapper.Holds (selected.toNat, localAddress) ∧
        mapper.join selected.toNat localAddress ≤ uint64Max ∧
        systemAddress = mapper.join selected.toNat localAddress := by
  have range : ¬ (selected < 0 ∨ (mapper.stackCount : Int) ≤ selected) ↔
      0 ≤ selected ∧ selected.toNat < mapper.stackCount := by omega
  have limit : ¬ (mapper.stackCapacityBytes ≠ 0 ∧ mapper.stackCapacityBytes ≤ localAddress) ↔
      (mapper.stackCapacityBytes ≠ 0 → localAddress < mapper.stackCapacityBytes) := by
    rw [not_and, Nat.not_le]
  have checked : mapper.encode selected localAddress = .ok systemAddress ↔
      0 ≤ selected ∧ mapper.Holds (selected.toNat, localAddress) ∧
        (if mapper.stackCount = 1 then Except.ok localAddress
        else match mapper.kind with
          | .blocked => do
            throwIf (mapper.stackCapacityBytes ≤ localAddress)
              (outOfRange "local address exceeds stack capacity")
            checkedAdd (← checkedMultiply selected.toNat mapper.stackCapacityBytes
              "blocked system address") localAddress "blocked system address"
          | .interleaved => do
            let stripe ← do
              checkedAdd (← checkedMultiply (localAddress / mapper.interleaveBytes)
                mapper.stackCount "interleaved system stripe") selected.toNat
                "interleaved system stripe"
            checkedAdd (← checkedMultiply stripe mapper.interleaveBytes
              "interleaved system address") (localAddress % mapper.interleaveBytes)
              "interleaved system address") = .ok systemAddress := by
    unfold encode
    rw [bind_eq_ok]
    constructor
    · rintro ⟨_, inRange, rest⟩
      obtain ⟨_, inside, rest⟩ := bind_eq_ok.mp rest
      rw [throwIf_eq_ok] at inRange inside
      exact ⟨(range.mp inRange).1, ⟨(range.mp inRange).2, limit.mp inside⟩, rest⟩
    · rintro ⟨sign, ⟨inRange, inside⟩, rest⟩
      refine ⟨(), throwIf_eq_ok.mpr (range.mpr ⟨sign, inRange⟩), ?_⟩
      exact bind_eq_ok.mpr ⟨(), throwIf_eq_ok.mpr (limit.mpr inside), rest⟩
  rw [checked]
  refine and_congr_right fun _ => and_congr_right fun holds => ?_
  unfold join
  by_cases single : mapper.stackCount = 1
  · simp only [if_pos single]
    exact ⟨fun value => ⟨small, (Except.ok.inj value).symm⟩, fun both => both.2 ▸ rfl⟩
  simp only [if_neg single]
  cases kind : mapper.kind with
  | blocked =>
    simp only
    rw [bind_eq_ok]
    have inside := holds.localAddress (mapper.capacity_ne_zero kind)
    constructor
    · rintro ⟨_, -, together⟩
      exact (checkedMultiplyAdd_eq_ok.mp (bind_eq_ok.mp together)).symm
    · rintro ⟨fits, value⟩
      exact ⟨(), throwIf_eq_ok.mpr (Nat.not_le.mpr inside),
        bind_eq_ok.mpr (checkedMultiplyAdd_eq_ok.mpr ⟨value, fits⟩)⟩
  | interleaved =>
    simp only
    rw [bind_eq_ok]
    constructor
    · rintro ⟨_, multiplied, rest⟩
      obtain ⟨_, added, together⟩ := bind_eq_ok.mp rest
      obtain ⟨rfl, -⟩ := checkedMultiplyAdd_eq_ok.mp ⟨_, multiplied, added⟩
      exact (checkedMultiplyAdd_eq_ok.mp (bind_eq_ok.mp together)).symm
    · rintro ⟨fits, value⟩
      have stripe : localAddress / mapper.interleaveBytes * mapper.stackCount + selected.toNat ≤
          uint64Max :=
        calc _ ≤ _ := Nat.le_mul_of_pos_right _ mapper.interleaveBytes_pos
          _ ≤ _ := Nat.le_add_right _ _
          _ ≤ uint64Max := fits
      obtain ⟨product, multiplied, added⟩ := checkedMultiplyAdd_eq_ok.mpr ⟨rfl, stripe⟩
      exact ⟨product, multiplied, bind_eq_ok.mpr
        ⟨_, added, bind_eq_ok.mpr (checkedMultiplyAdd_eq_ok.mpr ⟨value, fits⟩)⟩⟩

/-! ### The round trip -/

/-- The two directions undo each other wherever they succeed, and each of them answers with
what exact arithmetic gives, so no successful call wraps around. -/
theorem encode_decode_roundTrip (mapper : StackAddressMapper) :
    (∀ (selected : Int) (localAddress systemAddress : Nat), localAddress ≤ uint64Max →
      mapper.encode selected localAddress = .ok systemAddress →
      mapper.decode systemAddress = .ok ⟨selected, localAddress⟩ ∧
        systemAddress = mapper.join selected.toNat localAddress ∧ systemAddress ≤ uint64Max) ∧
    (∀ (systemAddress : Nat) (routed : StackAddress), systemAddress ≤ uint64Max →
      mapper.decode systemAddress = .ok routed →
      mapper.encode routed.stack routed.localAddress = .ok systemAddress ∧
        routed = ⟨(mapper.split systemAddress).1, (mapper.split systemAddress).2⟩ ∧
        routed.localAddress ≤ uint64Max) := by
  constructor
  · intro selected localAddress systemAddress small encoded
    obtain ⟨sign, holds, fits, rfl⟩ := (encode_eq_ok small).mp encoded
    refine ⟨(decode_eq_ok fits).mpr ?_, rfl, fits⟩
    rw [holds.split_join]
    exact ⟨holds, by rw [Int.toNat_of_nonneg sign]⟩
  · intro systemAddress routed small decoded
    obtain ⟨holds, rfl⟩ := (decode_eq_ok small).mp decoded
    have inside := le_trans (mapper.split_le systemAddress) small
    refine ⟨(encode_eq_ok inside).mpr ⟨Int.natCast_nonneg _, holds, ?_, ?_⟩, rfl, inside⟩
    · rw [Int.toNat_natCast, join_split]
      exact small
    · rw [Int.toNat_natCast, join_split]

/-- Six stacks of one megabyte, interleaved by lines. -/
def sixStacks : StackAddressMapper where
  stackCount := 6
  interleaveBytes := 64
  stackCapacityBytes := 2 ^ 20
  kind := .interleaved
  stackCount_pos := by decide
  interleaveBytes_pos := by decide
  capacity_ne_zero := fun blocked => nomatch blocked

theorem encode_decode_roundTrip_six :
    sixStacks.decode 2432 = .ok ⟨2, 0x180⟩ ∧ sixStacks.encode 2 0x180 = .ok 2432 :=
  ⟨((encode_decode_roundTrip sixStacks).1 2 0x180 2432 (by decide) rfl).1,
    ((encode_decode_roundTrip sixStacks).2 2432 ⟨2, 0x180⟩ (by decide) rfl).1⟩

end StackAddressMapper

end HbmSim
