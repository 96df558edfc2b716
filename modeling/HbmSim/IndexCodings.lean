/-
How coordinates are numbered. The arrays of banks and of timing buckets are flat,
and several functions code the coordinates as places of one number: the bank index
and its inverse, the interval of a rank's banks, and the bucket of every timing
scope with the interval of its siblings. All of them use one order of the places,
channel outermost and bank innermost.

The codes are in `int`, so they agree wherever the bank count is one, which
`total_banks` checks.
-/

import HbmSim.ControllerTick
import HbmSim.RefreshCoverage

namespace HbmSim

variable {spec : DramSpec}

/-! ### The bank index -/

theorem flatBank_decodedFromFlatBank (positive : spec.org.Positive) (flat : Nat) :
    (Controller.decodedFromFlatBank spec flat).flatBank spec = flat := by
  obtain ⟨-, pseudoChannels, sids, ranks, bankGroups, banksPerGroup, -⟩ := positive
  unfold Controller.decodedFromFlatBank DecodedAddress.flatBank takeMod
  simp only [max_eq_right (Nat.one_le_of_lt pseudoChannels), max_eq_right (Nat.one_le_of_lt sids),
    max_eq_right (Nat.one_le_of_lt ranks), max_eq_right (Nat.one_le_of_lt bankGroups),
    max_eq_right (Nat.one_le_of_lt banksPerGroup), Nat.div_add_mod']

/-- The coordinates of a bank: those of the organization, with the row and the column at zero. -/
def bankCoordinates (spec : DramSpec) : Set DecodedAddress :=
  {decoded | decoded.InBounds spec ∧ decoded.row = 0 ∧ decoded.column = 0}

theorem decodedFromFlatBank_mem (positive : spec.org.Positive) {flat : Nat}
    (below : flat < spec.bankCount) :
    Controller.decodedFromFlatBank spec flat ∈ bankCoordinates spec := by
  have digit : ∀ number {radix : Nat}, 0 < radix → number % max 1 radix < radix := by
    intro number radix some
    rw [max_eq_right (Nat.one_le_of_lt some)]
    exact Nat.mod_lt _ some
  refine ⟨⟨?_, digit _ positive.pseudoChannels, digit _ positive.sids, digit _ positive.ranks,
    digit _ positive.bankGroups, digit _ positive.banksPerGroup, positive.rows,
    positive.columns⟩, rfl, rfl⟩
  unfold DramSpec.bankCount at below
  unfold Controller.decodedFromFlatBank takeMod
  simp only [max_eq_right (Nat.one_le_of_lt positive.pseudoChannels),
    max_eq_right (Nat.one_le_of_lt positive.sids), max_eq_right (Nat.one_le_of_lt positive.ranks),
    max_eq_right (Nat.one_le_of_lt positive.bankGroups),
    max_eq_right (Nat.one_le_of_lt positive.banksPerGroup), Nat.div_div_eq_div_mul]
  refine Nat.div_lt_of_lt_mul ?_
  calc flat < _ := below
    _ = _ := by ring

theorem flatBank_lt {decoded : DecodedAddress} (inside : decoded.InBounds spec) :
    decoded.flatBank spec < spec.bankCount := by
  have below := scopeIndex_lt_scopeCount inside .bank
  rwa [scopeIndex_bank inside, scopeCount_bank inside] at below

/-- Two banks with one index are one bank. -/
theorem flatBank_injOn :
    Set.InjOn (fun decoded => decoded.flatBank spec) (bankCoordinates spec) := by
  rintro first ⟨inside, row, column⟩ second ⟨inside', row', column'⟩ same
  have indices : scopeIndex spec .bank first = scopeIndex spec .bank second := by
    rw [scopeIndex_bank inside, scopeIndex_bank inside']
    exact same
  have coordinates := (scopeIndex_eq_iff inside inside' .bank).mp indices
  simp only [bucketOf, List.cons.injEq, and_true] at coordinates
  obtain ⟨channel, pseudoChannel, sid, rank, bankGroup, bank⟩ := coordinates
  cases first
  cases second
  simp only [DecodedAddress.mk.injEq]
  exact ⟨channel, pseudoChannel, sid, rank, bankGroup, bank, row.trans row'.symm,
    column.trans column'.symm⟩

theorem flatBank_invOn (positive : spec.org.Positive) :
    Set.InvOn (Controller.decodedFromFlatBank spec) (fun decoded => decoded.flatBank spec)
      (bankCoordinates spec) (Set.Iio spec.bankCount) := by
  constructor
  · intro decoded coordinates
    refine flatBank_injOn (decodedFromFlatBank_mem positive (flatBank_lt coordinates.1))
      coordinates ?_
    exact flatBank_decodedFromFlatBank positive _
  · intro flat below
    exact flatBank_decodedFromFlatBank positive flat

theorem flatBank_bijOn (positive : spec.org.Positive) :
    Set.BijOn (fun decoded => decoded.flatBank spec) (bankCoordinates spec)
      (Set.Iio spec.bankCount) :=
  (flatBank_invOn positive).bijOn (fun _ coordinates => flatBank_lt coordinates.1)
    fun _ below => decodedFromFlatBank_mem positive below

/-! ### The buckets -/

/-- Every bucket of a scope is the bucket of some address. -/
theorem exists_bucket (positive : spec.org.Positive) (scope : TimingScope) :
    ∀ bucket < scopeCount spec scope, ∃ decoded : DecodedAddress,
      decoded.InBounds spec ∧ scopeIndex spec scope decoded = bucket := by
  have origin : ({} : DecodedAddress).InBounds spec :=
    ⟨positive.channels, positive.pseudoChannels, positive.sids, positive.ranks,
      positive.bankGroups, positive.banksPerGroup, positive.rows, positive.columns⟩
  have clamp : ∀ {value count : Nat}, value < max 1 count → 0 < count →
      value < count ∧ clampCoordinate value count = value := by
    intro value count below some
    rw [max_eq_right (Nat.one_le_of_lt some)] at below
    exact ⟨below, clampCoordinate_of_lt below⟩
  -- A bucket is a place in the bucket of its parent, so each scope adds one coordinate.
  have place : ∀ {bucket count radix : Nat}, bucket < count * max 1 radix → 0 < radix →
      bucket / max 1 radix < count ∧ bucket % max 1 radix < radix ∧
        clampCoordinate (bucket % max 1 radix) radix = bucket % max 1 radix := by
    intro bucket count radix below some
    have digit := clamp (Nat.mod_lt bucket (Nat.lt_of_lt_of_le Nat.zero_lt_one
      (Nat.le_max_left 1 radix))) some
    exact ⟨Nat.div_lt_of_lt_mul (Nat.mul_comm count _ ▸ below), digit⟩
  have channel : ∀ bucket < scopeCount spec .channel, ∃ decoded : DecodedAddress,
      decoded.InBounds spec ∧ scopeIndex spec .channel decoded = bucket := by
    intro bucket below
    obtain ⟨inside, index⟩ := clamp below positive.channels
    exact ⟨{ channel := bucket }, { origin with channel := inside }, index⟩
  have pseudoChannel : ∀ bucket < scopeCount spec .pseudoChannel, ∃ decoded : DecodedAddress,
      decoded.InBounds spec ∧ scopeIndex spec .pseudoChannel decoded = bucket := by
    intro bucket below
    obtain ⟨high, low, clamped⟩ := place below positive.pseudoChannels
    obtain ⟨parent, inside, index⟩ := channel _ high
    refine ⟨{ parent with pseudoChannel := bucket % max 1 spec.org.pseudoChannels },
      { inside with pseudoChannel := low }, ?_⟩
    show scopeIndex spec .channel parent * _ + clampCoordinate _ _ = bucket
    rw [index, clamped, Nat.div_add_mod']
  have sid : ∀ bucket < scopeCount spec .sid, ∃ decoded : DecodedAddress,
      decoded.InBounds spec ∧ scopeIndex spec .sid decoded = bucket := by
    intro bucket below
    obtain ⟨high, low, clamped⟩ := place below positive.sids
    obtain ⟨parent, inside, index⟩ := pseudoChannel _ high
    refine ⟨{ parent with sid := bucket % max 1 spec.org.sids }, { inside with sid := low }, ?_⟩
    show scopeIndex spec .pseudoChannel parent * _ + clampCoordinate _ _ = bucket
    rw [index, clamped, Nat.div_add_mod']
  have rank : ∀ bucket < scopeCount spec .rank, ∃ decoded : DecodedAddress,
      decoded.InBounds spec ∧ scopeIndex spec .rank decoded = bucket := by
    intro bucket below
    obtain ⟨high, low, clamped⟩ := place below positive.ranks
    obtain ⟨parent, inside, index⟩ := sid _ high
    refine ⟨{ parent with rank := bucket % max 1 spec.org.ranks }, { inside with rank := low }, ?_⟩
    show scopeIndex spec .sid parent * _ + clampCoordinate _ _ = bucket
    rw [index, clamped, Nat.div_add_mod']
  have bankGroup : ∀ bucket < scopeCount spec .bankGroup, ∃ decoded : DecodedAddress,
      decoded.InBounds spec ∧ scopeIndex spec .bankGroup decoded = bucket := by
    intro bucket below
    obtain ⟨high, low, clamped⟩ := place below positive.bankGroups
    obtain ⟨parent, inside, index⟩ := rank _ high
    refine ⟨{ parent with bankGroup := bucket % max 1 spec.org.bankGroups },
      { inside with bankGroup := low }, ?_⟩
    show scopeIndex spec .rank parent * _ + clampCoordinate _ _ = bucket
    rw [index, clamped, Nat.div_add_mod']
  cases scope with
  | channel => exact channel
  | pseudoChannel => exact pseudoChannel
  | sid => exact sid
  | rank => exact rank
  | bankGroup => exact bankGroup
  | bank =>
    intro bucket below
    obtain ⟨high, low, clamped⟩ := place below positive.banksPerGroup
    obtain ⟨parent, inside, index⟩ := bankGroup _ high
    refine ⟨{ parent with bank := bucket % max 1 spec.org.banksPerGroup },
      { inside with bank := low }, ?_⟩
    show scopeIndex spec .bankGroup parent * _ + clampCoordinate _ _ = bucket
    rw [index, clamped, Nat.div_add_mod']

/-- The sibling range holds the buckets of the addresses with the same parent and no others. -/
theorem mem_siblingRange_iff (positive : spec.org.Positive) {decoded : DecodedAddress}
    (inside : decoded.InBounds spec) (scope : TimingScope) (bucket : Nat) :
    ((siblingRange spec scope decoded).1 ≤ bucket ∧
        bucket < (siblingRange spec scope decoded).2) ↔
      ∃ other : DecodedAddress, other.InBounds spec ∧ scopeIndex spec scope other = bucket ∧
        parentOf scope other = parentOf scope decoded := by
  constructor
  · rintro ⟨above, below⟩
    have counted : bucket < scopeCount spec scope := Nat.lt_of_lt_of_le below (Nat.min_le_right _ _)
    obtain ⟨other, inside', rfl⟩ := exists_bucket positive scope bucket counted
    exact ⟨other, inside', rfl, ((siblingRange_iff inside inside' scope).mp ⟨above, below⟩).symm⟩
  · rintro ⟨other, inside', rfl, parents⟩
    exact (siblingRange_iff inside inside' scope).mpr parents.symm

/-! ### The codings agree -/

/-- Where the banks can be counted, the bank index and its inverse pair the banks with the numbers
below the count, the interval of a rank holds its banks, and the buckets of every scope are told
apart by the coordinates down to it, with the siblings in one interval. -/
theorem codings_agree (accepted : validateSpec spec = .ok ()) {banks : Nat}
    (counted : spec.totalBanks = .ok banks) :
    Set.BijOn (fun decoded => decoded.flatBank spec) (bankCoordinates spec) (Set.Iio banks) ∧
    Set.InvOn (Controller.decodedFromFlatBank spec) (fun decoded => decoded.flatBank spec)
      (bankCoordinates spec) (Set.Iio banks) ∧
    (∀ decoded other : DecodedAddress, decoded.InBounds spec → other.InBounds spec →
      (((rankBankRange spec decoded).1 ≤ other.flatBank spec ∧
          other.flatBank spec < (rankBankRange spec decoded).2) ↔
        other.channel = decoded.channel ∧ other.pseudoChannel = decoded.pseudoChannel ∧
          other.sid = decoded.sid ∧ other.rank = decoded.rank)) ∧
    ∀ (scope : TimingScope) (decoded : DecodedAddress), decoded.InBounds spec →
      scopeIndex spec scope decoded < scopeCount spec scope ∧
      (∀ other : DecodedAddress, other.InBounds spec →
        (scopeIndex spec scope decoded = scopeIndex spec scope other ↔
          bucketOf scope decoded = bucketOf scope other)) ∧
      ∀ bucket,
        ((siblingRange spec scope decoded).1 ≤ bucket ∧
            bucket < (siblingRange spec scope decoded).2) ↔
          ∃ other : DecodedAddress, other.InBounds spec ∧ scopeIndex spec scope other = bucket ∧
            parentOf scope other = parentOf scope decoded := by
  have positive := validateSpec_positive accepted
  rw [(DramSpec.totalBanks_eq counted).1]
  refine ⟨flatBank_bijOn positive, flatBank_invOn positive, ?_, ?_⟩
  · intro decoded other inside inside'
    refine (inRank_iff inside inside').trans ?_
    simp only [bucketOf, List.cons.injEq, and_true]
    constructor
    · rintro ⟨channel, pseudoChannel, sid, rank⟩
      exact ⟨channel.symm, pseudoChannel.symm, sid.symm, rank.symm⟩
    · rintro ⟨channel, pseudoChannel, sid, rank⟩
      exact ⟨channel.symm, pseudoChannel.symm, sid.symm, rank.symm⟩
  · intro scope decoded inside
    exact ⟨scopeIndex_lt_scopeCount inside scope,
      fun other inside' => scopeIndex_eq_iff inside inside' scope,
      mem_siblingRange_iff positive inside scope⟩

theorem codings_agree_wholeRanks :
    Set.InvOn (Controller.decodedFromFlatBank (wholeRanks 2))
      (fun decoded => decoded.flatBank (wholeRanks 2)) (bankCoordinates (wholeRanks 2))
      (Set.Iio (wholeRanks 2).bankCount) :=
  (@codings_agree (wholeRanks 2) (by decide) (wholeRanks 2).bankCount (by decide)).2.1

/-- An accepted organization of more banks than an `int` counts: `total_banks` refuses it. -/
def countlessBanks : DramSpec :=
  { smallSpec with
    org := { smallSpec.org with channels := 65536, banksPerGroup := 65536, rows := 1, columns := 1 } }

theorem countless_banks_refused :
    validateSpec countlessBanks = .ok () ∧ ∀ banks, countlessBanks.totalBanks ≠ .ok banks := by
  refine ⟨by decide, fun banks counted => ?_⟩
  have refused : countlessBanks.totalBanks =
      .error (overflowError "total_banks exceeds int range") := by decide
  rw [refused] at counted
  cases counted

end HbmSim
