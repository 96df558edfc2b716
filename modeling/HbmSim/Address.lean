/-
The address mapper: a byte address becomes a transaction number, and the
transaction number is read as a mixed-radix numeral whose places are the
dimensions of the device, in the order the mapping kind names.

Coordinates are natural numbers. The source keeps them as `int` and rejects a
negative one at every public entry.
-/

import HbmSim.Spec
import HbmSim.Lib.MixedRadix

namespace HbmSim

structure DecodedAddress where
  channel : Nat := 0
  pseudoChannel : Nat := 0
  sid : Nat := 0
  rank : Nat := 0
  bankGroup : Nat := 0
  bank : Nat := 0
  row : Nat := 0
  column : Nat := 0
  deriving DecidableEq, Repr

/-- The index of the coordinate's bank in the flat bank array. -/
def DecodedAddress.flatBank (spec : DramSpec) (decoded : DecodedAddress) : Nat :=
  ((((decoded.channel * spec.org.pseudoChannels + decoded.pseudoChannel) * spec.org.sids +
    decoded.sid) * spec.org.ranks + decoded.rank) * spec.org.bankGroups + decoded.bankGroup) *
    spec.org.banksPerGroup + decoded.bank

/-- A coordinate tuple inside the organization. -/
structure DecodedAddress.InBounds (spec : DramSpec) (decoded : DecodedAddress) : Prop where
  channel : decoded.channel < spec.org.channels
  pseudoChannel : decoded.pseudoChannel < spec.org.pseudoChannels
  sid : decoded.sid < spec.org.sids
  rank : decoded.rank < spec.org.ranks
  bankGroup : decoded.bankGroup < spec.org.bankGroups
  bank : decoded.bank < spec.org.banksPerGroup
  row : decoded.row < spec.org.rows
  column : decoded.column < spec.org.columns

/-- The second bank of a dual-bank refresh: the adjacent bank group. -/
def lpddrRefdbPartner (spec : DramSpec) (decoded : DecodedAddress) : DecodedAddress :=
  let groups := max 1 spec.org.bankGroups
  if groups < 2 then decoded
  else
    let partner := decoded.bankGroup ^^^ 1
    { decoded with bankGroup := if groups ≤ partner then decoded.bankGroup else partner }

/-! ### Decoding -/

/-- Take the lowest place of the numeral, and leave the rest. A zero dimension
counts as one. -/
def takeMod (line modulus : Nat) : Nat × Nat :=
  (line % max 1 modulus, line / max 1 modulus)

/-- In an efficiency mode every access goes through the primary sub-channel. -/
def applyLpddrEfficiency (spec : DramSpec) (decoded : DecodedAddress) : DecodedAddress :=
  if spec.lpddrFamily = true ∧ spec.lpddrEfficiencyMode ≠ .normal then
    { decoded with pseudoChannel := 0 }
  else decoded

/-- The bank, bank group, pseudo channel and stack id, which every mapping keeps
together. -/
def takeBankComposite (line : Nat) (spec : DramSpec) (decoded : DecodedAddress) :
    DecodedAddress × Nat :=
  let (bank, line) := takeMod line spec.org.banksPerGroup
  let (bankGroup, line) := takeMod line spec.org.bankGroups
  let (pseudoChannel, line) := takeMod line spec.org.pseudoChannels
  let (sid, line) := takeMod line spec.org.sids
  ({ decoded with bank, bankGroup, pseudoChannel, sid }, line)

def decodeLine (spec : DramSpec) (line : Nat) : DecodedAddress :=
  match spec.addressMapping with
  | .default =>
    let (column, line) := takeMod line spec.org.columns
    let (decoded, line) := takeBankComposite line spec { column }
    let (rank, line) := takeMod line spec.org.ranks
    let (channel, line) := takeMod line spec.org.channels
    let (row, _) := takeMod line spec.org.rows
    { decoded with rank, channel, row }
  | .roBaRaCoCh =>
    let (channel, line) := takeMod line spec.org.channels
    let (column, line) := takeMod line spec.org.columns
    let (rank, line) := takeMod line spec.org.ranks
    let (decoded, line) := takeBankComposite line spec { channel, column, rank }
    let (row, _) := takeMod line spec.org.rows
    { decoded with row }
  | .chRaBaRoCo =>
    let (column, line) := takeMod line spec.org.columns
    let (row, line) := takeMod line spec.org.rows
    let (decoded, line) := takeBankComposite line spec { column, row }
    let (rank, line) := takeMod line spec.org.ranks
    let (channel, _) := takeMod line spec.org.channels
    { decoded with rank, channel }
  | .roCoRaBaCh =>
    let (channel, line) := takeMod line spec.org.channels
    let (decoded, line) := takeBankComposite line spec { channel }
    let (rank, line) := takeMod line spec.org.ranks
    let (column, line) := takeMod line spec.org.columns
    let (row, _) := takeMod line spec.org.rows
    { decoded with rank, column, row }

/-- `AddressMapper::decode`. -/
def decode (spec : DramSpec) (address : Nat) : DecodedAddress :=
  applyLpddrEfficiency spec (decodeLine spec (address / max 1 spec.transactionBytes))

/-! ### Decoding separates the transactions -/

/-- Every dimension is positive, as `validateSpec` demands. -/
structure Organization.Positive (org : Organization) : Prop where
  channels : 0 < org.channels
  pseudoChannels : 0 < org.pseudoChannels
  sids : 0 < org.sids
  ranks : 0 < org.ranks
  bankGroups : 0 < org.bankGroups
  banksPerGroup : 0 < org.banksPerGroup
  rows : 0 < org.rows
  columns : 0 < org.columns
  lineSize : 0 < org.lineSize

theorem validateSpec_positive {spec : DramSpec} (valid : validateSpec spec = .ok ()) :
    spec.org.Positive := by
  unfold validateSpec at valid
  obtain ⟨_, dimensions, -⟩ := bind_eq_ok.mp valid
  rw [throwIf_eq_ok] at dimensions
  simp only [not_or] at dimensions
  constructor <;> omega

/-- The dimensions in the order a mapping takes them, lowest place first. -/
def places (spec : DramSpec) : List Nat :=
  match spec.addressMapping with
  | .default => [spec.org.columns, spec.org.banksPerGroup, spec.org.bankGroups,
      spec.org.pseudoChannels, spec.org.sids, spec.org.ranks, spec.org.channels, spec.org.rows]
  | .roBaRaCoCh => [spec.org.channels, spec.org.columns, spec.org.ranks, spec.org.banksPerGroup,
      spec.org.bankGroups, spec.org.pseudoChannels, spec.org.sids, spec.org.rows]
  | .chRaBaRoCo => [spec.org.columns, spec.org.rows, spec.org.banksPerGroup, spec.org.bankGroups,
      spec.org.pseudoChannels, spec.org.sids, spec.org.ranks, spec.org.channels]
  | .roCoRaBaCh => [spec.org.channels, spec.org.banksPerGroup, spec.org.bankGroups,
      spec.org.pseudoChannels, spec.org.sids, spec.org.ranks, spec.org.columns, spec.org.rows]

/-- The coordinates in the same order. -/
def placeValues (spec : DramSpec) (decoded : DecodedAddress) : List Nat :=
  match spec.addressMapping with
  | .default => [decoded.column, decoded.bank, decoded.bankGroup, decoded.pseudoChannel,
      decoded.sid, decoded.rank, decoded.channel, decoded.row]
  | .roBaRaCoCh => [decoded.channel, decoded.column, decoded.rank, decoded.bank,
      decoded.bankGroup, decoded.pseudoChannel, decoded.sid, decoded.row]
  | .chRaBaRoCo => [decoded.column, decoded.row, decoded.bank, decoded.bankGroup,
      decoded.pseudoChannel, decoded.sid, decoded.rank, decoded.channel]
  | .roCoRaBaCh => [decoded.channel, decoded.bank, decoded.bankGroup, decoded.pseudoChannel,
      decoded.sid, decoded.rank, decoded.column, decoded.row]

theorem places_positive {spec : DramSpec} (positive : spec.org.Positive) :
    ∀ radix ∈ places spec, 0 < radix := by
  obtain ⟨channels, pseudoChannels, sids, ranks, bankGroups, banksPerGroup, rows, columns, -⟩ :=
    positive
  unfold places
  cases spec.addressMapping <;>
    simp only [List.mem_cons, List.not_mem_nil, or_false, forall_eq_or_imp, forall_eq] <;>
    exact ⟨by assumption, by assumption, by assumption, by assumption, by assumption,
      by assumption, by assumption, by assumption⟩

theorem places_prod (spec : DramSpec) : (places spec).prod = spec.transactionCount := by
  unfold places DramSpec.transactionCount DramSpec.bankCount
  cases spec.addressMapping <;> simp only [List.prod_cons, List.prod_nil] <;> ring

/-- The coordinates of a transaction are the digits of its number. -/
theorem placeValues_decodeLine {spec : DramSpec} (positive : spec.org.Positive) (line : Nat) :
    placeValues spec (decodeLine spec line) = MixedRadix.digits (places spec) line := by
  obtain ⟨channels, pseudoChannels, sids, ranks, bankGroups, banksPerGroup, rows, columns, -⟩ :=
    positive
  unfold placeValues decodeLine places takeBankComposite takeMod
  cases spec.addressMapping <;>
    simp only [MixedRadix.digits, Nat.max_eq_right channels, Nat.max_eq_right pseudoChannels,
      Nat.max_eq_right sids, Nat.max_eq_right ranks, Nat.max_eq_right bankGroups,
      Nat.max_eq_right banksPerGroup, Nat.max_eq_right rows, Nat.max_eq_right columns]

/-- Distinct transactions of the geometry have distinct coordinates. -/
theorem decodeLine_injective {spec : DramSpec} (positive : spec.org.Positive) {left right : Nat}
    (leftSmall : left < spec.transactionCount) (rightSmall : right < spec.transactionCount)
    (same : decodeLine spec left = decodeLine spec right) : left = right := by
  rw [← places_prod] at leftSmall rightSmall
  refine MixedRadix.digits_injective leftSmall rightSmall ?_
  rw [← placeValues_decodeLine positive, ← placeValues_decodeLine positive, same]

theorem decodeLine_inBounds {spec : DramSpec} (positive : spec.org.Positive) (line : Nat) :
    (decodeLine spec line).InBounds spec := by
  have inRange := MixedRadix.digits_inRange (places_positive positive) line
  rw [← placeValues_decodeLine positive] at inRange
  unfold MixedRadix.InRange placeValues places at inRange
  constructor <;> revert inRange <;> cases spec.addressMapping <;>
    simp only [List.forall₂_cons, List.forall₂_nil_left_iff] <;> tauto

theorem decode_inBounds {spec : DramSpec} (positive : spec.org.Positive) (address : Nat) :
    (decode spec address).InBounds spec := by
  have bounds := decodeLine_inBounds positive (address / max 1 spec.transactionBytes)
  unfold decode applyLpddrEfficiency
  split
  · exact { bounds with pseudoChannel := positive.pseudoChannels }
  · exact bounds

theorem placeValues_injective (spec : DramSpec) : Function.Injective (placeValues spec) := by
  rintro ⟨channel, pseudoChannel, sid, rank, bankGroup, bank, row, column⟩
    ⟨channel', pseudoChannel', sid', rank', bankGroup', bank', row', column'⟩ same
  unfold placeValues at same
  cases mapping : spec.addressMapping <;> rw [mapping] at same <;>
    simp only [List.cons.injEq, and_true] at same <;>
    simp only [DecodedAddress.mk.injEq] <;> tauto

theorem placeValues_inRange {spec : DramSpec} {decoded : DecodedAddress}
    (bounds : decoded.InBounds spec) :
    MixedRadix.InRange (places spec) (placeValues spec decoded) := by
  obtain ⟨channel, pseudoChannel, sid, rank, bankGroup, bank, row, column⟩ := bounds
  unfold MixedRadix.InRange placeValues places
  cases spec.addressMapping <;>
    simp only [List.forall₂_cons, List.forall₂_nil_left_iff, and_true] <;>
    exact ⟨by assumption, by assumption, by assumption, by assumption, by assumption,
      by assumption, by assumption, by assumption⟩

/-- Every coordinate tuple in range is the coordinates of a transaction. -/
theorem decodeLine_surjective {spec : DramSpec} (positive : spec.org.Positive)
    {decoded : DecodedAddress} (bounds : decoded.InBounds spec) :
    ∃ line < spec.transactionCount, decodeLine spec line = decoded := by
  have inRange := placeValues_inRange bounds
  refine ⟨MixedRadix.number (places spec) (placeValues spec decoded), ?_, ?_⟩
  · rw [← places_prod]
    exact MixedRadix.number_lt inRange
  · apply placeValues_injective spec
    rw [placeValues_decodeLine positive, MixedRadix.digits_number inRange]

/-- The mapping loses nothing: either the device is not in an efficiency mode, or
there is only one pseudo channel to drop. -/
def DramSpec.Separating (spec : DramSpec) : Prop :=
  spec.lpddrFamily = true → spec.lpddrEfficiencyMode ≠ .normal → spec.org.pseudoChannels = 1

theorem decode_eq_decodeLine {spec : DramSpec} (positive : spec.org.Positive)
    (separating : spec.Separating) (address : Nat) :
    decode spec address = decodeLine spec (address / max 1 spec.transactionBytes) := by
  unfold decode applyLpddrEfficiency
  split
  next efficiency =>
    have bounds := decodeLine_inBounds positive (address / max 1 spec.transactionBytes)
    have single := separating efficiency.1 efficiency.2
    have zero : (decodeLine spec (address / max 1 spec.transactionBytes)).pseudoChannel = 0 := by
      have := bounds.pseudoChannel
      omega
    rw [← zero]
  next => rfl

theorem transactionBytes_pos (spec : DramSpec) : 0 < spec.transactionBytes := by
  unfold DramSpec.transactionBytes
  split <;> omega

/-- Two addresses of the geometry with the same coordinates lie in the same transaction. -/
theorem decode_injective {spec : DramSpec} (positive : spec.org.Positive)
    (separating : spec.Separating) {left right : Nat} (leftSmall : left < spec.capacityOf)
    (rightSmall : right < spec.capacityOf) (same : decode spec left = decode spec right) :
    left / spec.transactionBytes = right / spec.transactionBytes := by
  have width := transactionBytes_pos spec
  rw [decode_eq_decodeLine positive separating, decode_eq_decodeLine positive separating,
    Nat.max_eq_right width] at same
  unfold DramSpec.capacityOf at leftSmall rightSmall
  exact decodeLine_injective positive ((Nat.div_lt_iff_lt_mul width).mpr leftSmall)
    ((Nat.div_lt_iff_lt_mul width).mpr rightSmall) same

/-- Decoding only looks at the transaction an address lies in. -/
theorem decode_congr (spec : DramSpec) {left right : Nat}
    (same : left / spec.transactionBytes = right / spec.transactionBytes) :
    decode spec left = decode spec right := by
  unfold decode
  rw [Nat.max_eq_right (transactionBytes_pos spec), same]

/-- The mapper is a bijection between the transactions of the geometry and the coordinate
tuples in the declared ranges, and it does not look inside a transaction. -/
theorem decode_bijective {spec : DramSpec} (valid : validateSpec spec = .ok ())
    (normal : spec.lpddrEfficiencyMode = .normal) :
    ∃ total, spec.totalAddressableTransactions = .ok total ∧
      Set.BijOn (fun line => decode spec (line * spec.transactionBytes)) {line | line < total}
        {decoded | decoded.InBounds spec} ∧
      ∀ line offset, offset < spec.transactionBytes →
        decode spec (line * spec.transactionBytes + offset) =
          decode spec (line * spec.transactionBytes) := by
  have positive := validateSpec_positive valid
  have width := transactionBytes_pos spec
  have here : ∀ line, decode spec (line * spec.transactionBytes) = decodeLine spec line := by
    intro line
    rw [decode_eq_decodeLine positive (fun _ abnormal => absurd normal abnormal),
      Nat.max_eq_right width, Nat.mul_div_cancel line width]
  refine ⟨_, (validateSpec_capacity valid).2.1, ⟨?_, ?_, ?_⟩, ?_⟩
  · intro line _
    show (decode spec (line * spec.transactionBytes)).InBounds spec
    exact decode_inBounds positive _
  · intro left leftSmall right rightSmall same
    simp only [here] at same
    exact decodeLine_injective positive leftSmall rightSmall same
  · intro decoded bounds
    obtain ⟨line, small, reached⟩ := decodeLine_surjective positive bounds
    exact ⟨line, small, (here line).trans reached⟩
  · intro line offset inside
    refine decode_congr spec ?_
    rw [Nat.mul_div_cancel line width, Nat.mul_comm, Nat.mul_add_div width,
      Nat.div_eq_of_lt inside, Nat.add_zero]

/-- A device no dimension of which is a power of two. -/
def oddSpec : DramSpec where
  org := { channels := 3, bankGroups := 5, banksPerGroup := 3, rows := 7, columns := 9 }
  speedBinMbps := 6400
  stackHeight := 4
  addressMapping := .roBaRaCoCh

theorem decode_bijective_odd :
    ∃ total, oddSpec.totalAddressableTransactions = .ok total ∧
      Set.BijOn (fun line => decode oddSpec (line * oddSpec.transactionBytes))
        {line | line < total} {decoded | decoded.InBounds oddSpec} ∧
      ∀ line offset, offset < oddSpec.transactionBytes →
        decode oddSpec (line * oddSpec.transactionBytes + offset) =
          decode oddSpec (line * oddSpec.transactionBytes) :=
  decode_bijective rfl rfl

end HbmSim
