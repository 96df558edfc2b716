/-
Host requests and the transactions they become. The frontend cuts the bytes of a
request into transactions of the device's size, with the data, the expected data
and the mask cut alongside.

Nothing is lost or repeated in the cutting. It starts at the address of the request
and not at a line, so a transaction keeps to the line it is decoded to when the
request is aligned or ends in its first line, and in no other case.
-/

import HbmSim.Address
import HbmSim.Request
import HbmSim.Lib.Slices

namespace HbmSim

/-- A request as the frontend hands it on, with the marks of the trace. -/
structure TrafficRequest extends Request where
  hasExplicitStack : Bool := false
  burstId : Nat := 0
  burstOffset : Nat := 0
  deriving DecidableEq, Repr

namespace Frontend

/-! ### Splitting -/

/-- `host_request_bytes`: the longest of what the request declares and carries, else a whole host
line. -/
def hostRequestBytes (spec : DramSpec) (request : Request) : Nat :=
  if request.type = .maintenance then 0
  else
    let bytes := request.transferBytes
    let bytes := if request.hasPayload then max bytes request.payload.length else bytes
    let bytes :=
      if request.hasExpectedPayload then max bytes request.expectedPayload.length else bytes
    let bytes := if request.hasByteMask then max bytes request.byteMask.length else bytes
    if 0 < bytes then bytes else max 1 spec.org.lineSize

/-- `slice_bytes`. -/
def sliceBytes (bytes : ByteVector) (offset size : Nat) : ByteVector :=
  if bytes.length ≤ offset then []
  else (bytes.take (min bytes.length (offset + size))).drop offset

/-- `validate_address_span`. -/
def validateAddressSpan (address size : Nat) (context : String) : Except Exception Unit :=
  throwIf (size ≠ 0 ∧ uint64Max - address < size - 1)
    (overflowError (context ++ " exceeds Address space"))

/-- The transaction at an index of a split request. -/
def splitTransaction (spec : DramSpec) (host : TrafficRequest)
    (hostBytes transactionBytes count : Nat) (normalizedHostMask : ByteVector) (index : Nat) :
    TrafficRequest :=
  let offset := index * transactionBytes
  let bytes := min transactionBytes (hostBytes - offset)
  let address := host.address + offset
  let payload := sliceBytes host.payload offset bytes
  let expectedPayload := sliceBytes host.expectedPayload offset bytes
  { host with
    hostRequestId := host.id
    transactionIndex := index
    transactionCount := count
    transferBytes := bytes
    address
    decoded := decode spec address
    storageDecoded := {}
    hasStorageDecoded := false
    payload
    expectedPayload
    byteMask := sliceBytes normalizedHostMask offset bytes
    hasPayload := host.hasPayload && decide (payload ≠ [])
    hasExpectedPayload := host.hasExpectedPayload && decide (expectedPayload ≠ [])
    burstOffset := (host.burstOffset + offset) % 2 ^ 64 }

def splitHostRequest (spec : DramSpec) (host : TrafficRequest) :
    Except Exception (List TrafficRequest) :=
  if host.type = .maintenance then
    .ok [{ host with
      hostRequestId := host.id, transactionIndex := 0, transactionCount := 1, transferBytes := 0 }]
  else do
    let hostBytes := hostRequestBytes spec host.toRequest
    let transactionBytes := max 1 spec.transactionBytes
    let count := 1 + (hostBytes - 1) / transactionBytes
    throwIf (2 ^ 32 - 1 < count)
      (overflowError "host request needs more than uint32 transaction_count entries")
    validateAddressSpan host.address hostBytes "host request address range"
    validateSpec spec
    let normalizedHostMask :=
      if host.hasByteMask then normalizeMask host.byteMask hostBytes else []
    return (List.range count).map
      (splitTransaction spec host hostBytes transactionBytes count normalizedHostMask)

section Split

variable {spec : DramSpec} {host : TrafficRequest} {transactions : List TrafficRequest}

theorem sliceBytes_eq (bytes : ByteVector) (offset size : Nat) :
    sliceBytes bytes offset size = Slices.slice bytes offset size := by
  unfold sliceBytes Slices.slice
  split
  next past =>
    rw [List.drop_of_length_le past]
    exact List.take_nil.symm
  next =>
    rw [List.drop_take]
    refine List.take_eq_take_iff.mpr ?_
    rw [List.length_drop]
    omega

theorem hostRequestBytes_pos (access : host.type ≠ .maintenance) :
    0 < hostRequestBytes spec host.toRequest := by
  have general : ∀ bytes : Nat, 0 < if 0 < bytes then bytes else max 1 spec.org.lineSize := by
    intro bytes
    split
    next declared => exact declared
    next => exact Nat.lt_of_lt_of_le Nat.zero_lt_one (Nat.le_max_left 1 _)
  unfold hostRequestBytes
  rw [if_neg access]
  exact general _

/-- What the splitting demands: as many transactions as 32 bits count, bytes inside the address
space, and a spec that the mapper takes. -/
structure Splittable (spec : DramSpec) (host : TrafficRequest) : Prop where
  countable : Slices.pieces (hostRequestBytes spec host.toRequest) spec.transactionBytes ≤ 2 ^ 32 - 1
  inside : hostRequestBytes spec host.toRequest - 1 ≤ uint64Max - host.address
  spec : validateSpec spec = .ok ()

/-- The mask of the whole request, if it has one. -/
def hostMask (spec : DramSpec) (host : TrafficRequest) : ByteVector :=
  if host.hasByteMask then normalizeMask host.byteMask (hostRequestBytes spec host.toRequest) else []

/-- The transaction at an index of a request that is split. -/
def cutAt (spec : DramSpec) (host : TrafficRequest) (index : Nat) : TrafficRequest :=
  splitTransaction spec host (hostRequestBytes spec host.toRequest) spec.transactionBytes
    (Slices.pieces (hostRequestBytes spec host.toRequest) spec.transactionBytes)
    (hostMask spec host) index

/-- The transactions of a request that is split. -/
def cut (spec : DramSpec) (host : TrafficRequest) : List TrafficRequest :=
  (List.range (Slices.pieces (hostRequestBytes spec host.toRequest) spec.transactionBytes)).map
    (cutAt spec host)

/-- A read or a write is split exactly when the demands are met, and then into its cut. -/
theorem splitHostRequest_eq_ok (access : host.type ≠ .maintenance) :
    splitHostRequest spec host = .ok transactions ↔
      Splittable spec host ∧ transactions = cut spec host := by
  have bytes := @hostRequestBytes_pos spec host access
  have width : max 1 spec.transactionBytes = spec.transactionBytes :=
    Nat.max_eq_right (transactionBytes_pos spec)
  unfold splitHostRequest validateAddressSpan
  rw [if_neg access]
  simp only [width, bind_eq_ok, throwIf_eq_ok, exists_const, not_lt, not_and]
  constructor
  · rintro ⟨countable, inside, ⟨_, accepted, returns⟩⟩
    exact ⟨⟨countable, inside (Nat.ne_of_gt bytes), accepted⟩, (Except.ok.inj returns).symm⟩
  · rintro ⟨⟨countable, inside, accepted⟩, rfl⟩
    exact ⟨countable, fun _ => inside, (), accepted, rfl⟩

end Split

/-! ### The transactions are a partition of the request -/

/-- The bytes that a request is sent with, if it is. -/
def carriedPayload (request : TrafficRequest) : ByteVector :=
  if request.hasPayload then request.payload else []

/-- The bytes that a request expects, if it does. -/
def carriedExpected (request : TrafficRequest) : ByteVector :=
  if request.hasExpectedPayload then request.expectedPayload else []

/-- The mask of a request, if it has one. -/
def carriedMask (request : TrafficRequest) : ByteVector :=
  if request.hasByteMask then request.byteMask else []

/-- The transactions are the request, cut: as many as its bytes take, numbered from zero, one
behind the other, with all of its bytes, of its data, of its expected data and of its mask. -/
structure Partition (spec : DramSpec) (host : TrafficRequest)
    (transactions : List TrafficRequest) : Prop where
  count : transactions.length =
    (hostRequestBytes spec host.toRequest + spec.transactionBytes - 1) / spec.transactionBytes
  numbered : ∀ (index : Nat) (transaction : TrafficRequest),
    transactions[index]? = some transaction →
    transaction.hostRequestId = host.id ∧ transaction.transactionIndex = index ∧
      transaction.transactionCount = transactions.length
  contiguous : ∀ (index : Nat) (transaction : TrafficRequest),
    transactions[index]? = some transaction → transaction.address =
      host.address +
        ((transactions.take index).map fun earlier : TrafficRequest => earlier.transferBytes).sum
  bytes : (transactions.map fun transaction : TrafficRequest => transaction.transferBytes).sum =
    hostRequestBytes spec host.toRequest
  nonempty : ∀ transaction ∈ transactions,
    0 < transaction.transferBytes ∧ transaction.transferBytes ≤ spec.transactionBytes
  payload : transactions.flatMap carriedPayload = carriedPayload host
  expected : transactions.flatMap carriedExpected = carriedExpected host
  mask : transactions.flatMap carriedMask =
    if host.hasByteMask then
      normalizeMask host.byteMask (hostRequestBytes spec host.toRequest)
    else []

section Cut

variable {spec : DramSpec} {host : TrafficRequest} {transactions : List TrafficRequest}

/-- The slices of a byte vector as long as the request are the vector, whether flagged as carried
or not. -/
theorem flatMap_carried {bytes : ByteVector} {total size : Nat} (flag : Bool)
    (whole : flag = true → bytes.length = total) (some : 0 < total) (positive : 0 < size) :
    (List.range (Slices.pieces total size)).flatMap (fun index =>
      if flag && decide (sliceBytes bytes (index * size) (min size (total - index * size)) ≠ []) then
        sliceBytes bytes (index * size) (min size (total - index * size))
      else []) = if flag then bytes else [] := by
  cases flag with
  | false => exact List.flatMap_eq_nil_iff.mpr fun _ _ => rfl
  | true =>
    obtain rfl := whole rfl
    refine Eq.trans ?_ (Slices.flatMap_pieces positive)
    refine List.flatMap_congr fun index member => ?_
    have kept := Slices.slice_ne_nil some positive (List.mem_range.mp member)
    rw [sliceBytes_eq, Bool.true_and]
    exact if_pos (decide_eq_true kept)

theorem flatMap_masked {bytes : ByteVector} {total size : Nat} (flag : Bool)
    (whole : bytes.length = total) (positive : 0 < size) :
    (List.range (Slices.pieces total size)).flatMap (fun index =>
      if flag then
        sliceBytes (if flag then bytes else []) (index * size) (min size (total - index * size))
      else []) = if flag then bytes else [] := by
  cases flag with
  | false => exact List.flatMap_eq_nil_iff.mpr fun _ _ => rfl
  | true =>
    subst whole
    refine Eq.trans ?_ (Slices.flatMap_pieces positive)
    exact List.flatMap_congr fun index _ => sliceBytes_eq _ _ _

theorem getElem?_cut {index : Nat} {transaction : TrafficRequest}
    (here : (cut spec host)[index]? = some transaction) :
    index < Slices.pieces (hostRequestBytes spec host.toRequest) spec.transactionBytes ∧
      transaction = cutAt spec host index := by
  unfold cut at here
  rw [List.getElem?_map] at here
  obtain ⟨place, listed, rfl⟩ := Option.map_eq_some_iff.mp here
  obtain ⟨inside, same⟩ := List.getElem?_eq_some_iff.mp listed
  rw [List.getElem_range] at same
  rw [List.length_range] at inside
  exact ⟨inside, congrArg _ same.symm⟩

theorem length_cut : (cut spec host).length =
    Slices.pieces (hostRequestBytes spec host.toRequest) spec.transactionBytes := by
  unfold cut
  rw [List.length_map, List.length_range]

/-- The sizes of the first transactions. -/
theorem transferBytes_cutAt (indices : List Nat) :
    (indices.map (cutAt spec host)).map
        (fun transaction : TrafficRequest => transaction.transferBytes) =
      indices.map (Slices.pieceSize (hostRequestBytes spec host.toRequest) spec.transactionBytes) :=
  List.map_map

theorem cut_partition (access : host.type ≠ .maintenance)
    (payload : host.hasPayload = true →
      host.payload.length = hostRequestBytes spec host.toRequest)
    (expected : host.hasExpectedPayload = true →
      host.expectedPayload.length = hostRequestBytes spec host.toRequest) :
    Partition spec host (cut spec host) := by
  have some := @hostRequestBytes_pos spec host access
  have positive := transactionBytes_pos spec
  constructor
  · rw [length_cut, Slices.pieces_eq_ceil some positive]
  · intro index transaction here
    obtain ⟨-, rfl⟩ := getElem?_cut here
    exact ⟨rfl, rfl, length_cut.symm⟩
  · intro index transaction here
    obtain ⟨inside, rfl⟩ := getElem?_cut here
    have before : ((cut spec host).take index).map
          (fun transaction : TrafficRequest => transaction.transferBytes) =
        (List.range index).map
          (Slices.pieceSize (hostRequestBytes spec host.toRequest) spec.transactionBytes) := by
      unfold cut
      rw [← List.map_take, transferBytes_cutAt, List.take_range,
        Nat.min_eq_left (Nat.le_of_lt inside)]
    rw [before, Slices.sum_before some inside]
    rfl
  · unfold cut
    rw [transferBytes_cutAt, Slices.sum_all positive]
  · intro transaction member
    obtain ⟨index, listed, rfl⟩ := List.mem_map.mp member
    exact ⟨Slices.pieceSize_pos some positive (List.mem_range.mp listed), Nat.min_le_left _ _⟩
  · unfold cut
    rw [List.flatMap_map]
    exact flatMap_carried host.hasPayload payload some positive
  · unfold cut
    rw [List.flatMap_map]
    exact flatMap_carried host.hasExpectedPayload expected some positive
  · unfold cut
    rw [List.flatMap_map]
    exact flatMap_masked host.hasByteMask (normalizeMask_length _ _) positive

/-- A read or a write whose data are as long as the request is split exactly when the demands are
met, and then into a partition of it. -/
theorem split_partitions (access : host.type ≠ .maintenance)
    (payload : host.hasPayload = true →
      host.payload.length = hostRequestBytes spec host.toRequest)
    (expected : host.hasExpectedPayload = true →
      host.expectedPayload.length = hostRequestBytes spec host.toRequest) :
    ((∃ transactions, splitHostRequest spec host = .ok transactions) ↔ Splittable spec host) ∧
      ∀ transactions, splitHostRequest spec host = .ok transactions →
        Partition spec host transactions := by
  constructor
  · constructor
    · rintro ⟨transactions, splits⟩
      exact ((splitHostRequest_eq_ok access).mp splits).1
    · intro splittable
      exact ⟨cut spec host, (splitHostRequest_eq_ok access).mpr ⟨splittable, rfl⟩⟩
  · intro transactions splits
    obtain ⟨-, rfl⟩ := (splitHostRequest_eq_ok access).mp splits
    exact cut_partition access payload expected

end Cut

/-- A masked write of one and a half transactions, not aligned to either. -/
def oddWrite : TrafficRequest where
  id := 7
  address := 3
  type := .write
  payload := List.replicate 96 0x5a
  byteMask := [1, 0, 1]
  hasPayload := true
  hasByteMask := true

theorem split_partitions_oddWrite :
    ((∃ transactions, splitHostRequest oddSpec oddWrite = .ok transactions) ↔
        Splittable oddSpec oddWrite) ∧
      ∀ transactions, splitHostRequest oddSpec oddWrite = .ok transactions →
        Partition oddSpec oddWrite transactions :=
  split_partitions (by decide) (by decide) (by decide)

/-- More transactions than 32 bits count: the request is refused. -/
theorem long_read_refused : ¬ ∃ transactions,
    splitHostRequest oddSpec { type := .read, transferBytes := 2 ^ 40 } = .ok transactions := by
  have refused : splitHostRequest oddSpec { type := .read, transferBytes := 2 ^ 40 } =
      .error (overflowError "host request needs more than uint32 transaction_count entries") := by
    rfl
  rintro ⟨transactions, splits⟩
  rw [refused] at splits
  cases splits

/-! ### The line of a transaction -/

/-- Every byte of the request is a byte of one memory line, the one its coordinates name. -/
def OnItsLine (spec : DramSpec) (request : Request) : Prop :=
  ∃ line, decode spec (line * spec.transactionBytes) = request.decoded ∧
    ∀ byte, request.address ≤ byte → byte < request.address + request.transferBytes →
      byte / spec.transactionBytes = line

section Lines

variable {spec : DramSpec} {host : TrafficRequest} {transactions : List TrafficRequest}

/-- A transaction keeps to its line when it ends in the line it starts in. -/
theorem onItsLine_iff (request : Request) (named : request.decoded = decode spec request.address)
    (some : 0 < request.transferBytes) :
    OnItsLine spec request ↔
      request.address % spec.transactionBytes + request.transferBytes ≤ spec.transactionBytes := by
  have positive := transactionBytes_pos spec
  have whole := Nat.div_add_mod' request.address spec.transactionBytes
  constructor
  · rintro ⟨line, -, inside⟩
    have first := inside request.address (Nat.le_refl _) (Nat.lt_add_of_pos_right some)
    have last := inside (request.address + request.transferBytes - 1) (by omega) (by omega)
    have place := Nat.mod_lt (request.address + request.transferBytes - 1) positive
    have end_whole := Nat.div_add_mod' (request.address + request.transferBytes - 1)
      spec.transactionBytes
    rw [last] at end_whole
    rw [first] at whole
    omega
  · intro fits
    refine ⟨request.address / spec.transactionBytes, ?_, ?_⟩
    · rw [named]
      refine decode_congr spec ?_
      exact Nat.mul_div_cancel _ positive
    · intro byte above below
      refine Nat.div_eq_of_lt_le ?_ ?_
      · omega
      · rw [Nat.succ_mul]
        omega

/-- The transactions of a request that is split keep to their lines exactly when the request is
aligned to a line, or ends in the line it starts in. -/
theorem split_onLines_iff (access : host.type ≠ .maintenance)
    (splits : splitHostRequest spec host = .ok transactions) :
    (∀ transaction ∈ transactions, OnItsLine spec transaction.toRequest) ↔
      host.address % spec.transactionBytes = 0 ∨
        host.address % spec.transactionBytes + hostRequestBytes spec host.toRequest ≤
          spec.transactionBytes := by
  obtain ⟨-, rfl⟩ := (splitHostRequest_eq_ok access).mp splits
  have some := @hostRequestBytes_pos spec host access
  have positive := transactionBytes_pos spec
  have keeps : ∀ index
      < Slices.pieces (hostRequestBytes spec host.toRequest) spec.transactionBytes,
      (OnItsLine spec (cutAt spec host index).toRequest ↔
        host.address % spec.transactionBytes +
            Slices.pieceSize (hostRequestBytes spec host.toRequest) spec.transactionBytes index ≤
          spec.transactionBytes) := by
    intro index inside
    refine (onItsLine_iff (cutAt spec host index).toRequest rfl
      (Slices.pieceSize_pos some positive inside)).trans ?_
    show (host.address + index * spec.transactionBytes) % spec.transactionBytes + _ ≤ _ ↔ _
    rw [Nat.add_mul_mod_self_right]
    rfl
  constructor
  · intro lines
    have first : 0 < Slices.pieces (hostRequestBytes spec host.toRequest) spec.transactionBytes :=
      Nat.lt_of_lt_of_le Nat.zero_lt_one (Nat.le_add_right 1 _)
    have kept := (keeps 0 first).mp
      (lines _ (List.mem_map_of_mem (List.mem_range.mpr first)))
    unfold Slices.pieceSize at kept
    omega
  · intro placed transaction member
    obtain ⟨index, listed, rfl⟩ := List.mem_map.mp member
    have inside := List.mem_range.mp listed
    refine (keeps index inside).mpr ?_
    unfold Slices.pieceSize
    rcases placed with aligned | fits
    · rw [aligned, Nat.zero_add]
      exact Nat.min_le_left _ _
    · omega

end Lines

theorem split_onLines_short :
    splitHostRequest oddSpec { address := 3, transferBytes := 5 } =
        .ok (cut oddSpec { address := 3, transferBytes := 5 }) ∧
      ∀ transaction ∈ cut oddSpec { address := 3, transferBytes := 5 },
        OnItsLine oddSpec transaction.toRequest :=
  ⟨rfl, (@split_onLines_iff oddSpec { address := 3, transferBytes := 5 } _ (by decide) rfl).mpr
    (by decide)⟩

/-- An unaligned read of one transaction's length: its last byte lies in another channel than the
one it is timed in. -/
theorem crossing_read_off_line :
    splitHostRequest oddSpec { address := 3, transferBytes := 64 } =
        .ok (cut oddSpec { address := 3, transferBytes := 64 }) ∧
      ∃ transaction ∈ cut oddSpec { address := 3, transferBytes := 64 },
        ¬ OnItsLine oddSpec transaction.toRequest ∧
          (decode oddSpec (transaction.address + transaction.transferBytes - 1)).channel ≠
            transaction.decoded.channel := by
  refine ⟨rfl, cutAt oddSpec { address := 3, transferBytes := 64 } 0, by decide, ?_, by decide⟩
  exact (onItsLine_iff (cutAt oddSpec { address := 3, transferBytes := 64 } 0).toRequest rfl
    (by decide)).not.mpr (by decide)

end Frontend

end HbmSim
