/-
Requests and responses. A request carries its byte address, its coordinates, its
data and the marks the controller leaves on it on the way. A response is what
the frontend gets back.

Fields that only statistics or the system layer read are left out.
-/

import HbmSim.Data

namespace HbmSim

/-! ### Records -/

structure Request where
  id : Nat := 0
  address : Nat := 0
  systemAddress : Nat := 0
  hasSystemAddress : Bool := false
  targetStack : Int := -1
  targetChannel : Int := -1
  qosClass : Int := 0
  type : RequestType := .read
  decoded : DecodedAddress := {}
  storageDecoded : DecodedAddress := {}
  hasStorageDecoded : Bool := false
  arrival : Nat := 0
  controllerSequence : Nat := 0
  injectCycle : Nat := 0
  completion : Nat := 0
  issuedCycle : Nat := 0
  bypassDram : Bool := false
  hostRequestId : Nat := 0
  transactionIndex : Nat := 0
  transactionCount : Nat := 1
  transferBytes : Nat := 0
  payload : ByteVector := []
  expectedPayload : ByteVector := []
  byteMask : ByteVector := []
  hasPayload : Bool := false
  hasExpectedPayload : Bool := false
  hasByteMask : Bool := false
  dataCommitted : Bool := false
  responseEccCorrected : Bool := false
  responseEccUncorrectable : Bool := false
  issuedDataCommand : Command := .nop
  next : Command := .nop
  issuedFirstActivate : Bool := false
  casSyncIssued : Bool := false
  deriving DecidableEq, Repr

/-- The statuses in the order of their severity. -/
inductive ResponseStatus
  | ok
  | eccCorrected
  | uninitializedData
  | dataMismatch
  | retry
  | timeout
  | eccUncorrectable
  | invalidTransaction
  deriving DecidableEq, Repr

def ResponseStatus.severity : ResponseStatus → Nat
  | .ok => 0
  | .eccCorrected => 1
  | .uninitializedData => 2
  | .dataMismatch => 3
  | .retry => 4
  | .timeout => 5
  | .eccUncorrectable => 6
  | .invalidTransaction => 7

/-- `merge_response_status`: the more severe of the two. -/
def mergeResponseStatus (left right : ResponseStatus) : ResponseStatus :=
  if right.severity ≤ left.severity then left else right

/-- `controllerSequence` is not in the source. It says which accepted request the response
answers, because `requestId` is whatever the frontend chose. -/
structure TransactionResponse where
  controllerSequence : Nat := 0
  requestId : Nat := 0
  hostRequestId : Nat := 0
  transactionIndex : Nat := 0
  transactionCount : Nat := 1
  type : RequestType := .read
  systemAddress : Nat := 0
  localAddress : Nat := 0
  stack : Int := -1
  channel : Int := -1
  arrivalCycle : Nat := 0
  issuedCycle : Nat := 0
  completionCycle : Nat := 0
  data : ByteVector := []
  initializedMask : ByteVector := []
  initialized : Bool := true
  eccCorrected : Bool := false
  eccUncorrectable : Bool := false
  forwarded : Bool := false
  coalesced : Bool := false
  status : ResponseStatus := .ok
  deriving DecidableEq, Repr

/-! ### Sizes and ranges -/

/-- `request_data_size`: the declared size, else the length of the data the request carries,
else one transaction. -/
def requestDataSize (spec : DramSpec) (request : Request) : Nat :=
  if 0 < request.transferBytes then request.transferBytes
  else if request.hasExpectedPayload = true ∧ request.expectedPayload ≠ [] then
    request.expectedPayload.length
  else if request.hasPayload = true ∧ request.payload ≠ [] then request.payload.length
  else max 1 spec.transactionBytes

theorem requestDataSize_pos (spec : DramSpec) (request : Request) :
    0 < requestDataSize spec request := by
  unfold requestDataSize
  split
  · assumption
  split
  next carried => exact List.length_pos_iff.mpr carried.2
  split
  next carried => exact List.length_pos_iff.mpr carried.2
  exact Nat.lt_of_lt_of_le Nat.zero_lt_one (Nat.le_max_left _ _)

/-- The end of a byte range, which saturates at the end of the address space. -/
def rangeEnd (start size : Nat) : Nat :=
  if uint64Max - start < size then uint64Max else start + size

def rangesOverlap (firstStart firstSize secondStart secondSize : Nat) : Bool :=
  if firstSize = 0 ∨ secondSize = 0 then false
  else decide (firstStart < rangeEnd secondStart secondSize ∧
    secondStart < rangeEnd firstStart firstSize)

/-! ### Payloads and masks -/

/-- `normalize_mask`: an empty mask enables everything; else the bytes become `0` and `0xff` and
the missing ones `0`. -/
def normalizeMask (mask : ByteVector) (size : Nat) : ByteVector :=
  if mask = [] then List.replicate size 0xff
  else (List.range size).map fun index => if maskByteSet mask index then 0xff else 0
where
  maskByteSet (mask : ByteVector) (index : Nat) : Bool := mask[index]?.any (· ≠ 0)

@[simp] theorem normalizeMask_length (mask : ByteVector) (size : Nat) :
    (normalizeMask mask size).length = size := by
  unfold normalizeMask
  split
  · exact List.length_replicate
  · rw [List.length_map, List.length_range]

/-- The pseudo-random bytes of a state. -/
def payloadFrom (state : UInt64) : Nat → ByteVector
  | 0 => []
  | size + 1 =>
    let state := state ^^^ (state >>> 12)
    let state := state ^^^ (state <<< 25)
    let state := state ^^^ (state >>> 27)
    ((state * 0x2545f4914f6cdd1d) >>> 56).toUInt8 :: payloadFrom state size

/-- `make_request_payload`: the bytes of a write that carries none. -/
def makeRequestPayload (address requestId size : Nat) : ByteVector :=
  payloadFrom
    (address.toUInt64 ^^^ (requestId.toUInt64 * 0x9e3779b97f4a7c15) ^^^ 0xd1b54a32d192ed03) size

@[simp] theorem payloadFrom_length (state : UInt64) (size : Nat) :
    (payloadFrom state size).length = size := by
  induction size generalizing state with
  | zero => rfl
  | succ size inductionHypothesis =>
    unfold payloadFrom
    rw [List.length_cons, inductionHypothesis]

@[simp] theorem makeRequestPayload_length (address requestId size : Nat) :
    (makeRequestPayload address requestId size).length = size := payloadFrom_length _ _

/-- `ensure_write_payload`: give the request its bytes and normalize its mask. -/
def ensureWritePayload (spec : DramSpec) (request : Request) : Request :=
  let request :=
    if request.hasPayload = false ∨ request.payload = [] then
      { request with
        payload := makeRequestPayload request.address request.id (requestDataSize spec request)
        hasPayload := true }
    else request
  if request.hasByteMask then
    { request with byteMask := normalizeMask request.byteMask request.payload.length }
  else request

/-- The mask a write goes to memory with. -/
def Request.writeMask (request : Request) : Option ByteVector :=
  if request.hasByteMask then some request.byteMask else none

/-- The mask of a write over its payload; without a mask every byte is enabled. -/
def Request.enableMask (request : Request) : ByteVector :=
  if request.hasByteMask then normalizeMask request.byteMask request.payload.length
  else List.replicate request.payload.length 0xff

/-! ### Acceptance -/

/-- One coordinate check of a request; each names the coordinate it rejects. -/
def requireRequestCoordinate (value count : Nat) (name : String) : Except Exception Unit :=
  throwIf (count ≤ value)
    (outOfRange ("request decoded " ++ name ++ " is outside the DRAM organization"))

def validateRequestDecoded (spec : DramSpec) (decoded : DecodedAddress) :
    Except Exception Unit := do
  requireRequestCoordinate decoded.channel spec.org.channels "channel"
  requireRequestCoordinate decoded.pseudoChannel spec.org.pseudoChannels "pseudo_channel"
  requireRequestCoordinate decoded.sid spec.org.sids "sid"
  requireRequestCoordinate decoded.rank spec.org.ranks "rank"
  requireRequestCoordinate decoded.bankGroup spec.org.bankGroups "bank_group"
  requireRequestCoordinate decoded.bank spec.org.banksPerGroup "bank"
  requireRequestCoordinate decoded.row spec.org.rows "row"
  requireRequestCoordinate decoded.column spec.org.columns "column"

theorem validateRequestDecoded_inBounds {spec : DramSpec} {decoded : DecodedAddress}
    {value : Unit} (accepted : validateRequestDecoded spec decoded = .ok value) :
    decoded.InBounds spec := by
  unfold validateRequestDecoded requireRequestCoordinate at accepted
  simp only [bind_eq_ok, throwIf_eq_ok, exists_const, not_le] at accepted
  obtain ⟨channel, pseudoChannel, sid, rank, bankGroup, bank, row, column⟩ := accepted
  exact ⟨channel, pseudoChannel, sid, rank, bankGroup, bank, row, column⟩

/-! ### What a finished write leaves on the request -/

section Payload

variable {spec : DramSpec} {request : Request}

theorem ensureWritePayload_payload_ne_nil : (ensureWritePayload spec request).payload ≠ [] := by
  have generated : makeRequestPayload request.address request.id
      (requestDataSize spec request) ≠ [] := by
    rw [← List.length_pos_iff, makeRequestPayload_length]
    exact requestDataSize_pos spec request
  unfold ensureWritePayload
  by_cases missing : request.hasPayload = false ∨ request.payload = []
  · simp only [missing, if_true]
    split <;> exact generated
  · simp only [missing, if_false]
    simp only [not_or] at missing
    split <;> exact missing.2

theorem ensureWritePayload_hasPayload : (ensureWritePayload spec request).hasPayload = true := by
  unfold ensureWritePayload
  by_cases missing : request.hasPayload = false ∨ request.payload = []
  · simp only [missing, if_true]
    split <;> rfl
  · simp only [missing, if_false]
    simp only [not_or, Bool.not_eq_false] at missing
    split <;> exact missing.1

/-- Once a request has its bytes and a normalized mask, giving them again changes nothing. -/
theorem ensureWritePayload_of_given (hasPayload : request.hasPayload = true)
    (payload : request.payload ≠ [])
    (mask : request.hasByteMask = true →
      normalizeMask request.byteMask request.payload.length = request.byteMask) :
    ensureWritePayload spec request = request := by
  unfold ensureWritePayload
  have given : ¬ (request.hasPayload = false ∨ request.payload = []) := by
    rw [hasPayload]
    simp [payload]
  simp only [given, if_false]
  split
  next masked => rw [mask masked]
  next => rfl

end Payload

end HbmSim
