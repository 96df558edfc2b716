/-
The controller of one channel: its state, what it accepts, and how a request
leaves it as a response.

The controller keeps every accepted write in a buffer from which later reads are
answered and into which later writes to the same address are merged. The data
validator, the statistics other than the request counts, and the power and
thermal records are left out. The command trace is what `tick` returns.
-/

import HbmSim.Executor
import HbmSim.Phy
import HbmSim.Lib.Binary64

namespace HbmSim

/-! ### State -/

structure ControllerOptions where
  readBufferSize : Nat := 32
  writeBufferSize : Nat := 32
  priorityBufferSize : Nat := 2048
  writeLowWatermark : Float := 0.20
  writeHighWatermark : Float := 0.80
  scheduler : SchedulerKind := .frfcfs
  rowPolicy : RowPolicyKind := .openPage
  rowPolicyCap : Int := 4
  phy : MemPhyOptions := {}
  globalChannelId : Nat := 0
  responseQueueCapacity : Nat := 0
  retainResponses : Bool := true

/-- The last row command of a rising edge. All-bank commands have no bank key. -/
structure RisingEdgeCommandInfo where
  command : Command := .nop
  pseudoChannel : Option Nat := none
  bankKey : Option Nat := none
  nextPairingFallingEdge : Nat := 0
  deriving DecidableEq, Repr

/-- A pending write and, for each of its bytes, the sequence of the write that set it last. -/
structure BufferedWriteState where
  request : Request
  byteSequence : List Nat
  deriving DecidableEq, Repr

structure Stats where
  injectedRequests : Nat := 0
  completedReads : Nat := 0
  completedWrites : Nat := 0
  maintenanceRequests : Nat := 0
  maintenanceServed : Nat := 0
  deriving DecidableEq, Repr

structure Controller (β : Type) where
  spec : DramSpec
  options : ControllerOptions
  banks : Nat → BankState := fun _ => {}
  requestQueues : RequestQueues
  pendingMaintenance : List Request := []
  pending : List Request := []
  responses : List TransactionResponse := []
  bufferedWriteAddrs : Finset Nat := ∅
  bufferedWrites : AList (fun _ : Nat => BufferedWriteState) := ∅
  memoryImage : MemoryImage β
  memPhy : MemPhy
  clk : Nat := 0
  stats : Stats := {}
  rowPolicy : RowPolicyEngine
  refreshManager : RefreshManager
  rfmManager : RfmManager := {}
  timingEngine : TimingEngine := {}
  writeMode : Bool := false
  nextMaintenanceId : Nat := 1
  risingEdge : RisingEdgeCommandInfo := {}
  lowPowerActive : Bool := false
  explicitPowerDownActive : Bool := false
  explicitSelfRefreshActive : Bool := false
  wckRetrainRequired : Bool := false
  explicitLowPowerExitPending : Option Command := none
  lowPowerIdleSince : Nat := 0
  automaticSelfRefreshRequest : Option Nat := none
  lowPowerExitUntil : Nat := 0
  nextControllerSequence : Nat := 1

variable {β : Type} [MemoryBackend β]

namespace Controller

/-- The constructor, around the memory image it is given. -/
def create (spec : DramSpec) (options : ControllerOptions) (memoryImage : MemoryImage β) :
    Except Exception (Controller β) := do
  let banks ← spec.totalBanks
  let requestQueues ← RequestQueues.create banks options.priorityBufferSize options.readBufferSize
    options.writeBufferSize
  validateSpec spec
  throwIf (options.writeLowWatermark.isFinite = false ∨
      options.writeHighWatermark.isFinite = false ∨ options.writeLowWatermark < 0 ∨
      1 < options.writeHighWatermark ∨ options.writeHighWatermark ≤ options.writeLowWatermark)
    (invalidArgument "Controller write watermarks must satisfy 0 <= low < high <= 1")
  throwIf (options.rowPolicyCap ≤ 0)
    (invalidArgument "Controller row_policy_cap must be positive")
  let memPhy ← MemPhy.create spec options.phy
  let rowPolicy ← RowPolicyEngine.reset banks options.rowPolicyCap
  let refreshManager ← RefreshManager.reset spec 0
  return { spec, options, requestQueues, memoryImage, memPhy, rowPolicy, refreshManager }

/-- Nothing is queued, on its way or in the PHY. -/
def done (c : Controller β) : Bool :=
  decide (c.requestQueues.queue .active = [] ∧ c.requestQueues.queue .priority = [] ∧
    c.requestQueues.queue .read = [] ∧ c.requestQueues.queue .write = [] ∧
    c.pendingMaintenance = [] ∧ c.pending = []) && c.memPhy.idle

/-- The bank a request goes to. -/
def bankOf (c : Controller β) (request : Request) : BankState :=
  c.banks (request.decoded.flatBank c.spec)

/-- `storage_decoded_for`. -/
def storageDecodedFor (c : Controller β) (request : Request) : DecodedAddress :=
  if request.hasStorageDecoded then request.storageDecoded
  else { request.decoded with channel := c.options.globalChannelId }

/-! ### Maintenance requests -/

/-- Queue a maintenance request. One self-refresh exit is enough. -/
def scheduleMaintenance (c : Controller β) (command : Command) (decoded : DecodedAddress) :
    Controller β :=
  if command = .srefex ∧
      ((c.pendingMaintenance.any fun request => decide (request.next = .srefex)) = true ∨
        ((c.requestQueues.queue .priority).any fun request =>
          decide (request.next = .srefex)) = true) then c
  else
    let request : Request := {
      id := c.nextMaintenanceId
      type := .maintenance
      next := command
      decoded
      injectCycle := c.clk
      arrival := c.clk }
    { c with
      nextMaintenanceId := c.nextMaintenanceId + 1
      pendingMaintenance :=
        if command = .srefex then request :: c.pendingMaintenance
        else c.pendingMaintenance ++ [request]
      stats := { c.stats with maintenanceRequests := c.stats.maintenanceRequests + 1 } }

/-! ### Overlaps -/

/-- A read of the list overlaps the write and is older than the given sequence; zero means any
age. -/
def queueHasOverlap (spec : DramSpec) (write : Request) (olderThanSequence : Nat)
    (queue : List Request) : Bool :=
  queue.any fun candidate =>
    decide (candidate.type = .read ∧
      (olderThanSequence = 0 ∨ candidate.controllerSequence < olderThanSequence)) &&
    rangesOverlap write.address (requestDataSize spec write) candidate.address
      (requestDataSize spec candidate)

def hasUnresolvedOverlappingRead (c : Controller β) (write : Request) (olderThanSequence : Nat) :
    Bool :=
  queueHasOverlap c.spec write olderThanSequence (c.requestQueues.queue .read) ||
  queueHasOverlap c.spec write olderThanSequence (c.requestQueues.queue .active) ||
  queueHasOverlap c.spec write olderThanSequence c.pending

def hasUnresolvedOverlappingWrite (c : Controller β) (read : Request) : Bool :=
  c.pending.any fun pending =>
    decide (pending.type = .write) &&
    rangesOverlap read.address (requestDataSize c.spec read) pending.address
      (requestDataSize c.spec pending)

/-! ### The write buffer -/

/-- Some byte of the overlap is enabled by the buffered write. -/
def hitsBufferedWrite (spec : DramSpec) (read write : Request) (writeAddress : Nat) : Bool :=
  let readSize := requestDataSize spec read
  let writeSize := requestDataSize spec write
  let first := max read.address writeAddress
  let last := min (rangeEnd read.address readSize) (rangeEnd writeAddress writeSize)
  let mask := normalizeMask write.byteMask writeSize
  rangesOverlap read.address readSize writeAddress writeSize &&
    (!write.hasByteMask || (List.range (last - first)).any fun offset =>
      normalizeMask.maskByteSet mask (first + offset - writeAddress))

def readHitsBufferedWrite (c : Controller β) (read : Request) : Bool :=
  c.bufferedWrites.entries.any fun entry =>
    hitsBufferedWrite c.spec read entry.2.request entry.1

/-- The byte a buffered write gives a position, and the sequence it dates from. -/
def forwardedByte (spec : DramSpec) (state : BufferedWriteState) (position : Nat) :
    Option (Nat × UInt8) :=
  let write := state.request
  let source := position - write.address
  if write.hasPayload = true ∧ write.address ≤ position ∧
      position < rangeEnd write.address (requestDataSize spec write) ∧
      normalizeMask.maskByteSet write.enableMask source = true then
    write.payload[source]?.map fun value => (state.byteSequence.getD source 0, value)
  else none

/-- Take a byte of a buffered write when it is at least as new as the best so far. -/
def forwardStep (spec : DramSpec) (position : Nat) (best : UInt8 × UInt8 × Nat)
    (state : BufferedWriteState) : UInt8 × UInt8 × Nat :=
  match forwardedByte spec state position with
  | none => best
  | some (sequence, value) =>
    if best.2.2 ≤ sequence then (value, 0xff, sequence) else best

/-- `read_forward_payload`: the image's bytes and mask under the newest buffered writes. Each byte
looks for its newest write on its own. -/
def readForwardPayload (c : Controller β) (read : Request) :
    Except Exception (ByteVector × ByteVector × MemoryImage β) := do
  let size := requestDataSize c.spec read
  let storage := c.storageDecodedFor read
  let (actual, _, image) ← c.memoryImage.read read.address size (some storage)
  let resultMask ← image.readInitializedMask read.address actual.length (some storage)
  let writes := (c.bufferedWrites.entries.map fun entry => entry.2).filter fun state =>
    rangesOverlap read.address size state.request.address (requestDataSize c.spec state.request)
  let forwarded := (List.range actual.length).map fun index =>
    let stored := (actual.getD index 0, resultMask.getD index 0, 0)
    if read.address + index < rangeEnd read.address size then
      writes.foldl (forwardStep c.spec (read.address + index)) stored
    else stored
  return (forwarded.map fun byte => byte.1, forwarded.map fun byte => byte.2.1, image)

/-- Merge a masked write into a pending one to the same address. -/
def mergeMasked (spec : DramSpec) (older : BufferedWriteState) (newer : Request) :
    BufferedWriteState :=
  let merged := ensureWritePayload spec older.request
  let size := max merged.payload.length newer.payload.length
  let payload := merged.payload ++ List.replicate (size - merged.payload.length) 0
  let mask :=
    if merged.hasByteMask then normalizeMask merged.byteMask size else List.replicate size 0xff
  let sequences := older.byteSequence.take size ++
    List.replicate (size - older.byteSequence.length) 0
  let enabled (index : Nat) : Bool := normalizeMask.maskByteSet newer.byteMask index
  let mergedMask := (List.range size).map fun index =>
    if enabled index then 0xff else mask.getD index 0
  let partly := !allMasked mergedMask
  { request := { merged with
      payload := (List.range size).map fun index =>
        if enabled index then newer.payload.getD index 0 else payload.getD index 0
      hasPayload := true
      hasByteMask := partly
      byteMask := if partly then mergedMask else [] }
    byteSequence := (List.range size).map fun index =>
      if enabled index then newer.controllerSequence else sequences.getD index 0 }

/-- The pending write after another write to its address: an unmasked one replaces it. -/
def coalesced (c : Controller β) (newer : Request) : BufferedWriteState :=
  let replaced : BufferedWriteState := {
    request := newer
    byteSequence := List.replicate newer.payload.length newer.controllerSequence }
  match c.bufferedWrites.lookup newer.address with
  | none => replaced
  | some older =>
    if newer.hasByteMask then
      mergeMasked c.spec older
        { newer with byteMask := normalizeMask newer.byteMask newer.payload.length }
    else replaced

/-! ### Acceptance -/

def lowPowerExitLatency (spec : DramSpec) : Int :=
  if spec.lowPowerMode = .selfRefresh ∧ 0 < spec.selfRefreshExitCycles then
    spec.selfRefreshExitCycles
  else spec.lowPowerExitCycles

/-- The checks at the entry, before anything changes. -/
def checkRequest (c : Controller β) (request : Request) : Except Exception Unit := do
  validateRequestDecoded c.spec request.decoded
  throwIf (request.qosClass < 0 ∨ request.targetStack < -1 ∨ request.targetChannel < -1)
    (invalidArgument "request qos/stack/channel selectors must be non-negative or unset")
  let capacity := c.memoryImage.capacityBytes
  throwIf (request.type ≠ .maintenance ∧ capacity ≠ 0 ∧ (capacity ≤ request.address ∨
      capacity - request.address < requestDataSize c.spec request))
    (outOfRange "request address range exceeds DRAM capacity")

/-- New work withdraws an automatic self refresh that has not issued. -/
def withdrawSelfRefresh (c : Controller β) : Controller β :=
  match c.automaticSelfRefreshRequest with
  | none => c
  | some id =>
    let keep (request : Request) : Bool := !decide (request.id = id ∧ request.next = .srefen)
    { c with
      pendingMaintenance := c.pendingMaintenance.filter keep
      requestQueues :=
        c.requestQueues.put .priority ((c.requestQueues.queue .priority).filter keep)
      automaticSelfRefreshRequest := none
      lowPowerIdleSince := 0 }

/-- New work wakes the channel. An explicit low-power state ends with a command, the modelled idle
state with a delay. -/
def wakeUp (c : Controller β) (request : Request) : Controller β :=
  if c.lowPowerActive = false then c
  else if c.explicitPowerDownActive || c.explicitSelfRefreshActive then
    let exit : Command := if c.explicitSelfRefreshActive then .srefex else .pdx
    if c.explicitLowPowerExitPending.isSome then c
    else { c.scheduleMaintenance exit request.decoded with
      explicitLowPowerExitPending := some exit }
  else
    { c with
      lowPowerActive := false
      lowPowerExitUntil := max c.lowPowerExitUntil
        (c.clk + timingDelay c.spec (max 0 (lowPowerExitLatency c.spec))) }

/-- What the arrival of a request changes before it is queued. -/
def prepareAccept (c : Controller β) (request : Request) : Controller β :=
  if request.type = .maintenance then c else (c.withdrawSelfRefresh).wakeUp request

def acceptSequence (c : Controller β) : Controller β :=
  { c with nextControllerSequence := c.nextControllerSequence + 1 }

def countInjected (c : Controller β) : Controller β :=
  { c with stats := { c.stats with injectedRequests := c.stats.injectedRequests + 1 } }

/-- A read answered from the write buffer carries its snapshot until it completes. -/
def forwardRead (c : Controller β) (request : Request) : Except Exception (Controller β) := do
  let (payload, byteMask, image) ← c.readForwardPayload request
  let request := { request with
    controllerSequence := c.nextControllerSequence
    bypassDram := true
    issuedCycle := c.clk
    completion := c.clk + 1
    payload, byteMask
    responseEccCorrected :=
      decide (c.memoryImage.counters.correctedErrors < image.counters.correctedErrors)
    responseEccUncorrectable :=
      decide (c.memoryImage.counters.uncorrectableErrors < image.counters.uncorrectableErrors)
    hasPayload := true
    hasByteMask := true }
  return { c.acceptSequence.countInjected with
    memoryImage := image, pending := c.pending ++ [request] }

def enqueueRead (c : Controller β) (request : Request) : Except Exception (Bool × Controller β) :=
  if c.readHitsBufferedWrite request then do return (true, ← c.forwardRead request)
  else if c.requestQueues.hasSpace .read then
    .ok (true, { c.acceptSequence.countInjected with
      requestQueues := c.requestQueues.pushBack .read
        { request with controllerSequence := c.nextControllerSequence } })
  else .ok (false, c)

/-- Merge a write into the pending write of its address. Only its response is still to come. -/
def coalesceWrite (c : Controller β) (request : Request) : Controller β :=
  let request := { request with
    controllerSequence := c.nextControllerSequence
    bypassDram := true
    issuedCycle := c.clk
    completion := c.clk + 1 }
  -- The merge normalizes the mask of the request itself.
  let merges := request.hasByteMask && (c.bufferedWrites.lookup request.address).isSome
  let byteMask :=
    if merges then normalizeMask request.byteMask request.payload.length else request.byteMask
  { c.acceptSequence.countInjected with
    bufferedWrites := c.bufferedWrites.insert request.address (c.coalesced request)
    pending := c.pending ++ [{ request with byteMask }] }

/-- Queue a write and enter it into the write buffer. -/
def bufferWrite (c : Controller β) (request : Request) : Controller β :=
  let request := { request with controllerSequence := c.nextControllerSequence }
  let byteSequence := (List.range request.payload.length).map fun index =>
    if normalizeMask.maskByteSet request.enableMask index then request.controllerSequence else 0
  { c.acceptSequence.countInjected with
    bufferedWriteAddrs := insert request.address c.bufferedWriteAddrs
    bufferedWrites := c.bufferedWrites.insert request.address { request, byteSequence }
    requestQueues := c.requestQueues.pushBack .write request }

def enqueueWrite (c : Controller β) (request : Request) : Bool × Controller β :=
  let request := ensureWritePayload c.spec request
  if request.address ∈ c.bufferedWriteAddrs then
    -- Merging under an unresolved read would show the read a later write.
    if c.hasUnresolvedOverlappingRead request 0 then (false, c)
    else (true, c.coalesceWrite request)
  else if c.requestQueues.hasSpace .write then (true, c.bufferWrite request)
  else (false, c)

def enqueueMaintenance (c : Controller β) (request : Request) : Bool × Controller β :=
  if c.requestQueues.hasSpace .priority then
    (true, { c.acceptSequence with
      requestQueues := c.requestQueues.pushBack .priority
        { request with controllerSequence := c.nextControllerSequence }
      stats := { c.stats with maintenanceRequests := c.stats.maintenanceRequests + 1 } })
  else (false, c)

/-- `enqueue`: whether the request was accepted. A refused request may be offered again. -/
def enqueue (c : Controller β) (request : Request) :
    Except Exception (Bool × Controller β) := do
  c.checkRequest request
  let c := c.prepareAccept request
  let request := { request with arrival := c.clk }
  match request.type with
  | .read => c.enqueueRead request
  | .write => return c.enqueueWrite request
  | .maintenance => return c.enqueueMaintenance request

/-! ### Responses -/

def responseQueueFull (c : Controller β) : Bool :=
  decide (c.options.responseQueueCapacity ≠ 0 ∧
    c.options.responseQueueCapacity ≤ c.responses.length)

def makeResponse (c : Controller β) (request : Request) (data initializedMask : ByteVector)
    (initialized forwarded coalesced : Bool) (status : ResponseStatus) : TransactionResponse :=
  let transactionCount := max 1 request.transactionCount
  { controllerSequence := request.controllerSequence
    requestId := request.id
    hostRequestId := request.hostRequestId
    transactionIndex := request.transactionIndex
    transactionCount
    type := request.type
    systemAddress :=
      if request.hasSystemAddress then request.systemAddress else request.address
    localAddress := request.address
    stack := request.targetStack
    channel :=
      if 0 ≤ request.targetChannel then request.targetChannel else c.options.globalChannelId
    arrivalCycle := request.arrival
    issuedCycle := request.issuedCycle
    completionCycle := request.completion
    data, initializedMask, initialized, forwarded, coalesced
    status :=
      if request.transactionCount = 0 ∨ transactionCount ≤ request.transactionIndex then
        .invalidTransaction
      else status }

/-- `check_read_data`, without a data validator. -/
def checkReadData (request : Request) (actual : ByteVector) (initialized : Bool) :
    ResponseStatus :=
  if request.hasExpectedPayload = true ∧ actual ≠ request.expectedPayload then .dataMismatch
  else if initialized then .ok
  else .uninitializedData

/-- What a finished read brings back. -/
structure ReadResult where
  data : ByteVector
  initializedMask : ByteVector
  initialized : Bool
  eccCorrected : Bool
  eccUncorrectable : Bool

/-- The data of a read: its snapshot, the PHY's completion, or the image. -/
def readResult (c : Controller β) (request : Request)
    (phyCompletion : Option MemPhyCompletion) :
    Except Exception (ReadResult × MemoryImage β) :=
  if request.bypassDram then
    .ok ({ data := request.payload
           initializedMask := request.byteMask
           initialized := allMasked request.byteMask
           eccCorrected := request.responseEccCorrected
           eccUncorrectable := request.responseEccUncorrectable }, c.memoryImage)
  else
    match phyCompletion with
    | some completion =>
      .ok ({ data := completion.data
             initializedMask := completion.initializedMask
             initialized := completion.initialized
             eccCorrected := completion.eccCorrected
             eccUncorrectable := completion.eccUncorrectable }, c.memoryImage)
    | none => do
      let storage := c.storageDecodedFor request
      let (data, initialized, image) ← c.memoryImage.read request.address
        (requestDataSize c.spec request) (some storage)
      let initializedMask ←
        image.readInitializedMask request.address data.length (some storage)
      let before := c.memoryImage.counters
      return ({
        data, initialized, initializedMask
        eccCorrected := decide (before.correctedErrors < image.counters.correctedErrors)
        eccUncorrectable :=
          decide (before.uncorrectableErrors < image.counters.uncorrectableErrors) }, image)

/-- An auto-precharge data command closes the physical row when its data is done. -/
def autoPrechargeImage (c : Controller β) (request : Request) (autoPrecharge : Command)
    (image : MemoryImage β) : Except Exception (MemoryImage β) :=
  if request.bypassDram = false ∧ request.issuedDataCommand = autoPrecharge then
    image.prechargeBank (c.storageDecodedFor request) c.clk
  else .ok image

def completeRead (c : Controller β) (request : Request)
    (phyCompletion : Option MemPhyCompletion) :
    Except Exception (TransactionResponse × MemoryImage β) := do
  let (result, image) ← c.readResult request phyCompletion
  let status := checkReadData request result.data result.initialized
  let status :=
    if result.eccCorrected then mergeResponseStatus status .eccCorrected else status
  let status :=
    if result.eccUncorrectable then mergeResponseStatus status .eccUncorrectable else status
  let image ← c.autoPrechargeImage request .rda image
  return ({ c.makeResponse request result.data result.initializedMask result.initialized
      request.bypassDram false status with
      eccCorrected := result.eccCorrected, eccUncorrectable := result.eccUncorrectable }, image)

/-- `commit_write_data`: the bytes of a write reach the image. -/
def commitWriteData (c : Controller β) (request : Request) :
    Except Exception (Request × MemoryImage β) := do
  let request := ensureWritePayload c.spec request
  let image ← c.memoryImage.write request.address request.payload request.writeMask
    (some (c.storageDecodedFor request)) { requestId := request.id, cycle := c.clk }
  return ({ request with dataCommitted := true }, image)

/-- A write the image does not have yet is committed here; the code commits every direct write
when its command issues. -/
def commitMissing (c : Controller β) (request : Request)
    (phyCompletion : Option MemPhyCompletion) : Except Exception (Request × MemoryImage β) :=
  if phyCompletion.isSome then
    .ok ({ ensureWritePayload c.spec request with dataCommitted := true }, c.memoryImage)
  else if request.dataCommitted then .ok (request, c.memoryImage)
  else c.commitWriteData request

def completeWrite (c : Controller β) (request : Request)
    (phyCompletion : Option MemPhyCompletion) :
    Except Exception (TransactionResponse × MemoryImage β) :=
  if request.bypassDram then
    .ok (c.makeResponse request [] [] true false true .ok, c.memoryImage)
  else do
    let (request, image) ← c.commitMissing request phyCompletion
    let image ← c.autoPrechargeImage request .wra image
    return (c.makeResponse request [] [] true false false .ok, image)

/-- The completed request with its times from the PHY, when it went through one. -/
inductive Readiness
  | waits
  | completes (request : Request) (phyCompletion : Option MemPhyCompletion) (memPhy : MemPhy)

/-- Whether a pending request completes in this tick. A full response queue holds it back, with
its data still in the PHY. -/
def readiness (c : Controller β) (request : Request) : Readiness :=
  if c.clk < request.completion ∨
      (c.options.retainResponses = true ∧ c.responseQueueFull = true) then .waits
  else if request.bypassDram = false ∧ c.memPhy.behavioral = true then
    match c.memPhy.takeCompletion request.id request.controllerSequence with
    | none => .waits
    | some (completion, memPhy) =>
      .completes { request with
        issuedCycle := completion.issuedCycle
        completion := completion.completionCycle } (some completion) memPhy
  else .completes request none c.memPhy

def keepResponse (c : Controller β) (response : TransactionResponse) : Controller β :=
  if c.options.retainResponses then { c with responses := c.responses ++ [response] } else c

def countCompleted (c : Controller β) (type : RequestType) : Controller β :=
  match type with
  | .read => { c with stats := { c.stats with completedReads := c.stats.completedReads + 1 } }
  | .write => { c with stats := { c.stats with completedWrites := c.stats.completedWrites + 1 } }
  | .maintenance => c

/-- Complete one pending request. `true` says it is still pending. -/
def completeOne (c : Controller β) (request : Request) :
    Except Exception (Bool × Controller β) :=
  match c.readiness request with
  | .waits => .ok (true, c)
  | .completes request phyCompletion memPhy => do
    match request.type with
    | .read =>
      let (response, memoryImage) ← c.completeRead request phyCompletion
      return (false, ({ c with memPhy, memoryImage }.countCompleted .read).keepResponse response)
    | .write =>
      let (response, memoryImage) ← c.completeWrite request phyCompletion
      return (false, ({ c with memPhy, memoryImage }.countCompleted .write).keepResponse response)
    | .maintenance => return (false, { c with memPhy })

/-- Go through the pending requests in order; the result lists the ones that stay. -/
def completeEach : List Request → Controller β → Except Exception (List Request × Controller β)
  | [], c => .ok ([], c)
  | request :: rest, c => do
    let (stays, c) ← c.completeOne request
    let (left, c) ← completeEach rest c
    return (if stays then request :: left else left, c)

/-- `complete_pending`. -/
def completePending (c : Controller β) : Except Exception (Controller β) := do
  let (pending, c) ← completeEach c.pending c
  return { c with pending }

end Controller

end HbmSim
