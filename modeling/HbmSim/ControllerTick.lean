/-
One tick of the controller: complete what is due, create maintenance, and give
each command bus its turn. In a turn the controller chooses a request, issues
the request's next command and moves the request on.

`tick` returns the commands it issued; this is the command trace of the source.
-/

import HbmSim.Controller

namespace HbmSim

/-! ### Records -/

/-- One issued command, as the trace records it. -/
structure IssuedCommand where
  cycle : Nat := 0
  requestId : Nat := 0
  command : Command := .nop
  bus : BusClass := .unified
  decoded : DecodedAddress := {}
  stackId : Int := 0
  systemAddress : Nat := 0
  address : Nat := 0
  deriving DecidableEq, Repr

/-- A request that may issue its next command, by its place in its queue. -/
structure Candidate where
  index : Nat
  buffer : RequestQueueKind
  command : Command
  bus : BusClass
  deriving DecidableEq, Repr

namespace Controller

variable {β : Type} [MemoryBackend β]

/-! ### Banks in a scope -/

def anyBank (first last : Nat) (banks : Nat → BankState) (select : BankState → Bool) : Bool :=
  (List.range (last - first)).any fun offset => select (banks (first + offset))

def anyBankBusyInChannel (c : Controller β) (decoded : DecodedAddress) : Bool :=
  let banksPerChannel := max 1 (c.spec.org.pseudoChannels * c.spec.org.sids * c.spec.org.ranks *
    c.spec.org.bankGroups * c.spec.org.banksPerGroup)
  let first := clampCoordinate decoded.channel c.spec.org.channels * banksPerChannel
  anyBank first (min c.spec.bankCount (first + banksPerChannel)) c.banks BankState.busy

def anyBankBusyInRank (c : Controller β) (decoded : DecodedAddress) : Bool :=
  let (first, last) := rankBankRange c.spec decoded
  anyBank first last c.banks BankState.busy

def anyBankActivatingInRank (c : Controller β) (decoded : DecodedAddress) : Bool :=
  let (first, last) := rankBankRange c.spec decoded
  anyBank first last c.banks BankState.activating

/-- `dual_bank_target_idle`: both banks of the pair are closed and may activate. -/
def dualBankTargetIdle (c : Controller β) (decoded : DecodedAddress) : Bool :=
  let bank := c.banks (decoded.flatBank c.spec)
  let partner := c.banks ((lpddrRefdbPartner c.spec decoded).flatBank c.spec)
  !bank.busy && decide (bank.nextAct ≤ c.clk) && !partner.busy && decide (partner.nextAct ≤ c.clk)

/-! ### The next command of a request -/

def wckReadyForData (c : Controller β) (request : Request) : Bool :=
  c.timingEngine.wckReadyForData c.spec request.decoded c.clk

/-- A maintenance request first closes the banks it needs closed. -/
def nextMaintenanceCommand (c : Controller β) (request : Request) : Command :=
  let perBank := request.next = .refpb ∨ request.next = .refdb ∨ request.next = .rfmpb
  if (request.next = .refab ∨ request.next = .rfmab) ∧
      c.anyBankBusyInRank request.decoded = true then .preab
  else if perBank ∧ (c.bankOf request).busy = true then .prepb
  else if request.next = .refdb ∧ c.dualBankTargetIdle request.decoded = false ∧
      c.anyBankBusyInRank request.decoded = true then .preab
  else request.next

/-- The clock command before a data command, unless a clock window is already opening or a new one
would close before the data could go. -/
def nextClockCommand (c : Controller β) (request : Request) : Option Command :=
  let wck := c.timingEngine.wckState c.spec request.decoded
  let timing := c.spec.timing
  let bank := c.bankOf request
  let isRead := request.type = .read
  let dataGate := max (if isRead then bank.nextRd else bank.nextWr)
    (c.timingEngine.constraintReadyAt c.spec request.decoded (if isRead then .rd else .wr))
  let prospectiveReady :=
    c.clk + timingDelay c.spec (max 1 (max timing.nCAS timing.nWCK2CK))
  let prospectiveEnd := c.clk + timingDelay c.spec (max timing.nWCKPST (timing.nWCK2CK + 1))
  if c.clk < wck.wckReadyAt ∧ c.clk < wck.wckActiveUntil then none
  else if prospectiveEnd ≤ max dataGate prospectiveReady then none
  else some (if isRead then .casrd else .caswr)

/-- `next_command`. -/
def nextCommand (c : Controller β) (request : Request) : Option Command :=
  let bank := c.bankOf request
  if request.type = .maintenance then some (c.nextMaintenanceCommand request)
  else if bank.openRow = some request.decoded.row then
    if c.spec.lpddrFamily = true ∧ c.wckReadyForData request = false then
      c.nextClockCommand request
    else
      some (if request.type = .read then readCommandFor c.options.rowPolicy
        else writeCommandFor c.options.rowPolicy)
  else if bank.openRow.isSome then some .prepb
  else if bank.activating then
    if request.issuedFirstActivate then some .act2 else none
  else if c.spec.splitActivate then
    some (if request.issuedFirstActivate then .act2 else .act1)
  else some .act

/-! ### Readiness of a command -/

def isRisingEdge (c : Controller β) : Bool := decide (c.clk % 2 = 1)

def bankKey (c : Controller β) (decoded : DecodedAddress) : Nat :=
  (decoded.sid * c.spec.org.bankGroups + decoded.bankGroup) * c.spec.org.banksPerGroup +
    decoded.bank

def canIssueFallingEdgePre (c : Controller β) (request : Request) (command : Command) : Bool :=
  if c.clk ≠ c.risingEdge.nextPairingFallingEdge then true
  else if c.risingEdge.pseudoChannel ≠ some request.decoded.pseudoChannel then true
  else if (commandMeta c.risingEdge.command).allBank then false
  else decide (command = .prepb ∧ some (c.bankKey request.decoded) ≠ c.risingEdge.bankKey)

def busMatches (c : Controller β) (request : Request) (command : Command) (bus : BusClass) :
    Bool :=
  if bus = .unified then true
  else if c.spec.hbmEdgePairing = true ∧ c.isRisingEdge = false then
    if bus = .column then false
    else if command ≠ .prepb ∧ command ≠ .preab then false
    else !c.spec.hbmStrictEdgePairing || c.canIssueFallingEdgePre request command
  else if (commandMeta command).rowCommand then decide (bus = .row)
  else if (commandMeta command).columnCommand then decide (bus = .column)
  else false

/-- The controller's state as the legality check sees it. -/
def stateSnapshot (c : Controller β) (request : Request) (command : Command) :
    CommandStateSnapshot :=
  let bank := c.bankOf request
  { bankState :=
      if bank.activating then .activating else if bank.openRow.isSome then .opened else .closed
    rowHit := decide (bank.openRow = some request.decoded.row)
    wckReady := c.wckReadyForData request
    anyBankBusy :=
      if command = .preab ∨ command = .refab ∨ command = .rfmab then
        c.anyBankBusyInRank request.decoded
      else c.anyBankBusyInChannel request.decoded
    splitActivate := c.spec.splitActivate
    lpddrFamily := c.spec.lpddrFamily
    maintenance := decide (request.type = .maintenance)
    issuedFirstActivate := request.issuedFirstActivate
    lowPowerActive := c.explicitPowerDownActive ||
      (c.lowPowerActive && decide (c.spec.lowPowerMode ≠ .selfRefresh))
    selfRefreshActive := c.explicitSelfRefreshActive ||
      (c.lowPowerActive && decide (c.spec.lowPowerMode = .selfRefresh))
    wckTrainingRequired := c.wckRetrainRequired
    rasEccSupported := c.spec.supportsEcc || c.spec.lpddrLinkEccEnabled
    linkRetrySupported := c.spec.hbmLinkRetryEnabled || c.spec.lpddrLinkProtection }

def stateOk (c : Controller β) (request : Request) (command : Command) : Bool :=
  (checkCommandState (c.stateSnapshot request command) command).legal

/-- The bank and scope gates of a command, the last layer of `timing_ok`. -/
def gatesOpen (c : Controller β) (request : Request) (command : Command) : Bool :=
  let decoded := request.decoded
  let bank := c.bankOf request
  let row := c.timingEngine.rowState c.spec decoded
  let column := c.timingEngine.columnState c.spec decoded
  let bankGroup := c.timingEngine.bankGroupState c.spec decoded
  let wck := c.timingEngine.wckState c.spec decoded
  let rowBus := decide (row.nextRow ≤ c.clk)
  let closed := !bank.activating && decide (bank.openRow = none)
  let activate := !bank.activating && decide (bank.nextAct ≤ c.clk) && rowBus &&
    decide (row.nextAct ≤ c.clk) && decide (bankGroup.nextAct ≤ c.clk) &&
    c.timingEngine.fawReady c.spec decoded
  let access (bankGate : Nat) := decide (bank.openRow = some decoded.row) &&
    decide (bankGate ≤ c.clk) && decide (bank.nextAnyCol ≤ c.clk) &&
    decide (column.nextCol ≤ c.clk) && decide (bankGroup.nextCol ≤ c.clk) &&
    (!c.spec.lpddrFamily || c.wckReadyForData request)
  match command with
  | .act => activate
  | .act1 => activate && !c.anyBankActivatingInRank decoded
  | .act2 => bank.activating && request.issuedFirstActivate &&
      decide (bank.nextAct2 ≤ c.clk) && rowBus
  | .pre | .prepb => !bank.activating && bank.openRow.isSome &&
      decide (bank.nextPre ≤ c.clk) && rowBus
  | .casrd | .caswr => c.spec.lpddrFamily && decide (bank.openRow = some decoded.row) &&
      decide (column.nextCol ≤ c.clk) && decide (wck.nextCas ≤ c.clk)
  | .rd | .rda => access bank.nextRd
  | .wr | .wra => access bank.nextWr
  | .refpb => closed && decide (bank.nextAct ≤ c.clk) && rowBus &&
      c.timingEngine.fawReady c.spec decoded
  | .refdb => c.dualBankTargetIdle decoded && decide (bank.nextAct ≤ c.clk) &&
      decide ((c.banks ((lpddrRefdbPartner c.spec decoded).flatBank c.spec)).nextAct ≤ c.clk) &&
      rowBus && c.timingEngine.fawReady c.spec decoded
  | .rfmpb => closed && decide (bank.nextAct ≤ c.clk) && rowBus
  | .preab => rowBus
  | .refab | .rfmab => !c.anyBankBusyInRank decoded && rowBus
  | .mrw | .mrr | .wcktrain | .dvfs | .pde | .srefen | .eccscrub =>
      !c.anyBankBusyInChannel decoded && rowBus
  | .wcksync => c.spec.lpddrFamily && decide (column.nextCol ≤ c.clk) &&
      decide (wck.nextCas ≤ c.clk)
  | .pdx | .srefex | .raserr => rowBus
  | .nop => false

/-- `timing_ok`: legal, past every constraint, and past its gates. -/
def timingOk (c : Controller β) (request : Request) (command : Command) : Bool :=
  c.stateOk request command &&
  c.timingEngine.constraintReady c.spec request.decoded command c.clk &&
  c.gatesOpen request command

/-- `would_close_active`: the command of another queue would close a bank in use. -/
def wouldCloseActive (c : Controller β) (request : Request) (command : Command)
    (source : RequestQueueKind) : Bool :=
  let counts := c.requestQueues.activeCounts
  if source = .active then false
  else
    match command with
    | .preab | .refab | .rfmab =>
      let (first, last) := rankBankRange c.spec request.decoded
      (List.range (last - first)).any fun offset => decide (0 < counts (first + offset))
    | .prepb | .refpb | .refdb | .rfmpb =>
      decide (0 < counts (request.decoded.flatBank c.spec))
    | _ => false

def candidateEligible (c : Controller β) (request : Request) (command : Command) (bus : BusClass)
    (kind : RequestQueueKind) (avoidActiveClose : Bool) : Bool :=
  if c.memPhy.behavioral = true ∧ request.type = .read ∧ (commandMeta command).data = true ∧
      c.hasUnresolvedOverlappingWrite request = true then false
  else if request.type = .write ∧
      c.hasUnresolvedOverlappingRead request request.controllerSequence = true then false
  else if c.busMatches request command bus = false then false
  else if avoidActiveClose = true ∧ c.wouldCloseActive request command kind = true then false
  else true

def phyAdmissionOk (c : Controller β) (command : Command) : Bool :=
  c.memPhy.canAcceptCommand command &&
  (!(commandMeta command).data || c.memPhy.canAcceptData command)

/-! ### Choosing a request -/

/-- An activate whose deadline has come goes first. -/
def urgentStep (c : Controller β) (bus : BusClass) (best : Option (Request × Nat))
    (entry : Request × Nat) : Except Exception (Option (Request × Nat)) :=
  let (request, _) := entry
  if c.nextCommand request ≠ some .act2 then .ok best
  else
    let deadline := (c.bankOf request).act2Deadline
    if deadline < c.clk then
      .error (runtimeError
        ("LPDDR ACT2 missed nAADMax deadline for request " ++ toString request.id))
    else if c.clk < deadline ∨ c.candidateEligible request .act2 bus .active false = false ∨
        c.timingOk request .act2 = false ∨ c.phyAdmissionOk .act2 = false then .ok best
    else
      match best with
      | none => .ok (some entry)
      | some (chosen, _) =>
        let chosenDeadline := (c.bankOf chosen).act2Deadline
        if deadline < chosenDeadline ∨
            (deadline = chosenDeadline ∧ request.arrival < chosen.arrival) then .ok (some entry)
        else .ok best

def pickUrgentAct2 (c : Controller β) (bus : BusClass) : Except Exception (Option Candidate) :=
  if c.spec.splitActivate = false ∨ bus = .column then .ok none
  else do
    let best ← (c.requestQueues.queue .active).zipIdx.foldlM (c.urgentStep bus) none
    return best.map fun entry =>
      { index := entry.2, buffer := .active, command := .act2, bus }

/-- What the scheduler sees of a queued request, if the request has a next command. -/
def candidateView (c : Controller β) (kind : RequestQueueKind) (bus : BusClass)
    (avoidActiveClose : Bool) (entry : Request × Nat) : Option SchedulerCandidateView :=
  let (request, requestIndex) := entry
  (c.nextCommand request).map fun command =>
    let eligible := c.candidateEligible request command bus kind avoidActiveClose
    let timingReady := eligible && c.timingOk request command
    { requestIndex
      arrival := request.arrival
      command
      eligible := if timingReady then c.phyAdmissionOk command else eligible
      timingReady }

def pickBestReadyFrom (c : Controller β) (kind : RequestQueueKind) (bus : BusClass)
    (avoidActiveClose : Bool) : Option Candidate :=
  let views := (c.requestQueues.queue kind).zipIdx.filterMap
    (c.candidateView kind bus avoidActiveClose)
  (selectScheduledRequest c.options.scheduler views).map fun selected =>
    { index := selected.requestIndex, buffer := kind, command := selected.command, bus }

/-- Precharges at the head of the priority queue whose bank is closed already are done. -/
def dropSatisfied (spec : DramSpec) (policy : RowPolicyKind) (banks : Nat → BankState) :
    List Request → RowPolicyEngine → List Request × RowPolicyEngine
  | [], rowPolicy => ([], rowPolicy)
  | request :: rest, rowPolicy =>
    let flat := request.decoded.flatBank spec
    if request.next = .prepb ∧ (banks flat).busy = false then
      dropSatisfied spec policy banks rest (rowPolicy.onIssue policy flat .prepb)
    else (request :: rest, rowPolicy)

def retireSatisfied (c : Controller β) : Controller β :=
  let (priority, rowPolicy) := dropSatisfied c.spec c.options.rowPolicy c.banks
    (c.requestQueues.queue .priority) c.rowPolicy
  { c with requestQueues := c.requestQueues.put .priority priority, rowPolicy }

/-- The head of the priority queue, once the satisfied precharges are gone. -/
def pickPriority (c : Controller β) (bus : BusClass) : Option Candidate :=
  match c.requestQueues.queue .priority with
  | [] => none
  | request :: _ =>
    (c.nextCommand request).bind fun command =>
      if c.candidateEligible request command bus .priority true = true ∧
          c.timingOk request command = true ∧ c.phyAdmissionOk command = true then
        some { index := 0, buffer := .priority, command, bus }
      else none

def setWriteMode (c : Controller β) : Controller β :=
  let writes := (c.requestQueues.queue .write).length
  let noReads := c.requestQueues.queue .read = []
  let size := Binary64.ofCount c.options.writeBufferSize
  let high := c.options.writeHighWatermark * size
  let low := c.options.writeLowWatermark * size
  if c.writeMode = false then
    if high < Binary64.ofCount writes ∨ noReads then { c with writeMode := true } else c
  else if Binary64.ofCount writes < low ∧ ¬ noReads then { c with writeMode := false }
  else c

/-- Reads or writes, by the mode; draining writes yield to the reads they wait for. -/
def pickReadWrite (c : Controller β) (bus : BusClass) : Option Candidate :=
  if c.writeMode then
    match c.pickBestReadyFrom .write bus true with
    | some candidate => some candidate
    | none =>
      if (c.requestQueues.queue .write).any fun request =>
          c.hasUnresolvedOverlappingRead request request.controllerSequence then
        c.pickBestReadyFrom .read bus true
      else none
  else c.pickBestReadyFrom .read bus true

/-- The reads and writes, which only go when no maintenance is queued. -/
def chooseReadWrite (c : Controller β) (bus : BusClass) : Option Candidate × Controller β :=
  if c.requestQueues.queue .priority = [] then
    let c := c.setWriteMode
    (c.pickReadWrite bus, c)
  else (none, c)

def choosePriority (c : Controller β) (bus : BusClass) : Option Candidate × Controller β :=
  let c := c.retireSatisfied
  match c.pickPriority bus with
  | some candidate => (some candidate, c)
  | none => c.chooseReadWrite bus

/-- The requests that hold an open bank, on the buses that carry their commands. -/
def pickActive (c : Controller β) (bus : BusClass) : Option Candidate :=
  if bus = .row then none else c.pickBestReadyFrom .active bus false

/-- `choose`: an urgent activate, then the active requests, maintenance, and the queues. -/
def choose (c : Controller β) (bus : BusClass) :
    Except Exception (Option Candidate × Controller β) := do
  match ← c.pickUrgentAct2 bus with
  | some candidate => return (some candidate, c)
  | none =>
    match c.pickActive bus with
    | some candidate => return (some candidate, c)
    | none => return c.choosePriority bus

/-- `try_upgrade_row_policy_command`: at its cap a bank closes with the data command. -/
def upgraded (c : Controller β) (candidate : Candidate) : Candidate :=
  match (c.requestQueues.queue candidate.buffer)[candidate.index]? with
  | none => candidate
  | some request =>
    let upgrade : Command := if candidate.command = .rd then .rda else .wra
    if c.options.rowPolicy = .closedCap ∧
        (candidate.command = .rd ∨ candidate.command = .wr) ∧ request.type ≠ .maintenance ∧
        c.rowPolicy.shouldAutoPrecharge c.options.rowPolicy (request.decoded.flatBank c.spec) =
          true ∧
        c.busMatches request upgrade candidate.bus = true ∧ c.timingOk request upgrade = true then
      { candidate with command := upgrade }
    else candidate

/-! ### Issuing a command -/

/-- The row operation of the memory image that goes with a command. -/
def applyStorageCommandEvent (c : Controller β) (request : Request) (issued : Command) :
    Except Exception (MemoryImage β) := do
  let storage := c.storageDecodedFor request
  validateDecodedAddress c.memoryImage.spec storage
  match issued with
  | .act | .act2 => c.memoryImage.activateRow storage c.clk
  | .pre | .prepb | .refpb | .refdb | .rfmpb => c.memoryImage.prechargeBank storage c.clk
  | .preab | .refab | .rfmab | .srefen => c.memoryImage.prechargeAll storage c.clk
  | _ => .ok c.memoryImage

/-- The low-power and training flags after a command. -/
def applyPowerCommand (c : Controller β) (issued : Command) : Controller β :=
  match issued with
  | .dvfs =>
    if c.spec.lpddrRequiresWckRetrainAfterDvfs then { c with wckRetrainRequired := true } else c
  | .wcktrain => { c with wckRetrainRequired := false }
  | .pde => { c with explicitPowerDownActive := true, lowPowerActive := true }
  | .pdx => { c with
      explicitPowerDownActive := false
      explicitLowPowerExitPending :=
        if c.explicitLowPowerExitPending = some .pdx then none
        else c.explicitLowPowerExitPending
      lowPowerActive := c.explicitSelfRefreshActive }
  | .srefen => { c with
      automaticSelfRefreshRequest := none
      explicitSelfRefreshActive := true
      refreshManager := { c.refreshManager with selfRefreshActive := true }
      lowPowerActive := true }
  | .srefex => { c with
      explicitSelfRefreshActive := false
      refreshManager := { c.refreshManager with selfRefreshActive := false }
      lowPowerExitUntil := max c.lowPowerExitUntil
        (c.clk + timingDelay c.spec (max 1 c.spec.timing.nSREFEX))
      explicitLowPowerExitPending :=
        if c.explicitLowPowerExitPending = some .srefex then none
        else c.explicitLowPowerExitPending
      lowPowerActive := c.explicitPowerDownActive }
  | _ => c

/-- `on_row_policy_issue`, and the edge record of a row command on a rising edge. -/
def recordIssue (c : Controller β) (request : Request) (issued : Command) (bus : BusClass) :
    Controller β :=
  let c := { c with rowPolicy :=
    c.rowPolicy.onIssue c.options.rowPolicy (request.decoded.flatBank c.spec) issued }
  if c.spec.hbmEdgePairing = true ∧ bus = .row ∧ c.isRisingEdge = true then
    { c with risingEdge := {
        command := issued
        pseudoChannel := some request.decoded.pseudoChannel
        bankKey :=
          if (commandMeta issued).allBank then none else some (c.bankKey request.decoded)
        nextPairingFallingEdge := c.clk + if issued = .act then 3 else 1 } }
  else c

/-- The command's effects on the banks, the timing, the counters and its request, and the
mitigation it asks for. -/
def execute (c : Controller β) (candidate : Candidate) (request : Request) : Controller β :=
  let issued := candidate.command
  let (maintenance, rfmManager) := issueRfm c.spec request issued c.rfmManager
  let queue := c.requestQueues.queue candidate.buffer
  let c := { c with
    banks := issueBanks c.spec request issued c.clk c.banks
    timingEngine := issueTiming c.spec request issued c.clk c.timingEngine
    rfmManager
    requestQueues := c.requestQueues.put candidate.buffer
      (queue.set candidate.index (issueRequest c.spec request issued)) }
  match maintenance with
  | none => c
  | some maintenance => c.scheduleMaintenance maintenance.command maintenance.decoded

/-- The request of a data command with what its pending write has become. -/
def mergedRequest (c : Controller β) (request : Request) : Request :=
  if request.type = .write then
    match c.bufferedWrites.lookup request.address with
    | none => request
    | some state =>
      { request with
        payload := state.request.payload
        expectedPayload := state.request.expectedPayload
        byteMask := state.request.byteMask
        hasPayload := state.request.hasPayload
        hasExpectedPayload := state.request.hasExpectedPayload
        hasByteMask := state.request.hasByteMask }
  else request

/-- A write leaves the buffer with its data command. -/
def leaveBuffer (c : Controller β) (request : Request) : Controller β :=
  if request.type = .write then
    { c with
      bufferedWrites := c.bufferedWrites.erase request.address
      bufferedWriteAddrs := c.bufferedWriteAddrs.erase request.address }
  else c

/-- Without a PHY a write reaches the image as its command issues. -/
def commitIssued (c : Controller β) (request : Request) :
    Except Exception (Request × MemoryImage β) :=
  if request.type = .write ∧ c.memPhy.behavioral = false then c.commitWriteData request
  else .ok (request, c.memoryImage)

/-- The completion time of a data command, and the PHY that took its data. -/
def submitIssued (c : Controller β) (request : Request) (issued : Command) :
    Except Exception (Nat × MemPhy) :=
  if c.memPhy.behavioral then c.memPhy.submitData c.spec request issued c.clk
  else if issued = .rd ∨ issued = .rda then
    .ok (c.clk + timingDelay c.spec c.spec.timing.readLatency, c.memPhy)
  else .ok (c.clk + 1, c.memPhy)

/-- An auto precharge may finish after the data. -/
def autoPrechargeCompletion (c : Controller β) (issued : Command) (completion : Nat) : Nat :=
  match issued with
  | .rda => max completion (c.clk + timingDelay c.spec (max 0 c.spec.timing.nRTP))
  | .wra => max completion (c.clk + timingDelay c.spec (writeRecovery c.spec))
  | _ => completion

/-- A data command takes its request out of the queues and makes it pending. -/
def retireData (c : Controller β) (candidate : Candidate) (request : Request) :
    Except Exception (Controller β) := do
  let request := c.mergedRequest
    { request with issuedDataCommand := candidate.command, issuedCycle := c.clk }
  let c := c.leaveBuffer request
  let (request, memoryImage) ← c.commitIssued request
  let (completion, memPhy) ← c.submitIssued request candidate.command
  let request := { request with
    completion := c.autoPrechargeCompletion candidate.command completion }
  let requestQueues ← c.requestQueues.erase candidate.buffer candidate.index c.spec
  return { c with
    memoryImage, memPhy, requestQueues
    pending := c.pending ++ [request] }

/-- `retire_or_advance`. -/
def retireOrAdvance (c : Controller β) (candidate : Candidate) :
    Except Exception (Controller β) :=
  match (c.requestQueues.queue candidate.buffer)[candidate.index]? with
  | none => .ok c
  | some request =>
    if request.type = .maintenance ∧ candidate.command = request.next then do
      let requestQueues ← c.requestQueues.erase candidate.buffer candidate.index c.spec
      return { c with
        requestQueues
        stats := { c.stats with maintenanceServed := c.stats.maintenanceServed + 1 } }
    else if (commandMeta candidate.command).opening = true ∧ request.type ≠ .maintenance ∧
        candidate.buffer ≠ .active then
      .ok { c with
        requestQueues := c.requestQueues.promote candidate.buffer candidate.index c.spec }
    else if (commandMeta candidate.command).data = false then .ok c
    else c.retireData candidate request

/-- `append_issued`. -/
def issuedRecord (c : Controller β) (request : Request) (candidate : Candidate) :
    IssuedCommand where
  cycle := c.clk
  requestId := request.id
  command := candidate.command
  bus := candidate.bus
  decoded := request.decoded
  stackId := max 0 request.targetStack
  systemAddress := if request.hasSystemAddress then request.systemAddress else request.address
  address := request.address

/-- Everything a command changes before its request moves on. -/
def issueEffects (c : Controller β) (candidate : Candidate) (request : Request) (memPhy : MemPhy)
    (memoryImage : MemoryImage β) : Controller β :=
  let executed := { c with memPhy, memoryImage }.execute candidate request
  (executed.applyPowerCommand candidate.command).recordIssue request candidate.command
    candidate.bus

/-- `issue`: a candidate that is gone issues nothing. -/
def issue (c : Controller β) (candidate : Candidate) :
    Except Exception (List IssuedCommand × Controller β) :=
  match (c.requestQueues.queue candidate.buffer)[candidate.index]? with
  | none => .ok ([], c)
  | some request => do
    let memPhy ← c.memPhy.acceptCommand c.spec candidate.command c.clk
    let memoryImage ← c.applyStorageCommandEvent request candidate.command
    let after ← (c.issueEffects candidate request memPhy memoryImage).retireOrAdvance candidate
    return ([c.issuedRecord request candidate], after)

/-- One turn of a bus. -/
def turn (c : Controller β) (bus : BusClass) :
    Except Exception (List IssuedCommand × Controller β) := do
  let (candidate, c) ← c.choose bus
  match candidate with
  | none => return ([], c)
  | some candidate => c.issue (c.upgraded candidate)

/-! ### Housekeeping of a tick -/

/-- Queued work ends an explicit self refresh. -/
def wakeFromSelfRefresh (c : Controller β) : Controller β :=
  let needsWakeup (request : Request) : Bool :=
    decide (request.next ≠ .srefex ∧ request.next ≠ .srefen)
  if c.explicitSelfRefreshActive = true ∧ c.explicitLowPowerExitPending = none ∧
      (c.requestQueues.queue .read ≠ [] ∨ c.requestQueues.queue .write ≠ [] ∨
        c.requestQueues.queue .active ≠ [] ∨
        (c.requestQueues.queue .priority).any needsWakeup = true ∨
        c.pendingMaintenance.any needsWakeup = true) then
    { c.scheduleMaintenance .srefex {} with explicitLowPowerExitPending := some .srefex }
  else c

def scheduleRefresh (c : Controller β) : Controller β :=
  let ordinaryWork := decide (c.requestQueues.queue .active ≠ [] ∨
    c.requestQueues.queue .read ≠ [] ∨ c.requestQueues.queue .write ≠ [])
  let allowPullIn := !ordinaryWork && decide (c.requestQueues.queue .priority = [] ∧
    c.pendingMaintenance = [] ∧ c.pending = [])
  let (result, refreshManager) := c.refreshManager.tick c.spec c.clk ordinaryWork allowPullIn
  result.commands.foldl
    (fun c command => c.scheduleMaintenance command.command command.decoded)
    { c with refreshManager }

/-- Bring the first self-refresh exit of a queue to its front. -/
def rotateExit (requests : List Request) : List Request :=
  let isExit (request : Request) : Bool := decide (request.next = .srefex)
  match requests.find? isExit with
  | none => requests
  | some exit => exit :: requests.eraseP isExit

/-- Move waiting maintenance into the priority queue while there is space. -/
def fillPriority : List Request → RequestQueues → List Request × RequestQueues
  | [], queues => ([], queues)
  | request :: rest, queues =>
    if queues.hasSpace .priority then
      fillPriority rest (if request.next = .srefex then queues.pushFront .priority request
        else queues.pushBack .priority request)
    else (request :: rest, queues)

/-- In self refresh the exit goes first, in both queues; a full priority queue gives up its last
request for it. -/
def favourExit (c : Controller β) : Controller β :=
  if c.explicitSelfRefreshActive = false then c
  else
    let waiting := rotateExit c.pendingMaintenance
    let priority := rotateExit (c.requestQueues.queue .priority)
    let c := { c with
      pendingMaintenance := waiting
      requestQueues := c.requestQueues.put .priority priority }
    match waiting, priority.getLast? with
    | exit :: rest, some last =>
      if exit.next = .srefex ∧ c.requestQueues.hasSpace .priority = false then
        { c with
          pendingMaintenance := last :: rest
          requestQueues := c.requestQueues.put .priority (exit :: priority.dropLast) }
      else c
    | _, _ => c

/-- `service_pending_maintenance`. -/
def servicePendingMaintenance (c : Controller β) : Controller β :=
  let c := c.favourExit
  let (pendingMaintenance, requestQueues) := fillPriority c.pendingMaintenance c.requestQueues
  { c with pendingMaintenance, requestQueues }

/-- `decoded_from_flat_bank`. -/
def decodedFromFlatBank (spec : DramSpec) (flatBank : Nat) : DecodedAddress :=
  let (bank, rest) := takeMod flatBank spec.org.banksPerGroup
  let (bankGroup, rest) := takeMod rest spec.org.bankGroups
  let (rank, rest) := takeMod rest spec.org.ranks
  let (sid, rest) := takeMod rest spec.org.sids
  let (pseudoChannel, channel) := takeMod rest spec.org.pseudoChannels
  { channel, pseudoChannel, sid, rank, bankGroup, bank }

/-- Queue the precharge of one bank at its cap, if it could issue now. -/
def schedulePrecharge (c : Controller β) (flat : Nat) : Controller β :=
  if c.rowPolicy.shouldSchedulePrecharge c.options.rowPolicy flat
      (c.requestQueues.activeCounts flat) = false then c
  else
    let request : Request := {
      id := c.nextMaintenanceId
      type := .maintenance
      next := .prepb
      decoded := decodedFromFlatBank c.spec flat
      injectCycle := c.clk
      arrival := c.clk }
    let c := { c with nextMaintenanceId := c.nextMaintenanceId + 1 }
    if c.timingOk request .prepb = false ∨ c.requestQueues.hasSpace .priority = false then c
    else
      { c with
        requestQueues := c.requestQueues.pushBack .priority request
        rowPolicy := c.rowPolicy.markPrechargePending flat
        stats := { c.stats with maintenanceRequests := c.stats.maintenanceRequests + 1 } }

def applyRowPolicyPreSchedule (c : Controller β) : Controller β :=
  if c.options.rowPolicy ≠ .closedCap then c
  else (List.range c.rowPolicy.bankCount).foldl schedulePrecharge c

/-- Everything between the completions and the turns of a tick. -/
def upkeep (c : Controller β) : Controller β :=
  let c := { c with timingEngine := c.timingEngine.pruneRecentActs c.spec c.clk }
  c.wakeFromSelfRefresh.scheduleRefresh.servicePendingMaintenance.applyRowPolicyPreSchedule

/-- An idle channel enters its low-power mode after a while. -/
def enterLowPower (c : Controller β) : Controller β :=
  if c.spec.lowPowerMode = .selfRefresh then
    if c.anyBankBusyInChannel {} then c
    else { c with automaticSelfRefreshRequest := some c.nextMaintenanceId }.scheduleMaintenance
      .srefen {}
  else { c with lowPowerActive := true }

def idleLowPower (c : Controller β) : Controller β :=
  if c.spec.lowPowerMode = .off then c
  else if c.done = false then { c with lowPowerIdleSince := 0 }
  else
    let c := if c.lowPowerIdleSince = 0 then { c with lowPowerIdleSince := c.clk } else c
    if c.lowPowerActive = false ∧
        timingDelay c.spec (max 0 c.spec.lowPowerEntryCycles) ≤ c.clk - c.lowPowerIdleSince then
      c.enterLowPower
    else c

/-! ### The tick -/

/-- The buses that get a turn in this tick, in order. -/
def busesOf (c : Controller β) : List BusClass :=
  if c.spec.dualCommandBus = false then [.unified]
  else if c.spec.hbmEdgePairing = false ∨ c.isRisingEdge = true then [.column, .row]
  else [.row]

def runTurns : List BusClass → Controller β →
    Except Exception (List IssuedCommand × Controller β)
  | [], c => .ok ([], c)
  | bus :: rest, c => do
    let (issued, c) ← c.turn bus
    let (others, c) ← runTurns rest c
    return (issued ++ others, c)

/-- The tick up to its turns: the clock, the PHY and the completions. -/
def beginTick (c : Controller β) : Except Exception (Controller β) := do
  let c := { c with clk := c.clk + 1 }
  let (memPhy, memoryImage) ← c.memPhy.tick c.spec c.memoryImage c.clk
  { c with memPhy, memoryImage }.completePending

/-- `tick`, with the commands it issued. A low-power exit under way holds everything back but the
completions. -/
def tick (c : Controller β) : Except Exception (List IssuedCommand × Controller β) := do
  let c ← c.beginTick
  if c.clk < c.lowPowerExitUntil then return ([], c)
  else
    let c := c.upkeep
    let (issued, c) ← runTurns c.busesOf c
    return (issued, c.idleLowPower)

/-- `flush_storage`. -/
def flushStorage (c : Controller β) : Except Exception (Controller β) := do
  return { c with memoryImage := ← c.memoryImage.flushDirtyRowBuffers c.clk }

/-- `pop_response`. -/
def popResponse (c : Controller β) : Except Exception (TransactionResponse × Controller β) :=
  match c.responses with
  | [] => .error (logicError "Controller response queue is empty")
  | response :: rest => .ok (response, { c with responses := rest })

end Controller

end HbmSim
