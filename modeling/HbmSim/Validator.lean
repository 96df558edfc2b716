/-
The offline check of a command trace: it replays the trace on a protocol state
of its own and reports every command that breaks a rule.

The loop body of the source is split by the part of the replay state it reads
and writes, so the checks and the replay of one part stand together. The counts
of performed checks are left out. Cycles are added as 64-bit words here, since a
trace may hold any cycle.
-/

import HbmSim.ControllerTick

namespace HbmSim

/-! ### Texts -/

/-- `to_string(Command)`. -/
def Command.text : Command → String
  | .act => "ACT"
  | .act1 => "ACT1"
  | .act2 => "ACT2"
  | .pre => "PRE"
  | .prepb => "PREpb"
  | .preab => "PREab"
  | .casrd => "CAS_RD"
  | .caswr => "CAS_WR"
  | .rd => "RD"
  | .wr => "WR"
  | .rda => "RDA"
  | .wra => "WRA"
  | .refab => "REFab"
  | .refpb => "REFpb"
  | .refdb => "REFdb"
  | .rfmab => "RFMab"
  | .rfmpb => "RFMpb"
  | .mrw => "MRW"
  | .mrr => "MRR"
  | .wcksync => "WCK_SYNC"
  | .wcktrain => "WCK_TRAIN"
  | .dvfs => "DVFS"
  | .pde => "PDE"
  | .pdx => "PDX"
  | .srefen => "SREFEN"
  | .srefex => "SREFEX"
  | .eccscrub => "ECC_SCRUB"
  | .raserr => "RAS_ERR"
  | .nop => "NOP"

namespace Validator

def maxValidationErrors : Nat := 64

/-- The requirements that do not hold, by their messages. -/
def failures (requirements : List (Bool × String)) : List String :=
  (requirements.filter fun requirement => !requirement.1).map (·.2)

/-! ### The replay state -/

structure ScopeState where
  nextCommand : Command → Nat := fun _ => 0
  recentActs : List Nat := []
  wckReadyAt : Nat := 0
  wckActiveUntil : Nat := 0
  powerDown : Bool := false
  selfRefresh : Bool := false
  wckRetrainRequired : Bool := false

/-- The source writes no row as -1. -/
structure BankState where
  openRow : Option Nat := none
  activating : Bool := false
  activatingRow : Option Nat := none
  activatingRequest : Nat := 0
  nextAct2 : Nat := 0
  act2Deadline : Nat := 0
  deriving DecidableEq, Repr

namespace BankState

def busy (bank : BankState) : Bool := bank.activating || bank.openRow.isSome

def openedRow (bank : BankState) (row : Nat) : Bool :=
  !bank.activating && decide (bank.openRow = some row)

end BankState

structure HbmPairingState where
  command : Command := .nop
  pseudoChannel : Option Nat := none
  bankKey : Option Nat := none
  nextPairingFallingEdge : Nat := 0
  deriving DecidableEq, Repr

/-- The sweep of the dual-bank refresh over a rank. -/
structure RefreshState where
  bankCount : Nat := 0
  next : Nat := 0
  refreshedBanks : List Nat := []
  deriving DecidableEq, Repr

structure State where
  bankStates : Nat → BankState := fun _ => {}
  constraintScopes : TimingScope → Nat → ScopeState := fun _ _ => {}
  activationScopes : Nat → ScopeState := fun _ => {}
  wckScopes : Nat → ScopeState := fun _ => {}
  channelStates : Nat → ScopeState := fun _ => {}
  hbmPairingStates : Nat → HbmPairingState := fun _ => {}
  refreshStates : Nat → RefreshState := fun _ => {}

section Commands

variable (spec : DramSpec) (issued : IssuedCommand)

/-- `decoded_in_range`. Coordinates are natural numbers. -/
def decodedInRange : Bool :=
  let { channel, pseudoChannel, sid, rank, bankGroup, bank, row, column } := issued.decoded
  decide (0 ≤ issued.stackId ∧ channel < spec.org.channels ∧
    pseudoChannel < spec.org.pseudoChannels ∧ sid < spec.org.sids ∧ rank < spec.org.ranks ∧
    bankGroup < spec.org.bankGroups ∧ bank < spec.org.banksPerGroup ∧ row < spec.org.rows ∧
    column < spec.org.columns)

/-! ### The dual-bank refresh -/

/-- The two banks of a REFdb, inserted one after the other. -/
def insertBanks : List Nat → List Nat → List String × List Nat
  | [], refreshed => ([], refreshed)
  | bank :: rest, refreshed =>
    let repeats := if bank ∈ refreshed then
        ["REFdb repeats a bank before completing the refresh-row sweep"] else []
    let (errors, refreshed) :=
      insertBanks rest (if bank ∈ refreshed then refreshed else bank :: refreshed)
    (repeats ++ errors, refreshed)

def refdbBanks : List Nat :=
  [issued.decoded.bankGroup, (lpddrRefdbPartner spec issued.decoded).bankGroup].map
    fun bankGroup => bankGroup * spec.org.banksPerGroup + issued.decoded.bank

def checkRefresh (refresh : RefreshState) : List String :=
  if spec.lpddrDualBankRefresh = true ∧ issued.command = .refdb then
    failures [(decide (refresh.next ≤ issued.cycle),
      "violates REFdb refresh-counter S/L interval")] ++
      (insertBanks (refdbBanks spec issued) refresh.refreshedBanks).1
  else []

def replayRefdb (refresh : RefreshState) : RefreshState :=
  let timing := spec.timing
  let pairsPerRow := spec.org.bankGroups * spec.org.banksPerGroup / 2
  let nextRow := decide (refresh.bankCount + 1 = pairsPerRow)
  let shortGap := if 0 < timing.nREFDB2REFDBS then timing.nREFDB2REFDBS else timing.nRRDL
  let gap := if nextRow = true ∧ 0 < timing.nREFDB2REFDBL then timing.nREFDB2REFDBL else shortGap
  { bankCount := if nextRow then 0 else refresh.bankCount + 1
    next := laterCycle issued.cycle (timingDelay spec gap)
    refreshedBanks :=
      if nextRow then [] else (insertBanks (refdbBanks spec issued) refresh.refreshedBanks).2 }

def replayRefresh (refreshes : Nat → RefreshState) : Nat → RefreshState :=
  let rank := scopeIndex spec .rank issued.decoded
  if spec.lpddrDualBankRefresh = false then refreshes
  else
    match issued.command with
    | .refdb => Function.update refreshes rank (replayRefdb spec issued (refreshes rank))
    | .refab => Function.update refreshes rank
        { next := laterCycle issued.cycle (timingDelay spec spec.timing.nRFC) }
    | .srefex =>
      let ranksPerChannel := spec.org.pseudoChannels * spec.org.sids * spec.org.ranks
      let first := issued.decoded.channel * ranksPerChannel
      fun index => if first ≤ index ∧ index < first + ranksPerChannel then {} else refreshes index
    | _ => refreshes

/-! ### Buses and edges -/

def checkBus : List String :=
  let row := commandMeta issued.command
  if spec.dualCommandBus then
    failures [(!(decide (issued.bus = .row) && !row.rowCommand),
        "non-row command issued on row bus"),
      (!(decide (issued.bus = .column) && !row.columnCommand),
        "non-column command issued on column bus"),
      (decide (issued.bus ≠ .unified), "HBM dual-command mode issued command on unified bus")]
  else []

def isFallingEdgePre (command : Command) : Bool := decide (command = .prepb ∨ command = .preab)

def hbmBankKey (decoded : DecodedAddress) : Nat :=
  (decoded.sid * max 1 spec.org.bankGroups + decoded.bankGroup) * max 1 spec.org.banksPerGroup +
    decoded.bank

/-- `validate_hbm_edge_pairing_matrix`. -/
def checkPairing (pairing : HbmPairingState) : List String :=
  if spec.hbmStrictEdgePairing = false ∨ isFallingEdgePre issued.command = false then []
  else if issued.cycle ≠ pairing.nextPairingFallingEdge ∨
      some issued.decoded.pseudoChannel ≠ pairing.pseudoChannel then []
  else
    failures [(!(commandMeta pairing.command).allBank && (decide (issued.command = .prepb) &&
        decide (some (hbmBankKey spec issued.decoded) ≠ pairing.bankKey)),
      "violates HBM edge pairing matrix")]

def checkEdges (pairing : HbmPairingState) : List String :=
  if spec.hbmEdgePairing then
    if issued.cycle % 2 = 0 then
      failures [(!(commandMeta issued.command).columnCommand,
          "column command issued on falling edge"),
        (isFallingEdgePre issued.command, "falling-edge command is not PREpb/PREab")] ++
        checkPairing spec issued pairing
    else []
  else []

def replayPairing (pairings : Nat → HbmPairingState) : Nat → HbmPairingState :=
  if spec.hbmEdgePairing = true ∧ issued.cycle % 2 ≠ 0 ∧ issued.bus = .row ∧
      (commandMeta issued.command).rowCommand = true then
    Function.update pairings (scopeIndex spec .channel issued.decoded)
      { command := issued.command
        pseudoChannel := some issued.decoded.pseudoChannel
        bankKey := if (commandMeta issued.command).allBank then none
          else some (hbmBankKey spec issued.decoded)
        nextPairingFallingEdge :=
          laterCycle issued.cycle (if issued.command = .act then 3 else 1) }
  else pairings

/-! ### Banks and channels -/

/-- `channel_bank_range`. -/
def channelBankRange (decoded : DecodedAddress) : Nat × Nat :=
  let banksPerChannel := max 1 (spec.org.pseudoChannels * spec.org.sids * spec.org.ranks *
    spec.org.bankGroups * spec.org.banksPerGroup)
  let first := clampCoordinate decoded.channel spec.org.channels * banksPerChannel
  (first, min (scopeCount spec .bank) (first + banksPerChannel))

/-- `rank_bank_range`. -/
def rankBankRange (decoded : DecodedAddress) : Nat × Nat :=
  let banksPerRank := max 1 (spec.org.bankGroups * spec.org.banksPerGroup)
  let first := scopeIndex spec .rank decoded * banksPerRank
  (first, min (scopeCount spec .bank) (first + banksPerRank))

def anyBank (range : Nat × Nat) (banks : Nat → BankState) (select : BankState → Bool) : Bool :=
  (List.range (range.2 - range.1)).any fun offset => select (banks (range.1 + offset))

def anyBankBusyInChannel (banks : Nat → BankState) : Bool :=
  anyBank (channelBankRange spec issued.decoded) banks BankState.busy

def anyBankBusyInRank (banks : Nat → BankState) : Bool :=
  anyBank (rankBankRange spec issued.decoded) banks BankState.busy

def anyBankActivatingInRank (banks : Nat → BankState) : Bool :=
  anyBank (rankBankRange spec issued.decoded) banks BankState.activating

/-- What a command requires of the banks and of its channel. -/
def stateRequirements (banks : Nat → BankState) (channel : ScopeState) : List (Bool × String) :=
  let bank := banks (scopeIndex spec .bank issued.decoded)
  let partner := banks (scopeIndex spec .bank (lpddrRefdbPartner spec issued.decoded))
  let row := issued.decoded.row
  let idle := !anyBankBusyInChannel spec issued banks
  let awake := !channel.powerDown && !channel.selfRefresh
  match issued.command with
  | .act => [(!spec.splitActivate, "ACT is illegal for split-activate standards"),
      (!bank.busy, "ACT requires a closed target bank")]
  | .act1 => [(spec.splitActivate, "ACT1 is illegal for non split-activate standards"),
      (!bank.busy, "ACT1 requires a closed target bank"),
      (!anyBankActivatingInRank spec issued banks,
        "ACT1 requires the previous ACT1 in this rank to complete ACT2")]
  | .act2 => [(spec.splitActivate, "ACT2 is illegal for non split-activate standards"),
      (bank.activating, "ACT2 requires an activating target bank"),
      (decide (bank.activatingRequest = issued.requestId),
        "ACT2 must belong to the request that issued ACT1"),
      (decide (bank.activatingRow = some row), "ACT2 row does not match the row selected by ACT1"),
      (decide (bank.nextAct2 ≤ issued.cycle), "ACT2 issued before nAADMin earliest cycle"),
      (decide (issued.cycle ≤ bank.act2Deadline), "ACT2 issued after nAADMax deadline")]
  | .pre | .prepb => [(!bank.activating && bank.openRow.isSome,
      "PREpb requires an opened, non-activating target bank")]
  | .preab => [(anyBankBusyInRank spec issued banks,
      "PREab requires at least one busy bank in its target rank")]
  | .casrd | .caswr => [(spec.lpddrFamily,
        "CAS_RD/CAS_WR are only legal for LPDDR-family standards"),
      (bank.openedRow row, "CAS_RD/CAS_WR require an opened target row"),
      (!channel.wckRetrainRequired, "CAS_RD/CAS_WR require WCK_TRAIN after DVFS")]
  | .rd | .wr => [(bank.openedRow row, "RD/WR require an opened target row"),
      (!channel.wckRetrainRequired, "RD/WR require WCK_TRAIN after DVFS")]
  | .rda | .wra => [(bank.openedRow row, "RDA/WRA require an opened target row"),
      (!channel.wckRetrainRequired, "RDA/WRA require WCK_TRAIN after DVFS")]
  | .refpb | .rfmpb => [(!bank.busy, "per-bank REF/RFM requires a closed target bank")]
  | .refdb => [(spec.lpddrDualBankRefresh, "REFdb requires LPDDR dual-bank refresh support"),
      (!bank.busy, "REFdb requires the target bank to be closed"),
      (!partner.busy, "REFdb requires the paired bank to be closed")]
  | .refab | .rfmab => [(!anyBankBusyInRank spec issued banks,
      "all-bank REF/RFM requires all banks in the target rank to be idle")]
  | .mrw | .mrr => [(idle, "MRW/MRR require all banks in the channel to be idle"),
      (awake, "MRW/MRR cannot be issued while the channel is in low power state")]
  | .wcksync => [(spec.lpddrFamily, "WCK_SYNC requires LPDDR-family standard"),
      (!channel.selfRefresh, "WCK_SYNC cannot be issued in self-refresh"),
      (!channel.wckRetrainRequired, "WCK_SYNC cannot replace required WCK_TRAIN after DVFS")]
  | .wcktrain => [(spec.lpddrFamily, "WCK_TRAIN requires LPDDR-family standard"),
      (idle, "WCK_TRAIN requires all banks in the channel to be idle"),
      (awake, "WCK_TRAIN cannot be issued while the channel is in low power state")]
  | .dvfs => [(spec.lpddrFamily, "DVFS transition requires LPDDR-family standard"),
      (idle, "DVFS transition requires all banks in the channel to be idle")]
  | .pde => [(idle, "PDE requires all banks in the channel to be idle"),
      (awake, "PDE requires active state")]
  | .pdx => [(channel.powerDown, "PDX requires power-down state")]
  | .srefen => [(idle, "SREFEN requires all banks in the channel to be idle"),
      (!channel.selfRefresh, "SREFEN requires active state")]
  | .srefex => [(channel.selfRefresh, "SREFEX requires self-refresh state")]
  | .eccscrub => [(spec.supportsEcc || spec.lpddrLinkEccEnabled,
        "ECC_SCRUB requires ECC/link-ECC support"),
      (idle, "ECC_SCRUB requires all banks in the channel to be idle")]
  | .raserr => [(spec.supportsEcc || spec.lpddrLinkEccEnabled || spec.hbmLinkRetryEnabled ||
      spec.lpddrLinkProtection, "RAS_ERR requires RAS/ECC/link retry support")]
  | .nop => [(false, "NOP should not appear in issued command trace")]

def checkState (banks : Nat → BankState) (channel : ScopeState) : List String :=
  failures ((!channel.selfRefresh || decide (issued.command = .srefex),
    "self-refresh requires SREFEX before other commands") ::
      stateRequirements spec issued banks channel)

/-- What a command does to the bank of its address. -/
def replayTarget (bank : BankState) : BankState :=
  let row := issued.decoded.row
  match issued.command with
  | .act => { bank with
      openRow := some row, activating := false, activatingRow := none, activatingRequest := 0 }
  | .act1 => { bank with
      openRow := none
      activating := true
      activatingRow := some row
      activatingRequest := issued.requestId
      nextAct2 := laterCycle issued.cycle (timingDelay spec (max 1 spec.timing.nAADMin))
      act2Deadline := laterCycle issued.cycle
        (timingDelay spec (max spec.timing.nAADMin spec.timing.nAADMax)) }
  | .act2 => { bank with
      activating := false
      openRow := some row
      activatingRow := none
      activatingRequest := 0
      nextAct2 := 0
      act2Deadline := 0 }
  | .pre | .prepb => { bank with
      openRow := none, activating := false, activatingRow := none, activatingRequest := 0 }
  | .rda | .wra => { bank with openRow := none }
  | _ => bank

def replayBanks (banks : Nat → BankState) : Nat → BankState :=
  if issued.command = .preab then
    let (first, last) := rankBankRange spec issued.decoded
    fun index =>
      if first ≤ index ∧ index < last then { banks index with
        openRow := none, activating := false, activatingRow := none, activatingRequest := 0 }
      else banks index
  else
    let index := scopeIndex spec .bank issued.decoded
    Function.update banks index (replayTarget spec issued (banks index))

def replayChannel (channel : ScopeState) : ScopeState :=
  match issued.command with
  | .wcktrain => { channel with wckRetrainRequired := false }
  | .dvfs =>
    if spec.lpddrRequiresWckRetrainAfterDvfs then { channel with wckRetrainRequired := true }
    else channel
  | .pde => { channel with powerDown := true }
  | .pdx => { channel with powerDown := false }
  | .srefen => { channel with selfRefresh := true }
  | .srefex => { channel with selfRefresh := false }
  | _ => channel

/-! ### The constraint table -/

def scopeStateFor (scopes : TimingScope → Nat → ScopeState) (scope : TimingScope)
    (decoded : DecodedAddress) : ScopeState := scopes scope (scopeIndex spec scope decoded)

/-- A REFdb of a device with dual-bank refresh, at the bank level, stands for both its banks. -/
def dualBank (constraint : TimingConstraint) : Bool :=
  decide (issued.command = .refdb) && spec.lpddrDualBankRefresh &&
    decide (constraint.scope = .bank)

def checkTable (scopes : TimingScope → Nat → ScopeState) : List String :=
  spec.timingConstraints.flatMap fun constraint =>
    if 0 < constraint.window ∨ issued.command ∉ constraint.following then []
    else
      let ready := (scopeStateFor spec scopes constraint.scope issued.decoded).nextCommand
        issued.command
      let ready := if dualBank spec issued constraint then
          max ready ((scopeStateFor spec scopes .bank
            (lpddrRefdbPartner spec issued.decoded)).nextCommand issued.command)
        else ready
      failures [(decide (ready ≤ issued.cycle),
        "violates table timing constraint before cycle " ++ toString ready)]

/-- Raise the ready times of the commands that follow. -/
def holdBack (constraint : TimingConstraint) (ready : Nat) (state : ScopeState) : ScopeState :=
  { state with
    nextCommand := fun command =>
      if command ∈ constraint.following then max (state.nextCommand command) ready
      else state.nextCommand command }

/-- Change the buckets of one scope that are selected. -/
def updateScopes (scope : TimingScope) (select : Nat → Bool) (change : ScopeState → ScopeState)
    (scopes : TimingScope → Nat → ScopeState) : TimingScope → Nat → ScopeState :=
  Function.update scopes scope fun index =>
    if select index then change (scopes scope index) else scopes scope index

def replayConstraint (scopes : TimingScope → Nat → ScopeState) (constraint : TimingConstraint) :
    TimingScope → Nat → ScopeState :=
  if 0 < constraint.window ∨ issued.command ∉ constraint.preceding then scopes
  else
    let change := holdBack constraint
      (laterCycle issued.cycle (timingDelay spec (max 0 constraint.latency)))
    let current := scopeIndex spec constraint.scope issued.decoded
    if constraint.sibling = false then
      let scopes := updateScopes constraint.scope (fun index => decide (index = current)) change
        scopes
      if dualBank spec issued constraint then
        let partner := scopeIndex spec .bank (lpddrRefdbPartner spec issued.decoded)
        updateScopes .bank (fun index => decide (index = partner)) change scopes
      else scopes
    else
      let (first, last) := siblingRange spec constraint.scope issued.decoded
      updateScopes constraint.scope
        (fun index => decide (first ≤ index ∧ index < last ∧ index ≠ current)) change scopes

def replayTable (scopes : TimingScope → Nat → ScopeState) : TimingScope → Nat → ScopeState :=
  spec.timingConstraints.foldl (replayConstraint spec issued) scopes

/-! ### The activation window -/

def isFawEvent (command : Command) : Bool :=
  decide (command = .act ∨ command = .act1 ∨ command = .refpb ∨ command = .refdb)

/-- The activates still in the window. -/
def recentActs (scope : ScopeState) : List Nat :=
  scope.recentActs.dropWhile fun act => decide (act ≤ issued.cycle ∧
    timingDelay spec (max 1 spec.timing.nFAW) ≤ issued.cycle - act)

def checkFaw (scope : ScopeState) : List String :=
  if isFawEvent issued.command then
    failures [(decide ((recentActs spec issued scope).length < 4),
      "violates tFAW activation window")]
  else []

def replayFaw (scopes : Nat → ScopeState) : Nat → ScopeState :=
  if isFawEvent issued.command then
    let index := scopeIndex spec spec.activationScope issued.decoded
    Function.update scopes index { scopes index with
      recentActs := recentActs spec issued (scopes index) ++ [issued.cycle] }
  else scopes

/-! ### The data clock -/

def checksWck : Bool := spec.lpddrFamily && decide (spec.lpddrWckMode ≠ .alwaysOn)

def isDataCommand (command : Command) : Bool := (commandMeta command).data

def checkWck (wck : ScopeState) : List String :=
  if checksWck spec = true ∧ isDataCommand issued.command = true then
    failures [(decide (wck.wckReadyAt ≤ issued.cycle ∧ issued.cycle < wck.wckActiveUntil),
      "LPDDR data command outside WCK ready window")]
  else []

def replayWckState (wck : ScopeState) : ScopeState :=
  let timing := spec.timing
  let after (cycles : Int) := laterCycle issued.cycle (timingDelay spec cycles)
  let synchronized (latency : Int) := { wck with
    wckReadyAt := after (max 1 latency)
    wckActiveUntil := after (max timing.nWCKPST (latency + 1)) }
  let accessed (latency : Int) := { wck with
    wckActiveUntil := max wck.wckActiveUntil (after (latency + timing.nBL + timing.nWCKPST)) }
  match issued.command with
  | .casrd | .caswr => synchronized timing.nWCK2CK
  | .wcksync => synchronized timing.nWCKSYNC
  | .wcktrain =>
    let ready := after (max 1 timing.nWCKTRAIN)
    { wck with
      wckReadyAt := ready
      wckActiveUntil := laterCycle ready (timingDelay spec (max 1 timing.nWCKPST)) }
  | .rd | .rda => accessed timing.nCL
  | .wr | .wra => accessed timing.nCWL
  | _ => wck

def replayWck (scopes : Nat → ScopeState) : Nat → ScopeState :=
  if checksWck spec then
    let index := scopeIndex spec spec.wckScope issued.decoded
    Function.update scopes index (replayWckState spec issued (scopes index))
  else scopes

/-! ### One command -/

/-- The errors of a command inside the geometry, in the order of the checks. -/
def checkCommand (state : State) : List String :=
  checkRefresh spec issued (state.refreshStates (scopeIndex spec .rank issued.decoded)) ++
    checkBus spec issued ++
    checkEdges spec issued (state.hbmPairingStates (scopeIndex spec .channel issued.decoded)) ++
    checkState spec issued state.bankStates
      (state.channelStates (scopeIndex spec .channel issued.decoded)) ++
    checkTable spec issued state.constraintScopes ++
    checkFaw spec issued
      (state.activationScopes (scopeIndex spec spec.activationScope issued.decoded)) ++
    checkWck spec issued (state.wckScopes (scopeIndex spec spec.wckScope issued.decoded))

def replayCommand (state : State) : State :=
  let channel := scopeIndex spec .channel issued.decoded
  { bankStates := replayBanks spec issued state.bankStates
    constraintScopes := replayTable spec issued state.constraintScopes
    activationScopes := replayFaw spec issued state.activationScopes
    wckScopes := replayWck spec issued state.wckScopes
    channelStates := Function.update state.channelStates channel
      (replayChannel spec issued (state.channelStates channel))
    hbmPairingStates := replayPairing spec issued state.hbmPairingStates
    refreshStates := replayRefresh spec issued state.refreshStates }

/-- A command outside the geometry is reported and not replayed. -/
def step (state : State) : List String × State :=
  if decodedInRange spec issued then (checkCommand spec issued state, replayCommand spec issued state)
  else (["contains an out-of-range stack or DRAM coordinate"], state)

/-- `add_error`: the text of an error. -/
def errorText (message : String) : String :=
  "cycle " ++ toString issued.cycle ++ " request " ++ toString issued.requestId ++ " " ++
    issued.command.text ++ ": " ++ message

end Commands

/-! ### A trace -/

/-- The replay of a trace: its errors, and the state at its end. -/
def replay (spec : DramSpec) (trace : List IssuedCommand) : List String × State :=
  trace.foldl
    (fun (result : List String × State) issued =>
      let (found, state) := step spec issued result.2
      ((result.1 ++ found.map (errorText issued)).take maxValidationErrors, state))
    ([], {})

/-- `validate_single_stack_trace`. -/
def validateSingleStackTrace (spec : DramSpec) (trace : List IssuedCommand) : List String :=
  let (errors, state) := replay spec trace
  let errors :=
    if (List.range (scopeCount spec .bank)).any fun index => (state.bankStates index).activating then
      errors ++ ["trace ended with ACT1 still waiting for mandatory ACT2"]
    else errors
  if errors.length = maxValidationErrors then
    errors ++ ["validation stopped after too many errors"]
  else errors

/-- `validate_command_trace`: the errors of the stacks, in the order of their first commands. -/
def validateCommandTrace (spec : DramSpec) (trace : List IssuedCommand) :
    Except Exception (List String) := do
  validateSpec spec
  let stackIds := (trace.map (·.stackId)).eraseDups
  let stackIds := if stackIds = [] then [0] else stackIds
  return stackIds.flatMap fun stack =>
    (validateSingleStackTrace spec (trace.filter fun issued =>
        decide (issued.stackId = stack))).map fun error =>
      "stack " ++ toString stack ++ ": " ++ error

end Validator

end HbmSim
