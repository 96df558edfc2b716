/-
The bank state machine: which commands are legal in a bank's state, and what an
issued command does to the banks, the timing engine, the refresh-management
counters and the request it serves.

The source's executor is one function with one branch a command. Here each part
of the state has its own function with the same branches.
-/

import HbmSim.Maintenance
import HbmSim.Request

namespace HbmSim

/-! ### Banks -/

/-- The state of one bank. The source writes a closed bank as open row -1. -/
structure BankState where
  openRow : Option Nat := none
  nextAct : Nat := 0
  nextPre : Nat := 0
  nextRd : Nat := 0
  nextWr : Nat := 0
  nextAnyCol : Nat := 0
  nextAct2 : Nat := 0
  act2Deadline : Nat := 0
  activating : Bool := false
  deriving DecidableEq, Repr

/-- An open row or an activate under way. -/
def BankState.busy (bank : BankState) : Bool := bank.activating || bank.openRow.isSome

/-! ### Legality -/

inductive BankProtocolState
  | closed
  | activating
  | opened
  deriving DecidableEq, Repr

structure CommandStateSnapshot where
  bankState : BankProtocolState := .closed
  rowHit : Bool := false
  wckReady : Bool := true
  anyBankBusy : Bool := false
  splitActivate : Bool := false
  lpddrFamily : Bool := false
  maintenance : Bool := false
  issuedFirstActivate : Bool := false
  lowPowerActive : Bool := false
  selfRefreshActive : Bool := false
  trainingActive : Bool := false
  dvfsTransitionActive : Bool := false
  wckTrainingRequired : Bool := false
  rasEccSupported : Bool := false
  linkRetrySupported : Bool := false
  deriving DecidableEq, Repr

structure CommandStateResult where
  legal : Bool
  reason : String
  deriving DecidableEq, Repr

/-- The legality of a command outside self refresh. -/
def legalOutsideSelfRefresh (state : CommandStateSnapshot) (command : Command) :
    CommandStateResult :=
  let quiet := !state.lowPowerActive && !state.selfRefreshActive
  let settled := !state.trainingActive && !state.dvfsTransitionActive
  match command with
  | .act => ⟨!state.splitActivate && decide (state.bankState = .closed),
      "ACT requires a closed non-split bank"⟩
  | .act1 => ⟨state.splitActivate && decide (state.bankState = .closed),
      "ACT1 requires a closed split-activate bank"⟩
  | .act2 => ⟨state.splitActivate && decide (state.bankState = .activating) &&
      state.issuedFirstActivate, "ACT2 requires the owning ACT1 request"⟩
  | .pre | .prepb => ⟨decide (state.bankState = .opened), "PREpb requires an opened bank"⟩
  | .preab => ⟨state.anyBankBusy, "PREab requires at least one busy bank"⟩
  | .casrd | .caswr => ⟨state.lpddrFamily && decide (state.bankState = .opened) && state.rowHit &&
      !state.wckTrainingRequired, "CAS requires an opened LPDDR row and no pending WCK training"⟩
  | .rd | .wr | .rda | .wra => ⟨decide (state.bankState = .opened) && state.rowHit &&
      (!state.lpddrFamily || (state.wckReady && !state.wckTrainingRequired)),
      "RD/WR requires row hit and, for LPDDR, trained active WCK"⟩
  | .refpb | .refdb | .rfmpb => ⟨state.maintenance && decide (state.bankState = .closed),
      "per-bank maintenance requires a closed target bank"⟩
  | .refab | .rfmab => ⟨state.maintenance && !state.anyBankBusy,
      "all-bank maintenance requires all banks idle"⟩
  | .mrw | .mrr => ⟨state.maintenance && !state.anyBankBusy && quiet && settled,
      "mode register access requires an idle channel outside low-power/training/DVFS"⟩
  | .wcksync => ⟨state.lpddrFamily && quiet && settled && !state.wckTrainingRequired,
      "WCK sync requires LPDDR mode outside low-power/training/DVFS and no pending WCK training"⟩
  | .wcktrain => ⟨state.lpddrFamily && state.maintenance && !state.anyBankBusy && quiet &&
      !state.dvfsTransitionActive, "WCK training requires an idle LPDDR channel"⟩
  | .dvfs => ⟨state.lpddrFamily && state.maintenance && !state.anyBankBusy && quiet &&
      !state.trainingActive, "DVFS transition requires an idle LPDDR channel"⟩
  | .pde => ⟨state.maintenance && !state.anyBankBusy && quiet && settled,
      "power-down entry requires an idle active channel"⟩
  | .pdx => ⟨state.maintenance && state.lowPowerActive && !state.selfRefreshActive,
      "power-down exit requires power-down state"⟩
  | .srefen => ⟨state.maintenance && !state.anyBankBusy && !state.selfRefreshActive && settled,
      "self-refresh entry requires an idle active channel"⟩
  | .srefex => ⟨state.maintenance && state.selfRefreshActive,
      "self-refresh exit requires self-refresh state"⟩
  | .eccscrub => ⟨state.maintenance && state.rasEccSupported && !state.anyBankBusy && quiet,
      "ECC scrub requires RAS/ECC support and an idle channel"⟩
  | .raserr => ⟨state.maintenance && (state.rasEccSupported || state.linkRetrySupported) &&
      settled, "RAS/link recovery requires RAS/ECC or link retry support"⟩
  | .nop => ⟨false, "NOP is not issuable"⟩

/-- `check_command_state`. -/
def checkCommandState (state : CommandStateSnapshot) (command : Command) : CommandStateResult :=
  if state.selfRefreshActive = true ∧ command ≠ .srefex then
    ⟨false, "self-refresh requires SREFEX before other commands"⟩
  else legalOutsideSelfRefresh state command

/-! ### Effects of an issued command -/

section Effects

variable (spec : DramSpec) (request : Request) (issued : Command) (clk : Nat)

/-- The ready times both activates set. -/
def activatedBank (bank : BankState) : BankState :=
  { bank with
    nextRd := clk + timingDelay spec spec.timing.nRCDRD
    nextWr := clk + timingDelay spec spec.timing.nRCDWR
    nextPre := clk + timingDelay spec spec.timing.nRAS
    nextAct := clk + timingDelay spec spec.timing.nRC }

/-- The cycles from a write command to the end of its write recovery. -/
def writeRecovery : Int := spec.timing.nCWL + spec.timing.nBL + spec.timing.nWR

/-- A data command with auto precharge closes its bank at once. -/
def autoPrecharged (recovery : Nat) (bank : BankState) : BankState :=
  { bank with
    openRow := none
    nextAct := max bank.nextAct (clk + recovery + timingDelay spec spec.timing.nRP) }

/-- What a command does to the bank of its request. -/
def targetBank (bank : BankState) : BankState :=
  let columnGap := clk + timingDelay spec spec.timing.nCCDL
  let afterRead := { bank with
    nextAnyCol := columnGap
    nextRd := columnGap
    nextPre := max bank.nextPre (clk + timingDelay spec spec.timing.nRTP) }
  let afterWrite := { bank with
    nextAnyCol := columnGap
    nextWr := columnGap
    nextPre := max bank.nextPre (clk + timingDelay spec (writeRecovery spec)) }
  match issued with
  | .act => { activatedBank spec clk bank with openRow := some request.decoded.row }
  | .act1 => { activatedBank spec clk bank with
      activating := true
      nextAct2 := clk + timingDelay spec (max 1 spec.timing.nAADMin)
      act2Deadline := clk + timingDelay spec (max spec.timing.nAADMin spec.timing.nAADMax) }
  | .act2 => { bank with
      activating := false, openRow := some request.decoded.row, nextAct2 := 0, act2Deadline := 0 }
  | .pre | .prepb => { bank with
      openRow := none, activating := false, nextAct := clk + timingDelay spec spec.timing.nRP }
  | .rd => afterRead
  | .rda => autoPrecharged spec clk (timingDelay spec spec.timing.nRTP) afterRead
  | .wr => afterWrite
  | .wra => autoPrecharged spec clk (timingDelay spec (writeRecovery spec)) afterWrite
  | .refpb | .refdb => { bank with nextAct := clk + timingDelay spec spec.timing.nRFCpb }
  | .rfmpb => { bank with
      nextAct := clk + timingDelay spec
        (if 0 < spec.timing.nRFMpb then spec.timing.nRFMpb else spec.timing.nRFCpb) }
  | _ => bank

/-- Change every bank of a rank. -/
def changeRank (change : BankState → BankState) (banks : Nat → BankState) : Nat → BankState :=
  let (first, last) := rankBankRange spec request.decoded
  fun bank => if first ≤ bank ∧ bank < last then change (banks bank) else banks bank

/-- `close_rank_banks`. -/
def closeRankBanks : (Nat → BankState) → Nat → BankState :=
  let recovery := if 0 < spec.timing.nRPab then spec.timing.nRPab else spec.timing.nRP
  changeRank spec request fun bank => { bank with
    openRow := none, activating := false, nextAct := max bank.nextAct (clk + timingDelay spec recovery) }

/-- `gate_rank_banks_after`. -/
def gateRankBanksAfter (readyAt : Nat) : (Nat → BankState) → Nat → BankState :=
  changeRank spec request fun bank => { bank with nextAct := max bank.nextAct readyAt }

def issueBanks (banks : Nat → BankState) : Nat → BankState :=
  match issued with
  | .preab => closeRankBanks spec request clk banks
  | .refab => gateRankBanksAfter spec request (clk + timingDelay spec spec.timing.nRFC) banks
  | .rfmab => gateRankBanksAfter spec request (clk + timingDelay spec
      (if 0 < spec.timing.nRFMab then spec.timing.nRFMab else spec.timing.nRFC)) banks
  | _ =>
    let flat := request.decoded.flatBank spec
    let changed := Function.update banks flat (targetBank spec request issued clk (banks flat))
    if issued = .refdb then
      let partner := (lpddrRefdbPartner spec request.decoded).flatBank spec
      Function.update changed partner { changed partner with
        nextAct := max (changed partner).nextAct (clk + timingDelay spec spec.timing.nRFCpb) }
    else changed

/-- Hold the row bus of the scope until a tick. -/
def holdRowBus (readyAt : Nat) (engine : TimingEngine) : TimingEngine :=
  engine.modifyRow spec request.decoded fun scope => { scope with nextRow := readyAt }

/-- The gates of the row commands that only take their bus slot, or take a wait of their own. -/
def rowBusReadyAt : Option Nat :=
  let wait (cycles : Int) := some (clk + timingDelay spec (max 1 cycles))
  match issued with
  | .act | .act1 | .act2 | .pre | .prepb | .refpb | .refdb | .rfmpb | .preab | .refab | .rfmab
  | .pde | .srefen => some (clk + 1)
  | .mrw => wait spec.timing.nMRW
  | .mrr => wait spec.timing.nMRR
  | .wcktrain => wait spec.timing.nWCKTRAIN
  | .dvfs => wait spec.timing.nDVFS
  | .pdx => wait spec.timing.nPDEX
  | .srefex => wait spec.timing.nSREFEX
  | .eccscrub => wait spec.timing.nECCSCRUB
  | .raserr => wait spec.timing.nRASERR
  | _ => none

/-- The scope gates of an activate. -/
def activateGates (engine : TimingEngine) : TimingEngine :=
  let engine := engine.modifyRow spec request.decoded fun scope =>
    { scope with nextAct := clk + timingDelay spec spec.timing.nRRDS }
  let engine := engine.modifyBankGroup spec request.decoded fun scope =>
    { scope with nextAct := clk + timingDelay spec spec.timing.nRRDL }
  engine.recordActivate spec request.decoded clk

/-- The scope gates of a data command, which also keeps the data clock running. -/
def columnGates (latency : Int) (engine : TimingEngine) : TimingEngine :=
  let engine := engine.modifyColumn spec request.decoded fun scope =>
    { scope with nextCol := clk + timingDelay spec spec.timing.nCCDS }
  let engine := engine.modifyBankGroup spec request.decoded fun scope =>
    { scope with nextCol := clk + timingDelay spec spec.timing.nCCDL }
  if spec.lpddrFamily then
    engine.modifyWck spec request.decoded fun scope => { scope with
      wckActiveUntil := max scope.wckActiveUntil
        (clk + timingDelay spec (latency + spec.timing.nBL + spec.timing.nWCKPST)) }
  else engine

/-- The gates of a command on its scopes, without the constraint table. -/
def scopeGates (engine : TimingEngine) : TimingEngine :=
  let timing := spec.timing
  let engine := match rowBusReadyAt spec issued clk with
    | some readyAt => holdRowBus spec request readyAt engine
    | none => engine
  match issued with
  | .act | .act1 => activateGates spec request clk engine
  | .casrd | .caswr =>
    let engine := engine.modifyColumn spec request.decoded fun scope =>
      { scope with nextCol := clk + 1 }
    engine.modifyWck spec request.decoded fun scope => { scope with
      nextCas := clk + 1
      wckReadyAt := clk + timingDelay spec (max 1 timing.nWCK2CK)
      wckActiveUntil := clk + timingDelay spec (max timing.nWCKPST (timing.nWCK2CK + 1)) }
  | .rd | .rda => columnGates spec request clk timing.nCL engine
  | .wr | .wra => columnGates spec request clk timing.nCWL engine
  | .refpb | .refdb => engine.recordActivate spec request.decoded clk
  | .wcksync =>
    let ready := clk + timingDelay spec (max 1 timing.nWCKSYNC)
    let engine := engine.modifyColumn spec request.decoded fun scope =>
      { scope with nextCol := clk + 1 }
    engine.modifyWck spec request.decoded fun scope => { scope with
      nextCas := ready
      wckReadyAt := ready
      wckActiveUntil := max scope.wckActiveUntil
        (clk + timingDelay spec (max timing.nWCKPST (timing.nWCKSYNC + 1))) }
  | .wcktrain =>
    let ready := clk + timingDelay spec (max 1 timing.nWCKTRAIN)
    engine.modifyWck spec request.decoded fun scope => { scope with
      nextCas := ready
      wckReadyAt := ready
      wckActiveUntil := ready + timingDelay spec (max 1 timing.nWCKPST) }
  | .dvfs =>
    let ready := clk + timingDelay spec (max 1 timing.nDVFS)
    let engine := engine.modifyColumn spec request.decoded fun scope =>
      { scope with nextCol := ready }
    engine.modifyWck spec request.decoded fun scope => { scope with nextCas := ready }
  | .raserr => engine.modifyColumn spec request.decoded fun scope =>
      { scope with
        nextCol := max scope.nextCol (clk + timingDelay spec (max 1 timing.nLINKRETRY)) }
  | _ => engine

def issueTiming (engine : TimingEngine) : TimingEngine :=
  (scopeGates spec request issued clk engine).applyConstraints spec request.decoded issued clk

/-- The counters after the command, and the mitigation they ask for. -/
def issueRfm (manager : RfmManager) : Option MaintenanceCommand × RfmManager :=
  match issued with
  | .act | .act1 => manager.onActivate spec request.decoded
  | .rfmpb => (none, manager.onRfmpb spec request.decoded)
  | .rfmab => (none, manager.onRfmab spec request.decoded)
  | _ => (none, manager)

/-- The marks the command leaves on its request. -/
def issueRequest : Request :=
  match issued with
  | .act1 => { request with issuedFirstActivate := true }
  | .casrd | .caswr => { request with casSyncIssued := true }
  | .rd | .rda | .wr | .wra =>
    if spec.lpddrFamily then { request with casSyncIssued := false } else request
  | _ => request

end Effects

end HbmSim
