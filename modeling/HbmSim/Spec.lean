/-
This file describes a device: its organization, its timing table in clock
cycles, and the protocol switches the controller reads. The acceptance check
`validateSpec` runs at every public entry of the source, so every later file
works with a spec that passed it.

Only the fields some modelled function reads are kept. The two checks of
`validate_spec` on floating-point values, the density against the geometry and
the clock period against the data rate, are left out, so the check here accepts
every spec the source accepts and possibly more.
-/

import HbmSim.Common

namespace HbmSim

/-! ### Records -/

inductive DramStandard
  | unknown
  | hbm3
  | hbm4
  | lpddr5
  | lpddr6
  deriving DecidableEq, Repr

/-- The timing table, in clock cycles. -/
structure Timing where
  nBL : Int := 2
  nCL : Int := 20
  nCWL : Int := 10
  nRCDRD : Int := 20
  nRCDWR : Int := 14
  nRP : Int := 20
  nRAS : Int := 42
  nRC : Int := 62
  nRTP : Int := 8
  nWR : Int := 18
  nCCDS : Int := 2
  nCCDL : Int := 4
  nRRDS : Int := 4
  nRRDL : Int := 6
  nFAW : Int := 16
  nAADMin : Int := 1
  nAADMax : Int := 8
  nWCK2CK : Int := 1
  nWCKPST : Int := 8
  nCAS : Int := 0
  nCS : Int := 2
  nPPD : Int := 2
  nRPab : Int := 20
  nWTRS : Int := 8
  nWTRL : Int := 12
  nRTW : Int := 16
  nCCDR : Int := 2
  nRFC : Int := 0
  nRFCpb : Int := 0
  nRFMab : Int := 0
  nRFMpb : Int := 0
  nRREFD : Int := 0
  nREFDB2ACT : Int := 0
  nREFDB2REFDBS : Int := 0
  nREFDB2REFDBL : Int := 0
  nREFI : Int := 0
  nREFIpb : Int := 0
  nMRW : Int := 8
  nMRR : Int := 8
  nWCKSYNC : Int := 8
  nWCKTRAIN : Int := 64
  nDVFS : Int := 128
  nPDEX : Int := 8
  nSREFEX : Int := 256
  nECCSCRUB : Int := 64
  nRASERR : Int := 64
  nLINKRETRY : Int := 16
  deriving DecidableEq, Repr

def Timing.readLatency (timing : Timing) : Int := timing.nCL + timing.nBL

/-- One table-driven constraint: after a preceding command, the following
commands wait for the latency in every bucket of the scope it covers. -/
structure TimingConstraint where
  scope : TimingScope := .bank
  preceding : List Command := []
  following : List Command := []
  latency : Int := 0
  window : Int := 0
  sibling : Bool := false
  deriving DecidableEq, Repr

/-- The dimensions of the address space. They are positive in every accepted spec. -/
structure Organization where
  channels : Nat := 1
  pseudoChannels : Nat := 1
  sids : Nat := 1
  ranks : Nat := 1
  bankGroups : Nat := 4
  banksPerGroup : Nat := 4
  rows : Nat := 2 ^ 15
  columns : Nat := 2 ^ 6
  lineSize : Nat := 64
  dramTransactionBytes : Nat := 0
  deriving DecidableEq, Repr

structure DramSpec where
  standard : DramStandard := .unknown
  name : String := ""
  org : Organization := {}
  timing : Timing := {}
  speedBinMbps : Nat := 0
  densityReferenceChannels : Int := 0
  stackHeight : Int := 0
  dualCommandBus : Bool := false
  splitActivate : Bool := false
  lpddrFamily : Bool := false
  dataRateMbps : Nat := 6400
  dataBusBits : Nat := 128
  internalPrefetchSize : Nat := 8
  dfiPhaseCount : Int := 0
  dfiDataLaneBytes : Int := 0
  dfiReadLatencyNck : Int := 0
  dfiWriteLatencyNck : Int := 0
  tickMultiplier : Nat := 1
  supportsRefresh : Bool := false
  refreshPolicy : MaintenancePolicyKind := .perBank
  lpddrDualBankRefresh : Bool := false
  supportsRfm : Bool := false
  rfmPolicy : MaintenancePolicyKind := .perBank
  supportsEcc : Bool := false
  hbmEdgePairing : Bool := false
  hbmStrictEdgePairing : Bool := true
  hbmLinkRetryEnabled : Bool := false
  hbmLinkCrcBitsPerRequest : Int := 0
  hbmRasMetadataBitsPerRequest : Int := 0
  hbmEccBitsPerRequest : Int := 0
  rfmActThreshold : Int := 0
  rfmDecrement : Int := 0
  lpddrLinkProtection : Bool := false
  lpddrEfficiencyMode : LpddrEfficiencyMode := .normal
  lpddrDvfsMode : LpddrDvfsMode := .nominal
  lpddrWckMode : LpddrWckMode := .casSync
  lpddrWckRatio : Int := 4
  lpddrWckTrainingMode : String := "startup_only"
  lpddrWckTrainingRequired : Bool := true
  lpddrLinkEccEnabled : Bool := false
  lpddrDbiBitsPerRequest : Int := 0
  lpddrLinkEccBitsPerRequest : Int := 0
  lpddrCaParityBitsPerCommand : Int := 1
  lowPowerMode : LowPowerMode := .off
  lowPowerEntryCycles : Int := 0
  lowPowerExitCycles : Int := 0
  selfRefreshExitCycles : Int := 0
  refreshPostponeLimit : Int := 0
  refreshPullinLimit : Int := 0
  refreshCreditLimit : Int := 0
  refreshTemperatureMode : RefreshTemperatureMode := .normal
  refreshHighTempMultiplier : Int := 2
  addressMapping : AddressMappingKind := .default
  metadataBitsPerRequest : Int := 0
  eccBitsPerRequest : Int := 0
  timingConstraints : List TimingConstraint := []
  activationScope : TimingScope := .rank
  rowBusScope : TimingScope := .pseudoChannel
  columnBusScope : TimingScope := .pseudoChannel
  wckScope : TimingScope := .pseudoChannel
  deriving DecidableEq, Repr

/-! ### Derived quantities -/

/-- A product that reports a zero factor and a value outside 64 bits. -/
def checkedProduct (factors : List Nat) (context : String) : Except Exception Nat :=
  factors.foldlM
    (fun result factor => do
      throwIf (factor = 0) (invalidArgument (context ++ " requires positive dimensions"))
      throwIf (uint64Max < result * factor) (overflowError (context ++ " exceeds uint64 range"))
      return result * factor)
    1

/-- An accepted product is the product of the factors. -/
theorem checkedProduct_eq {factors : List Nat} {context : String} {total : Nat}
    (accepted : checkedProduct factors context = .ok total) : total = factors.prod := by
  have general : ∀ (start : Nat), factors.foldlM
      (fun result factor => do
        throwIf (factor = 0) (invalidArgument (context ++ " requires positive dimensions"))
        throwIf (uint64Max < result * factor) (overflowError (context ++ " exceeds uint64 range"))
        return result * factor)
      start = .ok total → total = start * factors.prod := by
    clear accepted
    induction factors with
    | nil =>
      intro start done
      rw [List.prod_nil, mul_one]
      exact (Except.ok.inj done).symm
    | cons factor rest inductionHypothesis =>
      intro start done
      rw [List.foldlM_cons] at done
      obtain ⟨next, step, more⟩ := bind_eq_ok.mp done
      obtain ⟨_, -, step⟩ := bind_eq_ok.mp step
      obtain ⟨_, -, step⟩ := bind_eq_ok.mp step
      have product : start * factor = next := Except.ok.inj step
      rw [inductionHypothesis next more, ← product, List.prod_cons, mul_assoc]
  rw [general 1 accepted, one_mul]

namespace DramSpec

/-- The bank count of the whole spec, the size of every per-bank array. -/
def bankCount (spec : DramSpec) : Nat :=
  spec.org.channels * spec.org.pseudoChannels * spec.org.sids * spec.org.ranks *
    spec.org.bankGroups * spec.org.banksPerGroup

/-- The number of column transactions the geometry holds. -/
def transactionCount (spec : DramSpec) : Nat :=
  spec.bankCount * spec.org.rows * spec.org.columns

def totalBanks (spec : DramSpec) : Except Exception Nat := do
  let count ← checkedProduct [spec.org.channels, spec.org.pseudoChannels, spec.org.sids,
    spec.org.ranks, spec.org.bankGroups, spec.org.banksPerGroup] "total_banks"
  throwIf (intMax < count) (overflowError "total_banks exceeds int range")
  return count

def totalAddressableTransactions (spec : DramSpec) : Except Exception Nat :=
  checkedProduct [spec.org.channels, spec.org.pseudoChannels, spec.org.sids, spec.org.ranks,
    spec.org.bankGroups, spec.org.banksPerGroup, spec.org.rows, spec.org.columns]
    "total_addressable_transactions"

def transactionBytes (spec : DramSpec) : Nat :=
  if 0 < spec.org.dramTransactionBytes then spec.org.dramTransactionBytes
  else max 1 spec.org.lineSize

def addressableCapacityBytes (spec : DramSpec) : Except Exception Nat := do
  let transactions ← spec.totalAddressableTransactions
  throwIf (uint64Max < transactions * spec.transactionBytes)
    (overflowError "addressable_capacity_bytes exceeds uint64 range")
  return transactions * spec.transactionBytes

/-- The capacity in bytes, without the range check. -/
def capacityOf (spec : DramSpec) : Nat := spec.transactionCount * spec.transactionBytes

theorem totalBanks_eq {spec : DramSpec} {banks : Nat} (accepted : spec.totalBanks = .ok banks) :
    banks = spec.bankCount ∧ banks ≤ intMax := by
  obtain ⟨count, counted, rest⟩ := bind_eq_ok.mp accepted
  obtain ⟨_, fits, value⟩ := bind_eq_ok.mp rest
  have equal : count = banks := Except.ok.inj value
  rw [throwIf_eq_ok, equal] at fits
  refine ⟨?_, Nat.not_lt.mp fits⟩
  rw [← equal, checkedProduct_eq counted, bankCount]
  simp only [List.prod_cons, List.prod_nil, mul_one, mul_assoc]

theorem totalAddressableTransactions_eq {spec : DramSpec} {total : Nat}
    (accepted : spec.totalAddressableTransactions = .ok total) : total = spec.transactionCount := by
  rw [checkedProduct_eq accepted, transactionCount, bankCount]
  simp only [List.prod_cons, List.prod_nil, mul_one, mul_assoc]

theorem addressableCapacityBytes_eq {spec : DramSpec} {capacity : Nat}
    (accepted : spec.addressableCapacityBytes = .ok capacity) :
    capacity = spec.capacityOf ∧ capacity ≤ uint64Max := by
  obtain ⟨transactions, counted, rest⟩ := bind_eq_ok.mp accepted
  obtain ⟨_, fits, value⟩ := bind_eq_ok.mp rest
  have equal : transactions * spec.transactionBytes = capacity := Except.ok.inj value
  rw [throwIf_eq_ok, equal] at fits
  refine ⟨?_, Nat.not_lt.mp fits⟩
  rw [← equal, totalAddressableTransactions_eq counted, capacityOf]

def lpddrRequiresWckRetrainAfterDvfs (spec : DramSpec) : Bool :=
  if !spec.lpddrFamily || !spec.lpddrWckTrainingRequired ||
      decide (spec.lpddrDvfsMode = .disabled) then false
  else ["dvfs", "DVFS", "retrain", "Retrain"].any fun token =>
    decide (token.toList <:+: spec.lpddrWckTrainingMode.toList)

end DramSpec

/-! ### Acceptance -/

/-- The named options that may not be negative, in the order they are checked. -/
def nonNegativeOptions (spec : DramSpec) : List (String × Int) :=
  [("metadata_bits_per_request", spec.metadataBitsPerRequest),
   ("ecc_bits_per_request", spec.eccBitsPerRequest),
   ("hbm_link_crc_bits_per_request", spec.hbmLinkCrcBitsPerRequest),
   ("hbm_ras_metadata_bits_per_request", spec.hbmRasMetadataBitsPerRequest),
   ("hbm_ecc_bits_per_request", spec.hbmEccBitsPerRequest),
   ("lpddr_dbi_bits_per_request", spec.lpddrDbiBitsPerRequest),
   ("lpddr_link_ecc_bits_per_request", spec.lpddrLinkEccBitsPerRequest),
   ("lpddr_ca_parity_bits_per_command", spec.lpddrCaParityBitsPerCommand),
   ("low_power_entry_cycles", spec.lowPowerEntryCycles),
   ("low_power_exit_cycles", spec.lowPowerExitCycles),
   ("self_refresh_exit_cycles", spec.selfRefreshExitCycles),
   ("refresh_postpone_limit", spec.refreshPostponeLimit),
   ("refresh_pullin_limit", spec.refreshPullinLimit),
   ("refresh_credit_limit", spec.refreshCreditLimit)]

def validateSpec (spec : DramSpec) : Except Exception Unit := do
  throwIf (spec.org.channels = 0 ∨ spec.org.pseudoChannels = 0 ∨ spec.org.sids = 0 ∨
      spec.org.ranks = 0 ∨ spec.org.bankGroups = 0 ∨ spec.org.banksPerGroup = 0 ∨
      spec.org.rows = 0 ∨ spec.org.columns = 0 ∨ spec.org.lineSize = 0)
    (invalidArgument "all DRAM organization dimensions must be > 0")
  throwIf (0 < spec.org.dramTransactionBytes ∧
      spec.org.lineSize % spec.org.dramTransactionBytes ≠ 0)
    (invalidArgument "dram_transaction_bytes must be 0 or a positive divisor of line_size")
  throwIf (spec.dataRateMbps = 0 ∨ spec.dataBusBits = 0 ∨ spec.internalPrefetchSize = 0 ∨
      spec.speedBinMbps = 0 ∨ spec.tickMultiplier = 0)
    (invalidArgument ("data rate, bus width, prefetch, speed bin, density, tCK and " ++
      "tick_multiplier must be > 0"))
  throwIf ((spec.lpddrFamily = false ∧ spec.stackHeight ≤ 0) ∨
      (spec.lpddrFamily = true ∧ spec.stackHeight < 0))
    (invalidArgument "HBM stack_height must be > 0; LPDDR stack_height must be >= 0")
  let capacity ← spec.addressableCapacityBytes
  throwIf (capacity = 0) (invalidArgument "DRAM geometry capacity overflow")
  throwIf (spec.densityReferenceChannels < 0 ∨
      (0 < spec.densityReferenceChannels ∧ spec.org.channels ≠ 1))
    (invalidArgument "invalid channel-local density reference")
  throwIf (spec.speedBinMbps ≠ spec.dataRateMbps)
    (invalidArgument "speed_bin_mbps must equal data_rate_mbps")
  throwIf ((spec.standard = .lpddr5 ∧ spec.lpddrWckRatio ≠ 2 ∧ spec.lpddrWckRatio ≠ 4) ∨
      (spec.standard = .lpddr6 ∧ spec.lpddrWckRatio ≠ 2))
    (invalidArgument "unsupported LPDDR WCK:CK ratio")
  (nonNegativeOptions spec).forM fun option =>
    throwIf (option.2 < 0) (invalidArgument (option.1 ++ " must be >= 0"))
  throwIf (spec.refreshHighTempMultiplier ≤ 0)
    (invalidArgument "refresh_high_temp_multiplier must be > 0")
  throwIf (spec.lpddrFamily = true ∧ spec.lpddrWckRatio ≤ 0)
    (invalidArgument "lpddr_wck_ratio must be > 0")
  throwIf (spec.supportsRfm = true ∧ (spec.rfmActThreshold ≤ 0 ∨ spec.rfmDecrement ≤ 0))
    (invalidArgument "RFM-enabled models require rfm_act_threshold and rfm_decrement > 0")
  throwIf (spec.lpddrWckMode = .burstSync)
    (invalidArgument "lpddr_wck_mode=burst_sync is reserved and has no executable semantics")
  throwIf (spec.splitActivate = true ∧ spec.timing.nAADMin ≤ 0)
    (invalidArgument "nAADMin must be > 0 for split activate")
  throwIf (spec.splitActivate = true ∧ spec.timing.nAADMax < spec.timing.nAADMin)
    (invalidArgument "nAADMax must be >= nAADMin for split activate")
  throwIf (spec.lpddrDualBankRefresh = true ∧
      (spec.org.bankGroups < 2 ∨ spec.org.bankGroups % 2 ≠ 0))
    (invalidArgument "LPDDR REFdb adjacent-BG pair table requires an even bank_groups >= 2")
  throwIf (spec.timing.nRAS < 0 ∨ spec.timing.nRP < 0 ∨
      spec.timing.nRC < spec.timing.nRAS + spec.timing.nRP)
    (invalidArgument "nRC must be >= nRAS + nRP (non-negative model row timings)")

/-- The geometry of an accepted spec fits 64 bits. -/
theorem validateSpec_capacity {spec : DramSpec} (valid : validateSpec spec = .ok ()) :
    spec.addressableCapacityBytes = .ok spec.capacityOf ∧
      spec.totalAddressableTransactions = .ok spec.transactionCount ∧
      spec.capacityOf ≤ uint64Max := by
  unfold validateSpec at valid
  obtain ⟨_, -, valid⟩ := bind_eq_ok.mp valid
  obtain ⟨_, -, valid⟩ := bind_eq_ok.mp valid
  obtain ⟨_, -, valid⟩ := bind_eq_ok.mp valid
  obtain ⟨_, -, valid⟩ := bind_eq_ok.mp valid
  obtain ⟨capacity, accepted, -⟩ := bind_eq_ok.mp valid
  obtain ⟨equal, fits⟩ := spec.addressableCapacityBytes_eq accepted
  obtain ⟨transactions, counted, -⟩ := bind_eq_ok.mp accepted
  refine ⟨equal ▸ accepted, ?_, equal ▸ fits⟩
  rw [counted, DramSpec.totalAddressableTransactions_eq counted]

theorem forM_eq_ok {Item : Type} {check : Item → Except Exception Unit} {items : List Item}
    (passes : items.forM check = .ok ()) : ∀ item ∈ items, check item = .ok () := by
  induction items with
  | nil => nofun
  | cons first rest inductionHypothesis =>
    obtain ⟨_, here, later⟩ := bind_eq_ok.mp passes
    intro item member
    rcases List.mem_cons.mp member with rfl | member
    · exact here
    · exact inductionHypothesis later item member

/-- No named option of an accepted spec is negative. -/
theorem validateSpec_nonNegative {spec : DramSpec} (valid : validateSpec spec = .ok ())
    (option : String × Int) (listed : option ∈ nonNegativeOptions spec) : 0 ≤ option.2 := by
  unfold validateSpec at valid
  obtain ⟨_, -, valid⟩ := bind_eq_ok.mp valid
  obtain ⟨_, -, valid⟩ := bind_eq_ok.mp valid
  obtain ⟨_, -, valid⟩ := bind_eq_ok.mp valid
  obtain ⟨_, -, valid⟩ := bind_eq_ok.mp valid
  obtain ⟨_, -, valid⟩ := bind_eq_ok.mp valid
  obtain ⟨_, -, valid⟩ := bind_eq_ok.mp valid
  obtain ⟨_, -, valid⟩ := bind_eq_ok.mp valid
  obtain ⟨_, -, valid⟩ := bind_eq_ok.mp valid
  obtain ⟨_, -, valid⟩ := bind_eq_ok.mp valid
  obtain ⟨_, passes, -⟩ := bind_eq_ok.mp valid
  exact Int.not_lt.mp (throwIf_eq_ok.mp (forM_eq_ok passes option listed))

/-- A dual-bank refresh pairs the bank groups of an accepted spec. -/
theorem validateSpec_bankGroups {spec : DramSpec} {checked : Unit}
    (accepted : validateSpec spec = .ok checked) (dual : spec.lpddrDualBankRefresh = true) :
    2 ≤ spec.org.bankGroups ∧ spec.org.bankGroups % 2 = 0 := by
  unfold validateSpec at accepted
  simp only [bind_eq_ok, throwIf_eq_ok, not_and_or, not_or, not_lt, not_not] at accepted
  obtain ⟨_, -, _, -, _, -, _, -, _, -, _, -, _, -, _, -, _, -, _, -, _, -, _, -, _, -, _, -, _, -,
    _, -, _, pairs, -⟩ := accepted
  exact pairs.resolve_left (not_not.mpr dual)

end HbmSim
