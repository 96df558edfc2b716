/-
Refreshes and mitigations of a whole rank: when all banks have recovered from
what closed or refreshed them.

A bank that is open has recovered from everything before its activate. What
holds it back since is in its activate gate, which every refresh of the bank
alone waits for and no refresh of the rank does.
-/

import HbmSim.BankHistory
import HbmSim.Lib.History
import HbmSim.PrechargeGate

namespace HbmSim

variable {spec : DramSpec} {request : Request} {issued : Command} {clk : Nat}
variable {banks : Nat → BankState} {flat : Nat}

/-! ### The rule -/

/-- The cycle at which the banks that a command closes or refreshes have recovered. -/
def recovered (spec : DramSpec) (issued : IssuedCommand) : Nat :=
  let timing := spec.timing
  match issued.command with
  | .pre | .prepb => issued.cycle + timingDelay spec timing.nRP
  | .preab => issued.cycle +
      timingDelay spec (if 0 < timing.nRPab then timing.nRPab else timing.nRP)
  | .rda => issued.cycle + timingDelay spec timing.nRTP + timingDelay spec timing.nRP
  | .wra => issued.cycle + timingDelay spec (timing.nCWL + timing.nBL + timing.nWR) +
      timingDelay spec timing.nRP
  | .refpb | .refdb => issued.cycle + timingDelay spec timing.nRFCpb
  | .rfmpb => issued.cycle +
      timingDelay spec (if 0 < timing.nRFMpb then timing.nRFMpb else timing.nRFCpb)
  | .refab => issued.cycle + timingDelay spec timing.nRFC
  | .rfmab => issued.cycle +
      timingDelay spec (if 0 < timing.nRFMab then timing.nRFMab else timing.nRFC)
  | _ => 0

/-- The banks that a command closes or refreshes. -/
def recovers (spec : DramSpec) (decoded : DecodedAddress) (issued : Command) (flat : Nat) : Prop :=
  match issued with
  | .pre | .prepb | .rda | .wra | .refpb | .rfmpb => decoded.flatBank spec = flat
  | .refdb => decoded.flatBank spec = flat ∨ (lpddrRefdbPartner spec decoded).flatBank spec = flat
  | .preab | .refab | .rfmab => inRank spec decoded flat
  | _ => False

/-- Every refresh or mitigation of a rank finds all its banks closed, past their gates, and
recovered from everything before. -/
def RankRefreshesWait (spec : DramSpec) (commands : List IssuedCommand) : Prop :=
  History.Each (fun earlier refresh => (refresh.command = .refab ∨ refresh.command = .rfmab) →
    ∀ flat, inRank spec refresh.decoded flat →
      bankPhase spec earlier flat = .closed ∧
      (banksAfter spec earlier flat).nextAct ≤ refresh.cycle ∧
      ∀ issued ∈ earlier, recovers spec issued.decoded issued.command flat →
        recovered spec issued ≤ refresh.cycle) commands

/-! ### The gate -/

/-- The commands that set the activate gate of their bank, whatever it was. -/
def setsActivateGate (issued : Command) : Bool :=
  decide (issued = .act ∨ issued = .act1 ∨ issued = .pre ∨ issued = .prepb ∨ issued = .refpb ∨
    issued = .refdb ∨ issued = .rfmpb)

/-- Every other command only raises the gate. -/
theorem nextAct_le_issueBanks
    (keeps : setsActivateGate issued = true → request.decoded.flatBank spec ≠ flat) :
    (banks flat).nextAct ≤ (issueBanks spec request issued clk banks flat).nextAct := by
  cases one : touchesOneBank issued with
  | true =>
    rw [issueBanks_one one]
    split
    next here =>
      cases issued with
      | act | act1 | pre | prepb | refpb | refdb | rfmpb => exact absurd here (keeps rfl)
      | rda | wra => exact Nat.le_max_left ..
      | _ => exact Nat.le_refl _
    next => exact Nat.le_refl _
  | false =>
    rcases not_touchesOneBank one with rfl | rfl | rfl | rfl
    · rw [issueBanks_preab]
      split
      · exact Nat.le_max_left ..
      · exact Nat.le_refl _
    · rw [issueBanks_refab]
      split
      · exact Nat.le_max_left ..
      · exact Nat.le_refl _
    · rw [issueBanks_rfmab]
      split
      · exact Nat.le_max_left ..
      · exact Nat.le_refl _
    · obtain ⟨nextAct, after, -, raises⟩ := @issueBanks_refdb spec request clk banks flat
      rw [after]
      exact raises (keeps rfl)

/-- A command holds the gates of the banks it closes or refreshes until they have recovered. -/
theorem recovered_le_nextAct {record : IssuedCommand} (cycle : record.cycle = clk)
    (reaches : recovers spec request.decoded record.command flat) :
    recovered spec record ≤
      (issueBanks spec request record.command clk banks flat).nextAct := by
  unfold recovered
  rw [cycle]
  generalize record.command = issued at reaches ⊢
  cases issued with
  | pre | prepb | refpb | rfmpb =>
    have here : request.decoded.flatBank spec = flat := reaches
    rw [issueBanks_one rfl, if_pos here]
    exact Nat.le_refl _
  | rda | wra =>
    have here : request.decoded.flatBank spec = flat := reaches
    rw [issueBanks_one rfl, if_pos here]
    exact Nat.le_max_right ..
  | preab =>
    have inside : inRank spec request.decoded flat := reaches
    rw [issueBanks_preab, if_pos inside]
    exact Nat.le_max_right ..
  | refab =>
    have inside : inRank spec request.decoded flat := reaches
    rw [issueBanks_refab, if_pos inside]
    exact Nat.le_max_right ..
  | rfmab =>
    have inside : inRank spec request.decoded flat := reaches
    rw [issueBanks_rfmab, if_pos inside]
    exact Nat.le_max_right ..
  | refdb =>
    obtain ⟨nextAct, after, holds, -⟩ := @issueBanks_refdb spec request clk banks flat
    rw [after]
    exact holds reaches
  | _ => exact Nat.zero_le _

namespace Controller

variable {β : Type} {c before after chosen : Controller β} {commands : List IssuedCommand}
variable {candidate : Candidate} {bus : BusClass}

/-- A refresh or mitigation of a rank that finds every bank past its activate gate. -/
def RankRefreshAllowed (c : Controller β) (request : Request) (command : Command) : Prop :=
  command = .refab ∨ command = .rfmab →
    ∀ flat < (rankBankRange c.spec request.decoded).2,
      (rankBankRange c.spec request.decoded).1 ≤ flat → (c.banks flat).nextAct ≤ c.clk

instance (command : Command) : Decidable (c.RankRefreshAllowed request command) := by
  unfold RankRefreshAllowed
  infer_instance

def RankRefreshGuarded (c : Controller β) (bus : BusClass) : Prop :=
  ∀ pick ∈ c.picked bus, c.RankRefreshAllowed pick.1 pick.2

instance : Decidable (c.RankRefreshGuarded bus) := by
  unfold RankRefreshGuarded
  infer_instance

/-- The gates hold every bank back until it has recovered, and a busy bank has recovered. -/
structure RecoveryTracked (commands : List IssuedCommand) (c : Controller β) : Prop where
  waits : RankRefreshesWait c.spec commands
  banks : c.banks = banksAfter c.spec commands
  phases : PhasesTracked commands c
  gates : ∀ flat, ∀ issued ∈ commands, recovers c.spec issued.decoded issued.command flat →
    recovered c.spec issued ≤ max c.clk (c.banks flat).nextAct
  busy : ∀ flat, (c.banks flat).busy = true → ∀ issued ∈ commands,
    recovers c.spec issued.decoded issued.command flat → recovered c.spec issued ≤ c.clk

theorem RecoveryTracked.quiet (tracked : RecoveryTracked commands before)
    (keeps : DeviceKept before after) : RecoveryTracked commands after := by
  refine ⟨?_, ?_, tracked.phases.quiet keeps, ?_, ?_⟩
  · rw [keeps.spec]
    exact tracked.waits
  · rw [keeps.spec, keeps.banks]
    exact tracked.banks
  · rw [keeps.spec, keeps.banks]
    exact fun flat issued member reaches =>
      (tracked.gates flat issued member reaches).trans (max_le_max_right _ keeps.clk)
  · rw [keeps.spec, keeps.banks]
    exact fun flat busy issued member reaches =>
      (tracked.busy flat busy issued member reaches).trans keeps.clk

/-- What a command finds before it sets the activate gate of its bank: the gate is past, or the
bank is busy. -/
theorem Issuable.gate_past (issuable : Issuable c candidate request)
    (sets : setsActivateGate candidate.command = true) :
    (c.bankOf request).nextAct ≤ c.clk ∨ (c.bankOf request).busy = true := by
  have gates := issuable.gates
  unfold setsActivateGate at sets
  rw [decide_eq_true_eq] at sets
  unfold gatesOpen at gates
  rcases sets with is | is | is | is | is | is | is <;> rw [is] at gates <;>
    simp only [Bool.and_eq_true, decide_eq_true_eq] at gates
  · exact Or.inl gates.1.1.1.1.2
  · exact Or.inl gates.1.1.1.1.1.2
  · exact Or.inr (by unfold BankState.busy; rw [gates.1.1.2, Bool.or_true])
  · exact Or.inr (by unfold BankState.busy; rw [gates.1.1.2, Bool.or_true])
  · exact Or.inl gates.1.1.2
  · exact Or.inl gates.1.1.1.2
  · exact Or.inl gates.1.2

theorem anyBankBusyInRank_eq_false {decoded : DecodedAddress} {flat : Nat}
    (idle : c.anyBankBusyInRank decoded = false) (inside : inRank c.spec decoded flat) :
    (c.banks flat).busy = false := by
  unfold anyBankBusyInRank anyBank at idle
  dsimp only at idle
  rw [List.any_eq_false] at idle
  have member : flat - (rankBankRange c.spec decoded).1 ∈
      List.range ((rankBankRange c.spec decoded).2 - (rankBankRange c.spec decoded).1) :=
    List.mem_range.mpr (Nat.sub_lt_sub_right inside.1 inside.2)
  have free := idle _ member
  rw [Nat.add_sub_cancel' inside.1] at free
  exact Bool.eq_false_iff.mpr free

/-- A refresh or mitigation of a rank finds its banks closed. -/
theorem Issuable.rank_closed (issuable : Issuable c candidate request) {flat : Nat}
    (refresh : candidate.command = .refab ∨ candidate.command = .rfmab)
    (inside : inRank c.spec request.decoded flat) : (c.banks flat).phase = .closed := by
  have gates := issuable.gates
  unfold gatesOpen at gates
  have idle : c.anyBankBusyInRank request.decoded = false := by
    rcases refresh with is | is <;> rw [is] at gates <;>
      simp only [Bool.and_eq_true, Bool.not_eq_true'] at gates <;> exact gates.1
  exact BankState.phase_closed_iff.mpr (anyBankBusyInRank_eq_false idle inside)

/-- Wherever a command closes or refreshes a bank, the bank is closed after it. -/
theorem Issuable.closes (issuable : Issuable c candidate request) {flat : Nat}
    (reaches : recovers c.spec request.decoded candidate.command flat) :
    phaseAfter c.spec request.decoded candidate.command flat (c.banks flat).phase = .closed := by
  have gates := issuable.gates
  cases is : candidate.command with
  | pre | prepb | rda | wra =>
    rw [is] at reaches
    exact if_pos reaches
  | preab =>
    rw [is] at reaches
    exact if_pos reaches
  | refab | rfmab =>
    rw [is] at reaches
    exact issuable.rank_closed (by simp [is]) reaches
  | refpb | rfmpb =>
    rw [is] at reaches gates
    have here : request.decoded.flatBank c.spec = flat := reaches
    unfold gatesOpen bankOf at gates
    rw [here] at gates
    simp only [Bool.and_eq_true, Bool.not_eq_true', decide_eq_true_eq] at gates
    refine BankState.phase_closed_iff.mpr ?_
    unfold BankState.busy
    simp [gates]
  | refdb =>
    rw [is] at reaches gates
    unfold gatesOpen dualBankTargetIdle at gates
    simp only [Bool.and_eq_true, Bool.not_eq_true', decide_eq_true_eq] at gates
    refine BankState.phase_closed_iff.mpr ?_
    rcases reaches with here | partner
    · rw [← here]
      exact gates.1.1.1.1.1.1.1
    · rw [← partner]
      exact gates.1.1.1.1.1.2
  | _ =>
    rw [is] at reaches
    exact False.elim reaches

/-- What opens a closed bank has found its gate past. -/
theorem Issuable.opens (issuable : Issuable c candidate request) {flat : Nat}
    (closed : (c.banks flat).phase = .closed)
    (opened : phaseAfter c.spec request.decoded candidate.command flat (c.banks flat).phase ≠
      .closed) : (c.banks flat).nextAct ≤ c.clk := by
  have gates := issuable.gates
  unfold gatesOpen bankOf at gates
  unfold phaseAfter at opened
  rw [closed] at opened
  have here : request.decoded.flatBank c.spec = flat := by
    by_contra elsewhere
    dsimp only at opened
    simp only [if_neg elsewhere] at opened
    split at opened <;> simp at opened
  rw [here] at gates
  cases is : candidate.command with
  | act =>
    rw [is] at gates
    simp only [Bool.and_eq_true, decide_eq_true_eq] at gates
    exact gates.1.1.1.1.2
  | act1 =>
    rw [is] at gates
    simp only [Bool.and_eq_true, decide_eq_true_eq] at gates
    exact gates.1.1.1.1.1.2
  | act2 =>
    rw [is] at gates
    simp only [Bool.and_eq_true] at gates
    unfold BankState.phase at closed
    rw [gates.1.1.1, if_pos rfl] at closed
    cases closed
  | _ =>
    rw [is] at opened
    simp at opened

theorem RecoveryTracked.issue (tracked : RecoveryTracked commands c)
    (issuable : Issuable c candidate request)
    (allowed : c.RankRefreshAllowed request candidate.command) {memPhy : MemPhy}
    {memoryImage : MemoryImage β} :
    RecoveryTracked (commands ++ [c.issuedRecord request candidate])
      (c.issueEffects candidate request memPhy memoryImage) := by
  have past : ∀ flat, (c.banks flat).nextAct ≤ c.clk → ∀ issued ∈ commands,
      recovers c.spec issued.decoded issued.command flat → recovered c.spec issued ≤ c.clk :=
    fun flat gate issued member reaches =>
      (tracked.gates flat issued member reaches).trans (max_le (Nat.le_refl _) gate)
  refine ⟨?_, ?_, tracked.phases.issue issuable, ?_, ?_⟩
  · rw [issueEffects_spec]
    refine History.each_concat.mpr ⟨tracked.waits, fun refresh flat inside => ?_⟩
    have gate := allowed refresh flat inside.2 inside.1
    rw [← tracked.phases flat, ← tracked.banks]
    exact ⟨issuable.rank_closed refresh inside, gate, past flat gate⟩
  · rw [issueEffects_banks, issueEffects_spec, banksAfter_concat, ← tracked.banks]
    rfl
  · rw [issueEffects_banks, issueEffects_spec, issueEffects_clk]
    intro flat issued member reaches
    rcases List.mem_append.mp member with old | new
    · by_cases sets : setsActivateGate candidate.command = true ∧
          request.decoded.flatBank c.spec = flat
      · obtain ⟨sets, rfl⟩ := sets
        refine Nat.le_trans ?_ (Nat.le_max_left ..)
        rcases issuable.gate_past sets with gate | busy
        · exact past _ gate issued old reaches
        · exact tracked.busy _ busy issued old reaches
      · refine (tracked.gates flat issued old reaches).trans (max_le_max_left _ ?_)
        exact nextAct_le_issueBanks fun which here => sets ⟨which, here⟩
    · obtain rfl := List.mem_singleton.mp new
      exact (recovered_le_nextAct rfl reaches).trans (Nat.le_max_right ..)
  · rw [issueEffects_banks, issueEffects_spec, issueEffects_clk]
    intro flat busy issued member reaches
    have opened : phaseAfter c.spec request.decoded candidate.command flat
        (c.banks flat).phase ≠ .closed := by
      intro still
      rw [← issueBanks_phase issuable.notActivating, BankState.phase_closed_iff, busy] at still
      cases still
    rcases List.mem_append.mp member with old | new
    · cases before : (c.banks flat).busy with
      | true => exact tracked.busy flat before issued old reaches
      | false =>
        have closed := BankState.phase_closed_iff.mpr before
        exact past flat (issuable.opens closed opened) issued old reaches
    · obtain rfl := List.mem_singleton.mp new
      exact absurd (issuable.closes reaches) opened

/-- Choosing changes nothing the guard looks at. -/
theorem Choosing.rankRefreshAllowed {command : Command} (choosing : Choosing c chosen)
    (allowed : c.RankRefreshAllowed request command) :
    chosen.RankRefreshAllowed request command := by
  have keeps := choosing.housekeeping
  unfold RankRefreshAllowed at *
  rw [keeps.spec, keeps.banks, keeps.clk]
  exact allowed

/-- In every run whose turns allow it, every refresh and mitigation of a rank waits until all banks
of the rank are closed and have recovered. -/
theorem rank_refreshes_wait [MemoryBackend β] {spec : DramSpec} {options : ControllerOptions}
    {image : MemoryImage β} {start final : Controller β} {ops : List ControllerOp}
    {events : List ControllerEvent} (created : create spec options image = .ok start)
    (guarded : start.RunMeets (fun _ _ => True) RankRefreshGuarded ops)
    (returns : start.run ops = .ok (events, final)) :
    RankRefreshesWait spec (commandsOf events) := by
  have kept : Kept (fun _ _ => True) RankRefreshGuarded
      fun events (c : Controller β) => RecoveryTracked (commandsOf events) c :=
    kept_of_commands (fun _ _ _ tracked keeps => tracked.quiet keeps)
      fun _ _ _ _ _ _ _ _ tracked guard choosing picks issuable _ =>
        tracked.issue issuable (choosing.rankRefreshAllowed (guard _ picks))
  have begins : RecoveryTracked (commandsOf []) start := by
    rw [(create_created created).result]
    exact ⟨History.Each.nil, rfl, fun _ => rfl, fun _ _ member => (nomatch member),
      fun _ busy => (nomatch busy)⟩
  have tracked := kept.run begins guarded returns
  rw [← (run_configuration (create_created created) returns).1]
  exact tracked.waits

/-- A read, a precharge of the rank, and a refresh of the rank some ticks after it. -/
def readThenRefab (ticks : Nat) : List ControllerOp :=
  readThenPreab 50 ++ List.replicate ticks .tick ++ [.enqueue (maintain 3 .refab), .tick]

theorem rank_refreshes_wait_lateRank : ∃ start events final,
    create finalTwoBanks {} (imageOf finalTwoBanks) = .ok start ∧
      start.run (readThenRefab 50) = .ok (events, final) ∧
      { cycle := 102, requestId := 3, command := .refab } ∈ commandsOf events ∧
      RankRefreshesWait finalTwoBanks (commandsOf events) := by
  obtain ⟨start, events, final, created, guarded, returns, checks⟩ :=
    guardedRun_of_passes finalTwoBanks {} (readThenRefab 50) (fun _ _ => True) RankRefreshGuarded
      (fun result => decide
        ({ cycle := 102, requestId := 3, command := .refab } ∈ commandsOf result.1))
      (by decide +kernel) (by decide +kernel)
  exact ⟨start, events, final, created, returns, of_decide_eq_true checks,
    rank_refreshes_wait created guarded returns⟩

/-- A read, and some ticks later a refresh of its rank, which first closes the rank. -/
def readAndRefab : List ControllerOp :=
  .enqueue (readAt finalTwoBanks 1 0 4) :: List.replicate 50 .tick ++
    [.enqueue (maintain 2 .refab), .tick, .tick]

/-- One tick after the precharge of a rank its refresh follows, although no bank has recovered. -/
theorem rank_refresh_after_precharge : finalizeSpec twoBanks = .ok finalTwoBanks ∧
    ∃ start events final, create finalTwoBanks {} (imageOf finalTwoBanks) = .ok start ∧
      start.run readAndRefab = .ok (events, final) ∧
      ¬ RankRefreshesWait finalTwoBanks (commandsOf events) := by
  obtain ⟨start, events, final, created, returns, checks⟩ :=
    freshRun_of_passes finalTwoBanks {} readAndRefab
      (fun result => decide (commandsOf result.1 = [
        { cycle := 1, requestId := 1, command := .act },
        { cycle := 21, requestId := 1, command := .rd },
        { cycle := 51, requestId := 2, command := .preab },
        { cycle := 52, requestId := 2, command := .refab }]))
      (by decide +kernel)
  refine ⟨rfl, start, events, final, created, returns, fun wait => ?_⟩
  rw [of_decide_eq_true checks] at wait
  obtain ⟨-, -, waits⟩ := wait [{ cycle := 1, requestId := 1, command := .act },
      { cycle := 21, requestId := 1, command := .rd },
      { cycle := 51, requestId := 2, command := .preab }] _ [] rfl (Or.inl rfl) 0 (by decide)
  have late := waits { cycle := 51, requestId := 2, command := .preab } (by simp)
    (show inRank finalTwoBanks {} 0 by decide)
  exact absurd late (by decide)

end Controller

end HbmSim
