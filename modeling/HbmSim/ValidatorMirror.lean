/-
The replay of the offline check against the device it checks, part by part. For
each part this file says when the replayed state mirrors the online one, that a
command which passes the gates is then clean, and that both sides still agree
after it.
-/

import HbmSim.BankHistory
import HbmSim.GatedTrace
import HbmSim.ValidatorSound

namespace HbmSim

variable {spec : DramSpec} {request : Request} {issued : IssuedCommand}
variable {trace : List IssuedCommand}

/-! ### Places -/

theorem replayRankBankRange_eq {decoded : DecodedAddress} (inside : decoded.InBounds spec) :
    Validator.rankBankRange spec decoded = rankBankRange spec decoded := by
  unfold Validator.rankBankRange rankBankRange rankIndex
  rw [scopeCount_bank inside]

/-! ### Banks -/

/-- The replayed bank is the online one. While it activates, it keeps the deadlines, the row and the
request of the latest first activate. -/
structure BankMirrors (latest : Option IssuedCommand) (bank : BankState)
    (replayed : Validator.BankState) : Prop where
  openRow : replayed.openRow = bank.openRow
  activating : replayed.activating = bank.activating
  second : bank.activating = true →
    replayed.nextAct2 = bank.nextAct2 ∧ replayed.act2Deadline = bank.act2Deadline ∧
      ∃ first, latest = some first ∧ replayed.activatingRow = some first.decoded.row ∧
        replayed.activatingRequest = first.requestId

theorem BankMirrors.busy {latest : Option IssuedCommand} {bank : BankState}
    {replayed : Validator.BankState} (mirrors : BankMirrors latest bank replayed) :
    replayed.busy = bank.busy := by
  unfold Validator.BankState.busy BankState.busy
  rw [mirrors.openRow, mirrors.activating]

/-- Every replayed bank mirrors the online one. -/
def BanksMirror (spec : DramSpec) (trace : List IssuedCommand) (banks : Nat → BankState)
    (replayed : Nat → Validator.BankState) : Prop :=
  ∀ flat, BankMirrors (latestFirstActivate spec trace flat) (banks flat) (replayed flat)

section Banks

variable {banks : Nat → BankState} {replayed : Nat → Validator.BankState}

theorem replayBanks_one (inside : issued.decoded.InBounds spec) (one : issued.command ≠ .preab)
    (flat : Nat) : Validator.replayBanks spec issued replayed flat =
      if issued.decoded.flatBank spec = flat then
        Validator.replayTarget spec issued (replayed flat)
      else replayed flat := by
  unfold Validator.replayBanks
  rw [if_neg one, scopeIndex_bank inside, Function.update_apply]
  split
  next here => rw [if_pos here.symm, here]
  next elsewhere => rw [if_neg (Ne.symm elsewhere)]

/-- An all-bank command other than PREab, and the dual-bank refresh, replay to nothing. -/
theorem replayBanks_wide (wide : touchesOneBank issued.command = false)
    (notPreab : issued.command ≠ .preab) :
    Validator.replayBanks spec issued replayed = replayed := by
  unfold Validator.replayBanks Validator.replayTarget
  rw [if_neg notPreab]
  rcases not_touchesOneBank wide with preab | refab | rfmab | refdb
  · exact absurd preab notPreab
  · rw [refab]
    exact Function.update_eq_self ..
  · rw [rfmab]
    exact Function.update_eq_self ..
  · rw [refdb]
    exact Function.update_eq_self ..

/-- A command changes the bank of its address in the same way on both sides. -/
theorem BankMirrors.target {latest : Option IssuedCommand} {bank : BankState}
    {replayed : Validator.BankState} (mirrors : BankMirrors latest bank replayed)
    (address : request.decoded = issued.decoded) (one : touchesOneBank issued.command = true)
    (idle : NotActivating issued.command bank)
    (closed : issued.command = .act1 → bank.openRow = none)
    (fits : ∀ delay ∈ replayDelays spec, issued.cycle + delay ≤ uint64Max) :
    BankMirrors (if issued.command = .act1 then some issued else latest)
      (targetBank spec request issued.command issued.cycle bank)
      (Validator.replayTarget spec issued replayed) := by
  obtain ⟨openRow, activating, second⟩ := mirrors
  unfold targetBank Validator.replayTarget
  rw [address]
  cases command : issued.command with
  | act =>
    have quiet : bank.activating = false := idle (by simp [command])
    exact ⟨rfl, quiet.symm, fun active => absurd (quiet.symm.trans active) nofun⟩
  | act1 =>
    refine ⟨(closed command).symm, rfl, fun _ => ⟨?_, ?_, issued, if_pos rfl, rfl, rfl⟩⟩
    · exact laterCycle_eq (fits _ (by simp [replayDelays]))
    · exact laterCycle_eq (fits _ (by simp [replayDelays]))
  | act2 | pre | prepb => exact ⟨rfl, rfl, nofun⟩
  | rda | wra =>
    have quiet : bank.activating = false := idle (by simp [command])
    exact ⟨rfl, activating, fun active => absurd (quiet.symm.trans active) nofun⟩
  | preab | refab | rfmab | refdb =>
    rw [command] at one
    cases one
  | _ => exact ⟨openRow, activating, second⟩

/-- The banks mirror each other after a command too. -/
theorem BanksMirror.replay (mirrors : BanksMirror spec trace banks replayed)
    (inside : issued.decoded.InBounds spec) (address : request.decoded = issued.decoded)
    (idle : NotActivating issued.command (banks (request.decoded.flatBank spec)))
    (closed : issued.command = .act1 → (banks (request.decoded.flatBank spec)).openRow = none)
    (fits : ∀ delay ∈ replayDelays spec, issued.cycle + delay ≤ uint64Max) :
    BanksMirror spec (trace ++ [issued])
      (issueBanks spec request issued.command issued.cycle banks)
      (Validator.replayBanks spec issued replayed) := by
  intro flat
  cases one : touchesOneBank issued.command with
  | true =>
    have notPreab : issued.command ≠ .preab := (of_decide_eq_true one).1
    rw [issueBanks_one one, replayBanks_one inside notPreab, address,
      latestFirstActivate_concat]
    by_cases here : issued.decoded.flatBank spec = flat
    · rw [address, here] at idle closed
      simp only [here, and_true, if_true]
      exact (mirrors flat).target address one idle closed fits
    · simp only [here, and_false, if_false]
      exact mirrors flat
  | false =>
    have notAct1 : issued.command ≠ .act1 := fun first => by rw [first] at one; cases one
    rw [latestFirstActivate_concat, if_neg fun both => notAct1 both.1]
    obtain ⟨openRow, activating, second⟩ := mirrors flat
    by_cases preab : issued.command = .preab
    · rw [preab, issueBanks_preab, address]
      unfold Validator.replayBanks
      rw [if_pos preab, replayRankBankRange_eq inside]
      by_cases within : inRank spec issued.decoded flat
      · rw [if_pos within]
        dsimp only
        rw [if_pos (show _ ∧ _ from within)]
        exact ⟨rfl, rfl, nofun⟩
      · rw [if_neg within]
        dsimp only
        rw [if_neg (show ¬ (_ ∧ _) from within)]
        exact ⟨openRow, activating, second⟩
    · rw [replayBanks_wide one preab]
      rcases not_touchesOneBank one with is | refab | rfmab | refdb
      · exact absurd is preab
      · rw [refab, issueBanks_refab]
        split <;> exact ⟨openRow, activating, second⟩
      · rw [rfmab, issueBanks_rfmab]
        split <;> exact ⟨openRow, activating, second⟩
      · rw [refdb]
        obtain ⟨nextAct, after, -⟩ := @issueBanks_refdb spec request issued.cycle banks flat
        rw [after]
        exact ⟨openRow, activating, second⟩

end Banks

/-! ### Legality -/

namespace Controller

variable {β : Type} {c : Controller β} {replayed : Nat → Validator.BankState}
variable {channel : Validator.ScopeState}

theorem bankState_closed (command : Command) :
    (c.stateSnapshot request command).bankState = .closed ↔ (c.bankOf request).busy = false := by
  rw [stateSnapshot_bankState, ← BankState.phase_closed_iff]
  cases (c.bankOf request).phase <;> simp

theorem bankState_activating (command : Command) :
    (c.stateSnapshot request command).bankState = .activating ↔
      (c.bankOf request).activating = true := by
  unfold stateSnapshot
  dsimp only
  cases (c.bankOf request).activating <;> cases (c.bankOf request).openRow <;> simp

theorem bankState_opened (command : Command) :
    (c.stateSnapshot request command).bankState = .opened ↔
      (c.bankOf request).activating = false ∧ (c.bankOf request).openRow.isSome = true := by
  unfold stateSnapshot
  dsimp only
  cases (c.bankOf request).activating <;> cases (c.bankOf request).openRow <;> simp

/-- The replayed power and training flags are the controller's, and only an explicit command has
put the channel into low power. -/
structure ChannelMirrors (c : Controller β) (channel : Validator.ScopeState) : Prop where
  powerDown : channel.powerDown = c.explicitPowerDownActive
  selfRefresh : channel.selfRefresh = c.explicitSelfRefreshActive
  wckRetrainRequired : channel.wckRetrainRequired = c.wckRetrainRequired
  lowPowerActive : c.lowPowerActive = (c.explicitPowerDownActive || c.explicitSelfRefreshActive)
  retrains : c.wckRetrainRequired = true → c.spec.lpddrFamily = true

/-- A question to the banks of a range has the same answer on both sides. -/
theorem anyBank_eq {banks : Nat → BankState} {select : BankState → Bool}
    {replayedSelect : Validator.BankState → Bool} (range : Nat × Nat)
    (same : ∀ flat, replayedSelect (replayed flat) = select (banks flat)) :
    Validator.anyBank range replayed replayedSelect = anyBank range.1 range.2 banks select := by
  unfold Validator.anyBank anyBank
  simp only [same]

section Mirrored

variable (mirrors : BanksMirror c.spec trace c.banks replayed)
include mirrors

theorem replayed_busyInChannel (inside : issued.decoded.InBounds c.spec) :
    Validator.anyBankBusyInChannel c.spec issued replayed =
      c.anyBankBusyInChannel issued.decoded := by
  unfold Validator.anyBankBusyInChannel Validator.channelBankRange anyBankBusyInChannel
  rw [scopeCount_bank inside]
  exact anyBank_eq _ fun flat => (mirrors flat).busy

theorem replayed_busyInRank (inside : issued.decoded.InBounds c.spec) :
    Validator.anyBankBusyInRank c.spec issued replayed = c.anyBankBusyInRank issued.decoded := by
  unfold Validator.anyBankBusyInRank anyBankBusyInRank
  rw [replayRankBankRange_eq inside]
  exact anyBank_eq _ fun flat => (mirrors flat).busy

theorem replayed_activatingInRank (inside : issued.decoded.InBounds c.spec) :
    Validator.anyBankActivatingInRank c.spec issued replayed =
      c.anyBankActivatingInRank issued.decoded := by
  unfold Validator.anyBankActivatingInRank anyBankActivatingInRank
  rw [replayRankBankRange_eq inside]
  exact anyBank_eq _ fun flat => (mirrors flat).activating

end Mirrored

/-- What a second activate still needs: its owner and its deadline. -/
structure SecondActivateDue (c : Controller β) (trace : List IssuedCommand)
    (issued : IssuedCommand) : Prop where
  owned : ∀ first,
    latestFirstActivate c.spec trace (issued.decoded.flatBank c.spec) = some first →
    issued.requestId = first.requestId ∧ issued.decoded.row = first.decoded.row
  deadline : issued.cycle ≤ (c.banks (issued.decoded.flatBank c.spec)).act2Deadline

/-- A command the gates find legal meets every requirement of the replay. -/
theorem checkState_clean (mirrors : BanksMirror c.spec trace c.banks replayed)
    (mirrored : ChannelMirrors c channel) (inside : issued.decoded.InBounds c.spec)
    (address : request.decoded = issued.decoded) (now : issued.cycle = c.clk)
    (legal : c.stateOk request issued.command = true)
    (opens : c.gatesOpen request issued.command = true)
    (second : issued.command = .act2 → SecondActivateDue c trace issued)
    (dualBank : issued.command = .refdb → c.spec.lpddrDualBankRefresh = true)
    (selfRefresh : issued.command = .srefex → c.explicitSelfRefreshActive = true) :
    Validator.checkState c.spec issued replayed channel = [] := by
  obtain ⟨cycle, requestId, command, bus, decoded, stackId, systemAddress, address'⟩ := issued
  dsimp only at *
  subst address now
  have bank := mirrors (request.decoded.flatBank c.spec)
  have busy := bank.busy
  obtain ⟨openRow, activating, keeps⟩ := bank
  have closed := @bankState_closed request β c command
  have opened := @bankState_opened request β c command
  have inProgress := @bankState_activating request β c command
  have busyBanks : (c.stateSnapshot request command).anyBankBusy =
      if command = .preab ∨ command = .refab ∨ command = .rfmab then
        c.anyBankBusyInRank request.decoded
      else c.anyBankBusyInChannel request.decoded := rfl
  have sleep : (c.stateSnapshot request command).selfRefreshActive = false →
      channel.selfRefresh = false := fun awake => by
    rw [mirrored.selfRefresh]
    exact (Bool.or_eq_false_iff.mp awake).1
  have power : (c.stateSnapshot request command).lowPowerActive = false →
      channel.powerDown = false := fun awake => by
    rw [mirrored.powerDown]
    exact (Bool.or_eq_false_iff.mp awake).1
  unfold bankOf at closed opened inProgress
  unfold stateOk checkCommandState at legal
  split at legal
  next => cases legal
  next awake =>
    unfold Validator.checkState
    rw [Validator.failures_eq_nil, List.forall_mem_cons]
    refine ⟨?_, ?_⟩
    · rw [Bool.or_eq_true, Bool.not_eq_true', decide_eq_true_eq]
      refine or_iff_not_imp_right.mpr fun other => sleep ?_
      exact Bool.eq_false_of_not_eq_true fun asleep => awake ⟨asleep, other⟩
    unfold Validator.stateRequirements
    rw [scopeIndex_bank inside, scopeIndex_bank (TimingEngine.inBounds_partner inside),
      replayed_busyInChannel mirrors inside, replayed_busyInRank mirrors inside,
      replayed_activatingInRank mirrors inside]
    unfold legalOutsideSelfRefresh at legal
    have access : (c.banks (request.decoded.flatBank c.spec)).activating = false →
        (c.banks (request.decoded.flatBank c.spec)).openRow = some request.decoded.row →
        (replayed (request.decoded.flatBank c.spec)).openedRow request.decoded.row = true := by
      intro quiet hit
      unfold Validator.BankState.openedRow
      rw [openRow, activating, quiet, hit, decide_eq_true rfl]
      rfl
    have trained : c.wckRetrainRequired = false → channel.wckRetrainRequired = false :=
      mirrored.wckRetrainRequired.trans
    -- A device outside the LPDDR family never asks for training.
    have settled : (!c.spec.lpddrFamily || (c.wckReadyForData request &&
        !c.wckRetrainRequired)) = true → channel.wckRetrainRequired = false := by
      intro ready
      refine trained (Bool.eq_false_of_not_eq_true fun required => ?_)
      rw [mirrored.retrains required, required] at ready
      simp at ready
    cases command <;>
      simp only [List.forall_mem_cons, List.not_mem_nil, false_imp_iff, implies_true, and_true,
        Bool.and_eq_true, Bool.not_eq_true', decide_eq_true_eq, closed, opened, inProgress,
        busyBanks, reduceCtorEq, or_self, or_true, or_false, if_true, if_false,
        busy] at legal ⊢
    case act | preab => exact legal
    case refab | refpb | rfmab | rfmpb => exact legal.2
    case act1 =>
      unfold gatesOpen at opens
      simp only [Bool.and_eq_true, Bool.not_eq_true'] at opens
      exact ⟨legal.1, legal.2, opens.2⟩
    case act2 =>
      obtain ⟨owned, deadline⟩ := second rfl
      obtain ⟨early, late, first, latest, row, owner⟩ := keeps legal.1.2
      obtain ⟨sameRequest, sameRow⟩ := owned first latest
      unfold gatesOpen bankOf at opens
      simp only [Bool.and_eq_true, decide_eq_true_eq] at opens
      refine ⟨legal.1.1, activating.trans legal.1.2, owner.trans sameRequest.symm,
        row.trans (congrArg some sameRow.symm), ?_, ?_⟩
      · rw [early]
        exact opens.1.2
      · rw [late]
        exact deadline
    case pre | prepb => exact ⟨activating.trans legal.1, by rw [openRow]; exact legal.2⟩
    case casrd | caswr =>
      exact ⟨legal.1.1.1, access legal.1.1.2.1 (of_decide_eq_true legal.1.2), trained legal.2⟩
    case rd | wr | rda | wra =>
      exact ⟨access legal.1.1.1 (of_decide_eq_true legal.1.2), settled legal.2⟩
    case refdb =>
      unfold gatesOpen dualBankTargetIdle at opens
      simp only [Bool.and_eq_true, Bool.not_eq_true'] at opens
      refine ⟨dualBank rfl, legal.2, (mirrors _).busy.trans opens.1.1.1.1.1.2⟩
    case mrw | mrr => exact ⟨legal.1.1.2, power legal.1.2.1, sleep legal.1.2.2⟩
    case wcksync => exact ⟨legal.1.1.1, sleep legal.1.1.2.2, trained legal.2⟩
    case wcktrain =>
      exact ⟨legal.1.1.1.1, legal.1.1.2, power legal.1.2.1, sleep legal.1.2.2⟩
    case dvfs => exact ⟨legal.1.1.1.1, legal.1.1.2⟩
    case pde => exact ⟨legal.1.1.2, power legal.1.2.1, sleep legal.1.2.2⟩
    case pdx =>
      have notSelf : c.explicitSelfRefreshActive = false := (Bool.or_eq_false_iff.mp legal.2).1
      have low : (c.explicitPowerDownActive ||
          (c.lowPowerActive && decide (c.spec.lowPowerMode ≠ .selfRefresh))) = true := legal.1.2
      rw [mirrored.lowPowerActive, notSelf, Bool.or_false] at low
      rw [mirrored.powerDown]
      rcases Bool.or_eq_true_iff.mp low with down | down
      · exact down
      · exact (Bool.and_eq_true_iff.mp down).1
    case srefen => exact ⟨legal.1.1.2, sleep legal.1.2⟩
    case srefex => exact mirrored.selfRefresh.trans (selfRefresh rfl)
    case eccscrub => exact ⟨legal.1.1.2, legal.1.2⟩
    case raserr =>
      rw [Bool.or_assoc]
      exact legal.1.2

/-! ### Power and training -/

section Effects

variable {candidate : Candidate} {memPhy : MemPhy} {memoryImage : MemoryImage β}

/-- The training flag and the edge record before a command's own effect are the controller's. -/
theorem execute_records (c : Controller β) (candidate : Candidate) (request : Request) :
    (c.execute candidate request).wckRetrainRequired = c.wckRetrainRequired ∧
      (c.execute candidate request).risingEdge = c.risingEdge ∧
      (c.execute candidate request).spec = c.spec ∧ (c.execute candidate request).clk = c.clk := by
  unfold execute
  dsimp only
  split
  · exact ⟨rfl, rfl, rfl, rfl⟩
  · rw [scheduleMaintenance_eq]
    exact ⟨rfl, rfl, rfl, rfl⟩

theorem issueEffects_wckRetrainRequired :
    (c.issueEffects candidate request memPhy memoryImage).wckRetrainRequired =
      match candidate.command with
      | .dvfs => c.spec.lpddrRequiresWckRetrainAfterDvfs || c.wckRetrainRequired
      | .wcktrain => false
      | _ => c.wckRetrainRequired := by
  obtain ⟨retrain, -, spec, -⟩ := execute_records { c with memPhy, memoryImage } candidate request
  unfold issueEffects
  rw [recordIssue_eq]
  dsimp only at retrain spec ⊢
  generalize ({ c with memPhy, memoryImage } : Controller β).execute candidate request =
    executed at retrain spec
  unfold applyPowerCommand
  cases candidate.command <;> try exact retrain
  · rfl
  · dsimp only
    rw [spec]
    split
    next required => rw [required, Bool.true_or]
    next free => rw [Bool.eq_false_of_not_eq_true free, Bool.false_or, retrain]

/-- The edge record once a command has issued. -/
def edgeRecord (c : Controller β) (request : Request) (issued : Command) (bus : BusClass) :
    RisingEdgeCommandInfo :=
  if c.spec.hbmEdgePairing = true ∧ bus = .row ∧ c.isRisingEdge = true then
    { command := issued
      pseudoChannel := some request.decoded.pseudoChannel
      bankKey := if (commandMeta issued).allBank then none else some (c.bankKey request.decoded)
      nextPairingFallingEdge := c.clk + if issued = .act then 3 else 1 }
  else c.risingEdge

theorem recordIssue_risingEdge (c : Controller β) (request : Request) (issued : Command)
    (bus : BusClass) :
    (c.recordIssue request issued bus).risingEdge = c.edgeRecord request issued bus := by
  unfold recordIssue edgeRecord
  dsimp only
  split
  next edge => exact (if_pos edge).symm
  next other => exact (if_neg other).symm

theorem issueEffects_risingEdge :
    (c.issueEffects candidate request memPhy memoryImage).risingEdge =
      c.edgeRecord request candidate.command candidate.bus := by
  obtain ⟨-, edge, spec, clk⟩ := execute_records { c with memPhy, memoryImage } candidate request
  unfold issueEffects
  dsimp only at edge spec clk ⊢
  rw [recordIssue_risingEdge, applyPowerCommand_eq]
  unfold edgeRecord isRisingEdge bankKey
  dsimp only
  rw [edge, spec, clk]

/-- The replayed flags after a command, in the form of the online ones. -/
theorem replayChannel_flags (spec : DramSpec) (issued : IssuedCommand)
    (channel : Validator.ScopeState) :
    (Validator.replayChannel spec issued channel).powerDown =
        (decide (issued.command = .pde) ||
          (channel.powerDown && !decide (issued.command = .pdx))) ∧
      (Validator.replayChannel spec issued channel).selfRefresh =
        (decide (issued.command = .srefen) ||
          (channel.selfRefresh && !decide (issued.command = .srefex))) ∧
      (Validator.replayChannel spec issued channel).wckRetrainRequired =
        match issued.command with
        | .dvfs => spec.lpddrRequiresWckRetrainAfterDvfs || channel.wckRetrainRequired
        | .wcktrain => false
        | _ => channel.wckRetrainRequired := by
  unfold Validator.replayChannel
  cases issued.command <;> simp
  cases spec.lpddrRequiresWckRetrainAfterDvfs <;> simp

theorem lpddrFamily_of_retrains (required : spec.lpddrRequiresWckRetrainAfterDvfs = true) :
    spec.lpddrFamily = true := by
  unfold DramSpec.lpddrRequiresWckRetrainAfterDvfs at required
  by_contra other
  rw [Bool.not_eq_true] at other
  rw [other, Bool.not_false, Bool.true_or, Bool.true_or, if_pos rfl] at required
  cases required

/-- The flags agree after a command. -/
theorem ChannelMirrors.replay (mirrored : ChannelMirrors c channel)
    (same : issued.command = candidate.command) :
    ChannelMirrors (c.issueEffects candidate request memPhy memoryImage)
      (Validator.replayChannel c.spec issued channel) := by
  obtain ⟨powerDown, selfRefresh, retrain, lowPower, retrains⟩ := mirrored
  obtain ⟨down, self, low⟩ := issueEffects_power c candidate request memPhy memoryImage
  obtain ⟨replayedDown, replayedSelf, replayedRetrain⟩ := replayChannel_flags c.spec issued channel
  have retrainAfter := @issueEffects_wckRetrainRequired request β c candidate memPhy memoryImage
  have spec := @issueEffects_spec β c candidate request memPhy memoryImage
  have required := @lpddrFamily_of_retrains c.spec
  generalize c.issueEffects candidate request memPhy memoryImage = after at *
  rw [same] at replayedDown replayedSelf replayedRetrain
  refine ⟨?_, ?_, ?_, ?_, ?_⟩
  · rw [replayedDown, down, powerDown]
  · rw [replayedSelf, self, selfRefresh]
  · rw [replayedRetrain, retrainAfter, retrain]
  · rw [low, down, self, lowPower]
    cases candidate.command <;> simp
  · rw [retrainAfter, spec]
    intro isRequired
    cases command : candidate.command <;> rw [command] at isRequired
    case dvfs => exact (Bool.or_eq_true_iff.mp isRequired).elim required retrains
    case wcktrain => cases isRequired
    all_goals exact retrains isRequired

end Effects

end Controller

end HbmSim
