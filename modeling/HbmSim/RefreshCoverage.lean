/-
The banks that an all-bank refresh reaches. A batch names every pseudo channel and
every stack id of a rank, in channel zero; the executor gates the banks of one
channel, pseudo channel, stack id and rank for each command. So a batch covers its
rank when the organization has no other channel, and no bank of another channel
otherwise.
-/

import HbmSim.BankHistory
import HbmSim.TimingMeaning

namespace HbmSim

variable {spec : DramSpec} {rank : Nat} {state : RankRefreshState}
variable {banks : Nat → BankState} {issued : List IssuedCommand}

/-! ### The banks of a rank -/

theorem inRank_iff {decoded target : DecodedAddress} (inside : decoded.InBounds spec)
    (inside' : target.InBounds spec) :
    inRank spec decoded (target.flatBank spec) ↔
      bucketOf .rank decoded = bucketOf .rank target := by
  have below := scopeIndex_lt_scopeCount inside' .bank
  rw [scopeCount_bank inside'] at below
  unfold inRank rankBankRange rankIndex
  dsimp only
  rw [← scopeIndex_bank inside', lt_min_iff, and_iff_right below]
  exact rankInterval_iff inside inside'

/-! ### Executing a batch -/

/-- The banks after the commands, issued one after the other. -/
def executed (spec : DramSpec) (issued : List IssuedCommand) (banks : Nat → BankState) :
    Nat → BankState :=
  issued.foldl (fun banks record =>
    issueBanks spec { decoded := record.decoded } record.command record.cycle banks) banks

/-- What a batch asked for, of a command that was issued. -/
def IssuedCommand.asked (record : IssuedCommand) : MaintenanceCommand where
  command := record.command
  decoded := record.decoded

/-- However a batch is issued, in any order and at any cycles and from any state of the banks, each
bank of the rank is held back by one of its commands, and the banks of other ranks are as before. -/
def GatesRank (spec : DramSpec) (rank : Nat) (batch : List MaintenanceCommand) : Prop :=
  ∀ issued : List IssuedCommand, (issued.map IssuedCommand.asked).Perm batch →
    ∀ (banks : Nat → BankState) (target : DecodedAddress), target.InBounds spec →
      (target.rank = rank → ∃ record ∈ issued,
        executed spec issued banks (target.flatBank spec) =
          { banks (target.flatBank spec) with
            nextAct := max (banks (target.flatBank spec)).nextAct
              (record.cycle + timingDelay spec spec.timing.nRFC) }) ∧
      (target.rank ≠ rank →
        executed spec issued banks (target.flatBank spec) = banks (target.flatBank spec))

/-- Refreshes of other ranks leave a bank as it is. -/
theorem executed_outside {flat : Nat}
    (outside : ∀ record ∈ issued,
      record.command = .refab ∧ ¬ inRank spec record.decoded flat) :
    executed spec issued banks flat = banks flat := by
  induction issued generalizing banks with
  | nil => rfl
  | cons record rest inductionHypothesis =>
    obtain ⟨refab, elsewhere⟩ := outside record List.mem_cons_self
    refine (inductionHypothesis fun other member =>
      outside other (List.mem_cons_of_mem _ member)).trans ?_
    dsimp only
    rw [refab, issueBanks_refab]
    exact if_neg elsewhere

theorem executed_append (front back : List IssuedCommand) :
    executed spec (front ++ back) banks = executed spec back (executed spec front banks) :=
  List.foldl_append ..

/-- The one refresh of its rank gates a bank. -/
theorem executed_once {flat : Nat} {front back : List IssuedCommand} {record : IssuedCommand}
    (before : ∀ other ∈ front, other.command = .refab ∧ ¬ inRank spec other.decoded flat)
    (here : record.command = .refab ∧ inRank spec record.decoded flat)
    (behind : ∀ other ∈ back, other.command = .refab ∧ ¬ inRank spec other.decoded flat) :
    executed spec (front ++ record :: back) banks flat =
      { banks flat with
        nextAct := max (banks flat).nextAct (record.cycle + timingDelay spec spec.timing.nRFC) } := by
  have first : executed spec front banks flat = banks flat := executed_outside before
  rw [executed_append]
  refine (executed_outside behind).trans ?_
  dsimp only
  rw [here.1, issueBanks_refab, if_pos here.2, first]

/-! ### The batch -/

/-- The refresh of one pseudo channel and stack id. -/
def rankRefresh (rank pseudoChannel sid : Nat) : MaintenanceCommand where
  command := .refab
  decoded := { pseudoChannel, sid, rank }

section Batch

variable (accepted : validateSpec spec = .ok ()) (allBank : spec.refreshPolicy = .allBank)
variable (inside : rank < spec.org.ranks)

include allBank in
theorem mem_rankBatch {command : MaintenanceCommand} :
    command ∈ (seedRefreshBatch spec rank state).1 ↔
      ∃ pseudoChannel < max 1 spec.org.pseudoChannels, ∃ sid < max 1 spec.org.sids,
        command = rankRefresh rank pseudoChannel sid := by
  unfold seedRefreshBatch
  rw [if_pos allBank]
  simp only [List.mem_flatMap, List.mem_map, List.mem_range, rankRefresh, eq_comm]

include allBank in
/-- No pseudo channel and stack id is named twice. -/
theorem rankBatch_nodup : (seedRefreshBatch spec rank state).1.Nodup := by
  unfold seedRefreshBatch
  rw [if_pos allBank]
  refine List.nodup_flatMap.mpr ⟨fun pseudoChannel _ => ?_, ?_⟩
  · refine List.nodup_range.map fun sid sid' same => ?_
    exact congrArg (fun command : MaintenanceCommand => command.decoded.sid) same
  · refine List.nodup_range.imp fun differ => ?_
    intro command left right
    obtain ⟨_, -, rfl⟩ := List.mem_map.mp left
    obtain ⟨_, -, same⟩ := List.mem_map.mp right
    exact differ (congrArg (fun command : MaintenanceCommand =>
      command.decoded.pseudoChannel) same).symm

include accepted inside in
theorem rankRefresh_inBounds {pseudoChannel sid : Nat}
    (channel : pseudoChannel < max 1 spec.org.pseudoChannels)
    (stack : sid < max 1 spec.org.sids) :
    (rankRefresh rank pseudoChannel sid).decoded.InBounds spec := by
  obtain ⟨channels, pseudoChannels, sids, -, bankGroups, banksPerGroup, rows, columns, -⟩ :=
    validateSpec_positive accepted
  rw [max_eq_right pseudoChannels] at channel
  rw [max_eq_right sids] at stack
  exact ⟨channels, channel, stack, inside, bankGroups, banksPerGroup, rows, columns⟩

include accepted inside in
/-- A refresh reaches the banks of channel zero at its other coordinates. -/
theorem rankRefresh_reaches {pseudoChannel sid : Nat} {target : DecodedAddress}
    (channel : pseudoChannel < max 1 spec.org.pseudoChannels)
    (stack : sid < max 1 spec.org.sids) (inTarget : target.InBounds spec) :
    inRank spec (rankRefresh rank pseudoChannel sid).decoded (target.flatBank spec) ↔
      0 = target.channel ∧ pseudoChannel = target.pseudoChannel ∧ sid = target.sid ∧
        rank = target.rank := by
  rw [inRank_iff (rankRefresh_inBounds accepted inside channel stack) inTarget]
  simp only [bucketOf, rankRefresh, List.cons.injEq, and_true]

variable (fromBatch : (issued.map IssuedCommand.asked).Perm (seedRefreshBatch spec rank state).1)

include allBank fromBatch in
theorem issued_rankRefresh {record : IssuedCommand} (member : record ∈ issued) :
    ∃ pseudoChannel < max 1 spec.org.pseudoChannels, ∃ sid < max 1 spec.org.sids,
      record.asked = rankRefresh rank pseudoChannel sid :=
  (mem_rankBatch allBank).mp (fromBatch.mem_iff.mp (List.mem_map_of_mem member))

include accepted allBank inside fromBatch in
/-- The banks outside channel zero and the banks of other ranks are as before. -/
theorem executed_beyond {target : DecodedAddress} (inTarget : target.InBounds spec)
    (beyond : target.channel ≠ 0 ∨ target.rank ≠ rank) :
    executed spec issued banks (target.flatBank spec) = banks (target.flatBank spec) := by
  refine executed_outside fun record member => ?_
  obtain ⟨pseudoChannel, channel, sid, stack, named⟩ :=
    issued_rankRefresh allBank fromBatch member
  refine ⟨congrArg MaintenanceCommand.command named, fun within => ?_⟩
  have address : record.decoded = (rankRefresh rank pseudoChannel sid).decoded :=
    congrArg MaintenanceCommand.decoded named
  rw [address, rankRefresh_reaches accepted inside channel stack inTarget] at within
  rcases beyond with channelDiffers | rankDiffers
  · exact channelDiffers within.1.symm
  · exact rankDiffers within.2.2.2.symm

include accepted allBank inside fromBatch in
/-- A bank of the rank in channel zero is gated by the refresh at its pseudo channel and stack
id, and by no other. -/
theorem executed_within {target : DecodedAddress} (inTarget : target.InBounds spec)
    (first : target.channel = 0) (same : target.rank = rank) :
    ∃ record ∈ issued, executed spec issued banks (target.flatBank spec) =
      { banks (target.flatBank spec) with
        nextAct := max (banks (target.flatBank spec)).nextAct
          (record.cycle + timingDelay spec spec.timing.nRFC) } := by
  have asked : rankRefresh rank target.pseudoChannel target.sid ∈ issued.map IssuedCommand.asked :=
    fromBatch.mem_iff.mpr ((mem_rankBatch allBank).mpr
      ⟨_, lt_max_of_lt_right inTarget.pseudoChannel, _, lt_max_of_lt_right inTarget.sid, rfl⟩)
  obtain ⟨record, member, named⟩ := List.mem_map.mp asked
  have once : (issued.map IssuedCommand.asked).Nodup :=
    fromBatch.nodup_iff.mpr (rankBatch_nodup allBank)
  have differs : ∀ other ∈ issued, other.asked ≠ record.asked →
      other.command = .refab ∧ ¬ inRank spec other.decoded (target.flatBank spec) := by
    intro other isOther differ
    obtain ⟨pseudoChannel, channel, sid, stack, is⟩ := issued_rankRefresh allBank fromBatch isOther
    refine ⟨congrArg MaintenanceCommand.command is, fun within => differ ?_⟩
    have address : other.decoded = (rankRefresh rank pseudoChannel sid).decoded :=
      congrArg MaintenanceCommand.decoded is
    rw [address, rankRefresh_reaches accepted inside channel stack inTarget] at within
    rw [is, named, within.2.1, within.2.2.1]
  have here : record.command = .refab ∧ inRank spec record.decoded (target.flatBank spec) := by
    have address : record.decoded = (rankRefresh rank target.pseudoChannel target.sid).decoded :=
      congrArg MaintenanceCommand.decoded named
    rw [address, rankRefresh_reaches accepted inside (lt_max_of_lt_right inTarget.pseudoChannel)
      (lt_max_of_lt_right inTarget.sid) inTarget]
    exact ⟨congrArg MaintenanceCommand.command named, first.symm, rfl, rfl, same.symm⟩
  obtain ⟨front, back, rfl⟩ := List.append_of_mem member
  rw [List.map_append, List.map_cons, List.nodup_middle, ← List.map_append] at once
  have alone : ∀ other ∈ front ++ back, other.asked ≠ record.asked := fun other isOther equal =>
    (List.nodup_cons.mp once).1 (equal ▸ List.mem_map_of_mem isOther)
  refine ⟨record, member, executed_once ?_ here ?_⟩
  · exact fun other isOther => differs other (List.mem_append_left _ isOther)
      (alone other (List.mem_append_left _ isOther))
  · exact fun other isOther => differs other
      (List.mem_append_right _ (List.mem_cons_of_mem _ isOther))
      (alone other (List.mem_append_right _ isOther))

include accepted allBank inside in
/-- With a second channel, a bank there is not gated. -/
theorem not_gatesRank (second : 1 < spec.org.channels) :
    ¬ GatesRank spec rank (seedRefreshBatch spec rank state).1 := by
  intro gates
  obtain ⟨-, pseudoChannels, sids, -, bankGroups, banksPerGroup, rows, columns, -⟩ :=
    validateSpec_positive accepted
  have inTarget : ({ channel := 1, rank } : DecodedAddress).InBounds spec :=
    ⟨second, pseudoChannels, sids, inside, bankGroups, banksPerGroup, rows, columns⟩
  let atCycleOne : MaintenanceCommand → IssuedCommand := fun command =>
    { cycle := 1, command := command.command, decoded := command.decoded }
  have fromBatch : (((seedRefreshBatch spec rank state).1.map atCycleOne).map
      IssuedCommand.asked).Perm (seedRefreshBatch spec rank state).1 := by
    rw [List.map_map]
    exact (List.map_id _).symm ▸ List.Perm.refl _
  obtain ⟨record, member, gated⟩ :=
    (gates _ fromBatch (fun _ => {}) _ inTarget).1 rfl
  rw [executed_beyond accepted allBank inside fromBatch inTarget (Or.inl Nat.one_ne_zero)] at gated
  obtain ⟨command, -, rfl⟩ := List.mem_map.mp member
  have held := congrArg BankState.nextAct gated
  have later : 0 = max 0 (1 + timingDelay spec spec.timing.nRFC) := held
  omega

end Batch

/-- The commands of one all-bank batch, once executed, gate every bank of the rank and no bank of
another rank exactly when the organization has one channel. -/
theorem allBankRefresh_gates_iff (accepted : validateSpec spec = .ok ())
    (allBank : spec.refreshPolicy = .allBank) (inside : rank < spec.org.ranks) :
    GatesRank spec rank (seedRefreshBatch spec rank state).1 ↔ spec.org.channels = 1 := by
  have positive := (validateSpec_positive accepted).channels
  constructor
  · intro gates
    by_contra several
    exact not_gatesRank accepted allBank inside (by omega) gates
  · intro one issued fromBatch banks target inTarget
    have first : target.channel = 0 := Nat.lt_one_iff.mp (one ▸ inTarget.channel)
    exact ⟨executed_within accepted allBank inside fromBatch inTarget first,
      fun other => executed_beyond accepted allBank inside fromBatch inTarget (Or.inr other)⟩

/-- A device of two pseudo channels and two stack ids that refreshes whole ranks. -/
def wholeRanks (channels : Nat) : DramSpec :=
  { smallSpec with
    org := { smallSpec.org with channels, pseudoChannels := 2, sids := 2 }
    refreshPolicy := .allBank }

theorem allBankRefresh_gates_oneChannel :
    GatesRank (wholeRanks 1) 0 (seedRefreshBatch (wholeRanks 1) 0 {}).1 :=
  (allBankRefresh_gates_iff (by decide) rfl (by decide)).mpr rfl

theorem second_channel_not_gated :
    validateSpec (wholeRanks 2) = .ok () ∧
      ¬ GatesRank (wholeRanks 2) 0 (seedRefreshBatch (wholeRanks 2) 0 {}).1 :=
  ⟨by decide, not_gatesRank (by decide) rfl (by decide) (by decide)⟩

end HbmSim
