/-
The precharge gate of a bank: a bank stays open for its row cycle after the
activate, for the read-to-precharge time after a read and for the write recovery
after a write.

The gate of a bank is the highest of these times. A precharge of the bank alone
waits for it. A precharge of the whole rank does not, so it is in time only when
the gates of all open banks happen to be past.
-/

import HbmSim.BankHistory
import HbmSim.Lib.History
import HbmSim.Lib.Watermark
import HbmSim.TimingTable

namespace HbmSim

variable {spec : DramSpec} {request : Request} {issued : Command} {clk : Nat}
variable {banks : Nat → BankState} {flat : Nat}

/-! ### The rule -/

/-- The cycle from which a command lets its bank be precharged. -/
def prechargeReady (spec : DramSpec) (issued : IssuedCommand) : Nat :=
  match issued.command with
  | .act | .act1 => issued.cycle + timingDelay spec spec.timing.nRAS
  | .rd | .rda => issued.cycle + timingDelay spec spec.timing.nRTP
  | .wr | .wra => issued.cycle +
      timingDelay spec (spec.timing.nCWL + spec.timing.nBL + spec.timing.nWR)
  | _ => 0

def atBank (spec : DramSpec) (issued : IssuedCommand) (flat : Nat) : Prop :=
  issued.decoded.flatBank spec = flat

instance (issued : IssuedCommand) : Decidable (atBank spec issued flat) :=
  inferInstanceAs (Decidable (_ = _))

/-- A precharge closes the bank of its address, or all banks of the rank. -/
def precharges (spec : DramSpec) (issued : IssuedCommand) (flat : Nat) : Prop :=
  ((issued.command = .pre ∨ issued.command = .prepb) ∧ atBank spec issued flat) ∨
    (issued.command = .preab ∧ inRank spec issued.decoded flat)

/-- Every precharge of an open bank comes after all times the bank's commands ask for. -/
def PrechargesInTime (spec : DramSpec) (commands : List IssuedCommand) : Prop :=
  History.Each (fun earlier precharge => ∀ flat row, precharges spec precharge flat →
    bankPhase spec earlier flat = .opened row →
    ∀ issued ∈ earlier, atBank spec issued flat → prechargeReady spec issued ≤ precharge.cycle)
    commands

/-! ### The gate -/

/-- The highest time that the commands ask for, bank by bank. -/
def prechargeGate (spec : DramSpec) (commands : List IssuedCommand) : Nat → Nat :=
  commands.foldl (Watermark.raise (atBank spec) (prechargeReady spec)) fun _ => 0

theorem prechargeGate_le {commands : List IssuedCommand} {bound : Nat} :
    prechargeGate spec commands flat ≤ bound ↔
      ∀ issued ∈ commands, atBank spec issued flat → prechargeReady spec issued ≤ bound := by
  unfold prechargeGate
  rw [Watermark.foldl_raise_le]
  exact and_iff_right (Nat.zero_le _)

theorem prechargeGate_concat (commands : List IssuedCommand) (record : IssuedCommand) :
    prechargeGate spec (commands ++ [record]) =
      Watermark.raise (atBank spec) (prechargeReady spec) (prechargeGate spec commands)
        record := by
  unfold prechargeGate
  rw [List.foldl_append]
  rfl

/-- Only the commands of a bank alone move its gate. -/
theorem issueBanks_nextPre_wide (wide : touchesOneBank issued = false) :
    (issueBanks spec request issued clk banks flat).nextPre = (banks flat).nextPre := by
  rcases not_touchesOneBank wide with rfl | rfl | rfl | rfl
  · rw [issueBanks_preab]
    split <;> rfl
  · rw [issueBanks_refab]
    split <;> rfl
  · rw [issueBanks_rfmab]
    split <;> rfl
  · obtain ⟨nextAct, after, -⟩ := @issueBanks_refdb spec request clk banks flat
    rw [after]

/-- The gate of a bank rises to what a command asks for, if an activate does not lower it. -/
theorem issueBanks_nextPre {record : IssuedCommand} (decoded : record.decoded = request.decoded)
    (cycle : record.cycle = clk)
    (raises : record.command = .act ∨ record.command = .act1 →
      (banks (request.decoded.flatBank spec)).nextPre ≤ clk + timingDelay spec spec.timing.nRAS) :
    (issueBanks spec request record.command clk banks flat).nextPre =
      Watermark.raise (atBank spec) (prechargeReady spec) (fun flat => (banks flat).nextPre)
        record flat := by
  unfold Watermark.raise
  cases one : touchesOneBank record.command with
  | true =>
    rw [issueBanks_one one, ← decoded]
    split
    next here =>
      rw [if_pos (show atBank spec record flat from here)]
      rw [← decoded, here] at raises
      unfold prechargeReady
      rw [cycle]
      cases command : record.command with
      | act | act1 => exact (max_eq_right (raises (by simp [command]))).symm
      | rd | rda | wr | wra => rfl
      | preab | refab | rfmab | refdb => rw [command] at one; cases one
      | _ => exact (Nat.max_zero _).symm
    next elsewhere => rw [if_neg (show ¬ atBank spec record flat from elsewhere)]
  | false =>
    rw [issueBanks_nextPre_wide one]
    split
    · unfold prechargeReady
      cases command : record.command with
      | preab | refab | rfmab | refdb => exact (Nat.max_zero _).symm
      | _ => rw [command] at one; cases one
    · rfl

namespace Controller

variable {β : Type} {c before after chosen : Controller β} {commands : List IssuedCommand}
variable {candidate : Candidate} {bus : BusClass}

/-- A precharge of a rank that finds every open bank past its gate, or an activate that does not
lower the gate of its bank. -/
def PrechargeAllowed (c : Controller β) (request : Request) : Command → Prop
  | .preab => ∀ flat < (rankBankRange c.spec request.decoded).2,
      (rankBankRange c.spec request.decoded).1 ≤ flat → (c.banks flat).openRow ≠ none →
        (c.banks flat).nextPre ≤ c.clk
  | .act | .act1 => (c.bankOf request).nextPre ≤ c.clk + timingDelay c.spec c.spec.timing.nRAS
  | _ => True

instance (command : Command) : Decidable (c.PrechargeAllowed request command) := by
  unfold PrechargeAllowed
  split <;> infer_instance

def PrechargeGuarded (c : Controller β) (bus : BusClass) : Prop :=
  ∀ pick ∈ c.picked bus, c.PrechargeAllowed pick.1 pick.2

instance : Decidable (c.PrechargeGuarded bus) := by
  unfold PrechargeGuarded
  infer_instance

/-- Every precharge so far was in time, and the gates stand where the commands ask. -/
structure PrechargeTracked (commands : List IssuedCommand) (c : Controller β) : Prop where
  inTime : PrechargesInTime c.spec commands
  phases : PhasesTracked commands c
  gates : ∀ flat, (c.banks flat).nextPre = prechargeGate c.spec commands flat

theorem PrechargeTracked.quiet (tracked : PrechargeTracked commands before)
    (keeps : DeviceKept before after) : PrechargeTracked commands after := by
  refine ⟨?_, tracked.phases.quiet keeps, ?_⟩
  · rw [keeps.spec]
    exact tracked.inTime
  · rw [keeps.spec, keeps.banks]
    exact tracked.gates

/-- A precharge of one bank waits for the gate of the bank. -/
theorem Issuable.nextPre_le (issuable : Issuable c candidate request)
    (precharge : candidate.command = .pre ∨ candidate.command = .prepb) :
    (c.bankOf request).nextPre ≤ c.clk := by
  have gates := issuable.gates
  unfold gatesOpen at gates
  rcases precharge with is | is <;>
    · rw [is] at gates
      simp only [Bool.and_eq_true] at gates
      exact of_decide_eq_true gates.1.2

theorem PrechargeTracked.issue (tracked : PrechargeTracked commands c)
    (issuable : Issuable c candidate request)
    (allowed : c.PrechargeAllowed request candidate.command) {memPhy : MemPhy}
    {memoryImage : MemoryImage β} :
    PrechargeTracked (commands ++ [c.issuedRecord request candidate])
      (c.issueEffects candidate request memPhy memoryImage) := by
  refine ⟨?_, tracked.phases.issue issuable, fun flat => ?_⟩
  · rw [issueEffects_spec]
    refine History.each_concat.mpr ⟨tracked.inTime, fun flat row closes opened => ?_⟩
    refine prechargeGate_le.mp ?_
    rw [← tracked.gates flat]
    rw [← tracked.phases flat] at opened
    rcases closes with ⟨command, here⟩ | ⟨command, inside⟩
    · have waits := issuable.nextPre_le command
      rwa [show c.bankOf request = c.banks flat from congrArg c.banks here] at waits
    · have command : candidate.command = .preab := command
      rw [command] at allowed
      exact allowed flat inside.2 inside.1 (by rw [BankState.phase_opened opened]; nofun)
  · have raised := @issueBanks_nextPre c.spec request c.clk c.banks flat
      (c.issuedRecord request candidate) rfl rfl ?_
    · rw [issueEffects_banks, issueEffects_spec, prechargeGate_concat]
      refine raised.trans ?_
      rw [funext tracked.gates]
    · rintro (is | is)
      · have command : candidate.command = .act := is
        rw [command] at allowed
        exact allowed
      · have command : candidate.command = .act1 := is
        rw [command] at allowed
        exact allowed

/-- Choosing changes nothing the guard looks at. -/
theorem Choosing.prechargeAllowed {command : Command} (choosing : Choosing c chosen)
    (allowed : c.PrechargeAllowed request command) : chosen.PrechargeAllowed request command := by
  have keeps := choosing.housekeeping
  unfold PrechargeAllowed bankOf at *
  rw [keeps.spec, keeps.banks, keeps.clk]
  exact allowed

/-- In every run whose turns allow it, every precharge of an open bank comes at least the row cycle
after the bank's activates, the read-to-precharge time after its reads and the write recovery after
its writes. -/
theorem precharges_in_time [MemoryBackend β] {spec : DramSpec} {options : ControllerOptions}
    {image : MemoryImage β} {start final : Controller β} {ops : List ControllerOp}
    {events : List ControllerEvent} (created : create spec options image = .ok start)
    (guarded : start.RunMeets (fun _ _ => True) PrechargeGuarded ops)
    (returns : start.run ops = .ok (events, final)) :
    PrechargesInTime spec (commandsOf events) := by
  have kept : Kept (fun _ _ => True) PrechargeGuarded
      fun events (c : Controller β) => PrechargeTracked (commandsOf events) c :=
    kept_of_commands (fun _ _ _ tracked keeps => tracked.quiet keeps)
      fun _ _ _ _ _ _ _ _ tracked guard choosing picks issuable _ =>
        tracked.issue issuable (choosing.prechargeAllowed (guard _ picks))
  have begins : PrechargeTracked (commandsOf []) start := by
    rw [(create_created created).result]
    exact ⟨History.Each.nil, fun _ => rfl, fun _ => rfl⟩
  have tracked := kept.run begins guarded returns
  rw [← (run_configuration (create_created created) returns).1]
  exact tracked.inTime

/-- The device with two banks, with the table of its family. -/
def finalTwoBanks : DramSpec :=
  { twoBanks with timingConstraints := makeHbmConstraints twoBanks.timing }

/-- A read, and a precharge of the rank some ticks later. -/
def readThenPreab (ticks : Nat) : List ControllerOp :=
  .enqueue (readAt finalTwoBanks 1 0 4) :: List.replicate ticks .tick ++
    [.enqueue (maintain 2 .preab), .tick]

theorem precharges_in_time_lateRank : ∃ start events final,
    create finalTwoBanks {} (imageOf finalTwoBanks) = .ok start ∧
      start.run (readThenPreab 50) = .ok (events, final) ∧
      { cycle := 51, requestId := 2, command := .preab } ∈ commandsOf events ∧
      PrechargesInTime finalTwoBanks (commandsOf events) := by
  obtain ⟨start, events, final, created, guarded, returns, checks⟩ :=
    guardedRun_of_passes finalTwoBanks {} (readThenPreab 50) (fun _ _ => True) PrechargeGuarded
      (fun result => decide
        ({ cycle := 51, requestId := 2, command := .preab } ∈ commandsOf result.1))
      (by decide +kernel) (by decide +kernel)
  exact ⟨start, events, final, created, returns, of_decide_eq_true checks,
    precharges_in_time created guarded returns⟩

/-- One tick after a read its rank is precharged, although the row must stay open. -/
theorem precharge_rank_after_read : finalizeSpec twoBanks = .ok finalTwoBanks ∧
    ∃ start events final, create finalTwoBanks {} (imageOf finalTwoBanks) = .ok start ∧
      start.run (readThenPreab 21) = .ok (events, final) ∧
      ¬ PrechargesInTime finalTwoBanks (commandsOf events) := by
  obtain ⟨start, events, final, created, returns, checks⟩ :=
    freshRun_of_passes finalTwoBanks {} (readThenPreab 21)
      (fun result => decide (commandsOf result.1 = [
        { cycle := 1, requestId := 1, command := .act },
        { cycle := 21, requestId := 1, command := .rd },
        { cycle := 22, requestId := 2, command := .preab }]))
      (by decide +kernel)
  refine ⟨rfl, start, events, final, created, returns, fun inTime => ?_⟩
  rw [of_decide_eq_true checks] at inTime
  have waits := inTime [{ cycle := 1, requestId := 1, command := .act },
      { cycle := 21, requestId := 1, command := .rd }] _ [] rfl 0 0
    (Or.inr ⟨rfl, by decide⟩) rfl { cycle := 21, requestId := 1, command := .rd }
    (List.mem_cons_of_mem _ List.mem_cons_self) rfl
  exact absurd waits (by decide)

end Controller

end HbmSim
