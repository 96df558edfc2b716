/-
The books of the ClosedCap row policy. The engine keeps a counter and a flag for each
bank: the column accesses since the row was last closed, and whether a precharge of
the policy is queued. They are exact in every run in which each bank is closed by the
policy's own precharge while one is queued for it, and an all-bank precharge finds
nothing to forget outside its rank: the engine clears all banks there, while the
device closes the banks of one rank.
-/

import HbmSim.BankHistory
import HbmSim.Conservation
import HbmSim.IndexCodings
import HbmSim.KindCount
import HbmSim.MaintenanceAccount

namespace HbmSim

variable {spec : DramSpec} {decoded : DecodedAddress} {issued : Command} {flat : Nat}

/-! ### The accesses by the commands -/

/-- What a command makes of the column accesses of a bank. -/
def accessesAfter (spec : DramSpec) (decoded : DecodedAddress) (issued : Command) (flat : Nat)
    (accesses : Nat) : Nat :=
  let here := decoded.flatBank spec = flat
  match issued with
  | .rd | .wr => if here then accesses + 1 else accesses
  | .pre | .prepb | .rda | .wra => if here then 0 else accesses
  | .preab => if inRank spec decoded flat then 0 else accesses
  | _ => accesses

/-- The reads and writes issued to a bank since its row was last closed. -/
def bankAccesses (spec : DramSpec) (commands : List IssuedCommand) (flat : Nat) : Nat :=
  commands.foldl (fun accesses issued =>
    accessesAfter spec issued.decoded issued.command flat accesses) 0

theorem bankAccesses_concat (commands : List IssuedCommand) (record : IssuedCommand) :
    bankAccesses spec (commands ++ [record]) flat =
      accessesAfter spec record.decoded record.command flat (bankAccesses spec commands flat) := by
  unfold bankAccesses
  rw [List.foldl_append]
  rfl

/-- The commands that close the bank of their address. -/
def closesBank (issued : Command) : Bool :=
  decide (issued = .pre ∨ issued = .prepb ∨ issued = .rda ∨ issued = .wra)

theorem accessesAfter_eq (accesses : Nat) : accessesAfter spec decoded issued flat accesses =
    if (issued = .preab ∧ inRank spec decoded flat) ∨
      (closesBank issued = true ∧ decoded.flatBank spec = flat) then 0
    else if (issued = .rd ∨ issued = .wr) ∧ decoded.flatBank spec = flat then accesses + 1
    else accesses := by
  cases issued <;> simp [accessesAfter, closesBank]

/-- A bank that a command leaves closed, without closing it, was closed. -/
theorem phaseAfter_closed {phase : BankPhase} (preab : issued ≠ .preab)
    (stays : ¬ (closesBank issued = true ∧ decoded.flatBank spec = flat))
    (closed : phaseAfter spec decoded issued flat phase = .closed) : phase = .closed := by
  cases issued with
  | act | act1 | act2 =>
    unfold phaseAfter at closed
    dsimp only at closed
    split at closed
    · cases closed
    · exact closed
  | pre | prepb | rda | wra => rwa [phaseAfter, if_neg fun here => stays ⟨by decide, here⟩] at closed
  | preab => exact absurd rfl preab
  | _ => exact closed

/-! ### The engine -/

namespace RowPolicyEngine

variable {engine : RowPolicyEngine}

/-- Nothing is counted or pending for a bank. -/
def Clear (engine : RowPolicyEngine) (flat : Nat) : Prop :=
  engine.columnAccesses flat = 0 ∧ engine.prechargePending flat = false

theorem closing_iff (issued : Command) :
    (commandMeta issued).closing = true ↔ issued = .preab ∨ closesBank issued = true := by
  cases issued <;> decide

theorem allBank_closing_iff (issued : Command) :
    ((commandMeta issued).allBank = true ∧ (commandMeta issued).closing = true) ↔
      issued = .preab := by
  cases issued <;> decide

theorem accessing_iff (issued : Command) (stays : closesBank issued = false) :
    (commandMeta issued).accessing = true ↔ issued = .rd ∨ issued = .wr := by
  cases issued <;> first | decide | cases stays

/-- How the engine takes a command: an all-bank precharge clears every bank, another closing command
its own, and a read or a write is counted. -/
theorem onIssue_eq (engine : RowPolicyEngine) (target : Nat) (issued : Command) :
    engine.onIssue .closedCap target issued =
      if issued = .preab then
        { engine with columnAccesses := fun _ => 0, prechargePending := fun _ => false }
      else if engine.bankCount ≤ target then engine
      else if closesBank issued = true then { engine with
        columnAccesses := Function.update engine.columnAccesses target 0
        prechargePending := Function.update engine.prechargePending target false }
      else if issued = .rd ∨ issued = .wr then { engine with
        columnAccesses :=
          Function.update engine.columnAccesses target (engine.columnAccesses target + 1) }
      else engine := by
  unfold onIssue
  rw [if_neg (by decide)]
  by_cases preab : issued = .preab
  · rw [if_pos ((allBank_closing_iff issued).mpr preab), if_pos preab]
  · rw [if_neg fun both => preab ((allBank_closing_iff issued).mp both), if_neg preab]
    refine if_congr Iff.rfl rfl ?_
    cases closes : closesBank issued with
    | true => rw [if_pos ((closing_iff issued).mpr (Or.inr closes)), if_pos rfl]
    | false =>
      have open' : ¬ (commandMeta issued).closing = true := fun closing =>
        ((closing_iff issued).mp closing).elim preab fun absurd =>
          Bool.false_ne_true (closes.symm.trans absurd)
      rw [if_neg open', if_neg Bool.false_ne_true]
      exact if_congr (accessing_iff issued closes) rfl rfl

/-- A precharge of a bank with nothing to forget changes nothing. -/
theorem onIssue_clear (clear : flat < engine.bankCount → engine.Clear flat) :
    engine.onIssue .closedCap flat .prepb = engine := by
  rw [onIssue_eq, if_neg (by decide)]
  split
  · rfl
  next small =>
    obtain ⟨accesses, pending⟩ := clear (Nat.not_le.mp small)
    rw [if_pos (by decide), ← accesses, ← pending, Function.update_eq_self,
      Function.update_eq_self]

/-- The counter of a bank after a command, as the engine keeps it. -/
theorem onIssue_columnAccesses (engine : RowPolicyEngine) (target : Nat) (issued : Command)
    (inside : flat < engine.bankCount) :
    (engine.onIssue .closedCap target issued).columnAccesses flat =
      if issued = .preab ∨ (closesBank issued = true ∧ target = flat) then 0
      else if (issued = .rd ∨ issued = .wr) ∧ target = flat then engine.columnAccesses flat + 1
      else engine.columnAccesses flat := by
  rw [onIssue_eq]
  by_cases here : target = flat
  · subst here
    simp only [and_true, if_neg (Nat.not_le.mpr inside)]
    by_cases preab : issued = .preab
    · rw [if_pos preab, if_pos (Or.inl preab)]
    · simp only [preab, if_false, false_or]
      split
      · exact Function.update_self ..
      split
      · exact Function.update_self ..
      · rfl
  · simp only [here, and_false, or_false, if_false]
    split
    · rfl
    split
    · rfl
    split
    · exact Function.update_of_ne (Ne.symm here) ..
    split
    · exact Function.update_of_ne (Ne.symm here) ..
    · rfl

theorem onIssue_prechargePending (engine : RowPolicyEngine) (target : Nat) (issued : Command)
    (inside : flat < engine.bankCount) :
    (engine.onIssue .closedCap target issued).prechargePending flat =
      if issued = .preab ∨ (closesBank issued = true ∧ target = flat) then false
      else engine.prechargePending flat := by
  rw [onIssue_eq]
  by_cases here : target = flat
  · subst here
    simp only [and_true, if_neg (Nat.not_le.mpr inside)]
    by_cases preab : issued = .preab
    · rw [if_pos preab, if_pos (Or.inl preab)]
    · simp only [preab, if_false, false_or]
      split
      · exact Function.update_self ..
      split <;> rfl
  · simp only [here, and_false, or_false]
    split
    · rfl
    split
    · rfl
    split
    · exact Function.update_of_ne (Ne.symm here) ..
    split <;> rfl

theorem onIssue_kept (engine : RowPolicyEngine) (target : Nat) (issued : Command) :
    (engine.onIssue .closedCap target issued).bankCount = engine.bankCount ∧
      (engine.onIssue .closedCap target issued).cap = engine.cap := by
  rw [onIssue_eq]
  split
  · exact ⟨rfl, rfl⟩
  split
  · exact ⟨rfl, rfl⟩
  split
  · exact ⟨rfl, rfl⟩
  split <;> exact ⟨rfl, rfl⟩

end RowPolicyEngine

namespace Controller

variable {β : Type} {c chosen after : Controller β} {request : Request} {candidate : Candidate}
variable {bus : BusClass} {commands : List IssuedCommand}

/-! ### The books -/

/-- A precharge of a bank that the row policy made: requests from outside have a sequence. -/
def isPolicyPrecharge (spec : DramSpec) (flat : Nat) (request : Request) : Bool :=
  decide (request.type = .maintenance ∧ request.next = .prepb ∧ request.controllerSequence = 0 ∧
    request.decoded.flatBank spec = flat)

theorem isPolicyPrecharge_special (spec : DramSpec) (flat : Nat) :
    Special (isPolicyPrecharge spec flat) where
  next request selected := Or.inl (of_decide_eq_true selected).2.1
  marks other request command := by
    unfold isPolicyPrecharge
    rw [issueRequest_eq]

/-- The precharges of the policy that are queued for a bank. -/
def policyPrecharges (c : Controller β) (flat : Nat) : Nat :=
  c.queuedCount (isPolicyPrecharge c.spec flat)

/-- The counter of each bank is that of the commands, and its flag is set exactly while one
precharge of the policy is queued. -/
def PolicyAccounted (spec : DramSpec) (commands : List IssuedCommand) (c : Controller β) : Prop :=
  ∀ flat < spec.bankCount,
    c.rowPolicy.columnAccesses flat = bankAccesses spec commands flat ∧
      (c.rowPolicy.prechargePending flat = true ↔ c.policyPrecharges flat = 1)

/-- A command closes no bank that a precharge of the policy is queued for, unless for that precharge,
and as an all-bank precharge it finds nothing counted or queued outside the rank it closes. -/
structure ClosesFor (c : Controller β) (request : Request) (command : Command) : Prop where
  one : closesBank command = true →
    isPolicyPrecharge c.spec (request.decoded.flatBank c.spec) request = true ∨
      c.policyPrecharges (request.decoded.flatBank c.spec) = 0
  all : command = .preab → ∀ flat < c.spec.bankCount, c.policyPrecharges flat = 0 ∧
    (inRank c.spec request.decoded flat ∨ c.rowPolicy.columnAccesses flat = 0)

/-- The turn's command, if there is one, closes banks that way. -/
def ClosesByPolicy (c : Controller β) (bus : BusClass) : Prop :=
  ∀ request command, c.picked bus = some (request, command) → c.ClosesFor request command

/-- The books, and what keeps them: a bank with something to forget is not closed. -/
structure PolicyBooked (spec : DramSpec) (commands : List IssuedCommand) (c : Controller β) :
    Prop where
  positive : spec.org.Positive
  spec_eq : c.spec = spec
  closedCap : c.options.rowPolicy = .closedCap
  bankCount : c.rowPolicy.bankCount = spec.bankCount
  cap : 0 < c.rowPolicy.cap
  sequence : 0 < c.nextControllerSequence
  accesses : ∀ flat < spec.bankCount,
    c.rowPolicy.columnAccesses flat = bankAccesses spec commands flat
  flags : ∀ flat < spec.bankCount,
    c.policyPrecharges flat = if c.rowPolicy.prechargePending flat then 1 else 0
  opened : ∀ flat < spec.bankCount, (c.banks flat).phase = .closed → c.rowPolicy.Clear flat

theorem PolicyBooked.accounted (booked : PolicyBooked spec commands c) :
    PolicyAccounted spec commands c := by
  intro flat inside
  refine ⟨booked.accesses flat inside, ?_⟩
  rw [booked.flags flat inside]
  split
  next set => exact ⟨fun _ => rfl, fun _ => set⟩
  next clear => exact ⟨fun set => absurd set clear, nofun⟩

/-- A change that leaves the policy, its precharges and the banks. -/
theorem PolicyBooked.of_same (booked : PolicyBooked spec commands c)
    (spec_eq : after.spec = c.spec) (options : after.options = c.options)
    (rowPolicy : after.rowPolicy = c.rowPolicy)
    (sequence : c.nextControllerSequence ≤ after.nextControllerSequence)
    (banks : after.banks = c.banks)
    (count : ∀ flat < spec.bankCount, after.policyPrecharges flat = c.policyPrecharges flat) :
    PolicyBooked spec commands after where
  positive := booked.positive
  spec_eq := spec_eq.trans booked.spec_eq
  closedCap := options ▸ booked.closedCap
  bankCount := rowPolicy ▸ booked.bankCount
  cap := rowPolicy ▸ booked.cap
  sequence := booked.sequence.trans_le sequence
  accesses := rowPolicy ▸ booked.accesses
  flags flat inside := by
    rw [count flat inside, rowPolicy]
    exact booked.flags flat inside
  opened := by
    rw [rowPolicy, banks]
    exact booked.opened

theorem PolicyBooked.steady (booked : PolicyBooked spec commands c) (steady : Steady c after)
    (keeps : Housekeeping c after) : PolicyBooked spec commands after := by
  refine booked.of_same keeps.spec keeps.options steady.rowPolicy
    (Nat.le_of_eq keeps.nextControllerSequence.symm) keeps.banks fun flat _ => ?_
  unfold policyPrecharges
  rw [keeps.spec]
  exact steady.count _ (isPolicyPrecharge_special c.spec flat)

/-! ### The precharges of the policy -/

/-- A bank at its cap is not closed, so the precharge that is queued for it finds it open. -/
theorem PolicyBooked.schedulePrecharge (booked : PolicyBooked spec commands c) {flat : Nat}
    (inside : flat < spec.bankCount) : PolicyBooked spec commands (c.schedulePrecharge flat) := by
  have frame := schedulePrecharge_housekeeping c flat
  rcases schedulePrecharge_cases c flat with ⟨rowPolicy, same⟩ | ⟨due, rowPolicy, joined⟩
  · refine booked.of_same frame.spec frame.options rowPolicy
      (Nat.le_of_eq frame.nextControllerSequence.symm) frame.banks fun other _ => ?_
    unfold policyPrecharges
    rw [frame.spec, same]
  · unfold RowPolicyEngine.shouldSchedulePrecharge RowPolicyEngine.shouldAutoPrecharge at due
    rw [Bool.and_eq_true, Bool.and_eq_true, decide_eq_true_eq, Bool.not_eq_true'] at due
    obtain ⟨⟨⟨-, -, reached⟩, -⟩, clear⟩ := due
    have marked : c.rowPolicy.markPrechargePending flat = { c.rowPolicy with
        prechargePending := Function.update c.rowPolicy.prechargePending flat true } :=
      if_pos (booked.bankCount ▸ inside)
    have here : (decodedFromFlatBank c.spec flat).flatBank c.spec = flat := by
      rw [booked.spec_eq]
      exact flatBank_decodedFromFlatBank booked.positive flat
    rw [marked] at rowPolicy
    refine ⟨booked.positive, frame.spec.trans booked.spec_eq, frame.options ▸ booked.closedCap,
      ?_, ?_, frame.nextControllerSequence ▸ booked.sequence, ?_, ?_, ?_⟩
    · rw [rowPolicy]
      exact booked.bankCount
    · rw [rowPolicy]
      exact booked.cap
    · rw [rowPolicy]
      exact booked.accesses
    · intro other inside'
      have counted : c.queuedCount (isPolicyPrecharge c.spec other) = _ :=
        booked.flags other inside'
      have flag : (c.schedulePrecharge flat).rowPolicy.prechargePending other =
          Function.update c.rowPolicy.prechargePending flat true other := by
        rw [rowPolicy]
      unfold policyPrecharges
      rw [frame.spec, joined, counted, flag]
      by_cases same : other = flat
      · have selected : isPolicyPrecharge c.spec other (maintenanceRequest c.nextMaintenanceId
            .prepb (decodedFromFlatBank c.spec flat) c.clk) = true :=
          decide_eq_true ⟨rfl, rfl, rfl, here.trans same.symm⟩
        rw [if_pos selected, same, clear, Function.update_self]
        rfl
      · have unselected : ¬ isPolicyPrecharge c.spec other (maintenanceRequest
            c.nextMaintenanceId .prepb (decodedFromFlatBank c.spec flat) c.clk) = true :=
          fun selected => same ((of_decide_eq_true selected).2.2.2.symm.trans here)
        rw [if_neg unselected, Function.update_of_ne same]
        rfl
    · intro other inside' closed
      rw [frame.banks] at closed
      have nothing := booked.opened other inside' closed
      rw [rowPolicy]
      refine ⟨nothing.1, ?_⟩
      dsimp only
      rw [Function.update_of_ne]
      · exact nothing.2
      · rintro rfl
        have low := booked.cap.trans_le reached
        rw [nothing.1] at low
        exact absurd low (lt_irrefl 0)

theorem PolicyBooked.upkeep (booked : PolicyBooked spec commands c) :
    PolicyBooked spec commands c.upkeep := by
  have serviced := booked.steady (serviced_steady c) (serviced_frame c)
  rw [upkeep_eq_serviced]
  unfold applyRowPolicyPreSchedule
  split
  · exact serviced
  · refine List.foldlRecOn _ Controller.schedulePrecharge serviced fun middle kept flat member => ?_
    rw [serviced.bankCount] at member
    exact kept.schedulePrecharge (List.mem_range.mp member)

/-! ### The choice -/

/-- A closed bank has nothing to forget, so dropping its satisfied precharges changes nothing. -/
theorem dropSatisfied_clear {banks : Nat → BankState} {engine : RowPolicyEngine}
    (clear : ∀ flat < engine.bankCount, (banks flat).busy = false → engine.Clear flat)
    (requests : List Request) :
    (dropSatisfied spec .closedCap banks requests engine).2 = engine := by
  induction requests with
  | nil => rfl
  | cons request rest inductionHypothesis =>
    unfold dropSatisfied
    dsimp only
    split
    next satisfied =>
      rw [RowPolicyEngine.onIssue_clear fun inside => clear _ inside satisfied.2]
      exact inductionHypothesis
    · rfl

theorem PolicyBooked.retireSatisfied_rowPolicy (booked : PolicyBooked spec commands c) :
    c.retireSatisfied.rowPolicy = c.rowPolicy := by
  unfold Controller.retireSatisfied
  dsimp only
  rw [booked.closedCap]
  refine dropSatisfied_clear (fun flat inside quiet => ?_) _
  rw [booked.bankCount] at inside
  exact booked.opened flat inside (BankState.phase_closed_iff.mpr quiet)

theorem PolicyBooked.retireSatisfied (booked : PolicyBooked spec commands c) :
    PolicyBooked spec commands c.retireSatisfied := by
  refine booked.of_same rfl rfl booked.retireSatisfied_rowPolicy (Nat.le_refl _) rfl
    fun flat inside => ?_
  have dropped : c.retireSatisfied.requestQueues.queue .priority =
      (c.requestQueues.queue .priority).dropWhile c.satisfied := by
    unfold Controller.retireSatisfied
    dsimp only
    rw [put_queue_self]
    exact dropSatisfied_eq ..
  -- What the choice drops is none of the policy: a bank that one is queued for is open.
  have others : ((c.requestQueues.queue .priority).takeWhile c.satisfied).countP
      (isPolicyPrecharge c.spec flat) = 0 := by
    refine List.countP_eq_zero.mpr fun request member selected => ?_
    have holds := List.mem_takeWhile_imp member
    unfold satisfied at holds
    rw [Bool.and_eq_true, Bool.not_eq_true'] at holds
    have here := (of_decide_eq_true selected).2.2.2
    have quiet : (c.banks flat).busy = false := here ▸ holds.2
    have nothing := booked.opened flat inside (BankState.phase_closed_iff.mpr quiet)
    have queued : 0 < c.policyPrecharges flat := queuedCount_pos (List.mem_append_left _
      (List.takeWhile_sublist _ |>.subset member)) selected
    rw [booked.flags flat inside, nothing.2] at queued
    exact absurd queued (lt_irrefl 0)
  have split := congrArg (List.countP (isPolicyPrecharge c.spec flat))
    (List.takeWhile_append_dropWhile (p := c.satisfied) (l := c.requestQueues.queue .priority))
  rw [List.countP_append, others, Nat.zero_add] at split
  show List.countP _ (_ ++ c.pendingMaintenance) = List.countP _ (_ ++ c.pendingMaintenance)
  rw [dropped, List.countP_append, List.countP_append]
  exact congrArg (· + _) split

theorem setWriteMode_steady (c : Controller β) : Steady c c.setWriteMode := by
  unfold setWriteMode
  dsimp only
  split <;> split <;> exact ⟨fun _ _ => rfl, rfl, rfl⟩

theorem PolicyBooked.choose {found : Option Candidate} (booked : PolicyBooked spec commands c)
    (chooses : c.choose bus = .ok (found, chosen)) :
    PolicyBooked spec commands chosen ∧ chosen.rowPolicy = c.rowPolicy := by
  rcases choose_chosen chooses with rfl | rfl | rfl
  · exact ⟨booked, rfl⟩
  · exact ⟨booked.retireSatisfied, booked.retireSatisfied_rowPolicy⟩
  · exact ⟨booked.retireSatisfied.steady (setWriteMode_steady _) (setWriteMode_housekeeping _),
      (setWriteMode_steady _).rowPolicy.trans booked.retireSatisfied_rowPolicy⟩

theorem ClosesFor.choosing (closes : c.ClosesFor request issued) (choosing : Choosing c chosen)
    (rowPolicy : chosen.rowPolicy = c.rowPolicy) : chosen.ClosesFor request issued := by
  have spec := choosing.housekeeping.spec
  have none : ∀ flat, c.policyPrecharges flat = 0 → chosen.policyPrecharges flat = 0 := by
    intro flat empty
    unfold policyPrecharges at *
    rw [spec]
    exact Nat.le_zero.mp ((choosing.count_le _).trans_eq empty)
  refine ⟨fun one => ?_, fun preab flat inside => ?_⟩
  · rw [spec]
    exact (closes.one one).imp_right (none _)
  · rw [spec] at inside
    rw [spec, rowPolicy]
    exact ⟨none flat (closes.all preab flat inside).1, (closes.all preab flat inside).2⟩

/-! ### A command -/

/-- A read or a write goes to a bank that is not closed. -/
theorem opened_of_access (legal : (checkCommandState (c.stateSnapshot request candidate.command)
      candidate.command).legal = true)
    (access : candidate.command = .rd ∨ candidate.command = .wr) :
    (c.bankOf request).phase ≠ .closed := by
  intro closed
  unfold checkCommandState legalOutsideSelfRefresh at legal
  rw [stateSnapshot_bankState, closed] at legal
  rcases access with rd | wr
  · rw [rd] at legal
    split at legal <;> simp at legal
  · rw [wr] at legal
    split at legal <;> simp at legal

section Command

variable (booked : PolicyBooked spec commands chosen)
variable (closes : chosen.ClosesFor request candidate.command)
variable (counted : TurnCount chosen candidate request after)

include booked closes counted

/-- The counter is that of the commands after the command, too. -/
theorem issued_accesses (inside : flat < spec.bankCount) :
    after.rowPolicy.columnAccesses flat = bankAccesses spec
      (commands ++ [chosen.issuedRecord request candidate]) flat := by
  have step : bankAccesses chosen.spec (commands ++ [chosen.issuedRecord request candidate]) flat =
      if (candidate.command = .preab ∧ inRank chosen.spec request.decoded flat) ∨
        (closesBank candidate.command = true ∧ request.decoded.flatBank chosen.spec = flat) then 0
      else if (candidate.command = .rd ∨ candidate.command = .wr) ∧
          request.decoded.flatBank chosen.spec = flat then
        bankAccesses chosen.spec commands flat + 1
      else bankAccesses chosen.spec commands flat :=
    (bankAccesses_concat commands _).trans (accessesAfter_eq _)
  have before := booked.accesses flat inside
  rw [counted.rowPolicy, booked.closedCap,
    RowPolicyEngine.onIssue_columnAccesses _ _ _ (booked.bankCount ▸ inside), ← booked.spec_eq,
    step]
  rw [← booked.spec_eq] at before
  by_cases preab : candidate.command = .preab
  · rw [if_pos (Or.inl preab)]
    split
    · rfl
    next elsewhere =>
      rw [not_or] at elsewhere
      rcases (closes.all preab flat (booked.spec_eq ▸ inside)).2 with inRank | nothing
      · exact absurd ⟨preab, inRank⟩ elsewhere.1
      · rw [if_neg, ← before, nothing]
        rintro ⟨rd | wr, -⟩
        · cases preab.symm.trans rd
        · cases preab.symm.trans wr
  · simp only [preab, false_and, false_or]
    split
    · rfl
    split
    · rw [before, Nat.cast_add, Nat.cast_one]
    · exact before

/-- The flag is set exactly while one precharge of the policy is queued, after the command, too. -/
theorem issued_flags (issuable : Issuable chosen candidate request)
    (spec_eq : after.spec = chosen.spec) (inside : flat < spec.bankCount) :
    after.policyPrecharges flat = if after.rowPolicy.prechargePending flat then 1 else 0 := by
  have before : chosen.queuedCount (isPolicyPrecharge chosen.spec flat) =
    if chosen.rowPolicy.prechargePending flat then 1 else 0 := booked.flags flat inside
  have moved := counted.count _ (isPolicyPrecharge_special chosen.spec flat)
  have asks : askedCount (isPolicyPrecharge chosen.spec flat) chosen
      (issueRfm chosen.spec request candidate.command chosen.rfmManager).1 = 0 := by
    cases asked : (issueRfm chosen.spec request candidate.command chosen.rfmManager).1 with
    | none => rfl
    | some mitigation =>
      refine if_neg fun selected => ?_
      have precharge : mitigation.command = .prepb := (of_decide_eq_true selected).2.1
      rw [(issueRfm_asked asked).2.2] at precharge
      split at precharge <;> cases precharge
  have flag : after.rowPolicy.prechargePending flat =
      if candidate.command = .preab ∨
        (closesBank candidate.command = true ∧ request.decoded.flatBank chosen.spec = flat) then false
      else chosen.rowPolicy.prechargePending flat := by
    rw [counted.rowPolicy, booked.closedCap]
    exact RowPolicyEngine.onIssue_prechargePending _ _ _ (booked.bankCount ▸ inside)
  rw [asks, Nat.add_zero] at moved
  unfold policyPrecharges
  rw [spec_eq, flag]
  by_cases clears : candidate.command = .preab ∨
      (closesBank candidate.command = true ∧ request.decoded.flatBank chosen.spec = flat)
  · simp only [if_pos clears]
    rw [if_neg Bool.false_ne_true]
    rcases clears with preab | ⟨closing, here⟩
    · have empty : chosen.queuedCount _ = 0 := (closes.all preab flat (booked.spec_eq ▸ inside)).1
      omega
    · rcases closes.one closing with own | none
      · rw [here] at own
        obtain ⟨isMaintenance, precharge, -⟩ := of_decide_eq_true own
        have command : candidate.command = request.next := by
          have next := issuable.maintenance isMaintenance
          rcases nextMaintenanceCommand_cases chosen request with other | other | same
          · rw [next, other] at closing
            cases closing
          · rw [next, other, precharge]
          · exact next.trans same
        rw [if_pos ⟨isMaintenance, command, own⟩, before] at moved
        have atMostOne : (if chosen.rowPolicy.prechargePending flat = true then 1 else 0) ≤ 1 := by
          split <;> decide
        omega
      · rw [here] at none
        have empty : chosen.queuedCount _ = 0 := none
        omega
  · simp only [if_neg clears]
    rw [← before, ← moved, if_neg, Nat.add_zero]
    rintro ⟨-, own, selected⟩
    obtain ⟨-, precharge, -, here⟩ := of_decide_eq_true selected
    exact clears (Or.inr ⟨by rw [own, precharge]; rfl, here⟩)

omit closes in
/-- A bank that is closed after the command has nothing to forget. -/
theorem issued_clear (issuable : Issuable chosen candidate request)
    (banks : after.banks = issueBanks chosen.spec request candidate.command chosen.clk chosen.banks)
    (inside : flat < spec.bankCount) (closed : (after.banks flat).phase = .closed) :
    after.rowPolicy.Clear flat := by
  have accesses := RowPolicyEngine.onIssue_columnAccesses chosen.rowPolicy
    (request.decoded.flatBank chosen.spec) candidate.command (booked.bankCount ▸ inside)
  have pending := RowPolicyEngine.onIssue_prechargePending chosen.rowPolicy
    (request.decoded.flatBank chosen.spec) candidate.command (booked.bankCount ▸ inside)
  rw [counted.rowPolicy, booked.closedCap]
  by_cases clears : candidate.command = .preab ∨
      (closesBank candidate.command = true ∧ request.decoded.flatBank chosen.spec = flat)
  · rw [if_pos clears] at accesses pending
    exact ⟨accesses, pending⟩
  · rw [if_neg clears] at accesses pending
    rw [not_or] at clears
    rw [banks, issueBanks_phase issuable.notActivating] at closed
    have was := phaseAfter_closed clears.1 clears.2 closed
    have nothing := booked.opened flat inside was
    rw [if_neg] at accesses
    · exact ⟨accesses.trans nothing.1, pending.trans nothing.2⟩
    · rintro ⟨access, here⟩
      exact opened_of_access issuable.legal access (by rw [bankOf, here]; exact was)

end Command

theorem PolicyBooked.turn [MemoryBackend β] {issued : List IssuedCommand}
    (booked : PolicyBooked spec commands c) (kinds : QueueKinds c) (guard : c.ClosesByPolicy bus)
    (returns : c.turn bus = .ok (issued, after)) :
    PolicyBooked spec (commands ++ issued) after := by
  have frame := (turn_cases returns).turnFrame
  rcases turn_parts returns with ⟨rfl, -, chooses⟩ | ⟨chosen, candidate, request, rfl, parts⟩
  · rw [List.append_nil]
    exact (booked.choose chooses).1
  · obtain ⟨found, chooses⟩ := parts.chooses
    obtain ⟨chosenBooked, rowPolicy⟩ := booked.choose chooses
    obtain ⟨_, _, issuing, -⟩ := parts.moves
    have counted := parts.turnCount kinds
    have spec_eq : chosen.spec = c.spec := parts.choosing.housekeeping.spec
    have closes := (guard request candidate.command parts.picks).choosing parts.choosing rowPolicy
    have banks : after.banks =
        issueBanks chosen.spec request candidate.command chosen.clk chosen.banks :=
      issuing.advance.deviceKept.banks.trans issueEffects_banks
    have policy := RowPolicyEngine.onIssue_kept chosen.rowPolicy
      (request.decoded.flatBank chosen.spec) candidate.command
    rw [← chosenBooked.closedCap, ← counted.rowPolicy] at policy
    exact {
      positive := booked.positive
      spec_eq := frame.spec.trans booked.spec_eq
      closedCap := frame.options ▸ booked.closedCap
      bankCount := policy.1.trans chosenBooked.bankCount
      cap := policy.2 ▸ chosenBooked.cap
      sequence := frame.nextControllerSequence ▸ booked.sequence
      accesses := fun flat inside => issued_accesses chosenBooked closes counted inside
      flags := fun flat inside => issued_flags chosenBooked closes counted
        issuing.issuable (frame.spec.trans spec_eq.symm) inside
      opened := fun flat inside closed => issued_clear chosenBooked counted issuing.issuable
        banks inside closed }

/-! ### The books of every run -/

section Runs

variable [MemoryBackend β]

theorem Entry.nextControllerSequence_le {accepted : Bool} (entry : Entry c request accepted after) :
    c.nextControllerSequence ≤ after.nextControllerSequence := by
  cases entry with
  | refused => exact Nat.le_refl _
  | forwarded isRead hits forwards =>
    unfold forwardRead at forwards
    obtain ⟨⟨payload, byteMask, image⟩, -, forwards⟩ := bind_eq_ok.mp forwards
    cases forwards
    exact Nat.le_succ _
  | queuedRead => exact Nat.le_succ _
  | coalesced => exact Nat.le_succ _
  | buffered => exact Nat.le_succ _
  | maintenance => exact Nat.le_succ _

/-- A precharge from outside has a sequence, and so is none of the policy. -/
theorem PolicyBooked.enqueue {accepted : Bool} (booked : PolicyBooked spec commands c)
    (returns : c.enqueue request = .ok (accepted, after)) : PolicyBooked spec commands after := by
  obtain ⟨-, entry⟩ := enqueue_cases returns
  have prepared := booked.steady (prepareAccept_steady c request)
    (prepareAccept_housekeeping c request)
  have kept := entry.deviceKept
  have same : after.rowPolicy = (c.prepareAccept request).rowPolicy ∧ ∀ flat,
      after.queuedCount (isPolicyPrecharge (c.prepareAccept request).spec flat) =
        (c.prepareAccept request).queuedCount
          (isPolicyPrecharge (c.prepareAccept request).spec flat) := by
    by_cases isMaintenance : request.type = .maintenance
    · refine ⟨(@Entry.joins β _ after _ (fun _ => false) _ accepted entry isMaintenance).2.2,
        fun flat => (entry.joins isMaintenance).1.trans ?_⟩
      rw [if_neg, Nat.add_zero]
      rintro ⟨-, selected⟩
      have sequence : (c.prepareAccept request).nextControllerSequence = 0 :=
        (of_decide_eq_true selected).2.2.1
      exact Nat.ne_of_gt prepared.sequence sequence
    · have steady := entry.steady isMaintenance
      exact ⟨steady.rowPolicy, fun flat => steady.count _ (isPolicyPrecharge_special _ flat)⟩
  refine prepared.of_same kept.spec kept.options same.1 entry.nextControllerSequence_le kept.banks
    fun flat _ => ?_
  unfold policyPrecharges
  rw [kept.spec]
  exact same.2 flat

theorem policyBooked_kept (spec : DramSpec) :
    Kept (fun _ _ => True) (fun c bus => c.ClosesByPolicy bus ∧ QueueKinds c)
      fun events (c : Controller β) => PolicyBooked spec (commandsOf events) c where
  enqueue _ _ _ _ _ booked _ returns := by
    rw [commandsOf_acceptance]
    exact booked.enqueue returns
  beginTick _ _ _ booked returns := by
    have frame := (beginTick_eq returns).2
    refine booked.of_same ?_ ?_ ?_ (Nat.le_of_eq ?_) ?_ fun flat _ => ?_ <;> rw [frame]
    rfl
  upkeep _ _ booked _ := booked.upkeep
  turn _ _ _ _ _ booked guard returns := by
    rw [commandsOf_issued]
    exact booked.turn guard.2 guard.1 returns
  idleLowPower _ c booked := booked.steady (idleLowPower_steady c) (idleLowPower_housekeeping c)
  popResponse _ _ _ _ booked returns := by
    rw [commandsOf_responded]
    unfold popResponse at returns
    split at returns
    · cases returns
    · cases returns
      exact booked.of_same rfl rfl rfl (Nat.le_refl _) rfl fun _ _ => rfl
  flushStorage _ _ _ booked returns := by
    obtain ⟨image, -, returned⟩ := bind_eq_ok.mp returns
    cases returned
    exact booked.of_same rfl rfl rfl (Nat.le_refl _) rfl fun _ _ => rfl

omit [MemoryBackend β] in
/-- A new controller has counted nothing and queued nothing. -/
theorem policyBooked_start {options : ControllerOptions} {image : MemoryImage β}
    {start : Controller β} (created : create spec options image = .ok start)
    (closedCap : options.rowPolicy = .closedCap) : PolicyBooked spec [] start := by
  have first := create_created created
  obtain ⟨checked, accepted⟩ := first.accepted
  have engine : start.rowPolicy =
      { bankCount := spec.bankCount, cap := options.rowPolicyCap } ∧ 0 < options.rowPolicyCap := by
    unfold create at created
    obtain ⟨banks, total, created⟩ := bind_eq_ok.mp created
    obtain ⟨_, -, created⟩ := bind_eq_ok.mp created
    obtain ⟨_, -, created⟩ := bind_eq_ok.mp created
    obtain ⟨_, -, created⟩ := bind_eq_ok.mp created
    obtain ⟨_, -, created⟩ := bind_eq_ok.mp created
    obtain ⟨_, -, created⟩ := bind_eq_ok.mp created
    obtain ⟨rowPolicy, resets, created⟩ := bind_eq_ok.mp created
    obtain ⟨_, -, created⟩ := bind_eq_ok.mp created
    cases created
    unfold RowPolicyEngine.reset at resets
    obtain ⟨_, -, resets⟩ := bind_eq_ok.mp resets
    obtain ⟨_, positive, resets⟩ := bind_eq_ok.mp resets
    cases resets
    rw [throwIf_eq_ok, not_le] at positive
    exact ⟨by rw [(DramSpec.totalBanks_eq total).1], positive⟩
  refine ⟨validateSpec_positive accepted, first.spec_eq, first.options_eq ▸ closedCap, ?_, ?_, ?_,
    ?_, ?_, ?_⟩
  · rw [engine.1]
  · rw [engine.1]
    exact engine.2
  · rw [first.result]
    exact Nat.one_pos
  · intro flat _
    rw [engine.1]
    rfl
  · intro flat _
    rw [engine.1]
    unfold policyPrecharges queuedCount queuedMaintenance
    rw [first.queues, first.pendingMaintenance_eq]
    rfl
  · intro flat _ _
    rw [engine.1]
    exact ⟨rfl, rfl⟩

/-- In every run in which a bank with a queued precharge of the policy is closed by that precharge
only, and an all-bank precharge finds no precharge of the policy queued and nothing counted outside
its rank, the counter of each bank is the number of its reads and writes since its row was last
closed, and its flag is set exactly while one precharge of the policy is queued for it. -/
theorem closedCap_accounted {options : ControllerOptions} {image : MemoryImage β}
    {start : Controller β} (created : create spec options image = .ok start)
    (closedCap : options.rowPolicy = .closedCap) {ops : List ControllerOp}
    (meets : start.RunMeets (fun _ _ => True) ClosesByPolicy ops) {events : List ControllerEvent}
    {final : Controller β} (returns : start.run ops = .ok (events, final)) :
    PolicyAccounted spec (commandsOf events) final := by
  have booked : PolicyBooked spec (commandsOf events) final :=
    (policyBooked_kept spec).run (policyBooked_start created closedCap)
      (runMeets_kinds created meets) returns
  exact booked.accounted

end Runs

instance (c : Controller β) (request : Request) (command : Command) :
    Decidable (c.ClosesFor request command) :=
  decidable_of_iff (_ ∧ _) ⟨fun holds => ⟨holds.1, holds.2⟩, fun holds => ⟨holds.one, holds.all⟩⟩

instance (c : Controller β) [MemoryBackend β] (bus : BusClass) : Decidable (c.ClosesByPolicy bus) :=
  match picks : c.picked bus with
  | none => .isTrue fun _ _ some => nomatch picks.symm.trans some
  | some (request, command) => decidable_of_iff (c.ClosesFor request command)
      ⟨fun closes _ _ some => by cases picks.symm.trans some; exact closes,
        fun all => all request command picks⟩

/-- Two ranks of one bank. -/
def rankPair : DramSpec := { smallSpec with org := { smallSpec.org with ranks := 2 } }

/-- One access fills the cap, and the policy closes the bank. -/
def cappedRead : List ControllerOp :=
  .enqueue (readAt rankPair 1 0 4) :: List.replicate 43 .tick

theorem closedCap_accounted_read : ∃ start events final,
    create rankPair { rowPolicy := .closedCap, rowPolicyCap := 1 } (imageOf rankPair) = .ok start ∧
      start.run cappedRead = .ok (events, final) ∧
      (commandsOf events).map (·.command) = [.act, .rd, .prepb] ∧
      PolicyAccounted rankPair (commandsOf events) final := by
  obtain ⟨start, events, final, created, meets, returns, commands⟩ :=
    guardedRun_of_passes rankPair { rowPolicy := .closedCap, rowPolicyCap := 1 } cappedRead
      (fun _ _ => True) ClosesByPolicy
      (fun result => decide ((commandsOf result.1).map (·.command) = [.act, .rd, .prepb]))
      (by decide +kernel) (by decide +kernel)
  exact ⟨start, events, final, created, returns, of_decide_eq_true commands,
    closedCap_accounted created rfl meets returns⟩

/-- A precharge of one rank, with a row open in the other. -/
def readsThenPreab : List ControllerOp :=
  [.enqueue (readAt rankPair 1 8 4), .enqueue (readAt rankPair 2 0 4)] ++
    List.replicate 26 .tick ++ [.enqueue (maintain 3 .preab)] ++ List.replicate 5 .tick

/-- The policy forgets the read of the other rank's bank, whose row stays open. -/
theorem other_rank_forgotten : ∃ start events final,
    create rankPair { rowPolicy := .closedCap } (imageOf rankPair) = .ok start ∧
      start.run readsThenPreab = .ok (events, final) ∧ (final.banks 1).phase ≠ .closed ∧
      bankAccesses rankPair (commandsOf events) 1 = 1 ∧ final.rowPolicy.columnAccesses 1 = 0 ∧
      ¬ PolicyAccounted rankPair (commandsOf events) final := by
  obtain ⟨start, events, final, created, returns, checks⟩ :=
    freshRun_of_passes rankPair { rowPolicy := .closedCap } readsThenPreab
      (fun result => decide ((result.2.banks 1).phase ≠ .closed ∧
        bankAccesses rankPair (commandsOf result.1) 1 = 1 ∧
        result.2.rowPolicy.columnAccesses 1 = 0))
      (by decide +kernel)
  obtain ⟨stays, accesses, counter⟩ := of_decide_eq_true checks
  refine ⟨start, events, final, created, returns, stays, accesses, counter, fun accounted => ?_⟩
  have counts := (accounted 1 (by decide)).1
  rw [counter, accesses] at counts
  cases counts

end Controller

end HbmSim
