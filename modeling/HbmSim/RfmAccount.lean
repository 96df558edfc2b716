/-
The books of refresh management. By the policy a mitigation is for a bank or for a
rank; its flag is set exactly while one request for it is queued, and an activate at
the threshold leaves the flag set.

An activate sets the flag and queues the request in one step, and only the request's
own command clears the flag, in the step in which the request leaves the queue. So
whatever delays the request in between, the two go together.
-/

import HbmSim.CommandHistory
import HbmSim.KindCount

namespace HbmSim

/-! ### The scope of a mitigation -/

/-- The mitigation command of the policy. -/
def rfmCommand (spec : DramSpec) : Command := if spec.rfmPolicy = .allBank then .rfmab else .rfmpb

/-- The bank or the rank, by the policy, that a mitigation is for. -/
def rfmScope (spec : DramSpec) (decoded : DecodedAddress) : Nat :=
  if spec.rfmPolicy = .allBank then rankIndex spec decoded else decoded.flatBank spec

namespace RfmManager

variable {spec : DramSpec} {manager : RfmManager} {decoded : DecodedAddress} {request : Request}
variable {command : Command}

/-- The flag of a bank or a rank, by the policy. -/
def pending (manager : RfmManager) (spec : DramSpec) (scope : Nat) : Bool :=
  if spec.rfmPolicy = .allBank then manager.rfmPendingAllBank scope
  else manager.rfmPendingBank scope

/-- The counters and flags are those of banks that exist. -/
structure Bounded (manager : RfmManager) (spec : DramSpec) : Prop where
  counts : ∀ flat, spec.bankCount ≤ flat → manager.actCountSinceRfm flat = 0
  flags : ∀ flat, spec.bankCount ≤ flat → manager.rfmPendingBank flat = false

/-- An activate asks for one mitigation and sets its flag, which was clear, or leaves the flags. -/
theorem onActivate_pending (manager : RfmManager) (spec : DramSpec) (decoded : DecodedAddress) :
    ((manager.onActivate spec decoded).1 = none ∧
        (manager.onActivate spec decoded).2.pending spec = manager.pending spec) ∨
      ((manager.onActivate spec decoded).1 = some { command := rfmCommand spec, decoded } ∧
        manager.pending spec (rfmScope spec decoded) = false ∧
        (manager.onActivate spec decoded).2.pending spec =
          Function.update (manager.pending spec) (rfmScope spec decoded) true) := by
  unfold onActivate
  dsimp only
  split
  · exact Or.inl ⟨rfl, rfl⟩
  split
  · exact Or.inl ⟨rfl, rfl⟩
  split
  next allBank =>
    split
    · exact Or.inl ⟨rfl, rfl⟩
    next clear =>
      refine Or.inr ⟨?_, ?_, ?_⟩
      · rw [rfmCommand, if_pos allBank]
      · rw [pending, rfmScope, if_pos allBank, if_pos allBank]
        exact Bool.eq_false_of_not_eq_true clear
      · funext scope
        simp only [pending, rfmScope, if_pos allBank, Function.update_apply]
  next perBank =>
    split
    · exact Or.inl ⟨rfl, rfl⟩
    next clear =>
      refine Or.inr ⟨?_, ?_, ?_⟩
      · rw [rfmCommand, if_neg perBank]
      · rw [pending, rfmScope, if_neg perBank, if_neg perBank]
        exact Bool.eq_false_of_not_eq_true clear
      · funext scope
        simp only [pending, rfmScope, if_neg perBank, Function.update_apply]

/-- The mitigation clears the flag it is for. -/
theorem issueRfm_pending (bounded : manager.Bounded spec)
    (own : command = rfmCommand spec) :
    (issueRfm spec request command manager).1 = none ∧
      (issueRfm spec request command manager).2.pending spec =
        Function.update (manager.pending spec) (rfmScope spec request.decoded) false := by
  by_cases allBank : spec.rfmPolicy = .allBank
  · rw [own, rfmCommand, if_pos allBank]
    refine ⟨rfl, ?_⟩
    funext scope
    simp only [issueRfm, onRfmab, pending, rfmScope, if_pos allBank, Function.update_apply]
  · rw [own, rfmCommand, if_neg allBank]
    refine ⟨rfl, ?_⟩
    funext scope
    unfold issueRfm onRfmpb
    dsimp only
    split
    next beyond =>
      simp only [pending, rfmScope, if_neg allBank, Function.update_apply]
      split
      next here =>
        rw [here]
        exact bounded.flags _ beyond
      · rfl
    · simp only [pending, rfmScope, if_neg allBank, Function.update_apply]

theorem Bounded.onActivate (bounded : manager.Bounded spec) (decoded : DecodedAddress) :
    (manager.onActivate spec decoded).2.Bounded spec := by
  unfold RfmManager.onActivate
  dsimp only
  split
  · exact bounded
  next enabled =>
    rw [not_or, not_or, Nat.not_le] at enabled
    have counted : ∀ count : Int, ∀ flat, spec.bankCount ≤ flat →
        Function.update manager.actCountSinceRfm (decoded.flatBank spec) count flat = 0 := by
      intro count flat beyond
      rw [Function.update_of_ne (by omega)]
      exact bounded.counts flat beyond
    split
    · exact ⟨counted _, bounded.flags⟩
    split
    · split
      · exact ⟨counted _, bounded.flags⟩
      · exact ⟨counted _, bounded.flags⟩
    · split
      · exact ⟨counted _, bounded.flags⟩
      · refine ⟨counted _, fun flat beyond => ?_⟩
        dsimp only
        rw [Function.update_of_ne (by omega)]
        exact bounded.flags flat beyond

theorem Bounded.issueRfm (bounded : manager.Bounded spec) :
    (issueRfm spec request command manager).2.Bounded spec := by
  unfold HbmSim.issueRfm
  split
  · exact bounded.onActivate _
  · exact bounded.onActivate _
  · unfold onRfmpb
    dsimp only
    split
    · exact bounded
    · refine ⟨fun flat beyond => ?_, fun flat beyond => ?_⟩
      · dsimp only
        rw [Function.update_of_ne (by omega)]
        exact bounded.counts flat beyond
      · dsimp only
        rw [Function.update_of_ne (by omega)]
        exact bounded.flags flat beyond
  · refine ⟨fun flat beyond => ?_, fun flat beyond => ?_⟩
    · have small : flat ∉ Set.Iio spec.bankCount := Nat.not_lt.mpr beyond
      unfold onRfmab rankBankRange
      dsimp only
      rw [if_neg fun within => small (lt_of_lt_of_le within.2 (Nat.min_le_left _ _))]
      exact bounded.counts flat beyond
    · have small : flat ∉ Set.Iio spec.bankCount := Nat.not_lt.mpr beyond
      unfold onRfmab rankBankRange
      dsimp only
      rw [if_neg fun within => small (lt_of_lt_of_le within.2 (Nat.min_le_left _ _))]
      exact bounded.flags flat beyond
  · exact bounded

/-- With refresh management on, an activate that leaves its bank at the threshold leaves the flag
set. -/
theorem onActivate_overdue (bounded : manager.Bounded spec) (supported : spec.supportsRfm = true)
    (positive : 0 < spec.rfmActThreshold)
    (overdue : spec.rfmActThreshold ≤
      (manager.onActivate spec decoded).2.actCountSinceRfm (decoded.flatBank spec)) :
    (manager.onActivate spec decoded).2.pending spec (rfmScope spec decoded) = true := by
  unfold onActivate at overdue ⊢
  dsimp only at overdue ⊢
  split at overdue
  next off =>
    rcases off with unsupported | zero | beyond
    · rw [supported] at unsupported
      cases unsupported
    · omega
    · rw [bounded.counts _ beyond] at overdue
      omega
  next enabled =>
    rw [if_neg enabled]
    split at overdue
    next below =>
      dsimp only at overdue
      rw [Function.update_self] at overdue
      omega
    next reached =>
      rw [if_neg reached]
      by_cases allBank : spec.rfmPolicy = .allBank
      · simp only [if_pos allBank]
        split
        next set => simpa only [pending, rfmScope, if_pos allBank] using set
        · simp only [pending, rfmScope, if_pos allBank, Function.update_self]
      · simp only [if_neg allBank]
        split
        next set => simpa only [pending, rfmScope, if_neg allBank] using set
        · simp only [pending, rfmScope, if_neg allBank, Function.update_self]

/-- A command other than a mitigation asks for one and sets its flag, which was clear, or leaves
the flags. -/
theorem issueRfm_asks (plain : (commandMeta command).rfm = false) :
    ((issueRfm spec request command manager).1 = none ∧
        (issueRfm spec request command manager).2.pending spec = manager.pending spec) ∨
      ((issueRfm spec request command manager).1 =
          some { command := rfmCommand spec, decoded := request.decoded } ∧
        manager.pending spec (rfmScope spec request.decoded) = false ∧
        (issueRfm spec request command manager).2.pending spec =
          Function.update (manager.pending spec) (rfmScope spec request.decoded) true) := by
  unfold issueRfm
  split
  · exact onActivate_pending manager spec request.decoded
  · exact onActivate_pending manager spec request.decoded
  · cases plain
  · cases plain
  · exact Or.inl ⟨rfl, rfl⟩

end RfmManager

namespace Controller

variable {β : Type} {c chosen after : Controller β} {request : Request} {candidate : Candidate}
variable {bus : BusClass} {spec : DramSpec}

/-! ### The requests of a scope -/

/-- A mitigation of the policy for a bank or a rank. -/
def mitigates (spec : DramSpec) (scope : Nat) (request : Request) : Bool :=
  decide (request.next = rfmCommand spec ∧ rfmScope spec request.decoded = scope)

/-- A mitigation that is not of the policy. -/
def mitigatesOtherwise (spec : DramSpec) (request : Request) : Bool :=
  decide ((commandMeta request.next).rfm = true ∧ request.next ≠ rfmCommand spec)

theorem rfmCommand_cases (spec : DramSpec) :
    rfmCommand spec = .rfmpb ∨ rfmCommand spec = .rfmab := by
  unfold rfmCommand
  split
  · exact Or.inr rfl
  · exact Or.inl rfl

theorem rfm_iff (command : Command) :
    (commandMeta command).rfm = true ↔ command = .rfmpb ∨ command = .rfmab := by
  cases command <;> decide

theorem mitigates_special (spec : DramSpec) (scope : Nat) : Special (mitigates spec scope) where
  next request selected := by
    rw [(of_decide_eq_true selected).1]
    exact Or.inr (rfmCommand_cases spec)
  marks other request command := by
    unfold mitigates
    rw [issueRequest_next, issueRequest_decoded]

theorem mitigatesOtherwise_special (spec : DramSpec) : Special (mitigatesOtherwise spec) where
  next request selected := Or.inr ((rfm_iff _).mp (of_decide_eq_true selected).1)
  marks other request command := by
    unfold mitigatesOtherwise
    rw [issueRequest_next]

theorem validateSpec_rfm {checked : Unit} (accepted : validateSpec spec = .ok checked)
    (supported : spec.supportsRfm = true) : 0 < spec.rfmActThreshold := by
  unfold validateSpec at accepted
  simp only [bind_eq_ok, throwIf_eq_ok, not_and_or, not_or, not_le, not_not] at accepted
  obtain ⟨_, -, _, -, _, -, _, -, _, -, _, -, _, -, _, -, _, -, _, -, _, -, _, -, _, rfm, -⟩ := accepted
  exact (rfm.resolve_left (not_not.mpr supported)).1

/-- Every set flag has one queued request and every clear flag none, all of them of the policy. -/
structure RfmBooked (c : Controller β) : Prop where
  count : ∀ scope, c.queuedCount (mitigates c.spec scope) =
    if c.rfmManager.pending c.spec scope then 1 else 0
  only : c.queuedCount (mitigatesOtherwise c.spec) = 0
  bounded : c.rfmManager.Bounded c.spec
  enabled : c.spec.supportsRfm = true → 0 < c.spec.rfmActThreshold

/-- A change that touches neither these kinds nor the manager. -/
theorem RfmBooked.of_count (booked : RfmBooked c)
    (count : ∀ select, Special select → (∀ request, select request = true →
      request.next ≠ .prepb) → after.queuedCount select = c.queuedCount select)
    (rfmManager : after.rfmManager = c.rfmManager) (spec : after.spec = c.spec) :
    RfmBooked after := by
  have notPrecharge : ∀ command, (commandMeta command).rfm = true → command ≠ .prepb := by
    rintro _ rfm rfl
    cases rfm
  refine ⟨fun scope => ?_, ?_, ?_, ?_⟩
  · rw [spec, rfmManager, count _ (mitigates_special c.spec scope)]
    · exact booked.count scope
    · intro request selected
      rw [(of_decide_eq_true selected).1]
      exact notPrecharge _ ((rfm_iff _).mpr (rfmCommand_cases c.spec))
  · rw [spec, count _ (mitigatesOtherwise_special c.spec)]
    · exact booked.only
    · exact fun request selected => notPrecharge _ (of_decide_eq_true selected).1
  · rw [spec, rfmManager]
    exact booked.bounded
  · rw [spec]
    exact booked.enabled

/-- The mitigation's command leaves with its request and clears its flag. -/
theorem RfmBooked.mitigated (booked : RfmBooked chosen)
    (counted : TurnCount chosen candidate request after) (spec : after.spec = chosen.spec)
    (isMaintenance : request.type = .maintenance) (own : candidate.command = request.next)
    (named : candidate.command = rfmCommand chosen.spec) : RfmBooked after := by
  obtain ⟨asksNone, flags⟩ := @RfmManager.issueRfm_pending chosen.spec chosen.rfmManager request
    candidate.command booked.bounded named
  refine ⟨fun scope => ?_, ?_, ?_, ?_⟩
  · have moved := counted.count _ (mitigates_special chosen.spec scope)
    rw [asksNone, askedCount_none, Nat.add_zero, booked.count scope] at moved
    rw [spec, counted.rfmManager, flags]
    by_cases here : rfmScope chosen.spec request.decoded = scope
    · have selected : mitigates chosen.spec scope request = true :=
        decide_eq_true ⟨own.symm.trans named, here⟩
      rw [if_pos ⟨isMaintenance, own, selected⟩] at moved
      rw [← here, Function.update_self, if_neg Bool.false_ne_true, here]
      have atMostOne : (if chosen.rfmManager.pending chosen.spec scope = true then 1 else 0) ≤ 1 := by
        split <;> decide
      omega
    · have unselected : ¬ mitigates chosen.spec scope request = true :=
        fun selected => here (of_decide_eq_true selected).2
      rw [if_neg fun whole => unselected whole.2.2] at moved
      rw [Function.update_of_ne (Ne.symm here)]
      exact moved
  · have moved := counted.count _ (mitigatesOtherwise_special chosen.spec)
    have unselected : ¬ mitigatesOtherwise chosen.spec request = true :=
      fun selected => (of_decide_eq_true selected).2 (own.symm.trans named)
    rw [asksNone, booked.only, if_neg fun whole => unselected whole.2.2] at moved
    rw [spec]
    exact moved
  · rw [spec, counted.rfmManager]
    exact booked.bounded.issueRfm
  · rw [spec]
    exact booked.enabled

/-- Any other command may queue one request, and sets its flag. -/
theorem RfmBooked.asked (booked : RfmBooked chosen)
    (counted : TurnCount chosen candidate request after) (spec : after.spec = chosen.spec)
    (plain : (commandMeta candidate.command).rfm = false) : RfmBooked after := by
  have stays : ∀ select, Special select →
      (∀ request, select request = true → (commandMeta request.next).rfm = true) →
      after.queuedCount select = chosen.queuedCount select + askedCount select chosen
        (issueRfm chosen.spec request candidate.command chosen.rfmManager).1 := by
    intro select special mitigation
    have moved := counted.count select special
    rwa [if_neg, Nat.add_zero] at moved
    rintro ⟨-, own, selected⟩
    have rfm := mitigation request selected
    rw [← own, plain] at rfm
    cases rfm
  have isRfm := (rfm_iff _).mpr (rfmCommand_cases chosen.spec)
  refine ⟨fun scope => ?_, ?_, ?_, ?_⟩
  · have moved := stays _ (mitigates_special chosen.spec scope) fun request selected => by
      rw [(of_decide_eq_true selected).1]
      exact isRfm
    rw [spec, counted.rfmManager, moved, booked.count scope]
    rcases @RfmManager.issueRfm_asks chosen.spec chosen.rfmManager request candidate.command plain
      with ⟨asks, flags⟩ | ⟨asks, clear, flags⟩
    · rw [asks, flags]
      rfl
    · rw [asks, flags]
      by_cases here : rfmScope chosen.spec request.decoded = scope
      · have selected : mitigates chosen.spec (rfmScope chosen.spec request.decoded)
            (maintenanceRequest chosen.nextMaintenanceId (rfmCommand chosen.spec) request.decoded
              chosen.clk) = true := decide_eq_true ⟨rfl, rfl⟩
        rw [← here, Function.update_self, clear, askedCount_some, if_pos selected]
        rfl
      · have unselected : ¬ mitigates chosen.spec scope
            (maintenanceRequest chosen.nextMaintenanceId (rfmCommand chosen.spec) request.decoded
              chosen.clk) = true := fun selected => here (of_decide_eq_true selected).2
        rw [Function.update_of_ne (Ne.symm here), askedCount_some, if_neg unselected]
        rfl
  · have moved := stays _ (mitigatesOtherwise_special chosen.spec)
      fun request selected => (of_decide_eq_true selected).1
    rw [spec, moved, booked.only]
    rcases @RfmManager.issueRfm_asks chosen.spec chosen.rfmManager request candidate.command plain
      with ⟨asks, -⟩ | ⟨asks, -, -⟩
    · rw [asks]
      rfl
    · have unselected : ¬ mitigatesOtherwise chosen.spec
          (maintenanceRequest chosen.nextMaintenanceId (rfmCommand chosen.spec) request.decoded
            chosen.clk) = true := fun selected => (of_decide_eq_true selected).2 rfl
      rw [asks, askedCount_some, if_neg unselected]
  · rw [spec, counted.rfmManager]
    exact booked.bounded.issueRfm
  · rw [spec]
    exact booked.enabled

variable [MemoryBackend β]

theorem RfmBooked.turn {issued : List IssuedCommand} (booked : RfmBooked c) (kinds : QueueKinds c)
    (returns : c.turn bus = .ok (issued, after)) : RfmBooked after := by
  have spec := (turn_cases returns).turnFrame.spec
  rcases turn_parts returns with ⟨-, choosing, chooses⟩ | ⟨chosen, candidate, request, -, parts⟩
  · exact booked.of_count (fun _ _ => choosing.count) (choose_rfmManager chooses) spec
  · obtain ⟨found, chooses⟩ := parts.chooses
    have chosenBooked : RfmBooked chosen := booked.of_count (fun _ _ => parts.choosing.count)
      (choose_rfmManager chooses) parts.choosing.housekeeping.spec
    have chosenSpec : after.spec = chosen.spec := spec.trans parts.choosing.housekeeping.spec.symm
    have counted := parts.turnCount kinds
    obtain ⟨_, _, issuing, -⟩ := parts.moves
    by_cases rfm : (commandMeta candidate.command).rfm = true
    · obtain ⟨isMaintenance, own⟩ := issuing.issuable.rfm_own rfm
      refine chosenBooked.mitigated counted chosenSpec isMaintenance own ?_
      -- A queued mitigation is of the policy.
      by_contra foreign
      have queued := List.mem_of_getElem? issuing.issuable.found
      rw [((parts.choosing.housekeeping.kinds kinds).maintenance_iff queued).mp isMaintenance]
        at queued
      have positive := queuedCount_pos (List.mem_append_left _ queued)
        (show mitigatesOtherwise chosen.spec request = true from
          decide_eq_true ⟨own ▸ rfm, fun is => foreign (own.trans is)⟩)
      rw [chosenBooked.only] at positive
      exact absurd positive (lt_irrefl 0)
    · exact chosenBooked.asked counted chosenSpec (Bool.eq_false_of_not_eq_true rfm)

theorem RfmBooked.enqueue {accepted : Bool} (booked : RfmBooked c)
    (unrelated : request.type = .maintenance → (commandMeta request.next).rfm = false)
    (returns : c.enqueue request = .ok (accepted, after)) : RfmBooked after := by
  obtain ⟨-, entry⟩ := enqueue_cases returns
  have prepared := prepareAccept_steady c request
  have spec := entry.deviceKept.spec.trans (prepareAccept_housekeeping c request).spec
  by_cases isMaintenance : request.type = .maintenance
  · refine booked.of_count (fun select special notPrecharge => ?_) ?_ spec
    · refine (entry.joins isMaintenance).1.trans ?_
      rw [prepared.count select special, if_neg, Nat.add_zero]
      rintro ⟨-, selected⟩
      rcases special.next _ selected with precharge | rfm
      · exact notPrecharge _ selected precharge
      · have plain := unrelated isMaintenance
        rw [(rfm_iff request.next).mpr rfm] at plain
        cases plain
    · exact (@Entry.joins β _ after _ (fun _ => false) _ accepted entry isMaintenance).2.1.trans
        prepared.rfmManager
  · have entered := prepared.trans (entry.steady isMaintenance)
    exact booked.of_count (fun select special _ => entered.count select special)
      entered.rfmManager spec

/-! ### The books of every run -/

/-- An activate that leaves its bank at the threshold leaves the flag of its scope set. -/
def ActivatesFlagged (c : Controller β) (bus : BusClass) : Prop :=
  ∀ issued after, c.turn bus = .ok (issued, after) → ∀ record ∈ issued,
    (record.command = .act ∨ record.command = .act1) →
    c.spec.rfmActThreshold ≤
      after.rfmManager.actCountSinceRfm (record.decoded.flatBank c.spec) →
    after.rfmManager.pending c.spec (rfmScope c.spec record.decoded) = true

/-- No mitigation is submitted from outside. -/
def SubmitsNoRfm (_ : Controller β) (request : Request) : Prop :=
  request.type = .maintenance → (commandMeta request.next).rfm = false

theorem rfmBooked_kept : Kept SubmitsNoRfm (fun c _ => True ∧ QueueKinds c)
    fun _ (c : Controller β) => RfmBooked c where
  enqueue _ _ _ _ _ booked unrelated returns := booked.enqueue unrelated returns
  beginTick _ _ _ booked returns := by
    have frame := (beginTick_eq returns).2
    refine booked.of_count (fun select _ _ => ?_) ?_ ?_ <;> rw [frame]
    rfl
  upkeep _ c booked _ := by
    have serviced := serviced_steady c
    rw [upkeep_eq_serviced]
    refine booked.of_count (fun select special notPrecharge => ?_) ?_ ?_
    · exact (applyRowPolicyPreSchedule_count notPrecharge _).trans
        (serviced.count select special)
    · exact (applyRowPolicyPreSchedule_rfmManager _).trans serviced.rfmManager
    · exact (upkeep_housekeeping c).spec
  turn _ _ _ _ _ booked meets returns := booked.turn meets.2 returns
  idleLowPower _ c booked := booked.of_count
    (fun select special _ => (idleLowPower_steady c).count select special)
    (idleLowPower_steady c).rfmManager (idleLowPower_housekeeping c).spec
  popResponse _ _ _ _ booked returns := by
    unfold popResponse at returns
    split at returns
    · cases returns
    · cases returns
      exact booked.of_count (fun _ _ _ => rfl) rfl rfl
  flushStorage _ _ _ booked returns := by
    obtain ⟨image, -, returned⟩ := bind_eq_ok.mp returns
    cases returned
    exact booked.of_count (fun _ _ _ => rfl) rfl rfl

theorem RfmBooked.activatesFlagged (booked : RfmBooked c) (kinds : QueueKinds c)
    (supported : c.spec.supportsRfm = true) : c.ActivatesFlagged bus := by
  intro issued after returns record member activates overdue
  rcases turn_parts returns with ⟨rfl, -⟩ | ⟨chosen, candidate, request, rfl, parts⟩
  · exact absurd member List.not_mem_nil
  · obtain rfl := List.mem_singleton.mp member
    obtain ⟨found, chooses⟩ := parts.chooses
    have manager := (parts.turnCount kinds).rfmManager
    rw [choose_rfmManager chooses, parts.choosing.housekeeping.spec] at manager
    have activated : (issueRfm c.spec request candidate.command c.rfmManager).2 =
        (c.rfmManager.onActivate c.spec request.decoded).2 := by
      have command : candidate.command = .act ∨ candidate.command = .act1 := activates
      rcases command with act | act1
      · rw [act]
        rfl
      · rw [act1]
        rfl
    rw [manager, activated] at overdue ⊢
    exact RfmManager.onActivate_overdue booked.bounded supported (booked.enabled supported)
      overdue

omit [MemoryBackend β] in
theorem Created.rfmBooked {options : ControllerOptions} {image : MemoryImage β}
    {start : Controller β} (created : Created spec options image start) : RfmBooked start := by
  have empty : ∀ select, start.queuedCount select = 0 := by
    intro select
    unfold queuedCount queuedMaintenance
    rw [created.queues, created.pendingMaintenance_eq]
    rfl
  refine ⟨fun scope => ?_, empty _, ?_, ?_⟩
  · rw [empty, created.result]
    refine (if_neg ?_).symm
    unfold RfmManager.pending
    split <;> exact Bool.false_ne_true
  · rw [created.result]
    exact ⟨fun _ _ => rfl, fun _ _ => rfl⟩
  · obtain ⟨checked, accepted⟩ := created.accepted
    rw [created.spec_eq]
    exact validateSpec_rfm accepted

/-- In every run without a mitigation from outside, a flag of the policy is set exactly while one
mitigation of its bank or its rank is queued, and none is queued while it is clear; and with refresh
management on, every activate that leaves its bank at the threshold leaves the flag set. -/
theorem rfm_accounted {options : ControllerOptions} {image : MemoryImage β} {start : Controller β}
    (created : create spec options image = .ok start) {ops : List ControllerOp}
    (unrelated : start.RunMeets SubmitsNoRfm (fun _ _ => True) ops) :
    (∀ events final, start.run ops = .ok (events, final) →
      (spec.rfmPolicy = .perBank → ∀ flat,
        (final.queuedMaintenance.countP fun request =>
          decide (request.next = .rfmpb ∧ request.decoded.flatBank spec = flat)) =
          if final.rfmManager.rfmPendingBank flat then 1 else 0) ∧
      (spec.rfmPolicy = .allBank → ∀ rank,
        (final.queuedMaintenance.countP fun request =>
          decide (request.next = .rfmab ∧ rankIndex spec request.decoded = rank)) =
          if final.rfmManager.rfmPendingAllBank rank then 1 else 0)) ∧
    start.RunMeets SubmitsNoRfm
      (fun c bus => c.spec.supportsRfm = true → c.ActivatesFlagged bus) ops := by
  have first := create_created created
  have meets := runMeets_kinds created unrelated
  refine ⟨fun events final returns => ?_, rfmBooked_kept.runMeets
    (fun _ _ bus booked meets => booked.activatesFlagged meets.2) [] first.rfmBooked meets⟩
  · have booked : RfmBooked final := rfmBooked_kept.run first.rfmBooked meets returns
    have counts := booked.count
    rw [(run_configuration first returns).1] at counts
    refine ⟨fun perBank flat => ?_, fun allBank rank => ?_⟩
    · have plain : spec.rfmPolicy ≠ .allBank := by
        rw [perBank]
        exact nofun
      have selects : mitigates spec flat = fun request =>
          decide (request.next = .rfmpb ∧ request.decoded.flatBank spec = flat) := by
        funext request
        simp only [mitigates, rfmCommand, rfmScope, if_neg plain]
      have count := counts flat
      rw [selects, RfmManager.pending, if_neg plain] at count
      exact count
    · have selects : mitigates spec rank = fun request =>
          decide (request.next = .rfmab ∧ rankIndex spec request.decoded = rank) := by
        funext request
        simp only [mitigates, rfmCommand, rfmScope, if_pos allBank]
      have count := counts rank
      rw [selects, RfmManager.pending, if_pos allBank] at count
      exact count

instance (c : Controller β) (request : Request) : Decidable (SubmitsNoRfm c request) :=
  inferInstanceAs (Decidable (_ → _))

/-- Two banks that owe a mitigation after every activate. -/
def mitigatedBanks : DramSpec :=
  { twoBanks with supportsRfm := true, rfmActThreshold := 1, rfmDecrement := 1 }

theorem rfm_accounted_activate : ∃ start events final,
    create mitigatedBanks {} (imageOf mitigatedBanks) = .ok start ∧
      start.run [.enqueue (readAt mitigatedBanks 1 0 4), .tick] = .ok (events, final) ∧
      final.rfmManager.rfmPendingBank 0 = true ∧
      (final.queuedMaintenance.countP fun request =>
        decide (request.next = .rfmpb ∧ request.decoded.flatBank mitigatedBanks = 0)) = 1 ∧
      start.RunMeets SubmitsNoRfm (fun c bus => c.spec.supportsRfm = true →
        c.ActivatesFlagged bus) [.enqueue (readAt mitigatedBanks 1 0 4), .tick] := by
  obtain ⟨start, events, final, created, unrelated, returns, flag⟩ :=
    guardedRun_of_passes mitigatedBanks {} [.enqueue (readAt mitigatedBanks 1 0 4), .tick]
      SubmitsNoRfm (fun _ _ => True) (fun result => result.2.rfmManager.rfmPendingBank 0)
      (by decide +kernel) (by decide +kernel)
  obtain ⟨accounted, flagged⟩ := rfm_accounted created unrelated
  have count := (accounted events final returns).1 rfl 0
  rw [if_pos flag] at count
  exact ⟨start, events, final, created, returns, flag, count, flagged⟩

/-- With refresh management off nothing is counted, and the default threshold is zero. -/
theorem unsupported_activate_unflagged : ∃ start,
    create twoBanks {} (imageOf twoBanks) = .ok start ∧
      start.RunMeets SubmitsNoRfm (fun _ _ => True) [.enqueue (readAt twoBanks 1 0 4), .tick] ∧
      ¬ start.RunMeets SubmitsNoRfm ActivatesFlagged
        [.enqueue (readAt twoBanks 1 0 4), .tick] := by
  obtain ⟨start, -, -, created, unrelated, -, -⟩ :=
    guardedRun_of_passes twoBanks {} [.enqueue (readAt twoBanks 1 0 4), .tick]
      SubmitsNoRfm (fun _ _ => True) (fun _ => true) (by decide +kernel) (by decide +kernel)
  obtain ⟨⟨begun, issued, after⟩, returns, checks⟩ := passes_iff.mp (show passes (do
      let start ← create twoBanks {} (imageOf twoBanks)
      let (_, queued) ← start.apply (.enqueue (readAt twoBanks 1 0 4))
      let begun ← queued.beginTick
      return (begun, ← begun.upkeep.turn .unified))
    (fun (begun, issued, after) =>
      decide (begun.lowPowerExitUntil ≤ begun.clk ∧ begun.upkeep.busesOf = [.unified]) &&
      decide (begun.upkeep.spec.rfmActThreshold ≤
        after.rfmManager.actCountSinceRfm (DecodedAddress.flatBank begun.upkeep.spec {})) &&
      !after.rfmManager.pending begun.upkeep.spec (rfmScope begun.upkeep.spec {}) &&
      issued.any fun record => decide (record.command = .act ∧ record.decoded = {})) = true by
    decide +kernel)
  obtain ⟨_, creates, returns⟩ := bind_eq_ok.mp returns
  obtain ⟨⟨entered, queued⟩, enqueues, returns⟩ := bind_eq_ok.mp returns
  obtain ⟨_, begins, returns⟩ := bind_eq_ok.mp returns
  obtain ⟨_, turns, returned⟩ := bind_eq_ok.mp returns
  cases returned
  cases created.symm.trans creates
  simp only [Bool.and_eq_true, decide_eq_true_eq, Bool.not_eq_true', List.any_eq_true] at checks
  obtain ⟨⟨⟨⟨free, buses⟩, overdue⟩, clear⟩, record, member, activates, address⟩ := checks
  refine ⟨start, created, unrelated, fun flagged => ?_⟩
  have tick : queued.TickMeets ActivatesFlagged := (flagged.2 entered queued enqueues).1
  have meets := tick begun begins free
  rw [buses] at meets
  have set := meets.1 issued after turns record member (Or.inl activates)
  rw [address] at set
  exact Bool.false_ne_true (clear.symm.trans (set overdue))

end Controller

end HbmSim
