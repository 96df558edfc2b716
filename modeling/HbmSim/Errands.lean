/-
What the queued requests ask for. A request keeps its kind, its command and its
address from the acceptance to the last command issued for it; and what a
controller asks for on its own is of few kinds: refreshes, mitigations, precharges
and the ways in and out of low power.

So a condition on errands that the offered requests meet, and the controller's own
errands too, is met by every request that a command is issued for. The first such
condition is that the address is one of the device.
-/

import HbmSim.IndexCodings
import HbmSim.KindCount
import HbmSim.RefreshLedger
import HbmSim.RfmAccount

namespace HbmSim

/-! ### Errands -/

/-- What a request asks the device for. -/
structure Errand where
  type : RequestType
  next : Command
  decoded : DecodedAddress
  targetStack : Int
  deriving DecidableEq

def Request.errand (request : Request) : Errand where
  type := request.type
  next := request.next
  decoded := request.decoded
  targetStack := request.targetStack

/-- The errand of a maintenance request that the controller makes. -/
def Errand.own (next : Command) (decoded : DecodedAddress) : Errand where
  type := .maintenance
  next := next
  decoded := decoded
  targetStack := -1

/-- The errands a controller comes to on its own, when those of its requests meet a condition. -/
inductive OwnErrand (spec : DramSpec) (meets : Errand → Prop) : Errand → Prop
  | sleeps {next : Command} (is : next = .srefen ∨ next = .srefex) :
      OwnErrand spec meets (.own next {})
  | wakes {errand : Errand} (met : meets errand) :
      OwnErrand spec meets (.own .srefex errand.decoded)
  | powersUp {errand entry : Errand} (met : meets errand) (entered : meets entry)
      (isEntry : entry.type = .maintenance ∧ entry.next = .pde) :
      OwnErrand spec meets (.own .pdx errand.decoded)
  | refreshes {rank : Nat} (inside : rank < max 1 spec.org.ranks) {state : RankRefreshState}
      {command : MaintenanceCommand} (member : command ∈ (seedRefreshBatch spec rank state).1) :
      OwnErrand spec meets (.own command.command command.decoded)
  | mitigates {errand : Errand} (met : meets errand) {next : Command}
      (is : next = .rfmpb ∨ next = .rfmab) : OwnErrand spec meets (.own next errand.decoded)
  | precharges {flat : Nat} (inside : flat < spec.bankCount) :
      OwnErrand spec meets (.own .prepb (Controller.decodedFromFlatBank spec flat))

/-! ### The refresh manager -/

namespace RefreshManager

variable {manager next : RefreshManager} {spec : DramSpec} {prefer pull : Bool} {clk : Nat}
variable {newlyDue : List Bool} {result : RefreshTickResult}

theorem serveDue_batch (serves : manager.serveDue spec prefer newlyDue = some (result, next)) :
    ∀ command ∈ result.commands, ∃ rank < manager.rankStates.length, ∃ state,
      command ∈ (seedRefreshBatch spec rank state).1 := by
  obtain ⟨rank, member, serves⟩ := List.exists_of_findSome?_eq_some serves
  dsimp only at serves
  split at serves
  · cases serves
  · cases serves
    exact fun _ listed => absurd listed List.not_mem_nil
  · cases serves
    exact fun _ listed => ⟨rank, rotation_lt member, _, listed⟩

theorem pullIn_batch {horizon : Nat} (pulls : manager.pullIn spec horizon = some (result, next)) :
    ∀ command ∈ result.commands, ∃ rank < manager.rankStates.length, ∃ state,
      command ∈ (seedRefreshBatch spec rank state).1 := by
  obtain ⟨rank, member, pulls⟩ := List.exists_of_findSome?_eq_some pulls
  dsimp only at pulls
  split at pulls
  · cases pulls
    exact fun _ listed => ⟨rank, rotation_lt member, _, listed⟩
  · cases pulls

/-- The commands of a tick are those of one batch of a rank of the device. -/
theorem tick_batch (manager : RefreshManager) (spec : DramSpec) (clk : Nat) (prefer pull : Bool) :
    ∀ command ∈ (manager.tick spec clk prefer pull).1.commands,
      ∃ rank < max 1 spec.org.ranks, ∃ state, command ∈ (seedRefreshBatch spec rank state).1 := by
  have nothing : ∀ command ∈ ([] : List MaintenanceCommand), ∃ rank < max 1 spec.org.ranks,
      ∃ state, command ∈ (seedRefreshBatch spec rank state).1 :=
    fun _ listed => absurd listed List.not_mem_nil
  unfold tick
  dsimp only
  split
  · exact nothing
  have ranks : (if manager.rankStates.length ≠ max 1 spec.org.ranks then timed spec clk
      else manager).rankStates.length = max 1 spec.org.ranks := by
    split
    · exact List.length_replicate ..
    next same => exact not_not.mp same
  generalize (if manager.rankStates.length ≠ max 1 spec.org.ranks then timed spec clk
    else manager) = current at ranks ⊢
  rcases serve_cases _ spec _ prefer pull _ with ⟨-, quiet⟩ | ⟨-, serves | pulls⟩
  · rw [quiet]
    exact nothing
  · have batch := serveDue_batch serves
    rwa [List.length_map, List.length_map, ranks] at batch
  · have batch := pullIn_batch pulls
    rwa [List.length_map, List.length_map, ranks] at batch

end RefreshManager

/-- A batch names banks of the device. -/
theorem seedRefreshBatch_inBounds {spec : DramSpec} (positive : spec.org.Positive)
    (pairs : spec.lpddrDualBankRefresh = true →
      2 ≤ spec.org.bankGroups ∧ spec.org.bankGroups % 2 = 0) {rank : Nat}
    (inside : rank < spec.org.ranks) {state : RankRefreshState} :
    ∀ command ∈ (seedRefreshBatch spec rank state).1, command.decoded.InBounds spec := by
  have one : ∀ {count : Nat}, 0 < count → max 1 count = count := fun some => max_eq_right some
  intro command member
  unfold seedRefreshBatch positionsPerSid at member
  simp only [one positive.pseudoChannels, one positive.sids, one positive.channels,
    one positive.bankGroups, one positive.banksPerGroup] at member
  split at member
  · obtain ⟨pseudoChannel, groups, member⟩ := List.mem_flatMap.mp member
    obtain ⟨sid, sids, rfl⟩ := List.mem_map.mp member
    exact ⟨positive.channels, List.mem_range.mp groups, List.mem_range.mp sids, inside,
      positive.bankGroups, positive.banksPerGroup, positive.rows, positive.columns⟩
  · have banks : ∀ place, place % spec.org.banksPerGroup < spec.org.banksPerGroup :=
      fun _ => Nat.mod_lt _ positive.banksPerGroup
    have sids := Nat.mod_lt state.sidCursor positive.sids
    cases dual : spec.lpddrDualBankRefresh with
    | true =>
      obtain ⟨two, even⟩ := pairs dual
      have half : max 1 (spec.org.bankGroups / 2) = spec.org.bankGroups / 2 := one (by omega)
      simp only [dual, if_true, half] at member
      have place : state.flatBankCursor % (spec.org.bankGroups / 2 * spec.org.banksPerGroup) <
          spec.org.bankGroups / 2 * spec.org.banksPerGroup :=
        Nat.mod_lt _ (Nat.mul_pos (by omega) positive.banksPerGroup)
      have group := (Nat.div_lt_iff_lt_mul positive.banksPerGroup).mpr place
      split at member
      all_goals
        obtain ⟨channel, channels, member⟩ := List.mem_flatMap.mp member
        obtain ⟨pseudoChannel, groups, rfl⟩ := List.mem_map.mp member
        refine ⟨List.mem_range.mp channels, List.mem_range.mp groups, sids, inside, ?_, banks _,
          positive.rows, positive.columns⟩
        dsimp only
        omega
    | false =>
      simp only [dual, Bool.false_eq_true, if_false] at member
      have place := Nat.mod_lt state.flatBankCursor
        (Nat.mul_pos positive.bankGroups positive.banksPerGroup)
      have group := (Nat.div_lt_iff_lt_mul positive.banksPerGroup).mpr place
      split at member
      all_goals
        obtain ⟨channel, channels, member⟩ := List.mem_flatMap.mp member
        obtain ⟨pseudoChannel, groups, rfl⟩ := List.mem_map.mp member
        exact ⟨List.mem_range.mp channels, List.mem_range.mp groups, sids, inside, group, banks _,
          positive.rows, positive.columns⟩

/-- The controller's own errands stay inside the device. -/
theorem OwnErrand.inBounds {spec : DramSpec} (positive : spec.org.Positive)
    (pairs : spec.lpddrDualBankRefresh = true →
      2 ≤ spec.org.bankGroups ∧ spec.org.bankGroups % 2 = 0) {meets : Errand → Prop}
    (met : ∀ errand, meets errand → errand.decoded.InBounds spec) {errand : Errand}
    (own : OwnErrand spec meets errand) : errand.decoded.InBounds spec := by
  cases own with
  | sleeps is =>
    exact ⟨positive.channels, positive.pseudoChannels, positive.sids, positive.ranks,
      positive.bankGroups, positive.banksPerGroup, positive.rows, positive.columns⟩
  | wakes held => exact (met _ held :)
  | powersUp held entered isEntry => exact (met _ held :)
  | refreshes inside member =>
    rw [max_eq_right positive.ranks] at inside
    exact seedRefreshBatch_inBounds positive pairs inside _ member
  | mitigates held is => exact (met _ held :)
  | precharges inside => exact (decodedFromFlatBank_mem positive inside).1

namespace Controller

variable {β : Type} {c before after : Controller β} {request : Request} {meets : Errand → Prop}

/-! ### The errands of the queues -/

/-- The row policy knows as many banks as the device has. -/
def PolicySized (c : Controller β) : Prop := c.rowPolicy.bankCount = c.spec.bankCount

/-- Every queued or waiting request has an errand of the condition. -/
structure ErrandsMeet (meets : Errand → Prop) (c : Controller β) : Prop where
  queued : ∀ kind, ∀ request ∈ c.requestQueues.queue kind, meets request.errand
  waiting : ∀ request ∈ c.pendingMaintenance, meets request.errand

theorem errandsMeet_iff : ErrandsMeet meets c ↔
    (∀ kind, kind ≠ .priority → ∀ request ∈ c.requestQueues.queue kind, meets request.errand) ∧
      c.MaintenanceMeets fun request => meets request.errand := by
  constructor
  · rintro ⟨queued, waiting⟩
    refine ⟨fun kind _ => queued kind, fun request member => ?_⟩
    exact (List.mem_append.mp member).elim (queued .priority request) (waiting request)
  · rintro ⟨queued, maintenance⟩
    refine ⟨fun kind request member => ?_, fun request member =>
      maintenance request (List.mem_append_right _ member)⟩
    by_cases priority : kind = .priority
    · subst priority
      exact maintenance request (List.mem_append_left _ member)
    · exact queued kind priority request member

/-- Housekeeping writes the maintenance queues only. -/
theorem ErrandsMeet.housekeeping (held : ErrandsMeet meets before)
    (keeps : Housekeeping before after)
    (maintenance : after.MaintenanceMeets fun request => meets request.errand) :
    ErrandsMeet meets after := by
  refine errandsMeet_iff.mpr ⟨fun kind ordinary request member => ?_, maintenance⟩
  rw [keeps.queue kind ordinary] at member
  exact held.queued kind request member

theorem ErrandsMeet.maintenance (held : ErrandsMeet meets c) :
    c.MaintenanceMeets fun request => meets request.errand :=
  (errandsMeet_iff.mp held).2

theorem scheduleMaintenance_meets {command : Command} {decoded : DecodedAddress}
    (held : c.MaintenanceMeets fun request => meets request.errand)
    (met : meets (.own command decoded)) :
    (c.scheduleMaintenance command decoded).MaintenanceMeets fun request =>
      meets request.errand := by
  unfold scheduleMaintenance
  split
  · exact held
  · intro request member
    dsimp only at member
    rcases List.mem_append.mp member with priority | waiting
    · exact held request (List.mem_append_left _ priority)
    · split at waiting
      · rcases List.mem_cons.mp waiting with rfl | old
        · exact met
        · exact held request (List.mem_append_right _ old)
      · rcases List.mem_append.mp waiting with old | new
        · exact held request (List.mem_append_right _ old)
        · rw [List.mem_singleton.mp new]
          exact met

/-! ### Upkeep -/

section Upkeep

variable (own : ∀ errand, OwnErrand c.spec meets errand → meets errand)
  (held : c.MaintenanceMeets fun request => meets request.errand)
include own held

theorem wakeFromSelfRefresh_meets :
    c.wakeFromSelfRefresh.MaintenanceMeets fun request => meets request.errand := by
  unfold wakeFromSelfRefresh
  dsimp only
  split
  · exact scheduleMaintenance_meets held (own _ (.sleeps (Or.inr rfl)))
  · exact held

theorem scheduleRefresh_meets :
    c.scheduleRefresh.MaintenanceMeets fun request => meets request.errand := by
  unfold scheduleRefresh
  dsimp only
  refine List.foldlRecOn (motive := fun after : Controller β =>
    after.MaintenanceMeets fun request => meets request.errand) _ _ held
    fun middle kept command member => ?_
  obtain ⟨rank, inside, state, listed⟩ := RefreshManager.tick_batch _ _ _ _ _ command member
  exact scheduleMaintenance_meets kept (own _ (.refreshes inside listed))

theorem schedulePrecharge_meets {flat : Nat} (inside : flat < c.spec.bankCount) :
    (c.schedulePrecharge flat).MaintenanceMeets fun request => meets request.errand := by
  unfold schedulePrecharge
  dsimp only
  split
  · exact held
  split
  · exact held
  · intro request member
    unfold RequestQueues.pushBack at member
    dsimp only at member
    rw [put_queue_self, List.append_assoc] at member
    rcases List.mem_append.mp member with old | member
    · exact held request (List.mem_append_left _ old)
    · rcases List.mem_append.mp member with new | old
      · rw [List.mem_singleton.mp new]
        exact own _ (.precharges inside)
      · exact held request (List.mem_append_right _ old)

end Upkeep

theorem servicePendingMaintenance_meets {meets : Request → Prop}
    (held : c.MaintenanceMeets meets) : c.servicePendingMaintenance.MaintenanceMeets meets :=
  fun request member => held request ((servicePendingMaintenance_perm c).mem_iff.mp member)

theorem schedulePrecharge_policySized (sized : PolicySized c) (flat : Nat) :
    PolicySized (c.schedulePrecharge flat) := by
  have marked : ∀ engine : RowPolicyEngine,
      (engine.markPrechargePending flat).bankCount = engine.bankCount := by
    intro engine
    unfold RowPolicyEngine.markPrechargePending
    split <;> rfl
  unfold schedulePrecharge
  dsimp only
  split
  · exact sized
  split
  · exact sized
  · exact (marked c.rowPolicy).trans sized

theorem applyRowPolicyPreSchedule_meets
    (own : ∀ errand, OwnErrand c.spec meets errand → meets errand)
    (held : c.MaintenanceMeets fun request => meets request.errand) (sized : PolicySized c) :
    (c.applyRowPolicyPreSchedule.MaintenanceMeets fun request => meets request.errand) ∧
      PolicySized c.applyRowPolicyPreSchedule := by
  unfold applyRowPolicyPreSchedule
  split
  · exact ⟨held, sized⟩
  · have kept := List.foldlRecOn (motive := fun after : Controller β => after.spec = c.spec ∧
        (after.MaintenanceMeets fun request => meets request.errand) ∧ PolicySized after)
      (List.range c.rowPolicy.bankCount) schedulePrecharge ⟨rfl, held, sized⟩
      fun middle kept flat member => by
        obtain ⟨spec, maintenance, sized'⟩ := kept
        have inside := List.mem_range.mp member
        rw [sized, ← spec] at inside
        exact ⟨(schedulePrecharge_housekeeping middle flat).spec.trans spec,
          schedulePrecharge_meets (spec ▸ own) maintenance inside,
          schedulePrecharge_policySized sized' flat⟩
    exact kept.2

theorem ErrandsMeet.upkeep (held : ErrandsMeet meets c)
    (own : ∀ errand, OwnErrand c.spec meets errand → meets errand) (sized : PolicySized c) :
    ErrandsMeet meets c.upkeep ∧ PolicySized c.upkeep := by
  have woken : (Controller.wakeFromSelfRefresh { c with
      timingEngine := c.timingEngine.pruneRecentActs c.spec c.clk }).MaintenanceMeets
      fun request => meets request.errand :=
    wakeFromSelfRefresh_meets own held.maintenance
  have wokenSpec := (wakeFromSelfRefresh_housekeeping { c with
    timingEngine := c.timingEngine.pruneRecentActs c.spec c.clk }).spec
  have refreshed := scheduleRefresh_meets (wokenSpec.symm ▸ own) woken
  have serviced : c.serviced.MaintenanceMeets fun request => meets request.errand :=
    servicePendingMaintenance_meets refreshed
  have servicedSpec : c.serviced.spec = c.spec :=
    ((servicePendingMaintenance_housekeeping _).spec.trans
      (scheduleRefresh_housekeeping _).spec).trans wokenSpec
  have servicedSized : PolicySized c.serviced := by
    unfold PolicySized
    rw [(serviced_steady c).rowPolicy, servicedSpec]
    exact sized
  obtain ⟨maintenance, sized'⟩ := applyRowPolicyPreSchedule_meets (servicedSpec.symm ▸ own) serviced
    servicedSized
  exact ⟨held.housekeeping (upkeep_housekeeping c) maintenance, sized'⟩

/-! ### Acceptance and low power -/

theorem withdrawSelfRefresh_meets {meets : Request → Prop} (held : c.MaintenanceMeets meets) :
    c.withdrawSelfRefresh.MaintenanceMeets meets := by
  unfold withdrawSelfRefresh
  split
  · exact held
  · intro request member
    dsimp only at member
    rw [put_queue_self] at member
    rcases List.mem_append.mp member with priority | waiting
    · exact held request (List.mem_append_left _ (List.mem_of_mem_filter priority))
    · exact held request (List.mem_append_right _ (List.mem_of_mem_filter waiting))

/-- A channel in power down was sent there by a request. -/
def PowerDownAsked (meets : Errand → Prop) (c : Controller β) : Prop :=
  c.explicitPowerDownActive = true →
    ∃ entry, meets entry ∧ entry.type = .maintenance ∧ entry.next = .pde

theorem wakeUp_meets (own : ∀ errand, OwnErrand c.spec meets errand → meets errand)
    (asked : PowerDownAsked meets c)
    (held : c.MaintenanceMeets fun request => meets request.errand) (met : meets request.errand) :
    (c.wakeUp request).MaintenanceMeets fun request => meets request.errand := by
  unfold wakeUp
  split
  · exact held
  split
  next explicit =>
    dsimp only
    split
    · exact held
    · refine scheduleMaintenance_meets held ?_
      split
      · exact own _ (@OwnErrand.wakes _ _ request.errand met)
      next awake =>
        obtain ⟨entry, entered, isEntry⟩ :=
          asked ((Bool.or_eq_true_iff.mp explicit).resolve_right awake)
        exact own _ (@OwnErrand.powersUp _ _ request.errand entry met entered isEntry)
  · exact held

theorem ErrandsMeet.prepareAccept (held : ErrandsMeet meets c)
    (own : ∀ errand, OwnErrand c.spec meets errand → meets errand) (asked : PowerDownAsked meets c)
    (met : meets request.errand) : ErrandsMeet meets (c.prepareAccept request) := by
  refine held.housekeeping (prepareAccept_housekeeping c request) ?_
  unfold Controller.prepareAccept
  split
  · exact held.maintenance
  · have spec := (withdrawSelfRefresh_housekeeping c).spec
    have powerDown : c.withdrawSelfRefresh.explicitPowerDownActive = c.explicitPowerDownActive :=
      congrArg Core.explicitPowerDownActive (withdrawSelfRefresh_housekeeping c).core
    exact wakeUp_meets (spec.symm ▸ own) (fun low => asked (powerDown ▸ low))
      (withdrawSelfRefresh_meets held.maintenance) met

/-- An idle channel counts its ticks, and after enough of them enters its low-power mode. -/
theorem idleLowPower_cases (c : Controller β) : ∃ since,
    c.idleLowPower = { c with lowPowerIdleSince := since } ∨
      (c.spec.lowPowerMode ≠ .off ∧
        c.idleLowPower = enterLowPower { c with lowPowerIdleSince := since }) := by
  have started : ∃ since, (if c.lowPowerIdleSince = 0 then { c with lowPowerIdleSince := c.clk }
      else c) = { c with lowPowerIdleSince := since } := by
    split
    · exact ⟨_, rfl⟩
    · exact ⟨c.lowPowerIdleSince, rfl⟩
  obtain ⟨since, started⟩ := started
  unfold idleLowPower
  split
  · exact ⟨c.lowPowerIdleSince, Or.inl rfl⟩
  next mode =>
    split
    · exact ⟨0, Or.inl rfl⟩
    dsimp only
    rw [started]
    refine ⟨since, ?_⟩
    split
    · exact Or.inr ⟨mode, rfl⟩
    · exact Or.inl rfl

theorem ErrandsMeet.idleLowPower (held : ErrandsMeet meets c)
    (own : ∀ errand, OwnErrand c.spec meets errand → meets errand) :
    ErrandsMeet meets c.idleLowPower := by
  refine held.housekeeping (idleLowPower_housekeeping c) ?_
  obtain ⟨since, same | ⟨-, same⟩⟩ := idleLowPower_cases c
  · rw [same]
    exact held.maintenance
  · rw [same]
    unfold enterLowPower
    split
    · split
      · exact held.maintenance
      · exact scheduleMaintenance_meets held.maintenance (own _ (.sleeps (Or.inl rfl)))
    · exact held.maintenance

/-- An accepted request enters one queue at most, with its errand. -/
theorem Entry.errandsMeet [MemoryBackend β] {accepted : Bool}
    (entry : Entry c request accepted after) (held : ErrandsMeet meets c)
    (met : meets request.errand) : ErrandsMeet meets after := by
  have pushed : ∀ {kind : RequestQueueKind} {entered : Request}, entered.errand = request.errand →
      ∀ other, ∀ request ∈ (c.requestQueues.pushBack kind entered).queue other,
        meets request.errand := by
    intro kind entered same other listed member
    unfold RequestQueues.pushBack at member
    by_cases here : other = kind
    · subst here
      rw [put_queue_self] at member
      rcases List.mem_append.mp member with old | new
      · exact held.queued other listed old
      · rw [List.mem_singleton.mp new, same]
        exact met
    · rw [put_queue_of_ne here] at member
      exact held.queued other listed member
  cases entry with
  | refused => exact held
  | forwarded isRead hits forwards =>
    unfold forwardRead at forwards
    obtain ⟨⟨payload, byteMask, image⟩, -, forwards⟩ := bind_eq_ok.mp forwards
    cases forwards
    exact ⟨held.queued, held.waiting⟩
  | queuedRead => exact ⟨pushed rfl, held.waiting⟩
  | coalesced => exact ⟨held.queued, held.waiting⟩
  | buffered =>
    refine ⟨pushed ?_, held.waiting⟩
    rw [ensureWritePayload_eq]
    rfl
  | maintenance => exact ⟨pushed rfl, held.waiting⟩

/-! ### Turns -/

section Turns

variable [MemoryBackend β] {candidate : Candidate} {bus : BusClass} {memPhy : MemPhy}
variable {memoryImage : MemoryImage β}

theorem issueRequest_errand (spec : DramSpec) (request : Request) (command : Command) :
    (issueRequest spec request command).errand = request.errand := by
  rw [issueRequest_eq]
  rfl

omit [MemoryBackend β] in
/-- A command asks for a mitigation of its own bank or rank, or for none. -/
theorem issueRfm_mitigates {spec : DramSpec} {command : Command} {manager : RfmManager}
    {maintenance : MaintenanceCommand}
    (asks : (issueRfm spec request command manager).1 = some maintenance) :
    (maintenance.command = .rfmpb ∨ maintenance.command = .rfmab) ∧
      maintenance.decoded = request.decoded := by
  have activate : ∀ {asked : MaintenanceCommand},
      (manager.onActivate spec request.decoded).1 = some asked →
      (asked.command = .rfmpb ∨ asked.command = .rfmab) ∧ asked.decoded = request.decoded := by
    intro asked asks
    unfold RfmManager.onActivate at asks
    dsimp only at asks
    repeat' split at asks
    all_goals first
      | cases asks
        exact ⟨Or.inl rfl, rfl⟩
      | cases asks
        exact ⟨Or.inr rfl, rfl⟩
      | cases asks
  unfold issueRfm at asks
  split at asks
  · exact activate asks
  · exact activate asks
  · cases asks
  · cases asks
  · cases asks

omit [MemoryBackend β] in
theorem ErrandsMeet.issueEffects (held : ErrandsMeet meets c)
    (own : ∀ errand, OwnErrand c.spec meets errand → meets errand)
    (member : request ∈ c.requestQueues.queue candidate.buffer) :
    ErrandsMeet meets (c.issueEffects candidate request memPhy memoryImage) := by
  have marked : ∀ kind, ∀ other ∈ (c.requestQueues.put candidate.buffer
      ((c.requestQueues.queue candidate.buffer).set candidate.index
        (issueRequest c.spec request candidate.command))).queue kind, meets other.errand := by
    intro kind other listed
    by_cases here : kind = candidate.buffer
    · subst here
      rw [put_queue_self] at listed
      rcases List.mem_or_eq_of_mem_set listed with old | rfl
      · exact held.queued _ other old
      · rw [issueRequest_errand]
        exact held.queued _ request member
    · rw [put_queue_of_ne here] at listed
      exact held.queued kind other listed
  refine ⟨?_, ?_⟩
  · rw [issueEffects_requestQueues]
    exact marked
  · have frame : (c.issueEffects candidate request memPhy memoryImage).pendingMaintenance =
        (({ c with memPhy, memoryImage } : Controller β).execute candidate
          request).pendingMaintenance := by
      unfold Controller.issueEffects
      rw [recordIssue_eq, applyPowerCommand_eq]
    rw [frame]
    unfold execute
    dsimp only
    split
    · exact held.waiting
    next maintenance asks =>
      obtain ⟨kind, same⟩ := issueRfm_mitigates asks
      refine fun other listed => scheduleMaintenance_meets (fun other listed => ?_) ?_ other
        (List.mem_append_right _ listed)
      · exact (List.mem_append.mp listed).elim (marked .priority other) (held.waiting other)
      · rw [same]
        exact own _ (.mitigates (held.queued _ request member) kind)

/-- A request that moves on stays in the queues, or leaves them. -/
theorem Advance.queue_subset
    (found : (c.requestQueues.queue candidate.buffer)[candidate.index]? = some request)
    (advance : Advance c candidate request after) :
    (∀ kind, ∀ other ∈ after.requestQueues.queue kind,
      ∃ was, other ∈ c.requestQueues.queue was) ∧
      after.pendingMaintenance = c.pendingMaintenance := by
  have erased : ∀ {queues : RequestQueues},
      c.requestQueues.erase candidate.buffer candidate.index c.spec = .ok queues →
      ∀ kind, ∀ other ∈ queues.queue kind, ∃ was, other ∈ c.requestQueues.queue was := by
    intro queues erases kind other listed
    obtain ⟨others, here⟩ := erase_cases found erases
    refine ⟨kind, ?_⟩
    by_cases same : kind = candidate.buffer
    · subst same
      exact List.mem_of_mem_eraseIdx (here ▸ listed)
    · exact others kind same ▸ listed
  cases advance with
  | served requestQueues maintenance isOwn erases => exact ⟨erased erases, rfl⟩
  | promoted opening ordinary waiting =>
    refine ⟨fun kind other listed => ?_, rfl⟩
    dsimp only at listed
    rcases promote_cases waiting found with full | ⟨others, here, active⟩
    · rw [full] at listed
      exact ⟨kind, listed⟩
    · by_cases isActive : kind = .active
      · rw [isActive, active] at listed
        rcases List.mem_append.mp listed with old | new
        · exact ⟨.active, old⟩
        · rw [List.mem_singleton.mp new]
          exact ⟨candidate.buffer, List.mem_of_getElem? found⟩
      · refine ⟨kind, ?_⟩
        by_cases same : kind = candidate.buffer
        · subst same
          exact List.mem_of_mem_eraseIdx (here ▸ listed)
        · exact others kind same isActive ▸ listed
  | stayed => exact ⟨fun kind other listed => ⟨kind, listed⟩, rfl⟩
  | retired after data ordinary how =>
    rw [how.result, leaveBuffer_eq]
    exact ⟨erased how.erases, rfl⟩

omit [MemoryBackend β] in
theorem ErrandsMeet.choosing (held : ErrandsMeet meets before) (choosing : Choosing before after) :
    ErrandsMeet meets after := by
  obtain ⟨satisfied, dropped, -⟩ := choosing.dropped
  refine held.housekeeping choosing.housekeeping fun request member => ?_
  rcases List.mem_append.mp member with priority | waiting
  · exact held.queued .priority request (dropped ▸ List.mem_append_right _ priority)
  · exact held.waiting request (choosing.pendingMaintenance ▸ waiting)

/-- The commands that only a maintenance request for them issues. -/
def isControl (command : Command) : Bool :=
  decide (command = .pde ∨ command = .pdx ∨ command = .srefen ∨ command = .srefex ∨
    command = .wcksync ∨ command = .refdb)

omit [MemoryBackend β] in
theorem Issuable.control_own (issuable : Issuable c candidate request)
    (control : isControl candidate.command = true) :
    request.type = .maintenance ∧ request.next = candidate.command := by
  by_cases isMaintenance : request.type = .maintenance
  · refine ⟨isMaintenance, ?_⟩
    have command := issuable.maintenance isMaintenance
    rcases nextMaintenanceCommand_cases c request with other | other | next
    · rw [command, other] at control
      exact absurd control (by decide)
    · rw [command, other] at control
      exact absurd control (by decide)
    · exact (command.trans next).symm
  · exfalso
    obtain ⟨next, isNext, same | ⟨-, ⟨-, upgrade⟩ | ⟨-, upgrade⟩⟩⟩ := issuable.next
    · have ordinary : isControl next = false := by
        unfold nextCommand at isNext
        dsimp only at isNext
        rw [if_neg isMaintenance] at isNext
        unfold nextClockCommand readCommandFor writeCommandFor at isNext
        dsimp only at isNext
        (repeat' split at isNext) <;> cases isNext <;> rfl
      rw [same, ordinary] at control
      cases control
    · rw [upgrade] at control
      exact absurd control (by decide)
    · rw [upgrade] at control
      exact absurd control (by decide)

/-- Power down begins with a command for a request that asked for it. -/
theorem PowerDownAsked.turn {issued : List IssuedCommand} (asked : PowerDownAsked meets c)
    (held : ErrandsMeet meets c) (turn : Turn c bus issued after) : PowerDownAsked meets after := by
  have chosenAsked : ∀ {chosen : Controller β}, Choosing c chosen → PowerDownAsked meets chosen :=
    fun choosing low => asked
      ((congrArg Core.explicitPowerDownActive choosing.housekeeping.core).symm.trans low)
  cases turn with
  | idle chosen choosing => exact chosenAsked choosing
  | @issue chosen choosing candidate request picks memPhy memoryImage after issuing =>
    intro low
    rw [issuing.advance.deviceKept.explicitPowerDownActive,
      (issueEffects_power chosen candidate request memPhy memoryImage).1, Bool.or_eq_true,
      decide_eq_true_eq] at low
    rcases low with entry | still
    · obtain ⟨maintenance, next⟩ := issuing.issuable.control_own (by rw [entry]; rfl)
      have member := List.mem_of_getElem? issuing.issuable.found
      exact ⟨request.errand, (held.choosing choosing).queued _ request member, maintenance,
        next.trans entry⟩
    · exact chosenAsked choosing (Bool.and_eq_true_iff.mp still).1

theorem ErrandsMeet.turn {issued : List IssuedCommand} (held : ErrandsMeet meets c)
    (own : ∀ errand, OwnErrand c.spec meets errand → meets errand)
    (turn : Turn c bus issued after) : ErrandsMeet meets after := by
  cases turn with
  | idle chosen choosing => exact held.choosing choosing
  | @issue chosen choosing candidate request picks memPhy memoryImage after issuing =>
    have kept := held.choosing choosing
    have effected : ErrandsMeet meets (chosen.issueEffects candidate request memPhy memoryImage) :=
      kept.issueEffects (choosing.housekeeping.spec.symm ▸ own)
        (List.mem_of_getElem? issuing.issuable.found)
    obtain ⟨subset, waiting⟩ := issuing.advance.queue_subset issuing.marked
    refine ⟨fun kind other listed => ?_, ?_⟩
    · obtain ⟨was, before⟩ := subset kind other listed
      exact effected.queued was other before
    · rw [waiting]
      exact effected.waiting

omit [MemoryBackend β] in
theorem onIssue_bankCount (engine : RowPolicyEngine) (policy : RowPolicyKind) (flat : Nat)
    (issued : Command) : (engine.onIssue policy flat issued).bankCount = engine.bankCount := by
  unfold RowPolicyEngine.onIssue
  dsimp only
  split
  · rfl
  split
  · rfl
  split
  · rfl
  split
  · rfl
  split <;> rfl

omit [MemoryBackend β] in
theorem retireSatisfied_policySized (sized : PolicySized c) : PolicySized c.retireSatisfied := by
  have dropped : ∀ (requests : List Request) (engine : RowPolicyEngine),
      (dropSatisfied c.spec c.options.rowPolicy c.banks requests engine).2.bankCount =
        engine.bankCount := by
    intro requests
    induction requests with
    | nil => exact fun _ => rfl
    | cons request rest inductionHypothesis =>
      intro engine
      unfold dropSatisfied
      dsimp only
      split
      · rw [inductionHypothesis, onIssue_bankCount]
      · rfl
  exact (dropped _ c.rowPolicy).trans sized

theorem PolicySized.turn {issued : List IssuedCommand} (sized : PolicySized c)
    (returns : c.turn bus = .ok (issued, after)) : PolicySized after := by
  have chosenSized : ∀ {found : Option Candidate} {chosen : Controller β},
      c.choose bus = .ok (found, chosen) → PolicySized chosen := by
    intro found chosen chooses
    rcases choose_chosen chooses with rfl | rfl | rfl
    · exact sized
    · exact retireSatisfied_policySized sized
    · have retired := retireSatisfied_policySized sized
      unfold PolicySized at retired ⊢
      rw [(setWriteMode_housekeeping _).spec, ← retired]
      unfold setWriteMode
      dsimp only
      split <;> split <;> rfl
  rcases turn_parts returns with ⟨-, -, chooses⟩ | ⟨chosen, candidate, request, -, parts⟩
  · exact chosenSized chooses
  · obtain ⟨found, chooses⟩ := parts.chooses
    obtain ⟨memPhy, memoryImage, issuing, -⟩ := parts.moves
    have effected : PolicySized (chosen.issueEffects candidate request memPhy memoryImage) := by
      unfold PolicySized
      rw [issueEffects_rowPolicy, onIssue_bankCount, issueEffects_spec]
      exact chosenSized chooses
    cases issuing.advance with
    | retired after data ordinary how =>
      rw [how.result, leaveBuffer_eq]
      exact effected
    | _ => exact effected

end Turns

/-! ### Every run -/

section Runs

variable [MemoryBackend β] {spec : DramSpec} {options : ControllerOptions}
variable {image : MemoryImage β} {start final : Controller β} {ops : List ControllerOp}
variable {events : List ControllerEvent}

/-- The requests of a run and the commands issued for them have errands of the condition. -/
structure Sent (spec : DramSpec) (meets : Errand → Prop) (history : List ControllerEvent)
    (c : Controller β) : Prop where
  spec_eq : c.spec = spec
  sized : PolicySized c
  errands : ErrandsMeet meets c
  asked : PowerDownAsked meets c
  issued : ∀ issued ∈ commandsOf history, ∃ errand, meets errand ∧
    issued.decoded = errand.decoded ∧ issued.stackId = max 0 errand.targetStack ∧
      (isControl issued.command = true →
        errand.type = .maintenance ∧ errand.next = issued.command)

theorem sent_kept (own : ∀ errand, OwnErrand spec meets errand → meets errand) :
    Kept (fun c request => (∃ checked, c.checkRequest request = .ok checked) →
        c.spec = spec → meets request.errand) (fun _ _ => True)
      fun history (c : Controller β) => Sent spec meets history c where
  enqueue history c request accepted after holds met returns := by
    obtain ⟨checked, entry⟩ := enqueue_cases returns
    have meetsIt := met checked holds.spec_eq
    have prepared := holds.errands.prepareAccept (holds.spec_eq.symm ▸ own) holds.asked meetsIt
    have frame := entry.deviceKept
    have steady := (prepareAccept_steady c request).rowPolicy
    have specs := frame.spec.trans (prepareAccept_housekeeping c request).spec
    have powerDown := frame.explicitPowerDownActive.trans
      (congrArg Core.explicitPowerDownActive (prepareAccept_housekeeping c request).core)
    refine ⟨specs.trans holds.spec_eq, ?_, entry.errandsMeet prepared meetsIt,
      fun low => holds.asked (powerDown.symm.trans low), ?_⟩
    · have rowPolicy : after.rowPolicy = (c.prepareAccept request).rowPolicy := by
        cases entry with
        | forwarded isRead hits forwards =>
          unfold forwardRead at forwards
          obtain ⟨⟨payload, byteMask, image⟩, -, forwards⟩ := bind_eq_ok.mp forwards
          cases forwards
          rfl
        | _ => rfl
      unfold PolicySized
      rw [rowPolicy, steady, specs]
      exact holds.sized
    · rw [commandsOf_acceptance]
      exact holds.issued
  beginTick history c begun holds returns := by
    obtain ⟨spec_eq, sized, errands, asked, issued⟩ := holds
    rw [(beginTick_eq returns).2]
    exact ⟨spec_eq, sized, ⟨errands.queued, errands.waiting⟩, asked, issued⟩
  upkeep history c holds _ := by
    obtain ⟨errands, sized⟩ := holds.errands.upkeep (holds.spec_eq.symm ▸ own) holds.sized
    have powerDown := congrArg Core.explicitPowerDownActive (upkeep_housekeeping c).core
    exact ⟨(upkeep_housekeeping c).spec.trans holds.spec_eq, sized, errands,
      fun low => holds.asked (powerDown.symm.trans low), holds.issued⟩
  turn history c bus issued after holds _ returns := by
    have turn := turn_cases returns
    refine ⟨turn.turnFrame.spec.trans holds.spec_eq, holds.sized.turn returns,
      holds.errands.turn (holds.spec_eq.symm ▸ own) turn, holds.asked.turn holds.errands turn, ?_⟩
    rw [commandsOf_issued]
    refine List.forall_mem_append.mpr ⟨holds.issued, ?_⟩
    cases turn with
    | idle => exact fun _ member => absurd member List.not_mem_nil
    | @issue chosen choosing candidate request picks memPhy memoryImage after issuing =>
      rw [List.forall_mem_singleton]
      have member := List.mem_of_getElem? issuing.issuable.found
      exact ⟨request.errand, (holds.errands.choosing choosing).queued _ request member, rfl, rfl,
        issuing.issuable.control_own⟩
  idleLowPower history c holds := by
    have steady := (idleLowPower_steady c).rowPolicy
    have specs := (idleLowPower_housekeeping c).spec
    have powerDown := congrArg Core.explicitPowerDownActive (idleLowPower_housekeeping c).core
    refine ⟨specs.trans holds.spec_eq, ?_, holds.errands.idleLowPower (holds.spec_eq.symm ▸ own),
      fun low => holds.asked (powerDown.symm.trans low), holds.issued⟩
    unfold PolicySized
    rw [steady, specs]
    exact holds.sized
  popResponse history c response after holds returns := by
    obtain ⟨spec_eq, sized, errands, asked, issued⟩ := holds
    unfold Controller.popResponse at returns
    split at returns
    · cases returns
    · cases returns
      rw [← commandsOf_responded history response] at issued
      exact ⟨spec_eq, sized, ⟨errands.queued, errands.waiting⟩, asked, issued⟩
  flushStorage history c after holds returns := by
    obtain ⟨spec_eq, sized, errands, asked, issued⟩ := holds
    obtain ⟨image, -, returned⟩ := bind_eq_ok.mp returns
    cases returned
    exact ⟨spec_eq, sized, ⟨errands.queued, errands.waiting⟩, asked, issued⟩

omit [MemoryBackend β] in
theorem create_policySized (created : create spec options image = .ok start) :
    PolicySized start := by
  unfold create at created
  obtain ⟨banks, total, created⟩ := bind_eq_ok.mp created
  obtain ⟨_, -, created⟩ := bind_eq_ok.mp created
  obtain ⟨_, -, created⟩ := bind_eq_ok.mp created
  obtain ⟨_, -, created⟩ := bind_eq_ok.mp created
  obtain ⟨_, -, created⟩ := bind_eq_ok.mp created
  obtain ⟨_, -, created⟩ := bind_eq_ok.mp created
  obtain ⟨rowPolicy, resets, created⟩ := bind_eq_ok.mp created
  obtain ⟨_, -, created⟩ := bind_eq_ok.mp created
  cases created
  unfold RowPolicyEngine.reset at resets
  obtain ⟨_, -, resets⟩ := bind_eq_ok.mp resets
  obtain ⟨_, -, resets⟩ := bind_eq_ok.mp resets
  cases resets
  exact (DramSpec.totalBanks_eq total).1

omit [MemoryBackend β] in
theorem create_sent (created : create spec options image = .ok start) :
    Sent spec meets [] start := by
  have first := create_created created
  have none : ∀ request ∈ ([] : List Request), meets request.errand :=
    fun _ member => absurd member List.not_mem_nil
  refine ⟨first.spec_eq, create_policySized created, ⟨fun kind => ?_, ?_⟩, fun low => ?_,
    fun _ member => absurd member List.not_mem_nil⟩
  · rw [first.queues]
    exact none
  · rw [first.pendingMaintenance_eq]
    exact none
  · rw [first.result] at low
    cases low

/-- What a run issues carries out an errand of the condition at its address and stack, when the
offered requests meet the condition and the controller's own errands do. -/
theorem run_sent (created : create spec options image = .ok start)
    (own : ∀ errand, OwnErrand spec meets errand → meets errand)
    (offered : start.RunMeets (fun c request => (∃ checked, c.checkRequest request = .ok checked) →
      c.spec = spec → meets request.errand) (fun _ _ => True) ops)
    (returns : start.run ops = .ok (events, final)) : Sent spec meets events final :=
  (sent_kept own).run (create_sent created) offered returns

/-- The first condition: the address is one of the device. An offered request that is accepted
meets it, and the controller's own errands keep to it. -/
theorem sentInside_guard (c : Controller β) (request : Request) :
    (∃ checked, c.checkRequest request = .ok checked) → c.spec = spec →
      request.errand.decoded.InBounds spec := by
  rintro ⟨checked, accepts⟩ rfl
  obtain ⟨_, inside, -⟩ := bind_eq_ok.mp accepts
  exact validateRequestDecoded_inBounds inside

theorem run_sentInside (created : create spec options image = .ok start)
    (returns : start.run ops = .ok (events, final)) :
    Sent spec (fun errand => errand.decoded.InBounds spec) events final := by
  obtain ⟨checked, accepted⟩ := (create_created created).accepted
  refine run_sent created (fun errand own => ?_) ?_ returns
  · exact own.inBounds (validateSpec_positive accepted) (validateSpec_bankGroups accepted)
      fun _ met => met
  · exact runMeets_of_forall sentInside_guard (fun _ _ => trivial) start ops

/-- Whatever is offered, accepted or not: every command of a run, also those of the refreshes, the
mitigations, the precharges and the wake-ups that the controller adds, names a channel, a rank, a
bank, a row and a column of the device. -/
theorem issued_inBounds (created : create spec options image = .ok start)
    (returns : start.run ops = .ok (events, final)) :
    ∀ issued ∈ commandsOf events, issued.decoded.InBounds spec := by
  intro issued member
  obtain ⟨errand, inside, same, -⟩ := (run_sentInside created returns).issued issued member
  exact same ▸ inside

end Runs

/-- A read whose activate crosses the threshold, and the ticks in which its bank is mitigated. -/
def readThenRfm : List ControllerOp :=
  .enqueue (readAt mitigatedBanks 1 4 4) :: List.replicate 64 .tick

theorem issued_inBounds_readThenRfm : ∃ start events final,
    create mitigatedBanks {} (imageOf mitigatedBanks) = .ok start ∧
      start.run readThenRfm = .ok (events, final) ∧
      (commandsOf events).map (fun issued => (issued.cycle, issued.command)) =
        [(1, .act), (21, .rd), (43, .prepb), (63, .rfmpb)] ∧
      ∀ issued ∈ commandsOf events, issued.decoded.InBounds mitigatedBanks := by
  obtain ⟨start, events, final, created, returns, checks⟩ :=
    freshRun_of_passes mitigatedBanks {} readThenRfm
      (fun result => (commandsOf result.1).map (fun issued => (issued.cycle, issued.command)) =
        [(1, .act), (21, .rd), (43, .prepb), (63, .rfmpb)]) (by decide +kernel)
  exact ⟨start, events, final, created, returns, of_decide_eq_true checks,
    issued_inBounds created returns⟩

end Controller

end HbmSim
