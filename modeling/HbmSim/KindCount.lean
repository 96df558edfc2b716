/-
The queued maintenance requests of a kind, counted. Only the row policy makes
precharges and only an activate makes mitigations; so what else a tick does keeps
the count of such a kind, with the counters of both policies.
-/

import HbmSim.QueueAccount

namespace HbmSim.Controller

variable {β : Type} {c before middle after : Controller β} {request : Request}
variable {select : Request → Bool}

/-! ### The count -/

/-- The number of queued maintenance requests that are selected. -/
def queuedCount (select : Request → Bool) (c : Controller β) : Nat :=
  c.queuedMaintenance.countP select

/-- A kind of requests that refreshing, sleeping and waking never make, told by what issuing does
not change. -/
structure Special (select : Request → Bool) : Prop where
  next : ∀ request, select request = true →
    request.next = .prepb ∨ request.next = .rfmpb ∨ request.next = .rfmab
  marks : ∀ spec request command,
    select (issueRequest spec request command) = select request

theorem Special.not_selects (special : Special select) (request : Request) {command : Command}
    (next : request.next = command)
    (plain : command ≠ .prepb ∧ command ≠ .rfmpb ∧ command ≠ .rfmab) :
    select request = false := by
  by_contra selected
  rcases special.next request (Bool.eq_true_of_not_eq_false selected) with is | is | is
  · exact plain.1 (next.symm.trans is)
  · exact plain.2.1 (next.symm.trans is)
  · exact plain.2.2 (next.symm.trans is)

theorem queuedCount_scheduleMaintenance (c : Controller β) {command : Command}
    (notExit : command ≠ .srefex) (decoded : DecodedAddress) :
    (c.scheduleMaintenance command decoded).queuedCount select = c.queuedCount select +
      if select (maintenanceRequest c.nextMaintenanceId command decoded c.clk) then 1 else 0 := by
  unfold scheduleMaintenance queuedCount queuedMaintenance
  rw [if_neg fun exit => notExit exit.1]
  dsimp only
  rw [if_neg notExit, ← List.append_assoc, List.countP_append, List.countP_singleton]
  rfl

theorem queuedCount_pos (member : request ∈ c.queuedMaintenance)
    (selected : select request = true) : 0 < c.queuedCount select :=
  List.countP_pos_iff.mpr ⟨request, member, selected⟩

/-- A request joins its kinds. -/
theorem queuedCount_pushBack (c : Controller β) (request : Request)
    (pushed : after.requestQueues = c.requestQueues.pushBack .priority request)
    (waiting : after.pendingMaintenance = c.pendingMaintenance) :
    after.queuedCount select = c.queuedCount select + if select request then 1 else 0 := by
  unfold queuedCount queuedMaintenance
  rw [pushed, waiting]
  unfold RequestQueues.pushBack
  rw [put_queue_self]
  simp only [List.countP_append, List.countP_singleton]
  exact Nat.add_right_comm _ _ _

/-! ### What keeps the counts -/

/-- The counts of special kinds and the counters of the two policies are as before. -/
structure Steady (before after : Controller β) : Prop where
  count : ∀ select, Special select → after.queuedCount select = before.queuedCount select
  rfmManager : after.rfmManager = before.rfmManager
  rowPolicy : after.rowPolicy = before.rowPolicy

theorem Steady.refl (c : Controller β) : Steady c c := ⟨fun _ _ => rfl, rfl, rfl⟩

theorem Steady.trans (first : Steady before middle) (second : Steady middle after) :
    Steady before after :=
  ⟨fun select special => (second.count select special).trans (first.count select special),
    second.rfmManager.trans first.rfmManager, second.rowPolicy.trans first.rowPolicy⟩

theorem scheduleMaintenance_steady (c : Controller β) (command : Command)
    (plain : command ≠ .prepb ∧ command ≠ .rfmpb ∧ command ≠ .rfmab) (decoded : DecodedAddress) :
    Steady c (c.scheduleMaintenance command decoded) := by
  refine ⟨fun select special => ?_, ?_, ?_⟩
  · unfold scheduleMaintenance queuedCount queuedMaintenance
    split
    · rfl
    · have made := special.not_selects (maintenanceRequest c.nextMaintenanceId command decoded c.clk)
        rfl plain
      dsimp only
      split
      · simp only [List.countP_append, List.countP_cons]
        rw [maintenanceRequest] at made
        rw [made]
        rfl
      · rw [maintenanceRequest] at made
        simp only [List.countP_append, List.countP_singleton, made]
        rfl
  · rw [scheduleMaintenance_eq]
  · rw [scheduleMaintenance_eq]

theorem refresh_plain {command : Command} (refresh : (commandMeta command).refresh = true) :
    command ≠ .prepb ∧ command ≠ .rfmpb ∧ command ≠ .rfmab := by
  refine ⟨?_, ?_, ?_⟩ <;>
  · rintro rfl
    cases refresh

theorem wakeFromSelfRefresh_steady (c : Controller β) : Steady c c.wakeFromSelfRefresh := by
  unfold wakeFromSelfRefresh
  dsimp only
  split
  · have scheduled := scheduleMaintenance_steady c .srefex (by decide) {}
    exact ⟨scheduled.count, scheduled.rfmManager, scheduled.rowPolicy⟩
  · exact Steady.refl c

theorem scheduleRefresh_steady (c : Controller β) : Steady c c.scheduleRefresh := by
  unfold scheduleRefresh
  dsimp only
  have ticked : ∀ refreshManager, Steady c { c with refreshManager } :=
    fun _ => ⟨fun _ _ => rfl, rfl, rfl⟩
  refine List.foldlRecOn _ _ (ticked _) fun middle steady command member => ?_
  exact steady.trans (scheduleMaintenance_steady middle _
    (refresh_plain (RefreshManager.tick_refresh _ _ _ _ _ command member)) _)

theorem favourExit_policies (c : Controller β) :
    c.favourExit.rfmManager = c.rfmManager ∧ c.favourExit.rowPolicy = c.rowPolicy := by
  unfold favourExit
  split
  · exact ⟨rfl, rfl⟩
  dsimp only
  split
  · split <;> exact ⟨rfl, rfl⟩
  · exact ⟨rfl, rfl⟩

theorem servicePendingMaintenance_steady (c : Controller β) :
    Steady c c.servicePendingMaintenance where
  count select _ := (servicePendingMaintenance_perm c).countP_eq select
  rfmManager := (favourExit_policies c).1
  rowPolicy := (favourExit_policies c).2

theorem serviced_steady (c : Controller β) : Steady c c.serviced := by
  have pruned : Steady c { c with timingEngine := c.timingEngine.pruneRecentActs c.spec c.clk } :=
    ⟨fun _ _ => rfl, rfl, rfl⟩
  exact ((pruned.trans (wakeFromSelfRefresh_steady _)).trans (scheduleRefresh_steady _)).trans
    (servicePendingMaintenance_steady _)

/-- The row policy queues a precharge and sets its flag, or nothing. -/
theorem schedulePrecharge_cases (c : Controller β) (flat : Nat) :
    ((c.schedulePrecharge flat).rowPolicy = c.rowPolicy ∧
        ∀ select, (c.schedulePrecharge flat).queuedCount select = c.queuedCount select) ∨
      (c.rowPolicy.shouldSchedulePrecharge c.options.rowPolicy flat
          (c.requestQueues.activeCounts flat) = true ∧
        (c.schedulePrecharge flat).rowPolicy = c.rowPolicy.markPrechargePending flat ∧
        ∀ select, (c.schedulePrecharge flat).queuedCount select = c.queuedCount select +
          if select (maintenanceRequest c.nextMaintenanceId .prepb
            (decodedFromFlatBank c.spec flat) c.clk) then 1 else 0) := by
  unfold schedulePrecharge
  dsimp only
  split
  · exact Or.inl ⟨rfl, fun _ => rfl⟩
  next due =>
    split
    · exact Or.inl ⟨rfl, fun _ => rfl⟩
    · exact Or.inr ⟨Bool.eq_true_of_not_eq_false due, rfl,
        fun select => queuedCount_pushBack c _ rfl rfl⟩

theorem applyRowPolicyPreSchedule_rfmManager (c : Controller β) :
    c.applyRowPolicyPreSchedule.rfmManager = c.rfmManager := by
  unfold applyRowPolicyPreSchedule
  split
  · rfl
  · refine List.foldlRecOn (motive := fun after : Controller β =>
      after.rfmManager = c.rfmManager) _ schedulePrecharge rfl fun middle kept flat _ => ?_
    rw [← kept]
    unfold schedulePrecharge
    dsimp only
    split
    · rfl
    split <;> rfl

/-- The row policy queues precharges only. -/
theorem applyRowPolicyPreSchedule_count
    (notPrecharge : ∀ request, select request = true → request.next ≠ .prepb)
    (c : Controller β) :
    c.applyRowPolicyPreSchedule.queuedCount select = c.queuedCount select := by
  unfold applyRowPolicyPreSchedule
  split
  · rfl
  · refine List.foldlRecOn (motive := fun after : Controller β =>
      after.queuedCount select = c.queuedCount select) _ schedulePrecharge rfl
      fun middle kept flat _ => ?_
    rw [← kept]
    rcases schedulePrecharge_cases middle flat with ⟨-, same⟩ | ⟨-, -, joined⟩
    · exact same select
    · rw [joined, if_neg fun selected => notPrecharge _ selected rfl, Nat.add_zero]

theorem withdrawSelfRefresh_steady (c : Controller β) : Steady c c.withdrawSelfRefresh := by
  unfold withdrawSelfRefresh
  split
  · exact Steady.refl c
  next id _ =>
    refine ⟨fun select special => ?_, rfl, rfl⟩
    unfold queuedCount queuedMaintenance
    dsimp only
    rw [put_queue_self, ← List.filter_append, List.countP_filter]
    refine List.countP_congr fun request _ => ?_
    rw [Bool.and_eq_true, and_iff_left_iff_imp]
    intro selected
    rw [Bool.not_eq_true', decide_eq_false_iff_not]
    rintro ⟨-, entry⟩
    rw [special.not_selects request entry (by decide)] at selected
    cases selected

theorem wakeUp_steady (c : Controller β) (request : Request) : Steady c (c.wakeUp request) := by
  unfold wakeUp
  split
  · exact Steady.refl c
  split
  · dsimp only
    split
    · exact Steady.refl c
    · have scheduled := scheduleMaintenance_steady c
        (if c.explicitSelfRefreshActive then .srefex else .pdx) (by split <;> decide)
        request.decoded
      exact ⟨scheduled.count, scheduled.rfmManager, scheduled.rowPolicy⟩
  · exact ⟨fun _ _ => rfl, rfl, rfl⟩

theorem prepareAccept_steady (c : Controller β) (request : Request) :
    Steady c (c.prepareAccept request) := by
  unfold prepareAccept
  split
  · exact Steady.refl c
  · exact (withdrawSelfRefresh_steady c).trans (wakeUp_steady _ request)

theorem idleLowPower_steady (c : Controller β) : Steady c c.idleLowPower := by
  unfold idleLowPower
  split
  · exact Steady.refl c
  split
  · exact ⟨fun _ _ => rfl, rfl, rfl⟩
  dsimp only
  have started : Steady c
      (if c.lowPowerIdleSince = 0 then { c with lowPowerIdleSince := c.clk } else c) := by
    split <;> exact ⟨fun _ _ => rfl, rfl, rfl⟩
  generalize (if c.lowPowerIdleSince = 0 then { c with lowPowerIdleSince := c.clk } else c) =
    later at started ⊢
  split
  · refine started.trans ?_
    unfold enterLowPower
    split
    · split
      · exact Steady.refl later
      · have asks : Steady later
            { later with automaticSelfRefreshRequest := some later.nextMaintenanceId } :=
          ⟨fun _ _ => rfl, rfl, rfl⟩
        exact asks.trans (scheduleMaintenance_steady _ .srefen (by decide) {})
    · exact ⟨fun _ _ => rfl, rfl, rfl⟩
  · exact started

/-- A read or a write enters no maintenance queue. -/
theorem Entry.steady [MemoryBackend β] {accepted : Bool} (entry : Entry c request accepted after)
    (ordinary : request.type ≠ .maintenance) : Steady c after := by
  cases entry with
  | refused => exact Steady.refl c
  | forwarded isRead hits forwards =>
    unfold forwardRead at forwards
    obtain ⟨⟨payload, byteMask, image⟩, -, forwards⟩ := bind_eq_ok.mp forwards
    cases forwards
    exact ⟨fun _ _ => rfl, rfl, rfl⟩
  | queuedRead => exact ⟨fun _ _ => rfl, rfl, rfl⟩
  | coalesced => exact ⟨fun _ _ => rfl, rfl, rfl⟩
  | buffered => exact ⟨fun _ _ => rfl, rfl, rfl⟩
  | maintenance isMaintenance => exact absurd isMaintenance ordinary

/-- An accepted maintenance request joins its kinds. -/
theorem Entry.joins [MemoryBackend β] {accepted : Bool} (entry : Entry c request accepted after)
    (isMaintenance : request.type = .maintenance) :
    after.queuedCount select = c.queuedCount select + (if accepted = true ∧
        select { request with controllerSequence := c.nextControllerSequence } = true then 1
      else 0) ∧
      after.rfmManager = c.rfmManager ∧ after.rowPolicy = c.rowPolicy := by
  cases entry with
  | refused =>
    rw [if_neg (by simp)]
    exact ⟨rfl, rfl, rfl⟩
  | forwarded isRead => cases isRead.symm.trans isMaintenance
  | queuedRead isRead => cases isRead.symm.trans isMaintenance
  | coalesced isWrite => cases isWrite.symm.trans isMaintenance
  | buffered isWrite => cases isWrite.symm.trans isMaintenance
  | maintenance =>
    refine ⟨?_, rfl, rfl⟩
    simp only [true_and]
    exact queuedCount_pushBack c _ rfl rfl

/-! ### A turn -/

section Turn

variable {candidate : Candidate} {memPhy : MemPhy} {memoryImage : MemoryImage β}

theorem issueEffects_rfmManager :
    (c.issueEffects candidate request memPhy memoryImage).rfmManager =
      (issueRfm c.spec request candidate.command c.rfmManager).2 := by
  unfold issueEffects
  rw [recordIssue_eq, applyPowerCommand_eq]
  unfold execute
  dsimp only
  split
  · rfl
  · rw [scheduleMaintenance_eq]

theorem issueEffects_rowPolicy :
    (c.issueEffects candidate request memPhy memoryImage).rowPolicy =
      c.rowPolicy.onIssue c.options.rowPolicy (request.decoded.flatBank c.spec)
        candidate.command := by
  have recorded : ∀ executed : Controller β,
      (executed.recordIssue request candidate.command candidate.bus).rowPolicy =
        executed.rowPolicy.onIssue executed.options.rowPolicy
          (request.decoded.flatBank executed.spec) candidate.command := by
    intro executed
    unfold recordIssue
    dsimp only
    split <;> rfl
  unfold issueEffects
  rw [recorded, applyPowerCommand_eq]
  unfold execute
  dsimp only
  split
  · rfl
  · rw [scheduleMaintenance_eq]

/-- One more, if the mitigation that an activate asks for is of the kind. -/
def askedCount (select : Request → Bool) (c : Controller β) : Option MaintenanceCommand → Nat
  | none => 0
  | some asked =>
    if select (maintenanceRequest c.nextMaintenanceId asked.command asked.decoded c.clk) then 1
    else 0

@[simp] theorem askedCount_none : askedCount select c none = 0 := rfl

theorem askedCount_some (asked : MaintenanceCommand) : askedCount select c (some asked) =
    if select (maintenanceRequest c.nextMaintenanceId asked.command asked.decoded c.clk) then 1
    else 0 := rfl

theorem issueRfm_asked {spec : DramSpec} {command : Command} {manager : RfmManager}
    {asked : MaintenanceCommand}
    (asks : (issueRfm spec request command manager).1 = some asked) :
    (command = .act ∨ command = .act1) ∧ asked.decoded = request.decoded ∧
      asked.command = if spec.rfmPolicy = .allBank then .rfmab else .rfmpb := by
  have activates : (manager.onActivate spec request.decoded).1 = some asked →
      asked.decoded = request.decoded ∧
        asked.command = if spec.rfmPolicy = .allBank then .rfmab else .rfmpb := by
    intro asks
    unfold RfmManager.onActivate at asks
    dsimp only at asks
    split at asks
    · cases asks
    split at asks
    · cases asks
    split at asks
    next allBank =>
      split at asks
      · cases asks
      · cases asks
        exact ⟨rfl, (if_pos allBank).symm⟩
    next perBank =>
      split at asks
      · cases asks
      · cases asks
        exact ⟨rfl, (if_neg perBank).symm⟩
  unfold issueRfm at asks
  split at asks
  · exact ⟨Or.inl rfl, activates asks⟩
  · exact ⟨Or.inr rfl, activates asks⟩
  all_goals cases asks

theorem queuedCount_issueEffects (special : Special select)
    (found : (c.requestQueues.queue candidate.buffer)[candidate.index]? = some request) :
    (c.issueEffects candidate request memPhy memoryImage).queuedCount select =
      c.queuedCount select +
        askedCount select c (issueRfm c.spec request candidate.command c.rfmManager).1 := by
  have marked : ((c.requestQueues.put candidate.buffer
      ((c.requestQueues.queue candidate.buffer).set candidate.index
        (issueRequest c.spec request candidate.command))).queue .priority).countP select =
      (c.requestQueues.queue .priority).countP select := by
    by_cases here : candidate.buffer = .priority
    · rw [here] at found ⊢
      have same := congrArg (List.countP id) (map_set_of_found found
        (special.marks c.spec request candidate.command))
      rw [List.countP_map, List.countP_map] at same
      rw [put_queue_self]
      exact same
    · rw [put_queue_of_ne (Ne.symm here)]
  unfold issueEffects
  rw [recordIssue_eq, applyPowerCommand_eq]
  show queuedCount select (execute _ candidate request) = _
  unfold execute
  dsimp only
  cases asks : (issueRfm c.spec request candidate.command c.rfmManager).1 with
  | none =>
    unfold queuedCount queuedMaintenance
    dsimp only
    rw [List.countP_append, marked, ← List.countP_append]
    rfl
  | some asked =>
    have notExit : asked.command ≠ .srefex := by
      rw [(issueRfm_asked asks).2.2]
      split <;> decide
    dsimp only
    rw [queuedCount_scheduleMaintenance _ notExit]
    unfold queuedCount queuedMaintenance
    dsimp only
    rw [List.countP_append, marked, ← List.countP_append]
    rfl

variable [MemoryBackend β]

/-- A maintenance request leaves its kind with its own command, and every other request stays. -/
theorem retireOrAdvance_count (select : Request → Bool) (kinds : QueueKinds c)
    (found : (c.requestQueues.queue candidate.buffer)[candidate.index]? = some request)
    (own : (commandMeta candidate.command).data = true → request.type = .maintenance →
      candidate.command = request.next)
    (returns : c.retireOrAdvance candidate = .ok after) :
    after.queuedCount select + (if request.type = .maintenance ∧
        candidate.command = request.next ∧ select request = true then 1 else 0) =
      c.queuedCount select ∧
      after.rfmManager = c.rfmManager ∧ after.rowPolicy = c.rowPolicy := by
  have isPriority := kinds.maintenance_iff (List.mem_of_getElem? found)
  by_cases done : request.type = .maintenance ∧ candidate.command = request.next
  · unfold retireOrAdvance at returns
    rw [found] at returns
    dsimp only at returns
    rw [if_pos done] at returns
    obtain ⟨queues, erases, returns⟩ := bind_eq_ok.mp returns
    cases returns
    have without := RequestQueues.erase_without found erases
    rw [isPriority.mp done.1] at without found
    have parts := (eraseIdx_perm found).countP_eq select
    rw [List.countP_cons, ← without.here] at parts
    refine ⟨?_, rfl, rfl⟩
    unfold queuedCount queuedMaintenance
    dsimp only
    rw [List.countP_append, List.countP_append, ← parts]
    simp only [done, true_and]
    omega
  · rw [if_neg fun whole => done ⟨whole.1, whole.2.1⟩, Nat.add_zero]
    cases retireOrAdvance_cases found own returns with
    | served queues isMaintenance own erases => exact absurd ⟨isMaintenance, own⟩ done
    | promoted opening ordinary waiting =>
      have notPriority : candidate.buffer ≠ .priority := fun is => ordinary (isPriority.mpr is)
      refine ⟨?_, rfl, rfl⟩
      unfold queuedCount queuedMaintenance
      dsimp only
      rcases @RequestQueues.promote_promoted c.requestQueues _ _ c.spec _ found with
        full | ⟨-, moved⟩
      · rw [full]
      · rw [moved.others .priority (Ne.symm notPriority) nofun]
    | stayed => exact ⟨rfl, rfl, rfl⟩
    | retired after data ordinary how =>
      have notPriority : candidate.buffer ≠ .priority := fun is => ordinary (isPriority.mpr is)
      have without := RequestQueues.erase_without found how.erases
      rw [how.result, leaveBuffer_eq]
      refine ⟨?_, rfl, rfl⟩
      unfold queuedCount queuedMaintenance
      dsimp only
      rw [without.others .priority (Ne.symm notPriority)]

omit [MemoryBackend β] in
/-- The choice drops satisfied precharges, or nothing. -/
theorem choose_chosen {found : Option Candidate} {chosen : Controller β} {bus : BusClass}
    (returns : c.choose bus = .ok (found, chosen)) :
    chosen = c ∨ chosen = c.retireSatisfied ∨ chosen = c.retireSatisfied.setWriteMode := by
  unfold choose at returns
  obtain ⟨urgent, -, rest⟩ := bind_eq_ok.mp returns
  cases urgent with
  | some candidate =>
    cases rest
    exact Or.inl rfl
  | none =>
    dsimp only at rest
    cases active : c.pickActive bus with
    | some candidate =>
      rw [active] at rest
      cases rest
      exact Or.inl rfl
    | none =>
      rw [active] at rest
      have returned : c.choosePriority bus = (found, chosen) := Except.ok.inj rest
      unfold choosePriority at returned
      dsimp only at returned
      split at returned
      · cases returned
        exact Or.inr (Or.inl rfl)
      · unfold chooseReadWrite at returned
        split at returned
        · cases returned
          exact Or.inr (Or.inr rfl)
        · cases returned
          exact Or.inr (Or.inl rfl)

omit [MemoryBackend β] in
theorem choose_rfmManager {found : Option Candidate} {chosen : Controller β} {bus : BusClass}
    (returns : c.choose bus = .ok (found, chosen)) : chosen.rfmManager = c.rfmManager := by
  rcases choose_chosen returns with rfl | rfl | rfl
  · rfl
  · rfl
  · unfold setWriteMode
    dsimp only
    split <;> split <;> rfl

omit [MemoryBackend β] in
theorem Choosing.count {chosen : Controller β} (choosing : Choosing c chosen)
    (notPrecharge : ∀ request, select request = true → request.next ≠ .prepb) :
    chosen.queuedCount select = c.queuedCount select := by
  obtain ⟨satisfied, dropped, precharges⟩ := choosing.dropped
  have unselected : satisfied.countP select = 0 := List.countP_eq_zero.mpr
    fun request member selected => notPrecharge request selected (precharges request member)
  unfold queuedCount queuedMaintenance
  rw [choosing.pendingMaintenance, dropped, List.countP_append, List.countP_append,
    List.countP_append, unselected, Nat.zero_add]

omit [MemoryBackend β] in
theorem Choosing.count_le {chosen : Controller β} (choosing : Choosing c chosen)
    (select : Request → Bool) : chosen.queuedCount select ≤ c.queuedCount select := by
  obtain ⟨satisfied, dropped, -⟩ := choosing.dropped
  show List.countP _ (_ ++ _) ≤ List.countP _ (_ ++ _)
  rw [choosing.pendingMaintenance, dropped, List.append_assoc]
  exact (List.sublist_append_right satisfied _).countP_le

omit [MemoryBackend β] in
/-- Only a mitigation request issues a mitigation. -/
theorem Issuable.rfm_own (issuable : Issuable c candidate request)
    (rfm : (commandMeta candidate.command).rfm = true) :
    request.type = .maintenance ∧ candidate.command = request.next := by
  by_cases isMaintenance : request.type = .maintenance
  · refine ⟨isMaintenance, ?_⟩
    have command := issuable.maintenance isMaintenance
    rcases nextMaintenanceCommand_cases c request with other | other | next
    · rw [command, other] at rfm
      cases rfm
    · rw [command, other] at rfm
      cases rfm
    · exact command.trans next
  · exfalso
    obtain ⟨next, isNext, same | ⟨-, ⟨-, upgrade⟩ | ⟨-, upgrade⟩⟩⟩ := issuable.next
    · have ordinary : (commandMeta next).rfm = false := by
        unfold nextCommand at isNext
        dsimp only at isNext
        rw [if_neg isMaintenance] at isNext
        unfold nextClockCommand readCommandFor writeCommandFor at isNext
        dsimp only at isNext
        (repeat' split at isNext) <;> cases isNext <;> rfl
      rw [same, ordinary] at rfm
      cases rfm
    · rw [upgrade] at rfm
      cases rfm
    · rw [upgrade] at rfm
      cases rfm

/-- What a turn's command does to the count of a kind and to the counters of the two policies. -/
structure TurnCount (chosen : Controller β) (candidate : Candidate) (request : Request)
    (after : Controller β) : Prop where
  count : ∀ select, Special select →
    after.queuedCount select + (if request.type = .maintenance ∧
        candidate.command = request.next ∧ select request = true then 1 else 0) =
      chosen.queuedCount select + askedCount select chosen
        (issueRfm chosen.spec request candidate.command chosen.rfmManager).1
  rfmManager : after.rfmManager =
    (issueRfm chosen.spec request candidate.command chosen.rfmManager).2
  rowPolicy : after.rowPolicy = chosen.rowPolicy.onIssue chosen.options.rowPolicy
    (request.decoded.flatBank chosen.spec) candidate.command

theorem TurnParts.turnCount {chosen : Controller β} {bus : BusClass}
    (parts : TurnParts c bus chosen candidate request after) (kinds : QueueKinds c) :
    TurnCount chosen candidate request after := by
  obtain ⟨memPhy, memoryImage, issuing, moves⟩ := parts.moves
  have ready : QueueKinds (chosen.issueEffects candidate request memPhy memoryImage) :=
    (parts.choosing.housekeeping.kinds kinds).issueEffects issuing.issuable.found
  have own : (commandMeta candidate.command).data = true →
      (issueRequest chosen.spec request candidate.command).type = .maintenance →
      candidate.command = (issueRequest chosen.spec request candidate.command).next := by
    intro data type
    rw [issueRequest_type] at type
    rw [issueRequest_next]
    exact issuing.issuable.own data type
  refine ⟨fun select special => ?_, ?_, ?_⟩
  · have moved := (retireOrAdvance_count select ready issuing.marked own moves).1
    rw [issueRequest_type, issueRequest_next, special.marks] at moved
    rw [moved, queuedCount_issueEffects special issuing.issuable.found]
  · rw [(retireOrAdvance_count (fun _ => false) ready issuing.marked own moves).2.1,
      issueEffects_rfmManager]
  · rw [(retireOrAdvance_count (fun _ => false) ready issuing.marked own moves).2.2,
      issueEffects_rowPolicy]

end Turn

end HbmSim.Controller
