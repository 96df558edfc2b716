/-
The books of the queues. The count of a bank is the number of active requests of
that bank, so erasing an active request never underflows; erasing and promoting a
request leaves the others in their order; and the service of waiting maintenance
moves requests between two queues and keeps all of them, the bound of the priority
queue and, in self refresh, the exit at its head.

The counts are argued from the few ways in which a turn writes the active queue.
-/

import HbmSim.Conservation
import HbmSim.WakeUp

namespace HbmSim

/-! ### The counts -/

namespace RequestQueues

/-- The count of every bank is the number of its active requests. -/
def Counted (queues : RequestQueues) (spec : DramSpec) : Prop :=
  ∀ bank, queues.activeCounts bank =
    (queues.queue .active).countP fun request => decide (request.decoded.flatBank spec = bank)

/-- One request has left its queue, and the others have kept their places in order. -/
structure Without (before : RequestQueues) (kind : RequestQueueKind) (index : Nat)
    (after : RequestQueues) : Prop where
  here : after.queue kind = (before.queue kind).eraseIdx index
  others : ∀ other, other ≠ kind → after.queue other = before.queue other

/-- One request has moved from its queue to the end of the active queue. -/
structure Promoted (before : RequestQueues) (kind : RequestQueueKind) (index : Nat)
    (request : Request) (after : RequestQueues) : Prop where
  here : after.queue kind = (before.queue kind).eraseIdx index
  active : after.queue .active = before.queue .active ++ [request]
  others : ∀ other, other ≠ kind → other ≠ .active → after.queue other = before.queue other

section Counts

variable {queues after : RequestQueues} {kind : RequestQueueKind} {index : Nat}
variable {spec : DramSpec} {request : Request} {requests : List Request}

theorem erase_without (found : (queues.queue kind)[index]? = some request)
    (erases : queues.erase kind index spec = .ok after) : queues.Without kind index after := by
  obtain ⟨others, here⟩ := Controller.erase_cases found erases
  exact ⟨here, others⟩

theorem Without.shorter (without : queues.Without kind index after) (other : RequestQueueKind) :
    (after.queue other).length ≤ (queues.queue other).length := by
  by_cases here : other = kind
  · subst here
    rw [without.here]
    exact List.length_eraseIdx_le _ _
  · rw [without.others other here]

/-- A promotion moves its request, unless the active queue is full or holds it already. -/
theorem promote_promoted (found : (queues.queue kind)[index]? = some request) :
    queues.promote kind index spec = queues ∨
      (kind ≠ .active ∧ queues.Promoted kind index request (queues.promote kind index spec)) := by
  by_cases active : kind = .active
  · refine Or.inl ?_
    unfold promote
    rw [found]
    exact if_pos (Or.inl active)
  · rcases Controller.promote_cases active found with same | ⟨others, here, last⟩
    · exact Or.inl same
    · exact Or.inr ⟨active, here, last, others⟩

/-- Only the active queue is counted. -/
theorem Counted.put (counted : queues.Counted spec) (other : kind ≠ .active) :
    (queues.put kind requests).Counted spec := by
  intro bank
  rw [put_queue_of_ne (Ne.symm other)]
  exact counted bank

/-- Marking a request in its queue leaves its bank. -/
theorem Counted.mark {marked : Request} (counted : queues.Counted spec)
    (found : (queues.queue kind)[index]? = some request)
    (same : marked.decoded = request.decoded) :
    (queues.put kind ((queues.queue kind).set index marked)).Counted spec := by
  by_cases active : kind = .active
  · subst active
    intro bank
    have flats : ((queues.queue .active).set index marked).map
          (fun request : Request => request.decoded.flatBank spec) =
        (queues.queue .active).map fun request : Request => request.decoded.flatBank spec := by
      refine Controller.map_set_of_found found ?_
      rw [same]
    have counts := congrArg (List.countP fun flat : Nat => decide (flat = bank)) flats
    rw [List.countP_map, List.countP_map] at counts
    rw [put_queue_self]
    exact (counted bank).trans counts.symm
  · exact counted.put active

/-- The bank of an active request has a positive count. -/
theorem Counted.positive (counted : queues.Counted spec)
    (found : (queues.queue .active)[index]? = some request) :
    queues.activeCounts (request.decoded.flatBank spec) ≠ 0 := by
  rw [counted]
  refine Nat.ne_of_gt (List.countP_pos_iff.mpr ⟨request, List.mem_of_getElem? found, ?_⟩)
  exact decide_eq_true rfl

/-- No erase underflows. -/
theorem Counted.erase_returns (counted : queues.Counted spec) (kind : RequestQueueKind)
    (index : Nat) : ∃ after, queues.erase kind index spec = .ok after := by
  cases found : (queues.queue kind)[index]? with
  | none =>
    refine ⟨queues, ?_⟩
    unfold erase
    rw [found]
  | some request =>
    by_cases active : kind = .active
    · subst active
      have owned : throwIf (queues.activeCounts (request.decoded.flatBank spec) = 0)
          (logicError "active queue ownership underflow") = .ok () :=
        if_neg (counted.positive found)
      unfold erase
      rw [found]
      dsimp only
      rw [owned]
      exact ⟨_, rfl⟩
    · exact ⟨_, erase_of_ne_active active found⟩

theorem Counted.erase (counted : queues.Counted spec)
    (found : (queues.queue kind)[index]? = some request)
    (erases : queues.erase kind index spec = .ok after) : after.Counted spec := by
  by_cases active : kind = .active
  · subst active
    obtain ⟨positive, rfl⟩ := erase_active found erases
    intro bank
    have total := (Controller.eraseIdx_perm found).countP_eq
      fun request : Request => decide (request.decoded.flatBank spec = bank)
    rw [List.countP_cons, ← counted bank] at total
    have queue : (queues.put .active ((queues.queue .active).eraseIdx index)).queue .active =
        (queues.queue .active).eraseIdx index := put_queue_self
    dsimp only
    rw [queue, Function.update_apply]
    by_cases here : bank = request.decoded.flatBank spec
    · subst here
      rw [if_pos (decide_eq_true rfl)] at total
      rw [if_pos rfl, ← total, Nat.add_sub_cancel]
    · rw [if_neg fun same => here (of_decide_eq_true same).symm, Nat.add_zero] at total
      rw [if_neg here, total]
  · rw [erase_of_ne_active active found] at erases
    cases erases
    exact counted.put active

theorem Counted.promote (counted : queues.Counted spec) (kind : RequestQueueKind) (index : Nat) :
    (queues.promote kind index spec).Counted spec := by
  cases found : (queues.queue kind)[index]? with
  | none =>
    unfold RequestQueues.promote
    rw [found]
    exact counted
  | some request =>
    by_cases moves : kind = .active ∨ queues.hasSpace .active = false
    · unfold RequestQueues.promote
      rw [found]
      dsimp only
      rw [if_pos moves]
      exact counted
    · rw [not_or, Bool.not_eq_false] at moves
      rw [promote_of_hasSpace moves.1 found moves.2]
      intro bank
      have queue : ((queues.pushBack .active request).put kind
          ((queues.queue kind).eraseIdx index)).queue .active =
          queues.queue .active ++ [request] := by
        rw [put_queue_of_ne (Ne.symm moves.1)]
        exact put_queue_self
      dsimp only
      rw [queue, List.countP_append, ← counted bank, List.countP_singleton,
        Function.update_apply]
      by_cases here : bank = request.decoded.flatBank spec
      · subst here
        rw [if_pos rfl, if_pos (decide_eq_true rfl)]
      · rw [if_neg here, if_neg fun same => here (of_decide_eq_true same).symm, Nat.add_zero]

end Counts

end RequestQueues

namespace Controller

variable {β : Type} {c after : Controller β} {request : Request}

/-! ### The service of waiting maintenance -/

theorem rotateExit_perm (requests : List Request) : (rotateExit requests).Perm requests := by
  unfold rotateExit
  dsimp only
  split
  · exact List.Perm.refl _
  next exit found =>
    obtain ⟨isExit, front, back, rfl, before⟩ := List.find?_eq_some_iff_append.mp found
    have absent : ∀ request ∈ front, ¬ decide (request.next = .srefex) = true := by
      intro request member other
      have plain := before request member
      rw [Bool.not_eq_true'] at plain
      exact nomatch plain.symm.trans other
    rw [List.eraseP_append_right _ absent, List.eraseP_cons_of_pos
      (p := fun request : Request => decide (request.next = .srefex)) isExit]
    exact List.perm_middle.symm

/-- Filling the priority queue keeps every request and stays within the limit. -/
theorem fillPriority_perm (requests : List Request) (queues : RequestQueues) :
    ((fillPriority requests queues).2.queue .priority ++ (fillPriority requests queues).1).Perm
      (queues.queue .priority ++ requests) := by
  induction requests generalizing queues with
  | nil => exact List.Perm.refl _
  | cons request rest inductionHypothesis =>
    unfold fillPriority
    split
    · refine (inductionHypothesis _).trans ?_
      split
      · unfold RequestQueues.pushFront
        rw [put_queue_self]
        exact List.perm_middle.symm
      · unfold RequestQueues.pushBack
        rw [put_queue_self, List.append_assoc]
        exact List.Perm.refl _
    · exact List.Perm.refl _

theorem fillPriority_bounded (requests : List Request) {queues : RequestQueues}
    (bounded : (queues.queue .priority).length ≤ queues.limit .priority) :
    ((fillPriority requests queues).2.queue .priority).length ≤ queues.limit .priority := by
  induction requests generalizing queues with
  | nil => exact bounded
  | cons request rest inductionHypothesis =>
    unfold fillPriority
    split
    next space =>
      have room : (queues.queue .priority).length < queues.limit .priority :=
        of_decide_eq_true space
      split
      · refine inductionHypothesis ?_
        unfold RequestQueues.pushFront
        rw [put_queue_self]
        exact room
      · refine inductionHypothesis ?_
        unfold RequestQueues.pushBack
        rw [put_queue_self, List.length_append]
        exact room
    · exact bounded

theorem favourExit_perm (c : Controller β) :
    c.favourExit.queuedMaintenance.Perm c.queuedMaintenance ∧
      ((c.favourExit.requestQueues.queue .priority).length =
        (c.requestQueues.queue .priority).length) := by
  have priority := rotateExit_perm (c.requestQueues.queue .priority)
  have waiting := rotateExit_perm c.pendingMaintenance
  unfold favourExit queuedMaintenance
  split
  · exact ⟨List.Perm.refl _, rfl⟩
  dsimp only
  generalize rotateExit (c.requestQueues.queue .priority) = rotated at priority
  generalize rotateExit c.pendingMaintenance = rotatedWaiting at waiting
  split
  next exit rest last lasts =>
    split
    · -- The exit changes places with the last request of the full queue.
      dsimp only
      rw [put_queue_self]
      obtain ⟨front, rfl⟩ : ∃ front, rotated = front ++ [last] :=
        List.getLast?_eq_some_iff.mp lasts
      rw [List.dropLast_concat]
      refine ⟨?_, ?_⟩
      · refine List.Perm.trans ?_ (priority.append waiting)
        rw [List.perm_iff_count]
        intro other
        simp only [List.count_append, List.count_cons, List.count_nil]
        omega
      · rw [← priority.length_eq, List.length_append]
        rfl
    · dsimp only
      rw [put_queue_self]
      exact ⟨priority.append waiting, priority.length_eq⟩
  next =>
    dsimp only
    rw [put_queue_self]
    exact ⟨priority.append waiting, priority.length_eq⟩

/-- The service keeps every maintenance request. -/
theorem servicePendingMaintenance_perm (c : Controller β) :
    c.servicePendingMaintenance.queuedMaintenance.Perm c.queuedMaintenance :=
  (fillPriority_perm _ _).trans (favourExit_perm c).1

/-- What the service of waiting maintenance keeps, and whom it puts in front. -/
structure Serviced (before after : Controller β) : Prop where
  kept : after.queuedMaintenance.Perm before.queuedMaintenance
  bounded : (after.requestQueues.queue .priority).length ≤ before.requestQueues.limit .priority
  exitFirst : before.explicitSelfRefreshActive = true →
    (∃ request ∈ before.queuedMaintenance, request.next = .srefex) →
    HeadsWithExit (after.requestQueues.queue .priority)

theorem servicePendingMaintenance_serviced (room : 0 < c.requestQueues.limit .priority)
    (bounded : (c.requestQueues.queue .priority).length ≤ c.requestQueues.limit .priority) :
    Serviced c c.servicePendingMaintenance where
  kept := servicePendingMaintenance_perm c
  bounded := by
    have limit := (favourExit_housekeeping c).limit
    rw [← limit]
    refine fillPriority_bounded _ ?_
    rw [limit, (favourExit_perm c).2]
    exact bounded
  exitFirst asleep queued := by
    rcases favourExit_heads asleep room queued with heads | ⟨heads, space⟩
    · exact fillPriority_keeps_exit heads
    · obtain ⟨exit, rest, waits, isExit⟩ := heads
      refine fillPriority_exit ⟨exit, ?_, isExit⟩
      rw [room_pushBack space exit, waits, List.take_succ_cons]
      exact List.mem_cons_self

/-! ### The books of a controller -/

structure Booked (c : Controller β) : Prop where
  counted : c.requestQueues.Counted c.spec
  bounded : (c.requestQueues.queue .priority).length ≤ c.requestQueues.limit .priority
  room : 0 < c.requestQueues.limit .priority

theorem Housekeeping.counted {before : Controller β} (keeps : Housekeeping before after)
    (counted : before.requestQueues.Counted before.spec) :
    after.requestQueues.Counted after.spec := by
  intro bank
  rw [keeps.activeCounts, keeps.queue .active nofun, keeps.spec]
  exact counted bank

/-- Housekeeping keeps the books when it does not overfill the priority queue. -/
theorem Booked.housekeeping {before : Controller β} (booked : Booked before)
    (keeps : Housekeeping before after)
    (bounded : (after.requestQueues.queue .priority).length ≤
      before.requestQueues.limit .priority) : Booked after where
  counted := keeps.counted booked.counted
  bounded := by
    rw [keeps.limit]
    exact bounded
  room := by
    rw [keeps.limit]
    exact booked.room

/-- A tick in front of `service_pending_maintenance`. -/
def serving (c : Controller β) : Controller β :=
  { c with timingEngine := c.timingEngine.pruneRecentActs c.spec c.clk
    }.wakeFromSelfRefresh.scheduleRefresh

theorem serving_housekeeping (c : Controller β) : Housekeeping c c.serving := by
  have pruned : Housekeeping c
      { c with timingEngine := c.timingEngine.pruneRecentActs c.spec c.clk } :=
    ⟨rfl, fun _ _ held => held⟩
  exact (pruned.trans (wakeFromSelfRefresh_housekeeping _)).trans
    (scheduleRefresh_housekeeping _)

theorem serving_requestQueues (c : Controller β) : c.serving.requestQueues = c.requestQueues :=
  (scheduleRefresh_waits _).1.trans (wakeFromSelfRefresh_requestQueues _)

theorem Booked.serving (booked : Booked c) : Booked c.serving := by
  refine booked.housekeeping (serving_housekeeping c) ?_
  rw [serving_requestQueues]
  exact booked.bounded

theorem Booked.schedulePrecharge (booked : Booked c) (flat : Nat) :
    Booked (c.schedulePrecharge flat) := by
  refine booked.housekeeping (schedulePrecharge_housekeeping c flat) ?_
  unfold Controller.schedulePrecharge
  dsimp only
  split
  · exact booked.bounded
  split
  · exact booked.bounded
  next ready =>
    rw [not_or, Bool.not_eq_false, Bool.not_eq_false] at ready
    have space : (c.requestQueues.queue .priority).length < c.requestQueues.limit .priority :=
      of_decide_eq_true ready.2
    unfold RequestQueues.pushBack
    rw [put_queue_self, List.length_append]
    exact space

theorem Booked.upkeep (booked : Booked c) : Booked c.upkeep := by
  have ready := booked.serving
  have serviced := servicePendingMaintenance_serviced ready.room ready.bounded
  have after : Booked c.serviced :=
    ready.housekeeping (servicePendingMaintenance_housekeeping _) serviced.bounded
  rw [upkeep_eq_serviced]
  unfold applyRowPolicyPreSchedule
  split
  · exact after
  · exact List.foldlRecOn _ Controller.schedulePrecharge after fun _ booked flat _ =>
      booked.schedulePrecharge flat

theorem wakeUp_requestQueues (c : Controller β) (request : Request) :
    (c.wakeUp request).requestQueues = c.requestQueues := by
  unfold wakeUp
  split
  · rfl
  split
  · dsimp only
    split
    · rfl
    · exact scheduleMaintenance_requestQueues _ _
  · rfl

theorem idleLowPower_requestQueues (c : Controller β) :
    c.idleLowPower.requestQueues = c.requestQueues := by
  unfold idleLowPower
  split
  · rfl
  split
  · rfl
  dsimp only
  have started : (if c.lowPowerIdleSince = 0 then { c with lowPowerIdleSince := c.clk }
      else c).requestQueues = c.requestQueues := by
    split <;> rfl
  generalize (if c.lowPowerIdleSince = 0 then { c with lowPowerIdleSince := c.clk } else c) =
    later at started ⊢
  rw [← started]
  split
  · unfold enterLowPower
    split
    · split
      · rfl
      · exact scheduleMaintenance_requestQueues _ _
    · rfl
  · rfl

theorem Booked.prepareAccept (booked : Booked c) (request : Request) :
    Booked (c.prepareAccept request) := by
  refine booked.housekeeping (prepareAccept_housekeeping c request) ?_
  have withdrawn : (c.withdrawSelfRefresh.requestQueues.queue .priority).length ≤
      (c.requestQueues.queue .priority).length := by
    unfold withdrawSelfRefresh
    split
    · exact Nat.le_refl _
    · dsimp only
      rw [put_queue_self]
      exact List.length_filter_le _ _
  unfold Controller.prepareAccept
  split
  · exact booked.bounded
  · rw [wakeUp_requestQueues]
    exact withdrawn.trans booked.bounded

/-- Another queue than the counted and the bounded one grows. -/
theorem Booked.pushBack (booked : Booked c) (kind : RequestQueueKind) (notActive : kind ≠ .active)
    (notPriority : kind ≠ .priority) (entered : Request)
    (queues : after.requestQueues = c.requestQueues.pushBack kind entered)
    (spec : after.spec = c.spec) : Booked after := by
  refine ⟨?_, ?_, ?_⟩
  · rw [queues, spec]
    exact booked.counted.put notActive
  · rw [queues]
    unfold RequestQueues.pushBack
    rw [put_queue_of_ne (Ne.symm notPriority)]
    exact booked.bounded
  · rw [queues]
    exact booked.room

theorem Booked.of_same (booked : Booked c) (queues : after.requestQueues = c.requestQueues)
    (spec : after.spec = c.spec) : Booked after := by
  refine ⟨?_, ?_, ?_⟩
  · rw [queues, spec]
    exact booked.counted
  · rw [queues]
    exact booked.bounded
  · rw [queues]
    exact booked.room

variable {candidate : Candidate} {memPhy : MemPhy} {memoryImage : MemoryImage β}

theorem Booked.issueEffects (booked : Booked c)
    (found : (c.requestQueues.queue candidate.buffer)[candidate.index]? = some request) :
    Booked (c.issueEffects candidate request memPhy memoryImage) := by
  refine ⟨?_, ?_, ?_⟩
  · rw [issueEffects_requestQueues, issueEffects_spec]
    exact booked.counted.mark found (issueRequest_decoded ..)
  · rw [issueEffects_requestQueues]
    by_cases priority : candidate.buffer = .priority
    · rw [priority, put_queue_self, List.length_set]
      exact booked.bounded
    · rw [put_queue_of_ne (Ne.symm priority)]
      exact booked.bounded
  · rw [issueEffects_requestQueues]
    exact booked.room

theorem Booked.moves (booked : Booked c) {queues : RequestQueues}
    (counted : queues.Counted c.spec) (limit : queues.limit = c.requestQueues.limit)
    (shorter : (queues.queue .priority).length ≤ (c.requestQueues.queue .priority).length)
    (same : after.requestQueues = queues) (spec : after.spec = c.spec) : Booked after := by
  refine ⟨?_, ?_, ?_⟩
  · rw [same, spec]
    exact counted
  · rw [same, limit]
    exact shorter.trans booked.bounded
  · rw [same, limit]
    exact booked.room

theorem Booked.choosing {chosen : Controller β} (booked : Booked c)
    (choosing : Choosing c chosen) : Booked chosen := by
  refine booked.housekeeping choosing.housekeeping (le_trans ?_ booked.bounded)
  obtain ⟨satisfied, split, -⟩ := choosing.dropped
  rw [split, List.length_append]
  exact Nat.le_add_left _ _

section Runs

variable [MemoryBackend β]

theorem Booked.enqueue (booked : Booked c) {accepted : Bool}
    (returns : c.enqueue request = .ok (accepted, after)) : Booked after := by
  have prepared := booked.prepareAccept request
  obtain ⟨-, entry⟩ := enqueue_cases returns
  cases entry with
  | refused => exact prepared
  | forwarded isRead hits forwards =>
    unfold forwardRead at forwards
    obtain ⟨⟨payload, byteMask, image⟩, -, forwards⟩ := bind_eq_ok.mp forwards
    cases forwards
    exact prepared.of_same rfl rfl
  | queuedRead => exact prepared.pushBack .read nofun nofun _ rfl rfl
  | coalesced => exact prepared.of_same rfl rfl
  | buffered => exact prepared.pushBack .write nofun nofun _ rfl rfl
  | maintenance isMaintenance space =>
    have room : ((c.prepareAccept request).requestQueues.queue .priority).length <
        (c.prepareAccept request).requestQueues.limit .priority := of_decide_eq_true space
    refine ⟨prepared.counted.put nofun, ?_, prepared.room⟩
    dsimp only [RequestQueues.pushBack]
    rw [put_queue_self, List.length_append]
    exact room

theorem Booked.advance (booked : Booked c)
    (found : (c.requestQueues.queue candidate.buffer)[candidate.index]? = some request)
    (advance : Advance c candidate request after) : Booked after := by
  cases advance with
  | served queues isMaintenance own erases =>
    exact booked.moves (booked.counted.erase found erases) (erase_limit erases)
      ((RequestQueues.erase_without found erases).shorter .priority) rfl rfl
  | promoted opening ordinary waiting =>
    refine booked.moves (booked.counted.promote _ _) promote_limit ?_ rfl rfl
    rcases @RequestQueues.promote_promoted c.requestQueues _ _ c.spec _ found with full | ⟨-, moved⟩
    · rw [full]
    · by_cases here : candidate.buffer = .priority
      · rw [← here, moved.here]
        exact List.length_eraseIdx_le _ _
      · rw [moved.others .priority (Ne.symm here) nofun]
  | stayed => exact booked
  | retired after data ordinary how =>
    rw [how.result, leaveBuffer_eq]
    exact booked.moves (booked.counted.erase found how.erases) (erase_limit how.erases)
      ((RequestQueues.erase_without found how.erases).shorter .priority) rfl rfl

theorem booked_kept : Kept (fun _ _ => True) (fun _ _ => True)
    fun _ (c : Controller β) => Booked c where
  enqueue _ _ _ _ _ booked _ returns := booked.enqueue returns
  beginTick _ _ _ booked returns := by
    have frame := (beginTick_eq returns).2
    refine booked.of_same ?_ ?_ <;> rw [frame]
  upkeep _ _ booked _ := booked.upkeep
  turn _ _ _ _ _ booked _ returns := by
    cases turn_cases returns with
    | idle chosen choosing => exact booked.choosing choosing
    | issue choosing picks issuing =>
      exact ((booked.choosing choosing).issueEffects issuing.issuable.found).advance
        issuing.marked issuing.advance
  idleLowPower _ c booked := booked.of_same (idleLowPower_requestQueues c)
    (idleLowPower_housekeeping c).spec
  popResponse _ _ _ _ booked returns := by
    unfold popResponse at returns
    split at returns
    · cases returns
    · cases returns
      exact booked.of_same rfl rfl
  flushStorage _ _ _ booked returns := by
    obtain ⟨image, -, returned⟩ := bind_eq_ok.mp returns
    cases returned
    exact booked.of_same rfl rfl

omit [MemoryBackend β] in
theorem Created.booked {spec : DramSpec} {options : ControllerOptions} {image : MemoryImage β}
    {start : Controller β} (created : Created spec options image start) : Booked start where
  counted bank := by
    rw [created.activeCounts, created.queues]
    rfl
  bounded := by
    rw [created.queues]
    exact Nat.zero_le _
  room := created.priorityLimit

/-! ### The queues of every run -/

/-- Whatever request a turn chooses and whatever its command does to the device, each erase from
the queues returns. -/
def NoUnderflow (c : Controller β) (bus : BusClass) : Prop :=
  ∀ candidate chosen, c.choose bus = .ok (some candidate, chosen) →
    ∀ request, (chosen.requestQueues.queue candidate.buffer)[candidate.index]? = some request →
    ∀ memPhy memoryImage kind index, ∃ queues,
      (chosen.issueEffects (chosen.upgraded candidate) request memPhy memoryImage).requestQueues.erase
        kind index chosen.spec = .ok queues

omit [MemoryBackend β] in
theorem Booked.noUnderflow (booked : Booked c) (bus : BusClass) : c.NoUnderflow bus := by
  intro candidate chosen chooses request found memPhy memoryImage kind index
  obtain ⟨choosing, issuable⟩ := choose_spec chooses
  obtain ⟨-, other, issuable⟩ := issuable candidate rfl
  obtain ⟨buffer, place, -, -⟩ := upgraded_issuable issuable
  have effects : Booked (chosen.issueEffects (chosen.upgraded candidate) request memPhy
      memoryImage) := by
    refine (booked.choosing choosing).issueEffects ?_
    rw [buffer, place]
    exact found
  have returns := effects.counted.erase_returns kind index
  rwa [issueEffects_spec] at returns

/-- In every run the counts are those of the active queue and no erase underflows; erasing and
promoting keep the other requests in order; and the service of a tick keeps all maintenance, the
bound of the priority queue and, in self refresh, a queued exit at its head. -/
theorem queues_accounted {spec : DramSpec} {options : ControllerOptions} {image : MemoryImage β}
    {start : Controller β} (created : create spec options image = .ok start)
    (ops : List ControllerOp) :
    start.RunMeets (fun _ _ => True) NoUnderflow ops ∧
      (∀ events final, start.run ops = .ok (events, final) →
        final.requestQueues.Counted spec ∧
        (∀ begun, final.beginTick = .ok begun →
          Serviced begun.serving begun.serving.servicePendingMaintenance)) ∧
      ∀ (queues : RequestQueues) kind index request,
        (queues.queue kind)[index]? = some request →
        (∀ after, queues.erase kind index spec = .ok after → queues.Without kind index after) ∧
          (queues.promote kind index spec = queues ∨ (kind ≠ .active ∧
            queues.Promoted kind index request (queues.promote kind index spec))) := by
  have guarded : start.RunMeets (fun _ _ => True) (fun _ _ => True) ops :=
    runMeets_of_forall (fun _ _ => trivial) (fun _ _ => trivial) start ops
  have first := (create_created created).booked
  refine ⟨?_, fun events final returns => ?_, fun queues kind index request found => ?_⟩
  · exact booked_kept.runMeets (fun _ _ bus booked _ => booked.noUnderflow bus) [] first guarded
  · have booked : Booked final := booked_kept.run first guarded returns
    refine ⟨?_, fun begun begins => ?_⟩
    · have counted := booked.counted
      rwa [(run_configuration (create_created created) returns).1] at counted
    · have frame := (beginTick_eq begins).2
      have begunBooked : Booked begun := by
        refine booked.of_same ?_ ?_ <;> rw [frame]
      have ready := begunBooked.serving
      exact servicePendingMaintenance_serviced ready.room ready.bounded
  · exact ⟨fun after erases => RequestQueues.erase_without found erases,
      RequestQueues.promote_promoted found⟩

/-- A read that has opened its bank, and a refresh request behind it. -/
def readAndRefresh : List ControllerOp :=
  [.enqueue (readAt twoBanks 1 0 4), .tick, .enqueue (maintain 2 .refab), .tick]

theorem queues_accounted_readAndRefresh : ∃ start events final,
    create twoBanks {} (imageOf twoBanks) = .ok start ∧
      start.run readAndRefresh = .ok (events, final) ∧
      final.requestQueues.activeCounts 0 = 1 ∧ final.queuedMaintenance ≠ [] ∧
      final.requestQueues.Counted twoBanks ∧
      start.RunMeets (fun _ _ => True) NoUnderflow readAndRefresh := by
  obtain ⟨start, events, final, created, returns, checks⟩ :=
    freshRun_of_passes twoBanks {} readAndRefresh
      (fun result => decide (result.2.requestQueues.activeCounts 0 = 1) &&
        decide (result.2.queuedMaintenance ≠ [])) (by decide +kernel)
  rw [Bool.and_eq_true, decide_eq_true_eq, decide_eq_true_eq] at checks
  obtain ⟨owned, accounted, -⟩ := queues_accounted created readAndRefresh
  exact ⟨start, events, final, created, returns, checks.1, checks.2,
    (accounted events final returns).1, owned⟩

end Runs

end Controller

end HbmSim
