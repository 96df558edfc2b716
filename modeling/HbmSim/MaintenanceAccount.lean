/-
The books of maintenance. Every request that is counted is queued, or has been
served by its own command, or has left without one: a precharge whose bank is
closed by the time it comes first, or the controller's own self-refresh entry when
new work arrives before it issues. The code counts as served only what a command
served, so the requests of the last kind are what the two counters differ by.
-/

import HbmSim.QueueAccount

namespace HbmSim.Controller

variable {β : Type} {c after : Controller β} {request : Request}

/-! ### Leaving without a command -/

/-- The precharge of a bank that is closed already. -/
def satisfied (c : Controller β) (request : Request) : Bool :=
  decide (request.next = .prepb) && !(c.bankOf request).busy

/-- The satisfied precharges at the head of the priority queue, when a turn gets to it. -/
def satisfiedIn (c : Controller β) (bus : BusClass) : List Request :=
  match c.pickUrgentAct2 bus with
  | .ok none =>
    if (c.pickActive bus).isSome then []
    else (c.requestQueues.queue .priority).takeWhile c.satisfied
  | _ => []

/-- The automatic self-refresh entry that a new read or write withdraws. -/
def withdrawn (c : Controller β) (request : Request) : List Request :=
  if request.type = .maintenance then []
  else
    match c.automaticSelfRefreshRequest with
    | none => []
    | some id => c.queuedMaintenance.filter fun request =>
      decide (request.id = id ∧ request.next = .srefen)

section Unissued

variable [MemoryBackend β]

def satisfiedTurns : List BusClass → Controller β → List Request
  | [], _ => []
  | bus :: rest, c => c.satisfiedIn bus ++
    match c.turn bus with
    | .ok (_, after) => satisfiedTurns rest after
    | .error _ => []

/-- The maintenance requests that an operation takes from the queues without a command. -/
def unissuedBy (c : Controller β) : ControllerOp → List Request
  | .enqueue request => c.withdrawn request
  | .tick =>
    match c.beginTick with
    | .ok begun =>
      if begun.clk < begun.lowPowerExitUntil then []
      else satisfiedTurns begun.upkeep.busesOf begun.upkeep
    | .error _ => []
  | _ => []

/-- The maintenance requests that left without a command during a run. -/
def unissued : List ControllerOp → Controller β → List Request
  | [], _ => []
  | op :: rest, c => c.unissuedBy op ++
    match c.apply op with
    | .ok (_, after) => unissued rest after
    | .error _ => []

end Unissued

/-! ### The balance of each part -/

/-- Up to the requests that left without a command, what was counted is queued or served. -/
def Balanced (left : Nat) (c : Controller β) : Prop :=
  c.stats.maintenanceRequests = c.stats.maintenanceServed + c.queuedMaintenance.length + left

variable {left : Nat}

/-- A change that moves the queued requests around. -/
theorem Balanced.of_length (balanced : Balanced left c)
    (requests : after.stats.maintenanceRequests = c.stats.maintenanceRequests)
    (served : after.stats.maintenanceServed = c.stats.maintenanceServed)
    (length : after.queuedMaintenance.length = c.queuedMaintenance.length) :
    Balanced left after := by
  unfold Balanced
  rw [requests, served, length]
  exact balanced

/-- A new request is counted and queued. -/
theorem Balanced.create (balanced : Balanced left c)
    (requests : after.stats.maintenanceRequests = c.stats.maintenanceRequests + 1)
    (served : after.stats.maintenanceServed = c.stats.maintenanceServed)
    (length : after.queuedMaintenance.length = c.queuedMaintenance.length + 1) :
    Balanced left after := by
  unfold Balanced at *
  rw [requests, served, length, balanced]
  omega

theorem Balanced.scheduleMaintenance (balanced : Balanced left c) (command : Command)
    (decoded : DecodedAddress) : Balanced left (c.scheduleMaintenance command decoded) := by
  unfold Controller.scheduleMaintenance
  split
  · exact balanced
  · refine balanced.create rfl rfl ?_
    unfold queuedMaintenance
    dsimp only
    split
    · simp only [List.length_append, List.length_cons]
      omega
    · simp only [List.length_append, List.length_singleton]
      omega

theorem Balanced.wakeFromSelfRefresh (balanced : Balanced left c) :
    Balanced left c.wakeFromSelfRefresh := by
  unfold Controller.wakeFromSelfRefresh
  dsimp only
  split
  · exact balanced.scheduleMaintenance .srefex {}
  · exact balanced

theorem Balanced.scheduleRefresh (balanced : Balanced left c) :
    Balanced left c.scheduleRefresh := by
  unfold Controller.scheduleRefresh
  dsimp only
  exact List.foldlRecOn _ _ balanced fun _ balanced command _ =>
    balanced.scheduleMaintenance command.command command.decoded

theorem favourExit_stats (c : Controller β) : c.favourExit.stats = c.stats := by
  unfold favourExit
  split
  · rfl
  dsimp only
  split
  · split <;> rfl
  · rfl

theorem Balanced.servicePendingMaintenance (balanced : Balanced left c) :
    Balanced left c.servicePendingMaintenance := by
  have stats : c.servicePendingMaintenance.stats = c.stats := favourExit_stats c
  refine balanced.of_length ?_ ?_ (servicePendingMaintenance_perm c).length_eq
  · rw [stats]
  · rw [stats]

theorem Balanced.schedulePrecharge (balanced : Balanced left c) (flat : Nat) :
    Balanced left (c.schedulePrecharge flat) := by
  unfold Controller.schedulePrecharge
  dsimp only
  split
  · exact balanced
  split
  · exact balanced
  · refine balanced.create rfl rfl ?_
    unfold queuedMaintenance RequestQueues.pushBack
    dsimp only
    rw [put_queue_self]
    simp only [List.length_append, List.length_singleton]
    omega

theorem Balanced.upkeep (balanced : Balanced left c) : Balanced left c.upkeep := by
  have pruned : Balanced left
      { c with timingEngine := c.timingEngine.pruneRecentActs c.spec c.clk } := balanced
  have serviced := pruned.wakeFromSelfRefresh.scheduleRefresh.servicePendingMaintenance
  unfold Controller.upkeep applyRowPolicyPreSchedule
  dsimp only
  split
  · exact serviced
  · exact List.foldlRecOn _ Controller.schedulePrecharge serviced fun _ balanced flat _ =>
      balanced.schedulePrecharge flat

theorem Balanced.wakeUp (balanced : Balanced left c) (request : Request) :
    Balanced left (c.wakeUp request) := by
  unfold Controller.wakeUp
  split
  · exact balanced
  split
  · dsimp only
    split
    · exact balanced
    · exact balanced.scheduleMaintenance _ _
  · exact balanced

theorem Balanced.idleLowPower (balanced : Balanced left c) : Balanced left c.idleLowPower := by
  unfold Controller.idleLowPower
  split
  · exact balanced
  split
  · exact balanced
  dsimp only
  have started : Balanced left
      (if c.lowPowerIdleSince = 0 then { c with lowPowerIdleSince := c.clk } else c) := by
    split
    · exact balanced
    · exact balanced
  generalize (if c.lowPowerIdleSince = 0 then { c with lowPowerIdleSince := c.clk } else c) =
    later at started ⊢
  split
  · unfold enterLowPower
    split
    · split
      · exact started
      · have asks : Balanced left
            { later with automaticSelfRefreshRequest := some later.nextMaintenanceId } := started
        exact asks.scheduleMaintenance .srefen {}
    · exact started
  · exact started

theorem Balanced.prepareAccept (balanced : Balanced left c) (request : Request) :
    Balanced (left + (c.withdrawn request).length) (c.prepareAccept request) := by
  unfold Controller.prepareAccept withdrawn
  split
  · exact balanced
  · refine Balanced.wakeUp ?_ request
    unfold withdrawSelfRefresh
    cases c.automaticSelfRefreshRequest with
    | none => exact balanced
    | some id =>
      unfold Balanced queuedMaintenance at *
      dsimp only
      rw [put_queue_self, balanced]
      have parts := List.length_eq_length_filter_add
        (l := c.requestQueues.queue .priority ++ c.pendingMaintenance)
        fun request : Request => decide (request.id = id ∧ request.next = .srefen)
      simp only [List.filter_append, List.length_append] at parts ⊢
      omega

/-! ### The balance of a turn -/

theorem dropSatisfied_eq (spec : DramSpec) (policy : RowPolicyKind) (banks : Nat → BankState)
    (requests : List Request) (rowPolicy : RowPolicyEngine) :
    (dropSatisfied spec policy banks requests rowPolicy).1 = requests.dropWhile fun request =>
      decide (request.next = .prepb) && !(banks (request.decoded.flatBank spec)).busy := by
  induction requests generalizing rowPolicy with
  | nil => rfl
  | cons request rest inductionHypothesis =>
    unfold dropSatisfied
    dsimp only
    split
    next drops =>
      rw [inductionHypothesis, List.dropWhile_cons_of_pos]
      rw [decide_eq_true drops.1, drops.2]
      rfl
    next stays =>
      rw [List.dropWhile_cons_of_neg]
      intro drops
      rw [Bool.and_eq_true, decide_eq_true_eq, Bool.not_eq_true'] at drops
      exact stays drops

theorem Balanced.retireSatisfied (balanced : Balanced left c) :
    Balanced (left + ((c.requestQueues.queue .priority).takeWhile c.satisfied).length)
      c.retireSatisfied := by
  have dropped : c.retireSatisfied.requestQueues.queue .priority =
      (c.requestQueues.queue .priority).dropWhile c.satisfied := by
    unfold Controller.retireSatisfied
    dsimp only
    rw [put_queue_self]
    exact dropSatisfied_eq ..
  have split := congrArg List.length
    (List.takeWhile_append_dropWhile (p := c.satisfied) (l := c.requestQueues.queue .priority))
  rw [List.length_append] at split
  unfold Balanced queuedMaintenance at *
  rw [dropped]
  show c.stats.maintenanceRequests = c.stats.maintenanceServed + (List.dropWhile c.satisfied _ ++
    c.pendingMaintenance).length + _
  rw [balanced, List.length_append, List.length_append]
  omega

theorem Balanced.setWriteMode (balanced : Balanced left c) : Balanced left c.setWriteMode := by
  unfold Controller.setWriteMode
  dsimp only
  split <;> split <;> exact balanced

theorem Balanced.choose {found : Option Candidate} {chosen : Controller β} {bus : BusClass}
    (balanced : Balanced left c) (returns : c.choose bus = .ok (found, chosen)) :
    Balanced (left + (c.satisfiedIn bus).length) chosen := by
  unfold Controller.choose at returns
  obtain ⟨urgent, picks, rest⟩ := bind_eq_ok.mp returns
  unfold satisfiedIn
  rw [picks]
  cases urgent with
  | some candidate =>
    cases rest
    exact balanced
  | none =>
    dsimp only at rest ⊢
    cases active : c.pickActive bus with
    | some candidate =>
      rw [active] at rest
      cases rest
      exact balanced
    | none =>
      rw [active] at rest
      rw [Option.isSome_none, if_neg Bool.false_ne_true]
      have returned : c.choosePriority bus = (found, chosen) := Except.ok.inj rest
      have retired := balanced.retireSatisfied
      unfold choosePriority at returned
      dsimp only at returned
      split at returned
      · cases returned
        exact retired
      · unfold chooseReadWrite at returned
        split at returned
        · cases returned
          exact retired.setWriteMode
        · cases returned
          exact retired

section Moves

variable {candidate : Candidate} {memPhy : MemPhy} {memoryImage : MemoryImage β}

theorem Balanced.issueEffects (balanced : Balanced left c) :
    Balanced left (c.issueEffects candidate request memPhy memoryImage) := by
  have marked : ∀ manager queues engine banks, queues = c.requestQueues.put candidate.buffer
      ((c.requestQueues.queue candidate.buffer).set candidate.index
        (issueRequest c.spec request candidate.command)) →
      Balanced left { c with
        memPhy := memPhy, memoryImage := memoryImage, banks := banks, timingEngine := engine
        rfmManager := manager, requestQueues := queues } := by
    rintro manager queues engine banks rfl
    refine balanced.of_length rfl rfl ?_
    unfold queuedMaintenance
    dsimp only
    rw [List.length_append, List.length_append]
    by_cases priority : candidate.buffer = .priority
    · rw [priority, put_queue_self, List.length_set]
    · rw [put_queue_of_ne (Ne.symm priority)]
  have executed : Balanced left
      (({ c with memPhy, memoryImage } : Controller β).execute candidate request) := by
    unfold execute
    dsimp only
    split
    · exact marked _ _ _ _ rfl
    · exact (marked _ _ _ _ rfl).scheduleMaintenance _ _
  unfold Controller.issueEffects
  rw [recordIssue_eq, applyPowerCommand_eq]
  exact executed

variable [MemoryBackend β]

/-- A request that is served leaves the priority queue and is counted. -/
theorem Balanced.advance (balanced : Balanced left c) (kinds : QueueKinds c)
    (found : (c.requestQueues.queue candidate.buffer)[candidate.index]? = some request)
    (advance : Advance c candidate request after) : Balanced left after := by
  have isPriority := kinds.maintenance_iff (List.mem_of_getElem? found)
  cases advance with
  | served queues isMaintenance own erases =>
    have without := RequestQueues.erase_without found erases
    rw [isPriority.mp isMaintenance] at without found
    have one := (eraseIdx_perm found).length_eq
    rw [List.length_cons, ← without.here] at one
    unfold Balanced queuedMaintenance at *
    dsimp only
    rw [balanced, List.length_append, List.length_append]
    omega
  | promoted opening ordinary waiting =>
    have notPriority : candidate.buffer ≠ .priority := fun is => ordinary (isPriority.mpr is)
    refine balanced.of_length rfl rfl ?_
    unfold queuedMaintenance
    dsimp only
    rcases @RequestQueues.promote_promoted c.requestQueues _ _ c.spec _ found with full | ⟨-, moved⟩
    · rw [full]
    · rw [moved.others .priority (Ne.symm notPriority) nofun]
  | stayed => exact balanced
  | retired after data ordinary how =>
    have notPriority : candidate.buffer ≠ .priority := fun is => ordinary (isPriority.mpr is)
    have without := RequestQueues.erase_without found how.erases
    rw [how.result, leaveBuffer_eq]
    refine balanced.of_length rfl rfl ?_
    unfold queuedMaintenance
    dsimp only
    rw [without.others .priority (Ne.symm notPriority)]

end Moves

section Runs

variable [MemoryBackend β] {bus : BusClass} {issued : List IssuedCommand}
variable {history : List ControllerEvent}

theorem Balanced.turn (balanced : Balanced left c) (kinds : QueueKinds c)
    (returns : c.turn bus = .ok (issued, after)) :
    Balanced (left + (c.satisfiedIn bus).length) after := by
  unfold Controller.turn at returns
  obtain ⟨⟨found, chosen⟩, chooses, returns⟩ := bind_eq_ok.mp returns
  have balanced := balanced.choose chooses
  obtain ⟨choosing, issuable⟩ := choose_spec chooses
  cases found with
  | none =>
    cases returns
    exact balanced
  | some candidate =>
    obtain ⟨-, request, issuable⟩ := issuable candidate rfl
    obtain ⟨-, -, -, issuable⟩ := upgraded_issuable issuable
    obtain ⟨-, memPhy, memoryImage, issuing⟩ := issue_cases issuable returns
    exact balanced.issueEffects.advance
      ((choosing.housekeeping.kinds kinds).issueEffects issuable.found) issuing.marked
      issuing.advance

theorem Balanced.runTurns {buses : List BusClass} (balanced : Balanced left c)
    (kinds : QueueKinds c) (returns : Controller.runTurns buses c = .ok (issued, after)) :
    Balanced (left + (satisfiedTurns buses c).length) after := by
  induction buses generalizing c left issued with
  | nil =>
    cases returns
    exact balanced
  | cons bus rest inductionHypothesis =>
    obtain ⟨⟨now, middle⟩, turn, returns⟩ := bind_eq_ok.mp returns
    obtain ⟨⟨later, final⟩, others, returns⟩ := bind_eq_ok.mp returns
    cases returns
    unfold satisfiedTurns
    rw [turn, List.length_append, ← Nat.add_assoc]
    exact inductionHypothesis (balanced.turn kinds turn) ((turn_cases turn).traffic kinds).1
      others

theorem Balanced.tick (balanced : Balanced left c) (kinds : QueueKinds c)
    (returns : c.tick = .ok (issued, after)) :
    Balanced (left + (c.unissuedBy .tick).length) after := by
  obtain ⟨begun, begins, outcome⟩ := tick_cases returns
  have frame := beginTick_eq begins
  have begunBalanced : Balanced left begun := by
    rw [frame.2]
    exact balanced
  have begunKinds : QueueKinds begun := by
    refine kinds.of_pending ?_ frame.1 ?_ <;> rw [frame.2]
  unfold unissuedBy
  rw [begins]
  dsimp only
  rcases outcome with ⟨blocked, -, rfl⟩ | ⟨free, turned, turns, rfl⟩
  · rw [if_pos blocked]
    exact begunBalanced
  · rw [if_neg (Nat.not_lt.mpr free)]
    exact (begunBalanced.upkeep.runTurns
      ((upkeep_housekeeping begun).kinds begunKinds) turns).idleLowPower

theorem Balanced.enqueue (balanced : Balanced left c) {accepted : Bool}
    (returns : c.enqueue request = .ok (accepted, after)) :
    Balanced (left + (c.withdrawn request).length) after := by
  have prepared := balanced.prepareAccept request
  obtain ⟨-, entry⟩ := enqueue_cases returns
  cases entry with
  | refused => exact prepared
  | forwarded isRead hits forwards =>
    unfold forwardRead at forwards
    obtain ⟨⟨payload, byteMask, image⟩, -, forwards⟩ := bind_eq_ok.mp forwards
    cases forwards
    exact prepared
  | queuedRead => exact prepared.of_length rfl rfl rfl
  | coalesced => exact prepared
  | buffered => exact prepared.of_length rfl rfl rfl
  | maintenance isMaintenance space =>
    refine prepared.create rfl rfl ?_
    unfold queuedMaintenance RequestQueues.pushBack
    dsimp only
    rw [put_queue_self]
    simp only [List.length_append, List.length_singleton]
    exact Nat.add_right_comm _ _ _

theorem Balanced.apply (balanced : Balanced left c) (kinds : QueueKinds c) {op : ControllerOp}
    {events : List ControllerEvent} (returns : c.apply op = .ok (events, after)) :
    Balanced (left + (c.unissuedBy op).length) after := by
  cases op with
  | enqueue request =>
    obtain ⟨⟨accepted, next⟩, enqueues, returns⟩ := bind_eq_ok.mp returns
    cases returns
    exact balanced.enqueue enqueues
  | tick =>
    obtain ⟨⟨commands, next⟩, ticks, returns⟩ := bind_eq_ok.mp returns
    cases returns
    exact balanced.tick kinds ticks
  | popResponse =>
    obtain ⟨⟨response, next⟩, pops, returns⟩ := bind_eq_ok.mp returns
    cases returns
    unfold popResponse at pops
    split at pops
    · cases pops
    · cases pops
      exact balanced
  | flushStorage =>
    obtain ⟨next, flushes, returns⟩ := bind_eq_ok.mp returns
    cases returns
    obtain ⟨image, -, returned⟩ := bind_eq_ok.mp flushes
    cases returned
    exact balanced

theorem Balanced.run {ops : List ControllerOp} {events : List ControllerEvent}
    (balanced : Balanced left c) (conserved : Conserved history c)
    (returns : c.run ops = .ok (events, after)) :
    Balanced (left + (unissued ops c).length) after := by
  induction ops generalizing c left history events with
  | nil =>
    cases returns
    exact balanced
  | cons op rest inductionHypothesis =>
    obtain ⟨now, middle, later, applies, others, rfl⟩ := Transition.run_cons returns
    have allowed : c.RunMeets (fun _ _ => True) (fun _ _ => True) [op] :=
      runMeets_of_forall (fun _ _ => trivial) (fun _ _ => trivial) c [op]
    unfold unissued
    rw [applies, List.length_append, ← Nat.add_assoc]
    exact inductionHypothesis (balanced.apply conserved.kinds applies)
      (conserved_kept.apply conserved allowed.1 applies) others

/-! ### What leaves without a command -/

/-- A precharge of a closed bank or a self-refresh entry. -/
def Dispensable (request : Request) : Prop := request.next = .prepb ∨ request.next = .srefen

omit [MemoryBackend β] in
theorem satisfiedIn_dispensable : ∀ request ∈ c.satisfiedIn bus, Dispensable request := by
  intro request member
  unfold satisfiedIn at member
  split at member
  · split at member
    · exact absurd member List.not_mem_nil
    · have holds := List.mem_takeWhile_imp member
      unfold satisfied at holds
      rw [Bool.and_eq_true] at holds
      exact Or.inl (of_decide_eq_true holds.1)
  · exact absurd member List.not_mem_nil

theorem satisfiedTurns_dispensable {buses : List BusClass} :
    ∀ request ∈ satisfiedTurns buses c, Dispensable request := by
  induction buses generalizing c with
  | nil => exact fun _ member => absurd member List.not_mem_nil
  | cons bus rest inductionHypothesis =>
    unfold satisfiedTurns
    refine List.forall_mem_append.mpr ⟨satisfiedIn_dispensable, ?_⟩
    split
    · exact inductionHypothesis
    · exact fun _ member => absurd member List.not_mem_nil

theorem unissuedBy_dispensable (op : ControllerOp) :
    ∀ request ∈ c.unissuedBy op, Dispensable request := by
  unfold unissuedBy
  split
  · intro request member
    unfold withdrawn at member
    split at member
    · exact absurd member List.not_mem_nil
    · split at member
      · exact absurd member List.not_mem_nil
      · exact Or.inr (of_decide_eq_true (List.mem_filter.mp member).2).2
  · split
    · split
      · exact fun _ member => absurd member List.not_mem_nil
      · exact satisfiedTurns_dispensable
    · exact fun _ member => absurd member List.not_mem_nil
  · exact fun _ member => absurd member List.not_mem_nil

theorem unissued_dispensable (ops : List ControllerOp) :
    ∀ request ∈ unissued ops c, Dispensable request := by
  induction ops generalizing c with
  | nil => exact fun _ member => absurd member List.not_mem_nil
  | cons op rest inductionHypothesis =>
    unfold unissued
    refine List.forall_mem_append.mpr ⟨unissuedBy_dispensable op, ?_⟩
    split
    · exact inductionHypothesis
    · exact fun _ member => absurd member List.not_mem_nil

/-! ### The account of every run -/

/-- In every reachable state the maintenance that was counted is served, queued, or has left
without a command. -/
theorem maintenance_accounted {spec : DramSpec} {options : ControllerOptions}
    {image : MemoryImage β} {start final : Controller β} {ops : List ControllerOp}
    {events : List ControllerEvent} (created : create spec options image = .ok start)
    (returns : start.run ops = .ok (events, final)) :
    final.stats.maintenanceRequests = final.stats.maintenanceServed +
        (final.requestQueues.queue .priority).length + final.pendingMaintenance.length +
        (unissued ops start).length ∧
      ∀ request ∈ unissued ops start, Dispensable request := by
  have first := create_created created
  have balanced : Balanced 0 start := by
    unfold Balanced queuedMaintenance
    rw [first.stats_eq, first.queues, first.pendingMaintenance_eq]
    rfl
  have account := balanced.run first.conserved returns
  unfold Balanced queuedMaintenance at account
  rw [List.length_append, Nat.zero_add, ← Nat.add_assoc] at account
  exact ⟨account, unissued_dispensable ops⟩

/-- A refresh, and a precharge of a closed bank. -/
def idlePrecharge : List ControllerOp :=
  [.enqueue (maintain 1 .refab), .tick, .enqueue (maintain 2 .prepb), .tick]

theorem maintenance_accounted_idlePrecharge : ∃ start events final,
    create twoBanks {} (imageOf twoBanks) = .ok start ∧
      start.run idlePrecharge = .ok (events, final) ∧
      final.stats.maintenanceServed = 1 ∧
      final.stats.maintenanceRequests = final.stats.maintenanceServed +
        (final.requestQueues.queue .priority).length + final.pendingMaintenance.length +
        (unissued idlePrecharge start).length := by
  obtain ⟨start, events, final, created, returns, checks⟩ :=
    freshRun_of_passes twoBanks {} idlePrecharge
      (fun result => decide (result.2.stats.maintenanceServed = 1)) (by decide +kernel)
  exact ⟨start, events, final, created, returns, of_decide_eq_true checks,
    (maintenance_accounted created returns).1⟩

/-- The precharge is neither queued nor served. -/
theorem satisfied_precharge_uncounted : ∃ start events final,
    create twoBanks {} (imageOf twoBanks) = .ok start ∧
      start.run idlePrecharge = .ok (events, final) ∧
      final.stats.maintenanceRequests ≠ final.stats.maintenanceServed +
        (final.requestQueues.queue .priority).length + final.pendingMaintenance.length := by
  obtain ⟨start, events, final, created, returns, checks⟩ :=
    freshRun_of_passes twoBanks {} idlePrecharge
      (fun result => decide (result.2.stats.maintenanceRequests ≠
        result.2.stats.maintenanceServed + (result.2.requestQueues.queue .priority).length +
          result.2.pendingMaintenance.length)) (by decide +kernel)
  exact ⟨start, events, final, created, returns, of_decide_eq_true checks⟩

end Runs

end HbmSim.Controller
