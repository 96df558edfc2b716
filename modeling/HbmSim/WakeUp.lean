/-
The way out of an explicit low-power state: when the matching exit command
stands at the head of the priority queue once a tick has done its wake-up and
has serviced the waiting maintenance.

In self refresh the exit is moved ahead of everything, so it heads the queue as
soon as it is queued at all. In power-down nothing is moved, and only new reads
and writes queue the exit.
-/

import HbmSim.PowerDown

namespace HbmSim

/-! ### What a refresh manager asks for -/

namespace RefreshManager

theorem seedRefreshBatch_refresh {spec : DramSpec} {rank : Nat} {state : RankRefreshState} :
    ∀ command ∈ (seedRefreshBatch spec rank state).1,
      (commandMeta command.command).refresh = true := by
  intro command member
  unfold seedRefreshBatch at member
  split at member
  · obtain ⟨_, -, member⟩ := List.mem_flatMap.mp member
    obtain ⟨_, -, rfl⟩ := List.mem_map.mp member
    rfl
  · dsimp only at member
    split at member
    all_goals
      obtain ⟨_, -, member⟩ := List.mem_flatMap.mp member
      obtain ⟨_, -, rfl⟩ := List.mem_map.mp member
      dsimp only
      split <;> rfl

theorem serveDue_refresh {manager next : RefreshManager} {spec : DramSpec} {prefer : Bool}
    {newlyDue : List Bool} {result : RefreshTickResult}
    (serves : manager.serveDue spec prefer newlyDue = some (result, next)) :
    ∀ command ∈ result.commands, (commandMeta command.command).refresh = true := by
  obtain ⟨rank, -, serves⟩ := List.exists_of_findSome?_eq_some serves
  dsimp only at serves
  split at serves
  · cases serves
  · cases serves
    exact fun _ member => absurd member List.not_mem_nil
  · cases serves
    exact seedRefreshBatch_refresh

theorem pullIn_refresh {manager next : RefreshManager} {spec : DramSpec} {horizon : Nat}
    {result : RefreshTickResult} (pulls : manager.pullIn spec horizon = some (result, next)) :
    ∀ command ∈ result.commands, (commandMeta command.command).refresh = true := by
  obtain ⟨rank, -, pulls⟩ := List.exists_of_findSome?_eq_some pulls
  dsimp only at pulls
  split at pulls
  · cases pulls
    exact seedRefreshBatch_refresh
  · cases pulls

/-- The manager schedules refreshes and nothing else. -/
theorem tick_refresh (manager : RefreshManager) (spec : DramSpec) (clk : Nat)
    (preferPostpone allowPullIn : Bool) :
    ∀ command ∈ (manager.tick spec clk preferPostpone allowPullIn).1.commands,
      (commandMeta command.command).refresh = true := by
  have none : ∀ command ∈ ([] : List MaintenanceCommand),
      (commandMeta command.command).refresh = true :=
    fun _ member => absurd member List.not_mem_nil
  unfold tick
  dsimp only
  split
  · exact none
  generalize (if manager.rankStates.length ≠ max 1 spec.org.ranks then timed spec clk
    else manager) = current
  rcases serve_cases _ spec _ preferPostpone allowPullIn _ with ⟨-, quiet⟩ | ⟨-, serves | pulls⟩
  · rw [quiet]
    exact none
  · exact serveDue_refresh serves
  · exact pullIn_refresh pulls

end RefreshManager

namespace Controller

variable {β : Type} {c : Controller β} {request : Request}

/-! ### The steps before the turns -/

/-- A tick up to `service_pending_maintenance`. -/
def serviced (c : Controller β) : Controller β :=
  { c with timingEngine := c.timingEngine.pruneRecentActs c.spec c.clk
    }.wakeFromSelfRefresh.scheduleRefresh.servicePendingMaintenance

theorem upkeep_eq_serviced (c : Controller β) :
    c.upkeep = c.serviced.applyRowPolicyPreSchedule := rfl

/-- The command that ends the explicit low-power state. -/
def matchingExit (c : Controller β) : Command :=
  if c.explicitSelfRefreshActive then .srefex else .pdx

/-- The exit heads the priority queue and is legal. -/
def ExitHeads (c : Controller β) : Prop :=
  ∃ request rest, c.requestQueues.queue .priority = request :: rest ∧
    request.next = c.matchingExit ∧ c.stateOk request c.matchingExit = true

def queuedMaintenance (c : Controller β) : List Request :=
  c.requestQueues.queue .priority ++ c.pendingMaintenance

/-- The waiting requests the priority queue has room for. -/
def admitted (c : Controller β) : List Request :=
  c.pendingMaintenance.take
    (c.requestQueues.limit .priority - (c.requestQueues.queue .priority).length)

/-- When the exit of self refresh is or gets queued. -/
def SelfRefreshExitDue (c : Controller β) : Prop :=
  (∃ request ∈ c.queuedMaintenance, request.next = .srefex) ∨
    (c.explicitLowPowerExitPending = none ∧
      (c.requestQueues.queue .read ≠ [] ∨ c.requestQueues.queue .write ≠ [] ∨
        c.requestQueues.queue .active ≠ [] ∨
        ∃ request ∈ c.queuedMaintenance, request.next ≠ .srefen))

/-- When the exit of power-down goes first. -/
def PowerDownExitDue (c : Controller β) : Prop :=
  c.spec.lowPowerMode ≠ .selfRefresh ∧
    (∃ request rest, c.queuedMaintenance = request :: rest ∧ request.next = .pdx) ∧
    ∀ request ∈ c.admitted, request.next ≠ .srefex

def WakeUpDue (c : Controller β) : Prop :=
  if c.explicitSelfRefreshActive = true then c.SelfRefreshExitDue else c.PowerDownExitDue

/-! ### Filling the priority queue -/

section Filling

variable {queues : RequestQueues} {requests : List Request}

/-- The first request of a list is a self-refresh exit. -/
def HeadsWithExit (requests : List Request) : Prop :=
  ∃ exit rest, requests = exit :: rest ∧ exit.next = .srefex

theorem fillPriority_keeps_exit (heads : HeadsWithExit (queues.queue .priority)) :
    HeadsWithExit ((fillPriority requests queues).2.queue .priority) := by
  induction requests generalizing queues with
  | nil => exact heads
  | cons request rest inductionHypothesis =>
    unfold fillPriority
    split
    · refine inductionHypothesis ?_
      split
      next exit =>
        exact ⟨request, queues.queue .priority, put_queue_self, exit⟩
      next =>
        obtain ⟨first, others, queue, isExit⟩ := heads
        refine ⟨first, others ++ [request], ?_, isExit⟩
        unfold RequestQueues.pushBack
        rw [put_queue_self, queue]
        rfl
    · exact heads

/-- Room for a request leaves one place less behind it. -/
theorem room_pushBack (space : queues.hasSpace .priority = true) (request : Request) :
    queues.limit .priority - (queues.queue .priority).length =
      (queues.pushBack .priority request).limit .priority -
        ((queues.pushBack .priority request).queue .priority).length + 1 := by
  have room := of_decide_eq_true space
  unfold RequestQueues.pushBack
  rw [put_queue_self, List.length_append, List.length_singleton, put_limit]
  omega

/-- Without an exit among them, the admitted requests follow in order. -/
theorem fillPriority_plain
    (plain : ∀ request ∈ requests.take
      (queues.limit .priority - (queues.queue .priority).length), request.next ≠ .srefex) :
    (fillPriority requests queues).2.queue .priority = queues.queue .priority ++
      requests.take (queues.limit .priority - (queues.queue .priority).length) := by
  induction requests generalizing queues with
  | nil => rw [List.take_nil, List.append_nil]; rfl
  | cons request rest inductionHypothesis =>
    unfold fillPriority
    split
    next space =>
      rw [room_pushBack space request, List.take_succ_cons] at plain ⊢
      obtain ⟨first, others⟩ := List.forall_mem_cons.mp plain
      rw [if_neg first, inductionHypothesis others]
      unfold RequestQueues.pushBack
      rw [put_queue_self, List.append_assoc, List.singleton_append]
    next full =>
      have noRoom : queues.limit .priority - (queues.queue .priority).length = 0 := by
        have := of_decide_eq_false (Bool.eq_false_iff.mpr full)
        omega
      rw [noRoom, List.take_zero, List.append_nil]

/-- An admitted exit goes to the front. -/
theorem fillPriority_exit
    (admits : ∃ request ∈ requests.take
      (queues.limit .priority - (queues.queue .priority).length), request.next = .srefex) :
    HeadsWithExit ((fillPriority requests queues).2.queue .priority) := by
  induction requests generalizing queues with
  | nil =>
    obtain ⟨request, member, -⟩ := admits
    rw [List.take_nil] at member
    cases member
  | cons request rest inductionHypothesis =>
    obtain ⟨exit, member, isExit⟩ := admits
    have space : queues.hasSpace .priority = true := by
      refine decide_eq_true (Nat.lt_of_sub_pos (Nat.pos_of_ne_zero fun none => ?_))
      rw [none, List.take_zero] at member
      cases member
    unfold fillPriority
    rw [if_pos space]
    by_cases first : request.next = .srefex
    · rw [if_pos first]
      exact fillPriority_keeps_exit ⟨request, queues.queue .priority, put_queue_self, first⟩
    · rw [if_neg first]
      refine inductionHypothesis ⟨exit, ?_, isExit⟩
      rw [room_pushBack space request, List.take_succ_cons] at member
      rcases List.mem_cons.mp member with rfl | later
      · exact absurd isExit first
      · exact later

end Filling

/-! ### The steps, list by list -/

theorem rotateExit_heads {requests : List Request}
    (queued : ∃ request ∈ requests, request.next = .srefex) :
    HeadsWithExit (rotateExit requests) := by
  obtain ⟨request, member, isExit⟩ := queued
  unfold rotateExit
  dsimp only
  split
  next missing =>
    exact absurd (decide_eq_true isExit) (List.find?_eq_none.mp missing request member)
  next exit found =>
    have isExit := List.find?_some found
    exact ⟨exit, _, rfl, of_decide_eq_true isExit⟩

theorem rotateExit_plain {requests : List Request}
    (plain : ∀ request ∈ requests, request.next ≠ .srefex) : rotateExit requests = requests := by
  unfold rotateExit
  dsimp only
  split
  · rfl
  next exit found =>
    have isExit := List.find?_some found
    exact absurd (of_decide_eq_true isExit) (plain exit (List.mem_of_find?_eq_some found))

/-- A queued exit gets to the head of the priority queue, or of the waiting requests with room in
the priority queue. -/
theorem favourExit_heads (asleep : c.explicitSelfRefreshActive = true)
    (room : 0 < c.requestQueues.limit .priority)
    (queued : ∃ request ∈ c.queuedMaintenance, request.next = .srefex) :
    HeadsWithExit (c.favourExit.requestQueues.queue .priority) ∨
      (HeadsWithExit c.favourExit.pendingMaintenance ∧
        c.favourExit.requestQueues.hasSpace .priority = true) := by
  have rotated : HeadsWithExit (rotateExit (c.requestQueues.queue .priority)) ∨
      HeadsWithExit (rotateExit c.pendingMaintenance) := by
    obtain ⟨request, member, isExit⟩ := queued
    rcases List.mem_append.mp member with priority | waiting
    · exact Or.inl (rotateExit_heads ⟨request, priority, isExit⟩)
    · exact Or.inr (rotateExit_heads ⟨request, waiting, isExit⟩)
  unfold favourExit
  rw [if_neg (by rw [asleep]; nofun)]
  dsimp only
  generalize rotateExit (c.requestQueues.queue .priority) = priority at rotated
  generalize rotateExit c.pendingMaintenance = waiting at rotated
  split
  next exit rest last lasts =>
    split
    next full => exact Or.inl ⟨exit, priority.dropLast, put_queue_self, full.1⟩
    next other =>
      dsimp only
      rw [put_queue_self]
      refine rotated.imp_right fun heads => ⟨heads, ?_⟩
      obtain ⟨first, _, is, isExit⟩ := heads
      cases is
      rw [not_and, Bool.not_eq_false] at other
      exact other isExit
  next noSwap =>
    dsimp only
    rw [put_queue_self]
    refine rotated.imp_right fun heads => ⟨heads, ?_⟩
    obtain ⟨first, rest, is, -⟩ := heads
    have empty : priority = [] := by
      cases lasts : priority.getLast? with
      | none => exact List.getLast?_eq_none_iff.mp lasts
      | some last => exact absurd lasts (noSwap first rest last is)
    refine decide_eq_true ?_
    rw [put_queue_self, put_limit, empty]
    exact room

theorem favourExit_plain (plain : ∀ request ∈ c.queuedMaintenance, request.next ≠ .srefex) :
    c.favourExit.requestQueues.queue .priority = c.requestQueues.queue .priority ∧
      c.favourExit.pendingMaintenance = c.pendingMaintenance := by
  have priority := rotateExit_plain fun request member =>
    plain request (List.mem_append_left c.pendingMaintenance member)
  have waiting := rotateExit_plain fun request member =>
    plain request (List.mem_append_right (c.requestQueues.queue .priority) member)
  unfold favourExit
  rw [priority, waiting]
  split
  · exact ⟨rfl, rfl⟩
  dsimp only
  split
  next exit rest last exits lasts =>
    have waits : exit ∈ c.pendingMaintenance := by
      rw [exits]
      exact List.mem_cons_self
    rw [if_neg fun swaps => plain exit (List.mem_append_right _ waits) swaps.1]
    exact ⟨put_queue_self, rfl⟩
  next => exact ⟨put_queue_self, rfl⟩

theorem scheduleMaintenance_requestQueues (command : Command) (decoded : DecodedAddress) :
    (c.scheduleMaintenance command decoded).requestQueues = c.requestQueues := by
  rw [scheduleMaintenance_eq]

/-- Other maintenance than the exit of self refresh waits at the end. -/
theorem scheduleMaintenance_waits {command : Command} (other : command ≠ .srefex)
    (decoded : DecodedAddress) : ∃ request,
    (c.scheduleMaintenance command decoded).pendingMaintenance =
      c.pendingMaintenance ++ [request] ∧ request.next = command := by
  unfold scheduleMaintenance
  rw [if_neg fun exit => other exit.1]
  dsimp only
  rw [if_neg other]
  exact ⟨_, rfl, rfl⟩

/-- The refreshes that are due wait behind everything else. -/
theorem scheduleRefresh_waits (c : Controller β) :
    c.scheduleRefresh.requestQueues = c.requestQueues ∧ ∃ refreshes,
      c.scheduleRefresh.pendingMaintenance = c.pendingMaintenance ++ refreshes ∧
      ∀ request ∈ refreshes, (commandMeta request.next).refresh = true := by
  have folds : ∀ (commands : List MaintenanceCommand) (c : Controller β),
      (∀ command ∈ commands, (commandMeta command.command).refresh = true) →
      (commands.foldl (fun c (command : MaintenanceCommand) =>
          c.scheduleMaintenance command.command command.decoded) c).requestQueues =
        c.requestQueues ∧ ∃ refreshes,
        (commands.foldl (fun c (command : MaintenanceCommand) =>
            c.scheduleMaintenance command.command command.decoded) c).pendingMaintenance =
          c.pendingMaintenance ++ refreshes ∧
        ∀ request ∈ refreshes, (commandMeta request.next).refresh = true := by
    intro commands
    induction commands with
    | nil =>
      exact fun c _ => ⟨rfl, [], (List.append_nil _).symm,
        fun _ member => absurd member List.not_mem_nil⟩
    | cons command rest inductionHypothesis =>
      intro c refreshes
      obtain ⟨first, others⟩ := List.forall_mem_cons.mp refreshes
      obtain ⟨queues, later, waits, all⟩ :=
        inductionHypothesis (c.scheduleMaintenance command.command command.decoded) others
      have other : command.command ≠ .srefex := by
        intro is
        rw [is] at first
        cases first
      obtain ⟨request, added, next⟩ :=
        scheduleMaintenance_waits (c := c) other command.decoded
      rw [List.foldl_cons]
      refine ⟨queues.trans (scheduleMaintenance_requestQueues _ _), request :: later, ?_,
        List.forall_mem_cons.mpr ⟨next ▸ first, all⟩⟩
      rw [waits, added, List.append_assoc, List.singleton_append]
  unfold scheduleRefresh
  dsimp only
  exact folds _ _ (RefreshManager.tick_refresh _ _ _ _ _)

theorem scheduleMaintenance_exit (c : Controller β) (decoded : DecodedAddress) :
    ∃ request ∈ (c.scheduleMaintenance .srefex decoded).queuedMaintenance,
      request.next = .srefex := by
  unfold scheduleMaintenance queuedMaintenance
  split
  next present =>
    rcases present.2 with waiting | queued
    · obtain ⟨request, member, exit⟩ := List.any_eq_true.mp waiting
      exact ⟨request, List.mem_append_right _ member, of_decide_eq_true exit⟩
    · obtain ⟨request, member, exit⟩ := List.any_eq_true.mp queued
      exact ⟨request, List.mem_append_left _ member, of_decide_eq_true exit⟩
  next =>
    dsimp only
    rw [if_pos rfl]
    exact ⟨_, List.mem_append_right _ List.mem_cons_self, rfl⟩

/-- In self refresh, the wake-up makes sure of the exit whenever it is due. -/
theorem wakeFromSelfRefresh_exit (asleep : c.explicitSelfRefreshActive = true) :
    (∃ request ∈ c.wakeFromSelfRefresh.queuedMaintenance, request.next = .srefex) ↔
      c.SelfRefreshExitDue := by
  -- The source looks at the two maintenance queues apart, and leaves the exit itself out.
  have work : (∃ request ∈ c.queuedMaintenance, request.next ≠ .srefex ∧ request.next ≠ .srefen) ↔
      (c.requestQueues.queue .priority).any
          (fun request => decide (request.next ≠ .srefex ∧ request.next ≠ .srefen)) = true ∨
        c.pendingMaintenance.any
          (fun request => decide (request.next ≠ .srefex ∧ request.next ≠ .srefen)) = true := by
    unfold queuedMaintenance
    simp only [List.any_eq_true, decide_eq_true_eq, List.mem_append, or_and_right, exists_or]
  unfold wakeFromSelfRefresh
  dsimp only
  split
  next wakes =>
    refine iff_of_true (scheduleMaintenance_exit c {}) (Or.inr ⟨wakes.2.1, ?_⟩)
    refine wakes.2.2.imp_right fun needs => needs.imp_right fun needs => needs.imp_right ?_
    intro found
    obtain ⟨request, member, -, other⟩ := work.mpr found
    exact ⟨request, member, other⟩
  next stays =>
    refine ⟨Or.inl, fun due => due.elim id fun ⟨unmarked, needs⟩ => ?_⟩
    by_contra missing
    refine stays ⟨asleep, unmarked, needs.imp_right fun needs => needs.imp_right fun needs =>
      needs.imp_right fun ⟨request, member, other⟩ => work.mp ⟨request, member, ?_, other⟩⟩
    exact fun exit => missing ⟨request, member, exit⟩

theorem wakeFromSelfRefresh_requestQueues (c : Controller β) :
    c.wakeFromSelfRefresh.requestQueues = c.requestQueues := by
  unfold wakeFromSelfRefresh
  dsimp only
  split
  · exact scheduleMaintenance_requestQueues _ _
  · rfl

theorem wakeFromSelfRefresh_awake (awake : c.explicitSelfRefreshActive = false) :
    c.wakeFromSelfRefresh = c := by
  unfold wakeFromSelfRefresh
  dsimp only
  exact if_neg fun wakes => by rw [awake] at wakes; cases wakes.1

/-! ### The head of the queue -/

theorem serviced_frame (c : Controller β) : Housekeeping c c.serviced := by
  have pruned : Housekeeping c
      { c with timingEngine := c.timingEngine.pruneRecentActs c.spec c.clk } :=
    ⟨rfl, fun _ _ held => held⟩
  exact ((pruned.trans (wakeFromSelfRefresh_housekeeping _)).trans
    (scheduleRefresh_housekeeping _)).trans (servicePendingMaintenance_housekeeping _)

/-- The lists of maintenance as `service_pending_maintenance` finds them. -/
theorem beforeService (c : Controller β) : ∃ ready : Controller β,
    c.serviced = ready.servicePendingMaintenance ∧ Housekeeping c ready ∧
      ready.requestQueues = c.requestQueues ∧
      (∃ refreshes, ready.pendingMaintenance =
          c.wakeFromSelfRefresh.pendingMaintenance ++ refreshes ∧
        ∀ request ∈ refreshes, (commandMeta request.next).refresh = true) := by
  have pruned : Housekeeping c
      { c with timingEngine := c.timingEngine.pruneRecentActs c.spec c.clk } :=
    ⟨rfl, fun _ _ held => held⟩
  have woken : ({ c with timingEngine := c.timingEngine.pruneRecentActs c.spec c.clk }
      ).wakeFromSelfRefresh.pendingMaintenance = c.wakeFromSelfRefresh.pendingMaintenance := by
    unfold wakeFromSelfRefresh scheduleMaintenance
    dsimp only
    split
    · split <;> rfl
    · rfl
  obtain ⟨queues, refreshes, waits, all⟩ := scheduleRefresh_waits
    ({ c with timingEngine := c.timingEngine.pruneRecentActs c.spec c.clk }).wakeFromSelfRefresh
  refine ⟨_, rfl, (pruned.trans (wakeFromSelfRefresh_housekeeping _)).trans
    (scheduleRefresh_housekeeping _), queues.trans (wakeFromSelfRefresh_requestQueues _),
    refreshes, ?_, all⟩
  rw [waits, woken]

/-- In self refresh the exit heads the queue exactly when it is due. -/
theorem serviced_selfRefresh (asleep : c.explicitSelfRefreshActive = true)
    (room : 0 < c.requestQueues.limit .priority) :
    HeadsWithExit (c.serviced.requestQueues.queue .priority) ↔ c.SelfRefreshExitDue := by
  obtain ⟨ready, is, keeps, queues, refreshes, waiting, allRefreshes⟩ := beforeService c
  have queued : (∃ request ∈ ready.queuedMaintenance, request.next = .srefex) ↔
      c.SelfRefreshExitDue := by
    rw [← wakeFromSelfRefresh_exit asleep]
    unfold queuedMaintenance
    rw [waiting, queues, wakeFromSelfRefresh_requestQueues, ← List.append_assoc]
    constructor
    · rintro ⟨request, member, exit⟩
      rcases List.mem_append.mp member with old | new
      · exact ⟨request, old, exit⟩
      · have refresh := allRefreshes request new
        rw [exit] at refresh
        cases refresh
    · rintro ⟨request, member, exit⟩
      exact ⟨request, List.mem_append_left _ member, exit⟩
  rw [is, ← queued]
  have asleepToo : ready.explicitSelfRefreshActive = true :=
    (congrArg Core.explicitSelfRefreshActive keeps.core).trans asleep
  unfold servicePendingMaintenance
  dsimp only
  constructor
  · intro heads
    by_contra missing
    have plain : ∀ request ∈ ready.queuedMaintenance, request.next ≠ .srefex :=
      fun request member exit => missing ⟨request, member, exit⟩
    obtain ⟨priority, waits⟩ := favourExit_plain plain
    obtain ⟨exit, rest, queue, isExit⟩ := heads
    have all : ∀ request ∈ ready.pendingMaintenance, request.next ≠ .srefex :=
      fun request member => plain request (List.mem_append_right _ member)
    rw [waits, fillPriority_plain fun request member => all request (List.mem_of_mem_take member),
      priority] at queue
    have member : exit ∈ ready.queuedMaintenance := by
      have first : exit ∈ exit :: rest := List.mem_cons_self
      rw [← queue] at first
      exact (List.append_subset.mpr ⟨List.subset_append_left _ _,
        fun _ member => List.mem_append_right _ (List.mem_of_mem_take member)⟩) first
    exact plain exit member isExit
  · intro due
    rcases favourExit_heads asleepToo (by rw [queues]; exact room) due with heads | ⟨heads, space⟩
    · exact fillPriority_keeps_exit heads
    · obtain ⟨exit, rest, waits, isExit⟩ := heads
      refine fillPriority_exit ⟨exit, ?_, isExit⟩
      rw [room_pushBack space exit, waits, List.take_succ_cons]
      exact List.mem_cons_self

/-- In power-down the exit heads the queue exactly when it comes first. -/
theorem serviced_powerDown (awake : c.explicitSelfRefreshActive = false)
    (room : 0 < c.requestQueues.limit .priority) :
    (∃ request rest, c.serviced.requestQueues.queue .priority = request :: rest ∧
        request.next = .pdx) ↔
      (∃ request rest, c.queuedMaintenance = request :: rest ∧ request.next = .pdx) ∧
        ∀ request ∈ c.admitted, request.next ≠ .srefex := by
  obtain ⟨ready, is, keeps, queues, refreshes, waiting, allRefreshes⟩ := beforeService c
  have awakeToo : ready.explicitSelfRefreshActive = false :=
    (congrArg Core.explicitSelfRefreshActive keeps.core).trans awake
  rw [wakeFromSelfRefresh_awake awake] at waiting
  rw [is]
  unfold servicePendingMaintenance favourExit
  rw [if_pos awakeToo]
  dsimp only
  -- The refreshes come last, so an admitted exit is one of those that waited before.
  have admits : ∀ request : Request, request.next = .srefex →
      (request ∈ ready.pendingMaintenance.take
          (ready.requestQueues.limit .priority - (ready.requestQueues.queue .priority).length) ↔
        request ∈ c.admitted) := by
    intro request exit
    unfold admitted
    rw [waiting, queues, List.take_append, List.mem_append, or_iff_left]
    intro new
    have refresh := allRefreshes request (List.mem_of_mem_take new)
    rw [exit] at refresh
    cases refresh
  by_cases exits : ∃ request ∈ c.admitted, request.next = .srefex
  · obtain ⟨exit, member, isExit⟩ := exits
    refine iff_of_false ?_ fun due => due.2 exit member isExit
    rintro ⟨request, rest, queue, isPdx⟩
    obtain ⟨first, others, heads, isFirst⟩ :=
      fillPriority_exit ⟨exit, (admits exit isExit).mpr member, isExit⟩
    rw [heads] at queue
    cases queue
    rw [isFirst] at isPdx
    cases isPdx
  · have plain : ∀ request ∈ c.admitted, request.next ≠ .srefex :=
      fun request member exit => exits ⟨request, member, exit⟩
    rw [fillPriority_plain fun request member exit =>
      plain request ((admits request exit).mp member) exit, queues]
    rw [and_iff_left plain]
    unfold queuedMaintenance
    rw [waiting]
    cases priority : c.requestQueues.queue .priority with
    | cons request rest =>
      simp only [List.cons_append, List.cons.injEq]
      exact ⟨fun ⟨_, _, ⟨rfl, _⟩, isPdx⟩ => ⟨_, _, ⟨rfl, rfl⟩, isPdx⟩,
        fun ⟨_, _, ⟨rfl, _⟩, isPdx⟩ => ⟨_, _, ⟨rfl, rfl⟩, isPdx⟩⟩
    | nil =>
      obtain ⟨last, isRoom⟩ := Nat.exists_eq_succ_of_ne_zero (Nat.ne_of_gt room)
      rw [List.length_nil, Nat.sub_zero, isRoom, List.nil_append, List.nil_append]
      cases waits : c.pendingMaintenance with
      | cons request rest =>
        simp only [List.cons_append, List.take_succ_cons, List.cons.injEq]
        exact ⟨fun ⟨_, _, ⟨rfl, _⟩, isPdx⟩ => ⟨_, _, ⟨rfl, rfl⟩, isPdx⟩,
          fun ⟨_, _, ⟨rfl, _⟩, isPdx⟩ => ⟨_, _, ⟨rfl, rfl⟩, isPdx⟩⟩
      | nil =>
        refine iff_of_false ?_ fun ⟨_, _, split, _⟩ => List.cons_ne_nil _ _ split.symm
        rintro ⟨request, rest, taken, isPdx⟩
        have member : request ∈ refreshes := by
          refine List.mem_of_mem_take (i := last + 1) ?_
          rw [← List.nil_append refreshes, taken]
          exact List.mem_cons_self
        have refresh := allRefreshes request member
        rw [isPdx] at refresh
        cases refresh

/-! ### The exit of every reachable state -/

theorem serviced_lowPowerActive (c : Controller β) :
    c.serviced.lowPowerActive = c.lowPowerActive := by
  have outside := upkeep_outside c
  rw [upkeep_eq_serviced, applyRowPolicyPreSchedule_outside] at outside
  exact congrArg Prod.snd outside

/-- The exit heads the queue after the steps exactly when it was due before them. -/
theorem exitHeads_iff (maintenance : c.MaintenanceMeets fun request => request.type = .maintenance)
    (room : 0 < c.requestQueues.limit .priority)
    (low : c.explicitPowerDownActive = true → c.lowPowerActive = true)
    (sleeps : c.explicitPowerDownActive = true ∨ c.explicitSelfRefreshActive = true) :
    c.serviced.ExitHeads ↔ c.WakeUpDue := by
  have keeps := serviced_frame c
  have powerDown : c.serviced.explicitPowerDownActive = c.explicitPowerDownActive :=
    congrArg Core.explicitPowerDownActive keeps.core
  have selfRefresh : c.serviced.explicitSelfRefreshActive = c.explicitSelfRefreshActive :=
    congrArg Core.explicitSelfRefreshActive keeps.core
  have type : ∀ request rest, c.serviced.requestQueues.queue .priority = request :: rest →
      request.type = .maintenance := by
    intro request rest queue
    refine keeps.maintenance _ (fun _ _ _ _ => rfl) maintenance request
      (List.mem_append_left _ ?_)
    rw [queue]
    exact List.mem_cons_self
  unfold ExitHeads WakeUpDue matchingExit stateOk checkCommandState legalOutsideSelfRefresh
    stateSnapshot
  rw [selfRefresh, powerDown, keeps.spec, serviced_lowPowerActive]
  cases asleep : c.explicitSelfRefreshActive with
  | true =>
    rw [if_pos rfl, if_pos rfl, ← serviced_selfRefresh asleep room]
    constructor
    · rintro ⟨request, rest, queue, exit, -⟩
      exact ⟨request, rest, queue, exit⟩
    · rintro ⟨request, rest, queue, exit⟩
      exact ⟨request, rest, queue, exit, by simp [type request rest queue]⟩
  | false =>
    have down : c.explicitPowerDownActive = true := by
      rcases sleeps with down | selfRefresh
      · exact down
      · rw [asleep] at selfRefresh
        cases selfRefresh
    rw [if_neg nofun, if_neg nofun]
    unfold PowerDownExitDue
    rw [← serviced_powerDown asleep room, low down, down]
    constructor
    · rintro ⟨request, rest, queue, exit, legal⟩
      refine ⟨fun mode => ?_, request, rest, queue, exit⟩
      simp [mode] at legal
    · rintro ⟨mode, request, rest, queue, exit⟩
      refine ⟨request, rest, queue, exit, ?_⟩
      simp [mode, type request rest queue]

section Runs

variable [MemoryBackend β]

/-- The starts of some ticks, one after the other. A tick that a low-power exit holds back is no
more than its start. -/
def beginTicks : Nat → Controller β → Except Exception (Controller β)
  | 0, c => .ok c
  | ticks + 1, c => do beginTicks ticks (← c.beginTick)

/-- The start of a tick leaves alone what the exit depends on. -/
theorem beginTicks_kept {ticks : Nat} {begun : Controller β}
    (begins : beginTicks ticks c = .ok begun) :
    begun.requestQueues = c.requestQueues ∧ begun.pendingMaintenance = c.pendingMaintenance ∧
      begun.explicitPowerDownActive = c.explicitPowerDownActive ∧
      begun.lowPowerActive = c.lowPowerActive ∧ (begun.WakeUpDue ↔ c.WakeUpDue) ∧
      begun.explicitSelfRefreshActive = c.explicitSelfRefreshActive := by
  induction ticks generalizing c with
  | zero =>
    cases begins
    exact ⟨rfl, rfl, rfl, rfl, Iff.rfl, rfl⟩
  | succ ticks inductionHypothesis =>
    obtain ⟨middle, first, others⟩ := bind_eq_ok.mp begins
    have later := inductionHypothesis others
    rw [(beginTick_eq first).2] at later
    exact later

theorem lowPower_kept : Kept (fun _ _ => True) (fun _ _ => True)
    fun _ (c : Controller β) => c.explicitPowerDownActive = true → c.lowPowerActive = true := by
  refine @kept_of_commands β _ _ _
    (fun _ c => c.explicitPowerDownActive = true → c.lowPowerActive = true)
    (fun _ before after low keeps down => ?_)
    fun _ _ _ _ _ _ _ _ low _ _ _ _ _ => issueEffects_low low
  rw [keeps.explicitPowerDownActive] at down
  exact keeps.lowPowerActive (by rw [down]; rfl) (low down)

/-- In every reachable low-power state, whatever ticks the last exit still holds back: after the
wake-up and the service of maintenance, the exit heads the priority queue and is legal exactly when
it was due. -/
theorem wake_up_iff {spec : DramSpec} {options : ControllerOptions} {image : MemoryImage β}
    {start final begun : Controller β} {ops : List ControllerOp} {events : List ControllerEvent}
    {heldBack : Nat} (created : create spec options image = .ok start)
    (returns : start.run ops = .ok (events, final))
    (sleeps : final.explicitPowerDownActive = true ∨ final.explicitSelfRefreshActive = true)
    (begins : beginTicks (heldBack + 1) final = .ok begun) :
    begun.serviced.ExitHeads ↔ final.WakeUpDue := by
  have guarded : start.RunMeets (fun _ _ => True) (fun _ _ => True) ops :=
    runMeets_of_forall (fun _ _ => trivial) (fun _ _ => trivial) start ops
  have conserved : Conserved events final :=
    conserved_kept.run (create_created created).conserved guarded returns
  have awake : start.explicitPowerDownActive = false := by
    rw [(create_created created).result]
  have low := lowPower_kept.run (fun down => absurd down (by rw [awake]; nofun)) guarded returns
  have limit := (run_configuration (create_created created) returns).2.2
  obtain ⟨queues, waiting, powerDown, flag, due, selfRefresh⟩ := beginTicks_kept begins
  rw [← due]
  refine exitHeads_iff ?_ ?_ (by rwa [powerDown, flag]) (by rwa [powerDown, selfRefresh])
  · have maintenance := conserved.kinds.maintenance
    unfold MaintenanceMeets at maintenance ⊢
    rwa [queues, waiting]
  · rw [queues, limit]
    exact (create_created created).priorityLimit

/-- A self-refresh entry, and a read that arrives in self refresh. -/
def readInSelfRefresh : List ControllerOp :=
  [.enqueue (maintain 1 .srefen), .tick, .enqueue (readAt twoBanks 2 0 4)]

theorem wake_up_iff_readInSelfRefresh : ∃ start events final begun,
    create twoBanks {} (imageOf twoBanks) = .ok start ∧
      start.run readInSelfRefresh = .ok (events, final) ∧
      final.explicitSelfRefreshActive = true ∧ final.requestQueues.queue .read ≠ [] ∧
      beginTicks 1 final = .ok begun ∧ begun.serviced.ExitHeads := by
  obtain ⟨start, events, final, created, returns, checks⟩ :=
    freshRun_of_passes twoBanks {} readInSelfRefresh
      (fun result => result.2.explicitSelfRefreshActive &&
        decide (result.2.requestQueues.queue .read ≠ []) &&
        result.2.pendingMaintenance.any (fun request => decide (request.next = .srefex)) &&
        passes (beginTicks 1 result.2) fun _ => true) (by decide +kernel)
  simp only [Bool.and_eq_true] at checks
  obtain ⟨⟨⟨asleep, reads⟩, queued⟩, begins⟩ := checks
  obtain ⟨begun, begins, -⟩ := passes_iff.mp begins
  obtain ⟨exit, member, isExit⟩ := List.any_eq_true.mp queued
  refine ⟨start, events, final, begun, created, returns, asleep, of_decide_eq_true reads, begins,
    (wake_up_iff created returns (Or.inr asleep) begins).mpr ?_⟩
  unfold WakeUpDue
  rw [if_pos asleep]
  exact Or.inl ⟨exit, List.mem_append_right _ member, of_decide_eq_true isExit⟩

/-- A power-down entry that issues while a read is queued. -/
def readLeftInPowerDown : List ControllerOp :=
  [.enqueue (readAt twoBanks 1 0 4), .enqueue (maintain 2 .pde), .tick]

/-- The read that was queued before the entry queues no exit. -/
theorem wake_up_lost_by_queued_read : ∃ start events final begun,
    create twoBanks {} (imageOf twoBanks) = .ok start ∧
      start.run readLeftInPowerDown = .ok (events, final) ∧
      final.explicitPowerDownActive = true ∧ final.requestQueues.queue .read ≠ [] ∧
      final.beginTick = .ok begun ∧ begun.lowPowerExitUntil ≤ begun.clk ∧
      ¬ begun.serviced.ExitHeads := by
  obtain ⟨start, events, final, created, returns, checks⟩ :=
    freshRun_of_passes twoBanks {} readLeftInPowerDown
      (fun result => result.2.explicitPowerDownActive &&
        decide (result.2.requestQueues.queue .read ≠ []) &&
        passes result.2.beginTick fun begun => decide (begun.lowPowerExitUntil ≤ begun.clk) &&
          (begun.serviced.requestQueues.queue .priority).isEmpty) (by decide +kernel)
  simp only [Bool.and_eq_true] at checks
  obtain ⟨⟨asleep, reads⟩, begins⟩ := checks
  obtain ⟨begun, begins, checks⟩ := passes_iff.mp begins
  obtain ⟨heldBack, empty⟩ := Bool.and_eq_true_iff.mp checks
  refine ⟨start, events, final, begun, created, returns, asleep, of_decide_eq_true reads, begins,
    of_decide_eq_true heldBack, ?_⟩
  rintro ⟨request, rest, queue, -⟩
  rw [queue] at empty
  cases empty

end Runs

end Controller

end HbmSim
