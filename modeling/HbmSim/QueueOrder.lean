/-
First come, first served, at the controller. The scheduler waits for the oldest
request it is shown, so a request that only waits for its time holds back all younger
ones of its queue. It is not shown a request without a next command, one that a guard
keeps back or one whose command the PHY refuses, and an activate at its deadline goes
first; in these cases the younger requests go on.
-/

import HbmSim.ControllerEntry

namespace HbmSim

/-! ### The earliest candidate -/

/-- One candidate comes no later than another: it arrived before, or stands in front of it. -/
def SchedulerCandidateView.NoLater (first second : SchedulerCandidateView) : Prop :=
  first.arrival < second.arrival ∨
    first.arrival = second.arrival ∧ first.requestIndex ≤ second.requestIndex

theorem SchedulerCandidateView.NoLater.trans {first second third : SchedulerCandidateView}
    (before : first.NoLater second) (after : second.NoLater third) : first.NoLater third := by
  unfold NoLater at *
  omega

/-- Going through the candidates in the order of the queue keeps the earliest one. -/
theorem foldl_keepEarliest_noLater {candidates : List SchedulerCandidateView}
    {best : Option SchedulerCandidateView} {earliest : SchedulerCandidateView}
    (ordered : candidates.Pairwise fun first second => first.requestIndex < second.requestIndex)
    (behind : ∀ first, best = some first → ∀ other ∈ candidates,
      first.requestIndex < other.requestIndex)
    (result : candidates.foldl keepEarliest best = some earliest) :
    (∀ first, best = some first → earliest.NoLater first) ∧
      ∀ other ∈ candidates, earliest.NoLater other := by
  induction candidates generalizing best with
  | nil =>
    refine ⟨fun first is => ?_, (fun other member => by cases member)⟩
    obtain rfl : first = earliest := Option.some.inj (is.symm.trans result)
    exact Or.inr ⟨rfl, le_refl _⟩
  | cons candidate rest inductionHypothesis =>
    obtain ⟨front, others⟩ := List.pairwise_cons.mp ordered
    rw [List.foldl_cons] at result
    cases best with
    | none =>
      obtain ⟨first, later⟩ := inductionHypothesis others (fun first is other member => by
        cases is
        exact front other member) result
      refine ⟨(fun first is => by cases is), fun other member => ?_⟩
      rcases List.mem_cons.mp member with rfl | behind
      · exact first _ rfl
      · exact later other behind
    | some held =>
      have place := behind held rfl candidate List.mem_cons_self
      by_cases earlier : candidate.arrival < held.arrival
      · have keeps : keepEarliest (some held) candidate = some candidate := if_pos earlier
        rw [keeps] at result
        obtain ⟨first, later⟩ := inductionHypothesis others (fun first is other member => by
          cases is
          exact front other member) result
        refine ⟨fun first' is => ?_, fun other member => ?_⟩
        · cases is
          exact (first _ rfl).trans (Or.inl earlier)
        · rcases List.mem_cons.mp member with rfl | behind
          · exact first _ rfl
          · exact later other behind
      · have keeps : keepEarliest (some held) candidate = some held := if_neg earlier
        rw [keeps] at result
        obtain ⟨first, later⟩ := inductionHypothesis others (fun first is other member =>
          behind first is other (List.mem_cons_of_mem _ member)) result
        refine ⟨first, fun other member => ?_⟩
        rcases List.mem_cons.mp member with rfl | further
        · exact (first _ rfl).trans (by unfold SchedulerCandidateView.NoLater; omega)
        · exact later other further

/-- In-order service answers with the earliest eligible candidate. -/
theorem selectScheduledRequest_fcfs {candidates : List SchedulerCandidateView}
    {selected : SchedulerCandidateView}
    (ordered : candidates.Pairwise fun first second => first.requestIndex < second.requestIndex)
    (result : selectScheduledRequest .fcfs candidates = some selected) :
    ∀ other ∈ candidates, other.eligible = true → selected.NoLater other := by
  obtain ⟨found, -⟩ := selectScheduledRequest_fcfs_iff.mp result
  intro other member eligible
  exact (foldl_keepEarliest_noLater (ordered.filter _) (fun _ is => by cases is) found).2 other
    (List.mem_filter.mpr ⟨member, eligible⟩)

namespace Controller

variable {β : Type} {c : Controller β} {bus : BusClass}

/-! ### The order of service -/

/-- The request could issue its own next command now. -/
def canIssue (c : Controller β) (request : Request) (kind : RequestQueueKind) (bus : BusClass) :
    Bool :=
  match c.nextCommand request with
  | none => false
  | some command => c.candidateEligible request command bus kind (decide (kind ≠ .active)) &&
      c.timingOk request command && c.phyAdmissionOk command

/-- Something else than its time keeps the request back: it has no next command, a guard holds it,
or the PHY refuses a command that is ready. -/
def SetAside (c : Controller β) (request : Request) (kind : RequestQueueKind) (bus : BusClass) :
    Prop :=
  ∀ command, c.nextCommand request = some command →
    c.candidateEligible request command bus kind (decide (kind ≠ .active)) = true →
    c.timingOk request command = true ∧ c.phyAdmissionOk command = false

/-- The order in which a queue is served. The maintenance queue gives its head. -/
inductive ServedInOrder (chosen : Controller β) (candidate : Candidate) (request : Request) : Prop
  | deadline (isActive : candidate.buffer = .active) (command : candidate.command = .act2)
      (urgent : UrgentAct2 chosen candidate.bus request)
  | head (isMaintenance : candidate.buffer = .priority) (first : candidate.index = 0)
  | oldest (passed : ∀ older index,
      (chosen.requestQueues.queue candidate.buffer)[index]? = some older →
      (older.arrival < request.arrival ∨
        older.arrival = request.arrival ∧ index < candidate.index) →
      chosen.SetAside older candidate.buffer candidate.bus)

/-- A turn issues its commands in the order of the queues. -/
def TurnInOrder [MemoryBackend β] (c : Controller β) (bus : BusClass) : Prop :=
  ∀ issued after, c.turn bus = .ok (issued, after) → ∀ record ∈ issued,
    ∃ chosen candidate request, c.choose bus = .ok (some candidate, chosen) ∧
      candidate.bus = bus ∧
      (chosen.requestQueues.queue candidate.buffer)[candidate.index]? = some request ∧
      record = chosen.issuedRecord request (chosen.upgraded candidate) ∧
      ServedInOrder chosen candidate request

/-- The scheduler is shown the requests of a queue in their order. -/
theorem views_ordered (c : Controller β) (kind : RequestQueueKind) (bus : BusClass) (avoid : Bool) :
    ((c.requestQueues.queue kind).zipIdx.filterMap (c.candidateView kind bus avoid)).Pairwise
      fun first second => first.requestIndex < second.requestIndex := by
  have places : (c.requestQueues.queue kind).zipIdx.Pairwise fun first second =>
      first.2 < second.2 := by
    refine List.pairwise_map.mp ?_
    show ((c.requestQueues.queue kind).zipIdx.map Prod.snd).Pairwise (· < ·)
    rw [List.zipIdx_map_snd]
    exact List.pairwise_lt_range'
  refine List.pairwise_filterMap.mpr (places.imp fun order first isFirst second isSecond => ?_)
  unfold candidateView at isFirst isSecond
  obtain ⟨_, -, rfl⟩ := Option.map_eq_some_iff.mp isFirst
  obtain ⟨_, -, rfl⟩ := Option.map_eq_some_iff.mp isSecond
  exact order

/-- A request with a next command that is not set aside is eligible. -/
theorem candidateView_eligible {kind : RequestQueueKind} {avoid : Bool} {request : Request}
    {index : Nat} {command : Command} (next : c.nextCommand request = some command)
    (eligible : c.candidateEligible request command bus kind avoid = true)
    (admitted : c.timingOk request command = true → c.phyAdmissionOk command = true) :
    ∃ view, c.candidateView kind bus avoid (request, index) = some view ∧
      view.eligible = true ∧ view.arrival = request.arrival ∧ view.requestIndex = index := by
  unfold candidateView
  dsimp only
  rw [next]
  refine ⟨_, rfl, ?_, rfl, rfl⟩
  dsimp only
  rw [eligible, Bool.true_and]
  split
  next ready => exact admitted ready
  next => rfl

/-- In-order service passes over older requests only when they are set aside. -/
theorem pickBestReadyFrom_inOrder {kind : RequestQueueKind} {candidate : Candidate}
    {request : Request} (fcfs : c.options.scheduler = .fcfs)
    (picked : c.pickBestReadyFrom kind bus (decide (kind ≠ .active)) = some candidate)
    (found : (c.requestQueues.queue candidate.buffer)[candidate.index]? = some request) :
    ServedInOrder c candidate request := by
  unfold pickBestReadyFrom at picked
  obtain ⟨selected, selects, rfl⟩ := Option.map_eq_some_iff.mp picked
  rw [fcfs] at selects
  have earliest := selectScheduledRequest_fcfs (views_ordered c kind bus _) selects
  obtain ⟨member, -, -⟩ := selectScheduledRequest_spec selects
  obtain ⟨⟨served, place⟩, entry, view⟩ := List.mem_filterMap.mp member
  unfold candidateView at view
  obtain ⟨command, -, rfl⟩ := Option.map_eq_some_iff.mp view
  obtain rfl : served = request := Option.some.inj
    ((List.mem_zipIdx_iff_getElem?.mp entry).symm.trans found)
  refine .oldest fun older index stands before next isNext eligible => ?_
  by_contra shown
  have admitted : c.timingOk older next = true → c.phyAdmissionOk next = true := fun ready => by
    by_contra refused
    exact shown ⟨ready, Bool.not_eq_true _ ▸ refused⟩
  have viewed : ∃ other,
      c.candidateView kind bus (decide (kind ≠ .active)) (older, index) = some other ∧
        other.eligible = true ∧ other.arrival = older.arrival ∧ other.requestIndex = index :=
    candidateView_eligible isNext eligible admitted
  obtain ⟨other, isOther, isEligible, arrival, position⟩ := viewed
  have order := earliest other
    (List.mem_filterMap.mpr ⟨_, List.mem_zipIdx_iff_getElem?.mpr stands, isOther⟩) isEligible
  unfold SchedulerCandidateView.NoLater at order
  rw [arrival, position] at order
  dsimp only at order before
  omega

theorem pickReadWrite_inOrder {candidate : Candidate} {request : Request}
    (fcfs : c.options.scheduler = .fcfs) (picked : c.pickReadWrite bus = some candidate)
    (found : (c.requestQueues.queue candidate.buffer)[candidate.index]? = some request) :
    ServedInOrder c candidate request := by
  unfold pickReadWrite at picked
  split at picked
  · split at picked
    next write =>
      cases picked
      exact @pickBestReadyFrom_inOrder β c bus .write _ _ fcfs write found
    next =>
      split at picked
      · exact @pickBestReadyFrom_inOrder β c bus .read _ _ fcfs picked found
      · cases picked
  · exact @pickBestReadyFrom_inOrder β c bus .read _ _ fcfs picked found

theorem pickPriority_head {candidate : Candidate} (picked : c.pickPriority bus = some candidate) :
    candidate.buffer = .priority ∧ candidate.index = 0 := by
  unfold pickPriority at picked
  split at picked
  · cases picked
  · obtain ⟨command, -, passes⟩ := Option.bind_eq_some_iff.mp picked
    split at passes
    · cases passes
      exact ⟨rfl, rfl⟩
    · cases passes

/-- Whatever a turn chooses is served in the order of its queue. -/
theorem choose_inOrder {chosen : Controller β} {candidate : Candidate} {request : Request}
    (fcfs : c.options.scheduler = .fcfs) (returns : c.choose bus = .ok (some candidate, chosen))
    (found : (chosen.requestQueues.queue candidate.buffer)[candidate.index]? = some request) :
    ServedInOrder chosen candidate request := by
  have same : chosen.options = c.options := (choose_spec returns).1.housekeeping.options
  unfold choose at returns
  obtain ⟨urgent, picks, rest⟩ := bind_eq_ok.mp returns
  split at rest
  next isUrgent =>
    cases rest
    obtain ⟨onBus, buffer, command, other, stands, due⟩ := pickUrgentAct2_picks picks
    rw [buffer] at found
    obtain rfl : other = request := Option.some.inj (stands.symm.trans found)
    exact .deadline buffer command (onBus ▸ due)
  next =>
    split at rest
    next active =>
      cases rest
      unfold pickActive at active
      split at active
      · cases active
      · exact pickBestReadyFrom_inOrder fcfs active found
    next =>
      have chooses : c.choosePriority bus = (some candidate, chosen) := Except.ok.inj rest
      unfold choosePriority at chooses
      dsimp only at chooses
      split at chooses
      next head =>
        cases chooses
        obtain ⟨buffer, first⟩ := pickPriority_head head
        exact .head buffer first
      next =>
        unfold chooseReadWrite at chooses
        split at chooses
        · obtain ⟨picked, rfl⟩ := Prod.mk.inj chooses
          exact pickReadWrite_inOrder (same ▸ fcfs) picked found
        · cases (Prod.mk.inj chooses).1

section Runs

variable [MemoryBackend β]

theorem turn_inOrder (fcfs : c.options.scheduler = .fcfs) (bus : BusClass) :
    c.TurnInOrder bus := by
  intro issued after returns record member
  unfold turn at returns
  obtain ⟨⟨candidate, chosen⟩, chooses, returns⟩ := bind_eq_ok.mp returns
  cases candidate with
  | none =>
    cases returns
    cases member
  | some candidate =>
    obtain ⟨onBus, request, issuable⟩ := (choose_spec chooses).2 candidate rfl
    obtain ⟨buffer, index, -, issuable'⟩ := upgraded_issuable issuable
    dsimp only at returns
    unfold issue at returns
    rw [issuable'.found] at returns
    obtain ⟨memPhy, -, returns⟩ := bind_eq_ok.mp returns
    obtain ⟨memoryImage, -, returns⟩ := bind_eq_ok.mp returns
    obtain ⟨final, -, returns⟩ := bind_eq_ok.mp returns
    cases returns
    exact ⟨chosen, candidate, request, chooses, onBus, issuable.found, List.mem_singleton.mp member,
      choose_inOrder fcfs chooses issuable.found⟩

/-- In every run with in-order service every turn keeps the order of the queues. -/
theorem fcfs_in_order {spec : DramSpec} {options : ControllerOptions} {image : MemoryImage β}
    {start : Controller β} (fcfs : options.scheduler = .fcfs)
    (created : create spec options image = .ok start) (ops : List ControllerOp) :
    start.RunMeets (fun _ _ => True) TurnInOrder ops := by
  refine (configuration_kept spec options start.requestQueues.limit).runMeets
    (fun history c bus configuration _ => ?_) []
    ⟨(create_created created).spec_eq, (create_created created).options_eq, rfl⟩
    (runMeets_of_forall (fun _ _ => trivial) (fun _ _ => trivial) start ops)
  have same : c.options = options := configuration.2.1
  exact turn_inOrder (same ▸ fcfs) bus

/-- In-order service in front of a PHY with room for one read. -/
def narrowPhy : ControllerOptions where
  scheduler := .fcfs
  phy := { mode := .behavioral, readFifoDepth := 1 }

/-- A read, and while its data is on the way a second one from the same row and a third one from
the other bank. -/
def readsBehind : List ControllerOp :=
  [.enqueue (readAt twoBanks 1 0 4)] ++ List.replicate 22 .tick ++
    [.enqueue (readAt twoBanks 2 4 4), .tick, .tick, .enqueue (readAt twoBanks 3 8 4)]

theorem fcfs_in_order_readsBehind : ∃ start,
    create twoBanks narrowPhy (imageOf twoBanks) = .ok start ∧
      start.RunMeets (fun _ _ => True) TurnInOrder (readsBehind ++ [.tick]) := by
  obtain ⟨start, events, final, created, -⟩ :=
    freshRun_of_passes twoBanks narrowPhy [] (fun _ => true) (by decide +kernel)
  exact ⟨start, created, fcfs_in_order rfl created (readsBehind ++ [.tick])⟩

/-! ### Overtaking -/

/-- The next tick issues a command for a request while the oldest request of its queue, which came
before it, could not issue its own. -/
def Overtakes (c : Controller β) : Prop :=
  ∃ begun candidate chosen younger oldest issued after,
    c.beginTick = .ok begun ∧ begun.lowPowerExitUntil ≤ begun.clk ∧
      begun.upkeep.choose .unified = .ok (some candidate, chosen) ∧
      begun.upkeep.turn .unified = .ok (issued, after) ∧ issued ≠ [] ∧
      (chosen.requestQueues.queue candidate.buffer)[candidate.index]? = some younger ∧
      oldest ∈ chosen.requestQueues.queue candidate.buffer ∧
      (∀ other ∈ chosen.requestQueues.queue candidate.buffer, oldest.arrival ≤ other.arrival) ∧
      oldest.arrival < younger.arrival ∧
      chosen.canIssue oldest candidate.buffer .unified = false

def overtakesCheck (c : Controller β) : Bool :=
  match c.beginTick with
  | .error _ => false
  | .ok begun => decide (begun.lowPowerExitUntil ≤ begun.clk) &&
    match begun.upkeep.choose .unified, begun.upkeep.turn .unified with
    | .ok (some candidate, chosen), .ok (issued, _) =>
      let queue := chosen.requestQueues.queue candidate.buffer
      decide (issued ≠ []) && queue[candidate.index]?.any fun younger =>
        queue.any fun oldest => decide ((∀ other ∈ queue, oldest.arrival ≤ other.arrival) ∧
          oldest.arrival < younger.arrival ∧
          chosen.canIssue oldest candidate.buffer .unified = false)
    | _, _ => false

theorem overtakes_of_check (checked : c.overtakesCheck = true) : c.Overtakes := by
  unfold overtakesCheck at checked
  split at checked
  next => cases checked
  next begun begins =>
    obtain ⟨awake, checked⟩ := Bool.and_eq_true_iff.mp checked
    split at checked
    next candidate chosen issued after chooses turns =>
      obtain ⟨some, checked⟩ := Bool.and_eq_true_iff.mp checked
      obtain ⟨younger, found, checked⟩ := (Option.any_eq_true _ _).mp checked
      obtain ⟨oldest, member, checked⟩ := List.any_eq_true.mp checked
      obtain ⟨first, earlier, held⟩ := of_decide_eq_true checked
      exact ⟨begun, candidate, chosen, younger, oldest, issued, after, begins,
        of_decide_eq_true awake, chooses, turns, of_decide_eq_true some, found, member, first,
        earlier, held⟩
    next => cases checked

/-- A new controller, some operations after which the next tick overtakes. -/
def RunOvertakes (spec : DramSpec) (options : ControllerOptions) (ops : List ControllerOp) : Prop :=
  ∃ start events final, create spec options (imageOf spec) = .ok start ∧
    start.run ops = .ok (events, final) ∧ final.Overtakes

theorem runOvertakes_of_passes {spec : DramSpec} {options : ControllerOptions}
    {ops : List ControllerOp}
    (passed : passes (freshRun spec options ops) (fun result => result.2.overtakesCheck) = true) :
    RunOvertakes spec options ops := by
  obtain ⟨start, events, final, created, returns, checks⟩ :=
    freshRun_of_passes spec options ops (fun result => result.2.overtakesCheck) passed
  exact ⟨start, events, final, created, returns, overtakes_of_check checks⟩

/-- The two banks with activates in two parts. -/
def splitBanks : DramSpec := { twoBanks with splitActivate := true }

/-- The same with a data clock. -/
def clockedBanks : DramSpec := { splitBanks with lpddrFamily := true, lpddrWckRatio := 2 }

/-- A read, and after some ticks a read from the other bank. -/
def readsApart (spec : DramSpec) (apart later : Nat) : List ControllerOp :=
  [.enqueue (readAt spec 1 0 4)] ++ List.replicate apart .tick ++
    [.enqueue (readAt spec 2 8 4)] ++ List.replicate later .tick

/-- A younger request overtakes one that waits for room in the PHY, one that waits for its data
clock, one that its timing holds while an activate is due, and one that the exit from self
refresh precedes. -/
theorem fcfs_overtakes :
    RunOvertakes twoBanks narrowPhy readsBehind ∧
      RunOvertakes clockedBanks { scheduler := .fcfs } (readsApart clockedBanks 4 3) ∧
      RunOvertakes splitBanks { scheduler := .fcfs } (readsApart splitBanks 2 12) ∧
      RunOvertakes twoBanks { scheduler := .fcfs }
        [.enqueue (maintain 1 .srefen), .tick, .tick, .tick, .enqueue (maintain 2 .refab)] :=
  ⟨runOvertakes_of_passes (by decide +kernel), runOvertakes_of_passes (by decide +kernel),
    runOvertakes_of_passes (by decide +kernel), runOvertakes_of_passes (by decide +kernel)⟩

end Runs

end Controller

end HbmSim
