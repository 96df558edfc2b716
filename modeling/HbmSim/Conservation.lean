/-
Every accepted read or write is answered at most once, and exactly once by the
time the controller is done. The counters agree with the queues on the way.

A history accounts for its requests: the ones accepted are, up to order, the
ones on their way and the ones answered.
-/

import HbmSim.Traffic

namespace HbmSim

/-! ### What a history accepted and answered -/

/-- The reads and writes a history accepted. -/
def acceptedTraffic (events : List ControllerEvent) : List Identity :=
  events.filterMap fun
    | .accepted controllerSequence request =>
      if request.type = .maintenance then none
      else some ({ request with controllerSequence }).identity
    | _ => none

/-- The responses a history handed out. -/
def respondedOf (events : List ControllerEvent) : List TransactionResponse :=
  events.filterMap fun
    | .responded response => some response
    | _ => none

theorem acceptedTraffic_issued (history : List ControllerEvent) (issued : List IssuedCommand) :
    acceptedTraffic (history ++ issued.map .issued) = acceptedTraffic history := by
  unfold acceptedTraffic
  rw [List.filterMap_append, List.filterMap_map]
  simp

theorem respondedOf_issued (history : List ControllerEvent) (issued : List IssuedCommand) :
    respondedOf (history ++ issued.map .issued) = respondedOf history := by
  unfold respondedOf
  rw [List.filterMap_append, List.filterMap_map]
  simp

namespace Controller

variable {β : Type} {c before after : Controller β} {history : List ControllerEvent}
variable {request : Request}

/-- The account of a history. Without retained responses there is nothing to answer with. -/
structure Conserved (history : List ControllerEvent) (c : Controller β) : Prop where
  kinds : QueueKinds c
  fresh : ∀ identity ∈ acceptedTraffic history,
    identity.controllerSequence < c.nextControllerSequence
  distinct : ((acceptedTraffic history).map Identity.controllerSequence).Nodup
  balance : c.stats.injectedRequests =
    c.stats.completedReads + c.stats.completedWrites + c.traffic.length
  account : c.options.retainResponses = true →
    (c.traffic.map Request.identity ++
      (respondedOf history ++ c.responses).map TransactionResponse.identity).Perm
      (acceptedTraffic history)
  silent : c.options.retainResponses = false → respondedOf history = [] ∧ c.responses = []

/-! ### Turns and housekeeping -/

theorem tickets_identity (c : Controller β) :
    c.tickets.map Ticket.identity = c.traffic.map Request.identity := by
  unfold tickets
  rw [List.map_map]
  rfl

/-- A step that moves the traffic around and touches no counter keeps the account. -/
theorem Conserved.moves (conserved : Conserved history c) (frame : TurnFrame c after)
    (kinds : QueueKinds after) (perm : after.tickets.Perm c.tickets) :
    Conserved history after where
  kinds := kinds
  fresh := frame.nextControllerSequence ▸ conserved.fresh
  distinct := conserved.distinct
  balance := by
    have length := perm.length_eq
    unfold tickets at length
    rw [List.length_map, List.length_map] at length
    rw [frame.injectedRequests, frame.completedReads, frame.completedWrites, length]
    exact conserved.balance
  account retains := by
    have moved := perm.map Ticket.identity
    rw [tickets_identity, tickets_identity] at moved
    rw [frame.responses]
    exact (moved.append_right _).trans (conserved.account (frame.options ▸ retains))
  silent drops := frame.responses ▸ conserved.silent (frame.options ▸ drops)

theorem Conserved.housekeeping (keeps : Housekeeping before after)
    (conserved : Conserved history before) : Conserved history after :=
  conserved.moves keeps.turnFrame (keeps.kinds conserved.kinds) (.of_eq keeps.tickets)

/-! ### Acceptance -/

/-- A new read or write enters the account with the sequence it is given. -/
theorem Conserved.accept (conserved : Conserved history c) {entered : Request}
    (ordinary : request.type ≠ .maintenance) (enters : Entered c request entered after) :
    Conserved (history ++ [.accepted c.nextControllerSequence request]) after := by
  have traffic := enters.traffic
  have accepted : acceptedTraffic (history ++ [.accepted c.nextControllerSequence request]) =
      acceptedTraffic history ++ [entered.identity] := by
    unfold acceptedTraffic
    rw [List.filterMap_append, enters.identity]
    simp [ordinary]
  have responded : respondedOf (history ++ [.accepted c.nextControllerSequence request]) =
      respondedOf history := by
    unfold respondedOf
    rw [List.filterMap_append]
    exact List.append_nil _
  have given : entered.identity.controllerSequence = c.nextControllerSequence := by
    rw [enters.identity]
    rfl
  refine ⟨enters.kinds ordinary conserved.kinds, ?_, ?_, ?_, ?_, ?_⟩
  · intro other member
    rw [accepted] at member
    rw [enters.nextControllerSequence]
    rcases List.mem_append.mp member with old | new
    · exact Nat.lt_succ_of_lt (conserved.fresh other old)
    · rw [List.mem_singleton.mp new, given]
      exact Nat.lt_succ_self _
  · rw [accepted, List.map_append, List.nodup_append]
    refine ⟨conserved.distinct, List.nodup_singleton _, ?_⟩
    intro old member new isNew same
    rw [List.map_singleton, List.mem_singleton, given] at isNew
    obtain ⟨other, accepts, rfl⟩ := List.mem_map.mp member
    exact absurd (same.trans isNew) (Nat.ne_of_lt (conserved.fresh other accepts))
  · have length := traffic.length_eq
    rw [List.length_cons] at length
    rw [enters.injectedRequests, enters.completedReads, enters.completedWrites, length,
      conserved.balance]
    rfl
  · intro retains
    rw [accepted, responded, enters.responses]
    have moved := (traffic.map Request.identity).append_right
      ((respondedOf history ++ c.responses).map TransactionResponse.identity)
    rw [List.map_cons, List.cons_append] at moved
    refine moved.trans ((List.perm_append_singleton _ _).symm.trans ?_)
    exact (conserved.account (enters.options ▸ retains)).append_right _
  · intro drops
    rw [responded, enters.responses]
    exact conserved.silent (enters.options ▸ drops)

/-- Accepted maintenance is not part of the account. -/
theorem Conserved.acceptMaintenance (conserved : Conserved history c) {queued : Request}
    (isMaintenance : request.type = .maintenance) (type : queued.type = .maintenance) :
    Conserved (history ++ [.accepted c.nextControllerSequence request])
      { c.acceptSequence with
        requestQueues := c.requestQueues.pushBack .priority queued
        stats := { c.stats with maintenanceRequests := c.stats.maintenanceRequests + 1 } } := by
  have accepted : acceptedTraffic (history ++ [.accepted c.nextControllerSequence request]) =
      acceptedTraffic history := by
    unfold acceptedTraffic
    rw [List.filterMap_append]
    simp [isMaintenance]
  have responded : respondedOf (history ++ [.accepted c.nextControllerSequence request]) =
      respondedOf history := by
    unfold respondedOf
    rw [List.filterMap_append]
    exact List.append_nil _
  refine ⟨⟨conserved.kinds.read, conserved.kinds.write, conserved.kinds.active,
    conserved.kinds.pending, fun other member => ?_⟩, fun identity member => ?_, ?_,
    conserved.balance, fun retains => ?_, fun drops => ?_⟩
  · dsimp only [RequestQueues.pushBack] at member
    rw [put_queue_self] at member
    rcases List.mem_append.mp member with priority | waiting
    · rcases List.mem_append.mp priority with old | new
      · exact conserved.kinds.maintenance other (List.mem_append_left _ old)
      · rw [List.mem_singleton.mp new, type]
    · exact conserved.kinds.maintenance other (List.mem_append_right _ waiting)
  · rw [accepted] at member
    exact Nat.lt_succ_of_lt (conserved.fresh identity member)
  · rw [accepted]
    exact conserved.distinct
  · rw [accepted, responded]
    exact conserved.account retains
  · rw [responded]
    exact conserved.silent drops

theorem Conserved.popResponse {response : TransactionResponse} (conserved : Conserved history c)
    (returns : c.popResponse = .ok (response, after)) :
    Conserved (history ++ [.responded response]) after := by
  unfold Controller.popResponse at returns
  have accepted : acceptedTraffic (history ++ [.responded response]) = acceptedTraffic history := by
    unfold acceptedTraffic
    rw [List.filterMap_append]
    exact List.append_nil _
  have responded : respondedOf (history ++ [.responded response]) =
      respondedOf history ++ [response] := by
    unfold respondedOf
    rw [List.filterMap_append]
    rfl
  split at returns
  · cases returns
  next first rest responses =>
    cases returns
    refine ⟨⟨conserved.kinds.read, conserved.kinds.write, conserved.kinds.active,
      conserved.kinds.pending, conserved.kinds.maintenance⟩, ?_, ?_, conserved.balance, ?_, ?_⟩
    · rw [accepted]
      exact conserved.fresh
    · rw [accepted]
      exact conserved.distinct
    · intro retains
      rw [accepted, responded, List.append_assoc, List.singleton_append, ← responses]
      exact conserved.account retains
    · intro drops
      exact absurd (responses.symm.trans (conserved.silent drops).2) (List.cons_ne_nil _ _)

section Steps

variable [MemoryBackend β] {accepted : Bool}

theorem Conserved.enqueue (conserved : Conserved history c)
    (returns : c.enqueue request = .ok (accepted, after)) :
    Conserved (history ++ c.acceptance accepted request) after := by
  have prepared := prepareAccept_housekeeping c request
  have ready := conserved.housekeeping prepared
  unfold acceptance
  rw [← prepared.nextControllerSequence]
  cases enqueue_outcome returns with
  | refused =>
    rw [if_neg Bool.false_ne_true, List.append_nil]
    exact ready
  | entered ordinary enters =>
    exact ready.accept ordinary ⟨enters.identity, enters.place, enters.pendingMaintenance,
      enters.spec, enters.options, enters.responses, enters.injectedRequests,
      enters.completedReads, enters.completedWrites, enters.nextControllerSequence⟩
  | maintenance isMaintenance => exact ready.acceptMaintenance isMaintenance isMaintenance

/-! ### Completion -/

/-- A request that completes is counted once and answered once. -/
theorem Completion.answers {stays : Bool} (ordinary : request.type ≠ .maintenance)
    (completion : Completion c request stays after) :
    (stays = true ∧ after = c) ∨ (stays = false ∧ ∃ response : TransactionResponse,
      response.identity = request.identity ∧
      after.responses = c.responses ++ (if c.options.retainResponses then [response] else []) ∧
      after.stats.completedReads + after.stats.completedWrites =
        c.stats.completedReads + c.stats.completedWrites + 1) := by
  cases completion with
  | waits => exact Or.inl ⟨rfl, rfl⟩
  | @read finished phyCompletion memPhy response memoryImage isRead ready completes =>
    refine Or.inr ⟨rfl, response, ?_, ?_, ?_⟩
    · rw [completeRead_identity completes, (readiness_completes ready).2]
      rfl
    · unfold keepResponse countCompleted
      dsimp only
      split
      · rfl
      · rw [List.append_nil]
    · unfold keepResponse countCompleted
      dsimp only
      split <;> exact Nat.add_right_comm _ _ _
  | @write finished phyCompletion memPhy response memoryImage isWrite ready completes =>
    refine Or.inr ⟨rfl, response, ?_, ?_, ?_⟩
    · rw [completeWrite_identity completes, (readiness_completes ready).2]
      rfl
    · unfold keepResponse countCompleted
      dsimp only
      split
      · rfl
      · rw [List.append_nil]
    · unfold keepResponse countCompleted
      dsimp only
      split <;> rfl
  | maintenance isMaintenance => exact absurd isMaintenance ordinary

theorem completeEach_answers {requests left : List Request}
    (ordinary : ∀ request ∈ requests, request.type ≠ .maintenance)
    (returns : completeEach requests c = .ok (left, after)) :
    ∃ answered : List TransactionResponse,
      (left.map Request.identity ++ answered.map TransactionResponse.identity).Perm
        (requests.map Request.identity) ∧
      after.responses = c.responses ++ (if c.options.retainResponses then answered else []) ∧
      after.stats.completedReads + after.stats.completedWrites =
        c.stats.completedReads + c.stats.completedWrites + answered.length := by
  induction requests generalizing c left with
  | nil =>
    cases returns
    exact ⟨[], List.Perm.refl _, by rw [ite_self, List.append_nil], rfl⟩
  | cons request rest inductionHypothesis =>
    obtain ⟨⟨stays, middle⟩, one, returns⟩ := bind_eq_ok.mp returns
    obtain ⟨⟨later, final⟩, others, returns⟩ := bind_eq_ok.mp returns
    cases returns
    have options : middle.options = c.options := by rw [completeOne_eq one]
    obtain ⟨answered, perm, responses, counts⟩ := inductionHypothesis
      (fun other member => ordinary other (List.mem_cons_of_mem _ member)) others
    rcases (completeOne_cases one).answers (ordinary request List.mem_cons_self) with
      ⟨rfl, rfl⟩ | ⟨rfl, response, identity, kept, count⟩
    · exact ⟨answered, perm.cons _, responses, counts⟩
    · refine ⟨response :: answered, ?_, ?_, ?_⟩
      · rw [if_neg Bool.false_ne_true, List.map_cons, List.map_cons, identity]
        exact List.perm_middle.trans (perm.cons _)
      · rw [responses, kept, options]
        split
        · rw [List.append_assoc, List.singleton_append]
        · rw [List.append_nil]
      · rw [counts, count, List.length_cons]
        omega

theorem Conserved.beginTick (conserved : Conserved history c)
    (returns : c.beginTick = .ok after) : Conserved history after := by
  unfold Controller.beginTick completePending at returns
  obtain ⟨⟨memPhy, memoryImage⟩, -, returns⟩ := bind_eq_ok.mp returns
  obtain ⟨⟨left, completed⟩, each, returns⟩ := bind_eq_ok.mp returns
  cases returns
  obtain ⟨sublist, frame⟩ := completeEach_eq each
  obtain ⟨answered, perm, responses, counts⟩ :=
    completeEach_answers conserved.kinds.pending each
  have queues : completed.requestQueues = c.requestQueues := by rw [frame]
  have waiting : completed.pendingMaintenance = c.pendingMaintenance := by rw [frame]
  have options : completed.options = c.options := by rw [frame]
  have injected : completed.stats.injectedRequests = c.stats.injectedRequests := by
    rw [frame]
  have sequence : completed.nextControllerSequence = c.nextControllerSequence := by
    rw [frame]
  refine ⟨?_, ?_, conserved.distinct, ?_, ?_, ?_⟩
  · exact conserved.kinds.of_pending queues sublist waiting
  · exact sequence ▸ conserved.fresh
  · have length := perm.length_eq
    have balance := conserved.balance
    simp only [traffic, List.length_append, List.length_map, queues, injected] at *
    omega
  · intro retains
    dsimp only at retains
    rw [options] at retains
    unfold traffic
    dsimp only
    rw [queues, responses, if_pos retains]
    have account := conserved.account retains
    unfold traffic at account
    rw [List.perm_iff_count] at perm account ⊢
    intro other
    have permuted := perm other
    have accounted := account other
    simp only [List.map_append, List.count_append] at *
    omega
  · intro drops
    dsimp only at drops
    rw [options] at drops
    dsimp only
    rw [responses, if_neg (by rw [drops]; exact Bool.false_ne_true), List.append_nil]
    exact conserved.silent drops

theorem conserved_kept :
    Kept (fun _ _ => True) (fun _ _ => True) (Conserved (β := β)) where
  enqueue _ _ _ _ _ conserved _ returns := conserved.enqueue returns
  beginTick _ _ _ conserved returns := conserved.beginTick returns
  upkeep _ c conserved _ := conserved.housekeeping (upkeep_housekeeping c)
  turn history c bus issued after conserved _ returns := by
    have turn := turn_cases returns
    obtain ⟨kinds, perm⟩ := turn.traffic conserved.kinds
    have moved := conserved.moves turn.turnFrame kinds perm
    refine ⟨moved.kinds, ?_, ?_, moved.balance, ?_, ?_⟩
    · rw [acceptedTraffic_issued]
      exact moved.fresh
    · rw [acceptedTraffic_issued]
      exact moved.distinct
    · rw [acceptedTraffic_issued, respondedOf_issued]
      exact moved.account
    · rw [respondedOf_issued]
      exact moved.silent
  idleLowPower _ c conserved := conserved.housekeeping (idleLowPower_housekeeping c)
  popResponse _ _ _ _ conserved returns := conserved.popResponse returns
  flushStorage _ _ _ conserved returns := by
    obtain ⟨image, -, returned⟩ := bind_eq_ok.mp returns
    cases returned
    exact ⟨⟨conserved.kinds.read, conserved.kinds.write, conserved.kinds.active,
      conserved.kinds.pending, conserved.kinds.maintenance⟩, conserved.fresh, conserved.distinct,
      conserved.balance, conserved.account, conserved.silent⟩

omit [MemoryBackend β] in
theorem Created.conserved {spec : DramSpec} {options : ControllerOptions} {image : MemoryImage β}
    {start : Controller β} (created : Created spec options image start) : Conserved [] start := by
  have empty := created.queues
  have traffic : start.traffic = [] := by
    unfold Controller.traffic
    rw [empty, empty, empty, created.pending_eq]
    rfl
  have absent : ∀ {meets : Request → Prop}, ∀ request ∈ ([] : List Request), meets request :=
    fun _ member => absurd member List.not_mem_nil
  refine ⟨⟨?_, ?_, ?_, ?_, ?_⟩, fun _ member => absurd member List.not_mem_nil, List.nodup_nil,
    ?_, fun _ => ?_, fun _ => ?_⟩
  · rw [empty]
    exact absent
  · rw [empty]
    exact absent
  · rw [empty]
    exact absent
  · rw [created.pending_eq]
    exact absent
  · unfold MaintenanceMeets
    rw [empty, created.pendingMaintenance_eq]
    exact absent
  · rw [traffic, created.stats_eq]
    rfl
  · rw [traffic, created.responses_eq]
    exact List.Perm.refl _
  · exact ⟨rfl, created.responses_eq⟩

/-! ### Every request is answered once -/

/-- The reads and writes of a list. -/
def ordinaryOf (requests : List Request) : List Request :=
  requests.filter fun request => decide (request.type ≠ .maintenance)

/-- The responses to the request with a sequence, handed out or still queued. -/
def answersTo (c : Controller β) (events : List ControllerEvent) (sequence : Nat) :
    List TransactionResponse :=
  (respondedOf events ++ c.responses).filter fun response =>
    decide (response.controllerSequence = sequence)

omit [MemoryBackend β] in
theorem ordinaryOf_length (conserved : Conserved history c) :
    c.traffic.length = (ordinaryOf (c.requestQueues.queue .active ++
      c.requestQueues.queue .priority ++ c.requestQueues.queue .read ++
      c.requestQueues.queue .write)).length + (ordinaryOf c.pending).length := by
  have kinds := conserved.kinds
  have all : ∀ requests : List Request, (∀ request ∈ requests, request.type ≠ .maintenance) →
      ordinaryOf requests = requests :=
    fun requests ordinary => List.filter_eq_self.mpr fun request member =>
      decide_eq_true (ordinary request member)
  have none : ordinaryOf (c.requestQueues.queue .priority) = [] :=
    List.filter_eq_nil_iff.mpr fun request member passes =>
      of_decide_eq_true passes (kinds.maintenance request (List.mem_append_left _ member))
  have split : ordinaryOf (c.requestQueues.queue .active ++ c.requestQueues.queue .priority ++
      c.requestQueues.queue .read ++ c.requestQueues.queue .write) =
      c.requestQueues.queue .active ++ c.requestQueues.queue .read ++
        c.requestQueues.queue .write := by
    unfold ordinaryOf at *
    rw [List.filter_append, List.filter_append, List.filter_append, none,
      all _ kinds.active, all _ fun request member => kinds.read request member ▸ nofun,
      all _ fun request member => kinds.write request member ▸ nofun, List.append_nil]
  rw [split, all _ kinds.pending]
  unfold traffic
  simp only [List.length_append]
  omega

omit [MemoryBackend β] in
/-- An accepted request is on its way or answered, and not twice. -/
theorem Conserved.answered (conserved : Conserved history c) {sequence : Nat}
    (member : .accepted sequence request ∈ history) (ordinary : request.type ≠ .maintenance) :
    (c.answersTo history sequence).length ≤ 1 ∧
      (c.options.retainResponses = true → c.done = true → ∃ response,
        c.answersTo history sequence = [response] ∧
          Answers { request with controllerSequence := sequence } response) := by
  have isAccepted : ({ request with controllerSequence := sequence }).identity ∈
      acceptedTraffic history :=
    List.mem_filterMap.mpr ⟨_, member, if_neg ordinary⟩
  cases retains : c.options.retainResponses with
  | false =>
    obtain ⟨handedOut, queued⟩ := conserved.silent retains
    have none : c.answersTo history sequence = [] := by
      unfold answersTo
      rw [handedOut, queued]
      rfl
    rw [none]
    exact ⟨Nat.zero_le _, nofun⟩
  | true =>
    have account := conserved.account retains
    -- A sequence answered twice would have been accepted twice.
    have distinct : ((respondedOf history ++ c.responses).map
        TransactionResponse.controllerSequence).Nodup := by
      have all := (account.map Identity.controllerSequence).nodup_iff.mpr conserved.distinct
      rw [List.map_append, List.map_map, List.map_map] at all
      exact (List.nodup_append.mp all).2.1
    have atMostOne : (c.answersTo history sequence).length ≤ 1 := by
      have once := List.nodup_iff_count_le_one.mp distinct sequence
      unfold answersTo
      rwa [List.count_eq_countP, List.countP_map, List.countP_eq_length_filter] at once
    refine ⟨atMostOne, fun _ done => ?_⟩
    have traffic : c.traffic = [] := by
      unfold Controller.done at done
      simp only [Bool.and_eq_true, decide_eq_true_eq] at done
      obtain ⟨⟨active, -, read, write, -, pending⟩, -⟩ := done
      unfold Controller.traffic
      rw [active, read, write, pending]
      rfl
    rw [traffic] at account
    obtain ⟨response, answered, identity⟩ := List.mem_map.mp (account.mem_iff.mpr isAccepted)
    have answers : Answers { request with controllerSequence := sequence } response :=
      ⟨congrArg Identity.controllerSequence identity, congrArg Identity.id identity,
        congrArg Identity.type identity, congrArg Identity.address identity⟩
    have listed : response ∈ c.answersTo history sequence :=
      List.mem_filter.mpr ⟨answered, decide_eq_true answers.controllerSequence⟩
    refine ⟨response, ?_, answers⟩
    obtain ⟨only, is⟩ := List.length_eq_one_iff.mp
      (Nat.le_antisymm atMostOne (List.length_pos_of_mem listed))
    rw [is] at listed ⊢
    rw [List.mem_singleton.mp listed]

/-- At every turn of a run the queues hold requests of their own kinds. -/
theorem runMeets_kinds {spec : DramSpec} {options : ControllerOptions} {image : MemoryImage β}
    {start : Controller β} {ops : List ControllerOp} {requests : Controller β → Request → Prop}
    {turns : Controller β → BusClass → Prop} (created : create spec options image = .ok start)
    (meets : start.RunMeets requests turns ops) :
    start.RunMeets requests (fun c bus => turns c bus ∧ QueueKinds c) ops :=
  (conserved_kept.mono (fun _ _ _ => trivial) fun _ _ _ => trivial).runMeets
    (fun _ _ _ conserved met => ⟨met, conserved.kinds⟩) [] (create_created created).conserved meets

/-- Conservation of requests: the counters balance in every state a run reaches, and every accepted
read or write gets at most one response, and exactly one by the time the controller is done. -/
theorem requests_conserved {spec : DramSpec} {options : ControllerOptions}
    {image : MemoryImage β} {start final : Controller β} {ops : List ControllerOp}
    {events : List ControllerEvent} (created : create spec options image = .ok start)
    (returns : start.run ops = .ok (events, final)) :
    final.stats.injectedRequests = final.stats.completedReads + final.stats.completedWrites +
        (ordinaryOf (final.requestQueues.queue .active ++ final.requestQueues.queue .priority ++
          final.requestQueues.queue .read ++ final.requestQueues.queue .write)).length +
        (ordinaryOf final.pending).length ∧
      ∀ sequence request, .accepted sequence request ∈ events → request.type ≠ .maintenance →
        (final.answersTo events sequence).length ≤ 1 ∧
          (options.retainResponses = true → final.done = true → ∃ response,
            final.answersTo events sequence = [response] ∧
              Answers { request with controllerSequence := sequence } response) := by
  have conserved : Conserved events final :=
    conserved_kept.run (create_created created).conserved
      (runMeets_of_forall (fun _ _ => trivial) (fun _ _ => trivial) start ops) returns
  refine ⟨?_, fun sequence request member ordinary => ?_⟩
  · rw [conserved.balance, ordinaryOf_length conserved]
    exact (Nat.add_assoc _ _ _).symm
  · rw [← (run_configuration (create_created created) returns).2.1]
    exact conserved.answered member ordinary

/-- A write, one merged into it, a read answered from the buffer and one from the image. -/
def fourRequests : List ControllerOp :=
  [.enqueue (writeAt twoBanks 7 0 [1, 2, 3, 4]), .enqueue (writeAt twoBanks 8 0 [5, 6, 7, 8]),
    .enqueue (readAt twoBanks 9 0 4), .enqueue (readAt twoBanks 10 4 4)] ++
    List.replicate 60 .tick

theorem requests_conserved_four : ∃ start events final,
    create twoBanks {} (imageOf twoBanks) = .ok start ∧
      start.run fourRequests = .ok (events, final) ∧ final.stats.injectedRequests = 4 ∧
      ∃ response, final.answersTo events 3 = [response] ∧ response.requestId = 9 := by
  obtain ⟨start, events, final, created, returns, checks⟩ :=
    freshRun_of_passes twoBanks {} fourRequests
      (fun result => result.2.done && decide (result.2.stats.injectedRequests = 4) &&
        decide (.accepted 3 (readAt twoBanks 9 0 4) ∈ result.1)) (by decide +kernel)
  simp only [Bool.and_eq_true, decide_eq_true_eq] at checks
  obtain ⟨⟨done, injected⟩, member⟩ := checks
  obtain ⟨-, answered⟩ := requests_conserved created returns
  obtain ⟨response, is, answers⟩ := (answered 3 _ member nofun).2 rfl done
  exact ⟨start, events, final, created, returns, injected, response, is, answers.requestId⟩

end Steps

end Controller

end HbmSim
