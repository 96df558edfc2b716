/-
How a request enters the controller and how it leaves it as a response, taken
apart once. The cases follow the branches of `enqueue` and of `completeOne`.
-/

import HbmSim.ControllerIssue

namespace HbmSim.Controller

variable {β : Type} {c after : Controller β} {request : Request}

/-! ### Entering -/

theorem withdrawSelfRefresh_housekeeping (c : Controller β) :
    Housekeeping c c.withdrawSelfRefresh := by
  unfold withdrawSelfRefresh
  split
  · exact Housekeeping.refl c
  · refine Housekeeping.of_subset rfl ?_
    dsimp only
    rw [put_queue_self]
    exact List.append_subset.mpr
      ⟨fun _ member => List.mem_append_left _ (List.mem_of_mem_filter member),
        fun _ member => List.mem_append_right _ (List.mem_of_mem_filter member)⟩

theorem wakeUp_housekeeping (c : Controller β) (request : Request) :
    Housekeeping c (c.wakeUp request) := by
  unfold wakeUp
  split
  · exact Housekeeping.refl c
  split
  · dsimp only
    split
    · exact Housekeeping.refl c
    · exact ⟨(scheduleMaintenance_housekeeping c _ _).core,
        (scheduleMaintenance_housekeeping c _ _).maintenance⟩
  · exact ⟨rfl, fun _ _ held => held⟩

theorem prepareAccept_housekeeping (c : Controller β) (request : Request) :
    Housekeeping c (c.prepareAccept request) := by
  unfold prepareAccept
  split
  · exact Housekeeping.refl c
  · exact (withdrawSelfRefresh_housekeeping c).trans (wakeUp_housekeeping _ request)

section Entering

variable [MemoryBackend β]

/-- The branches of an offer, from the prepared state and with the request's arrival. -/
inductive Entry (c : Controller β) (request : Request) : Bool → Controller β → Prop
  | refused : Entry c request false c
  | forwarded {after : Controller β} (isRead : request.type = .read)
      (hits : c.readHitsBufferedWrite request = true)
      (forwards : c.forwardRead request = .ok after) : Entry c request true after
  | queuedRead (isRead : request.type = .read) (misses : c.readHitsBufferedWrite request = false)
      (space : c.requestQueues.hasSpace .read = true) :
      Entry c request true { c.acceptSequence.countInjected with
        requestQueues := c.requestQueues.pushBack .read
          { request with controllerSequence := c.nextControllerSequence } }
  | coalesced (isWrite : request.type = .write) (buffered : request.address ∈ c.bufferedWriteAddrs)
      (unread :
        c.hasUnresolvedOverlappingRead (ensureWritePayload c.spec request) 0 = false) :
      Entry c request true (c.coalesceWrite (ensureWritePayload c.spec request))
  | buffered (isWrite : request.type = .write)
      (unbuffered : request.address ∉ c.bufferedWriteAddrs)
      (space : c.requestQueues.hasSpace .write = true) :
      Entry c request true (c.bufferWrite (ensureWritePayload c.spec request))
  | maintenance (isMaintenance : request.type = .maintenance)
      (space : c.requestQueues.hasSpace .priority = true) :
      Entry c request true { c.acceptSequence with
        requestQueues := c.requestQueues.pushBack .priority
          { request with controllerSequence := c.nextControllerSequence }
        stats := { c.stats with maintenanceRequests := c.stats.maintenanceRequests + 1 } }

@[simp] theorem ensureWritePayload_address (spec : DramSpec) (request : Request) :
    (ensureWritePayload spec request).address = request.address := by
  unfold ensureWritePayload
  dsimp only
  split <;> split <;> rfl

theorem enqueue_cases {accepted : Bool} (returns : c.enqueue request = .ok (accepted, after)) :
    (∃ checked, c.checkRequest request = .ok checked) ∧
      Entry (c.prepareAccept request) { request with arrival := c.clk } accepted after := by
  unfold enqueue at returns
  obtain ⟨checked, checks, returns⟩ := bind_eq_ok.mp returns
  refine ⟨⟨checked, checks⟩, ?_⟩
  have clk : (c.prepareAccept request).clk = c.clk :=
    congrArg Core.clk (prepareAccept_housekeeping c request).core
  dsimp only at returns
  rw [clk] at returns
  generalize c.prepareAccept request = prepared at returns ⊢
  split at returns
  next isRead =>
    unfold enqueueRead at returns
    split at returns
    next hits =>
      obtain ⟨forwarded, forwards, returns⟩ := bind_eq_ok.mp returns
      cases returns
      exact .forwarded isRead hits forwards
    next misses =>
      rw [Bool.not_eq_true] at misses
      split at returns
      next space =>
        cases returns
        exact .queuedRead isRead misses space
      next =>
        cases returns
        exact .refused
  next isWrite =>
    have returned : prepared.enqueueWrite { request with arrival := c.clk } = (accepted, after) :=
      Except.ok.inj returns
    unfold enqueueWrite at returned
    dsimp only at returned
    split at returned
    next buffered =>
      rw [ensureWritePayload_address] at buffered
      split at returned
      next =>
        cases returned
        exact .refused
      next unread =>
        rw [Bool.not_eq_true] at unread
        cases returned
        exact .coalesced isWrite buffered unread
    next unbuffered =>
      rw [ensureWritePayload_address] at unbuffered
      split at returned
      next space =>
        cases returned
        exact .buffered isWrite unbuffered space
      next =>
        cases returned
        exact .refused
  next isMaintenance =>
    have returned : prepared.enqueueMaintenance { request with arrival := c.clk } =
      (accepted, after) := Except.ok.inj returns
    unfold enqueueMaintenance at returned
    split at returned
    next space =>
      cases returned
      exact .maintenance isMaintenance space
    next =>
      cases returned
      exact .refused

end Entering

/-! ### Leaving -/

section Leaving

variable {finished : Request} {phyCompletion : Option MemPhyCompletion}
variable {memPhy : MemPhy} {memoryImage : MemoryImage β} {response : TransactionResponse}

theorem readiness_completes
    (ready : c.readiness request = .completes finished phyCompletion memPhy) :
    request.completion ≤ c.clk ∧ finished = { request with
      issuedCycle := finished.issuedCycle, completion := finished.completion } := by
  unfold readiness at ready
  split at ready
  · cases ready
  next due =>
    refine ⟨Nat.le_of_not_lt fun early => due (Or.inl early), ?_⟩
    split at ready
    · split at ready
      · cases ready
      · cases ready
        rfl
    · cases ready
      rfl

variable [MemoryBackend β]

/-- The response answers the request. -/
structure Answers (request : Request) (response : TransactionResponse) : Prop where
  controllerSequence : response.controllerSequence = request.controllerSequence
  requestId : response.requestId = request.id
  type : response.type = request.type
  localAddress : response.localAddress = request.address

theorem completeRead_answers
    (completes : c.completeRead request phyCompletion = .ok (response, memoryImage)) :
    Answers request response := by
  unfold completeRead at completes
  obtain ⟨⟨result, image⟩, -, completes⟩ := bind_eq_ok.mp completes
  obtain ⟨closed, -, completes⟩ := bind_eq_ok.mp completes
  cases completes
  exact ⟨rfl, rfl, rfl, rfl⟩

/-- Giving a write its bytes changes its data and nothing else. -/
theorem ensureWritePayload_eq (spec : DramSpec) (request : Request) :
    ensureWritePayload spec request = { request with
      payload := (ensureWritePayload spec request).payload
      hasPayload := (ensureWritePayload spec request).hasPayload
      byteMask := (ensureWritePayload spec request).byteMask } := by
  unfold ensureWritePayload
  dsimp only
  split <;> split <;> rfl

theorem commitWriteData_eq
    (commits : c.commitWriteData request = .ok (finished, memoryImage)) :
    finished = { ensureWritePayload c.spec request with dataCommitted := true } := by
  unfold commitWriteData at commits
  obtain ⟨image, -, commits⟩ := bind_eq_ok.mp commits
  cases commits
  rfl

theorem commitMissing_eq
    (commits : c.commitMissing request phyCompletion = .ok (finished, memoryImage)) :
    finished = { request with
      payload := finished.payload
      hasPayload := finished.hasPayload
      byteMask := finished.byteMask
      dataCommitted := finished.dataCommitted } := by
  unfold commitMissing at commits
  split at commits
  · cases commits
    rw [ensureWritePayload_eq]
  · split at commits
    · cases commits
      rfl
    · rw [commitWriteData_eq commits, ensureWritePayload_eq]

theorem completeWrite_answers
    (completes : c.completeWrite request phyCompletion = .ok (response, memoryImage)) :
    Answers request response := by
  unfold completeWrite at completes
  split at completes
  · cases completes
    exact ⟨rfl, rfl, rfl, rfl⟩
  · obtain ⟨⟨committed, image⟩, commits, completes⟩ := bind_eq_ok.mp completes
    obtain ⟨closed, -, completes⟩ := bind_eq_ok.mp completes
    cases completes
    have same := commitMissing_eq commits
    refine ⟨?_, ?_, ?_, ?_⟩ <;> rw [same] <;> rfl

/-- The branches of the completion of one pending request. -/
inductive Completion (c : Controller β) (request : Request) : Bool → Controller β → Prop
  | waits : Completion c request true c
  | read {finished : Request} {phyCompletion : Option MemPhyCompletion} {memPhy : MemPhy}
      {response : TransactionResponse} {memoryImage : MemoryImage β}
      (isRead : request.type = .read)
      (ready : c.readiness request = .completes finished phyCompletion memPhy)
      (completes : c.completeRead finished phyCompletion = .ok (response, memoryImage)) :
      Completion c request false
        (({ c with memPhy, memoryImage }.countCompleted .read).keepResponse response)
  | write {finished : Request} {phyCompletion : Option MemPhyCompletion} {memPhy : MemPhy}
      {response : TransactionResponse} {memoryImage : MemoryImage β}
      (isWrite : request.type = .write)
      (ready : c.readiness request = .completes finished phyCompletion memPhy)
      (completes : c.completeWrite finished phyCompletion = .ok (response, memoryImage)) :
      Completion c request false
        (({ c with memPhy, memoryImage }.countCompleted .write).keepResponse response)
  | maintenance {finished : Request} {phyCompletion : Option MemPhyCompletion} {memPhy : MemPhy}
      (isMaintenance : request.type = .maintenance)
      (ready : c.readiness request = .completes finished phyCompletion memPhy) :
      Completion c request false { c with memPhy }

theorem completeOne_cases {stays : Bool} (returns : c.completeOne request = .ok (stays, after)) :
    Completion c request stays after := by
  unfold completeOne at returns
  split at returns
  · cases returns
    exact .waits
  next finished phyCompletion memPhy ready =>
    have type : finished.type = request.type := by
      rw [(readiness_completes ready).2]
    split at returns
    next isRead =>
      obtain ⟨⟨response, memoryImage⟩, completes, returns⟩ := bind_eq_ok.mp returns
      cases returns
      exact .read (type ▸ isRead) ready completes
    next isWrite =>
      obtain ⟨⟨response, memoryImage⟩, completes, returns⟩ := bind_eq_ok.mp returns
      cases returns
      exact .write (type ▸ isWrite) ready completes
    next isMaintenance =>
      cases returns
      exact .maintenance (type ▸ isMaintenance) ready

/-- What the completion of a request may write. -/
theorem completeOne_eq {stays : Bool} (returns : c.completeOne request = .ok (stays, after)) :
    after = { c with
      memPhy := after.memPhy
      memoryImage := after.memoryImage
      responses := after.responses
      stats := { c.stats with
        completedReads := after.stats.completedReads
        completedWrites := after.stats.completedWrites } } := by
  cases completeOne_cases returns with
  | waits => rfl
  | read =>
    unfold countCompleted keepResponse
    dsimp only
    split <;> rfl
  | write =>
    unfold countCompleted keepResponse
    dsimp only
    split <;> rfl
  | maintenance => rfl

theorem completeEach_eq {requests left : List Request}
    (returns : completeEach requests c = .ok (left, after)) :
    left.Sublist requests ∧ after = { c with
      memPhy := after.memPhy
      memoryImage := after.memoryImage
      responses := after.responses
      stats := { c.stats with
        completedReads := after.stats.completedReads
        completedWrites := after.stats.completedWrites } } := by
  induction requests generalizing c left with
  | nil =>
    cases returns
    exact ⟨List.Sublist.refl _, rfl⟩
  | cons request rest inductionHypothesis =>
    obtain ⟨⟨stays, middle⟩, one, returns⟩ := bind_eq_ok.mp returns
    obtain ⟨⟨later, final⟩, others, returns⟩ := bind_eq_ok.mp returns
    cases returns
    obtain ⟨sublist, frame⟩ := inductionHypothesis others
    refine ⟨?_, ?_⟩
    · split
      · exact sublist.cons_cons request
      · exact sublist.cons request
    · rw [frame, completeOne_eq one]

/-- What the start of a tick may write: the pending requests, and what completing them writes. -/
theorem beginTick_eq {begun : Controller β} (returns : c.beginTick = .ok begun) :
    begun.pending.Sublist c.pending ∧ begun = { c with
      clk := c.clk + 1
      pending := begun.pending
      memPhy := begun.memPhy
      memoryImage := begun.memoryImage
      responses := begun.responses
      stats := { c.stats with
        completedReads := begun.stats.completedReads
        completedWrites := begun.stats.completedWrites } } := by
  unfold beginTick completePending at returns
  obtain ⟨⟨memPhy, memoryImage⟩, -, returns⟩ := bind_eq_ok.mp returns
  obtain ⟨⟨left, completed⟩, each, returns⟩ := bind_eq_ok.mp returns
  cases returns
  obtain ⟨sublist, frame⟩ := completeEach_eq each
  refine ⟨sublist, ?_⟩
  rw [frame]

/-! ### What a whole run keeps -/

/-- No operation changes the spec, the options or the room in the queues. -/
theorem configuration_kept (spec : DramSpec) (options : ControllerOptions)
    (limit : RequestQueueKind → Nat) :
    Kept (fun _ _ => True) (fun _ _ => True)
      (fun _ (c : Controller β) =>
        c.spec = spec ∧ c.options = options ∧ c.requestQueues.limit = limit) where
  enqueue history c request accepted after holds _ returns := by
    obtain ⟨-, entry⟩ := enqueue_cases returns
    have prepared := prepareAccept_housekeeping c request
    rw [← prepared.spec, ← prepared.options, ← prepared.limit] at holds
    cases entry with
    | forwarded isRead hits forwards =>
      unfold forwardRead at forwards
      obtain ⟨⟨payload, byteMask, image⟩, -, forwards⟩ := bind_eq_ok.mp forwards
      cases forwards
      exact holds
    | _ => exact holds
  beginTick history c begun holds returns := by
    rw [(beginTick_eq returns).2]
    exact holds
  upkeep history c holds _ := by
    rw [(upkeep_housekeeping c).spec, (upkeep_housekeeping c).options,
      (upkeep_housekeeping c).limit]
    exact holds
  turn history c bus issued after holds _ returns := by
    have frame := (turn_cases returns).turnFrame
    rw [frame.spec, frame.options, frame.limit]
    exact holds
  idleLowPower history c holds := by
    rw [(idleLowPower_housekeeping c).spec, (idleLowPower_housekeeping c).options,
      (idleLowPower_housekeeping c).limit]
    exact holds
  popResponse history c response after holds returns := by
    unfold popResponse at returns
    split at returns
    · cases returns
    · cases returns
      exact holds
  flushStorage history c after holds returns := by
    obtain ⟨image, -, returned⟩ := bind_eq_ok.mp returns
    cases returned
    exact holds

theorem run_configuration {spec : DramSpec} {options : ControllerOptions}
    {image : MemoryImage β} {start final : Controller β} {ops : List ControllerOp}
    {events : List ControllerEvent} (created : Created spec options image start)
    (returns : start.run ops = .ok (events, final)) :
    final.spec = spec ∧ final.options = options ∧
      final.requestQueues.limit = start.requestQueues.limit :=
  (configuration_kept spec options _).run ⟨created.spec_eq, created.options_eq, rfl⟩
    (runMeets_of_forall (fun _ _ => trivial) (fun _ _ => trivial) start ops) returns

end Leaving

end HbmSim.Controller
