/-
The reads and writes inside the controller. Every part of a tick moves them
between the queues and the pending list, or completes them; none is dropped,
copied or changed in what identifies it.

The maintenance queues hold maintenance only and the other queues none, so the
reads and writes are those of three queues and the pending list.
-/

import HbmSim.ControllerEntry

namespace HbmSim

/-! ### What identifies a request -/

/-- What a request keeps from its acceptance to its response. A part of a split request names its
place in the split; a response says by its status whether there is such a place. -/
structure Identity where
  controllerSequence : Nat
  id : Nat
  type : RequestType
  address : Nat
  hostRequestId : Nat
  transactionIndex : Nat
  transactionCount : Nat
  placed : Bool
  deriving DecidableEq

/-- The identity, with the extent of a read. A write may still grow by merging. -/
structure Ticket where
  identity : Identity
  readSize : Nat
  deriving DecidableEq

def Request.identity (request : Request) : Identity where
  controllerSequence := request.controllerSequence
  id := request.id
  type := request.type
  address := request.address
  hostRequestId := request.hostRequestId
  transactionIndex := request.transactionIndex
  transactionCount := max 1 request.transactionCount
  placed := decide (request.transactionCount ≠ 0 ∧
    request.transactionIndex < request.transactionCount)

def TransactionResponse.identity (response : TransactionResponse) : Identity where
  controllerSequence := response.controllerSequence
  id := response.requestId
  type := response.type
  address := response.localAddress
  hostRequestId := response.hostRequestId
  transactionIndex := response.transactionIndex
  transactionCount := response.transactionCount
  placed := decide (response.status ≠ .invalidTransaction)

def Request.ticket (spec : DramSpec) (request : Request) : Ticket where
  identity := request.identity
  readSize := if request.type = .read then requestDataSize spec request else 0

namespace Controller

variable {β : Type} {c before after chosen : Controller β} {request : Request}
variable {candidate : Candidate} {bus : BusClass} {issued : List IssuedCommand}

section Responses

variable {finished : Request} {phyCompletion : Option MemPhyCompletion}
variable {memoryImage : MemoryImage β} {response : TransactionResponse}

theorem makeResponse_identity {data initializedMask : ByteVector}
    {initialized forwarded coalesced : Bool} {status : ResponseStatus}
    (valid : status ≠ .invalidTransaction) :
    (c.makeResponse request data initializedMask initialized forwarded coalesced status).identity =
      request.identity := by
  have placed : decide ((if request.transactionCount = 0 ∨
        max 1 request.transactionCount ≤ request.transactionIndex then
        ResponseStatus.invalidTransaction else status) ≠ .invalidTransaction) =
      decide (request.transactionCount ≠ 0 ∧
        request.transactionIndex < request.transactionCount) := by
    refine decide_eq_decide.mpr ?_
    split
    · simp only [ne_eq, not_true_eq_false, false_iff]
      omega
    · simp only [ne_eq, valid, not_false_eq_true, true_iff]
      omega
  unfold TransactionResponse.identity Request.identity makeResponse
  dsimp only
  rw [placed]

theorem mergeResponseStatus_valid {left right : ResponseStatus}
    (leftValid : left ≠ .invalidTransaction) (rightValid : right ≠ .invalidTransaction) :
    mergeResponseStatus left right ≠ .invalidTransaction := by
  unfold mergeResponseStatus
  split
  · exact leftValid
  · exact rightValid

theorem checkReadData_valid (request : Request) (actual : ByteVector) (initialized : Bool) :
    checkReadData request actual initialized ≠ .invalidTransaction := by
  unfold checkReadData
  split
  · nofun
  · split <;> nofun

variable [MemoryBackend β]

theorem completeRead_identity
    (completes : c.completeRead request phyCompletion = .ok (response, memoryImage)) :
    response.identity = request.identity := by
  unfold completeRead at completes
  obtain ⟨⟨result, image⟩, -, completes⟩ := bind_eq_ok.mp completes
  obtain ⟨closed, -, completes⟩ := bind_eq_ok.mp completes
  cases completes
  have checked := checkReadData_valid request result.data result.initialized
  have corrected : (if result.eccCorrected = true then mergeResponseStatus
      (checkReadData request result.data result.initialized) .eccCorrected
      else checkReadData request result.data result.initialized) ≠ .invalidTransaction := by
    split
    · exact mergeResponseStatus_valid checked nofun
    · exact checked
  show (c.makeResponse request result.data result.initializedMask result.initialized
    request.bypassDram false _).identity = request.identity
  refine makeResponse_identity ?_
  split
  · exact mergeResponseStatus_valid corrected nofun
  · exact corrected

theorem completeWrite_identity
    (completes : c.completeWrite request phyCompletion = .ok (response, memoryImage)) :
    response.identity = request.identity := by
  unfold completeWrite at completes
  split at completes
  · cases completes
    exact makeResponse_identity nofun
  · obtain ⟨⟨committed, image⟩, commits, completes⟩ := bind_eq_ok.mp completes
    obtain ⟨closed, -, completes⟩ := bind_eq_ok.mp completes
    cases completes
    have made : (c.makeResponse committed [] [] true false false .ok).identity =
        committed.identity := makeResponse_identity (by decide)
    rw [made, commitMissing_eq commits]
    rfl

end Responses

/-- The reads and writes that have no response yet. -/
def traffic (c : Controller β) : List Request :=
  c.requestQueues.queue .read ++ c.requestQueues.queue .write ++ c.requestQueues.queue .active ++
    c.pending

def tickets (c : Controller β) : List Ticket := c.traffic.map (Request.ticket c.spec)

/-- Each queue holds requests of its own kind. -/
structure QueueKinds (c : Controller β) : Prop where
  read : ∀ request ∈ c.requestQueues.queue .read, request.type = .read
  write : ∀ request ∈ c.requestQueues.queue .write, request.type = .write
  active : ∀ request ∈ c.requestQueues.queue .active, request.type ≠ .maintenance
  pending : ∀ request ∈ c.pending, request.type ≠ .maintenance
  maintenance : c.MaintenanceMeets fun request => request.type = .maintenance

theorem QueueKinds.ordinary (kinds : QueueKinds c) (member : request ∈ c.traffic) :
    request.type ≠ .maintenance := by
  unfold traffic at member
  simp only [List.mem_append] at member
  rcases member with ((read | write) | active) | pending
  · rw [kinds.read request read]
    nofun
  · rw [kinds.write request write]
    nofun
  · exact kinds.active request active
  · exact kinds.pending request pending

/-! ### Housekeeping -/

theorem Housekeeping.traffic (keeps : Housekeeping before after) :
    after.traffic = before.traffic := by
  unfold Controller.traffic
  rw [keeps.queue .read nofun, keeps.queue .write nofun, keeps.queue .active nofun, keeps.pending]

theorem Housekeeping.tickets (keeps : Housekeeping before after) :
    after.tickets = before.tickets := by
  unfold Controller.tickets
  rw [keeps.traffic, keeps.spec]

theorem Housekeeping.kinds (keeps : Housekeeping before after) (kinds : QueueKinds before) :
    QueueKinds after where
  read := keeps.queue .read nofun ▸ kinds.read
  write := keeps.queue .write nofun ▸ kinds.write
  active := keeps.queue .active nofun ▸ kinds.active
  pending := keeps.pending ▸ kinds.pending
  maintenance := keeps.maintenance _ (fun _ _ _ _ => rfl) kinds.maintenance

/-! ### Commands -/

@[simp] theorem issueRequest_ticket (spec : DramSpec) (request : Request) (command : Command) :
    (issueRequest spec request command).ticket spec = request.ticket spec := by
  rw [issueRequest_eq]
  rfl

/-- Marking a request in its queue leaves what a function that ignores the marks sees. -/
theorem map_set_of_found {α : Type} {f : Request → α} {requests : List Request} {index : Nat}
    {marked : Request} (found : requests[index]? = some request) (same : f marked = f request) :
    (requests.set index marked).map f = requests.map f := by
  rw [List.map_set, same]
  refine List.ext_getElem? fun other => ?_
  rw [List.getElem?_set]
  split
  next here =>
    subst here
    obtain ⟨inRange, _⟩ := List.getElem?_eq_some_iff.mp found
    rw [if_pos (by rwa [List.length_map]), List.getElem?_map, found]
    rfl
  next => rfl

section Effects

variable {memPhy : MemPhy} {memoryImage : MemoryImage β}

theorem issueEffects_tickets
    (found : (c.requestQueues.queue candidate.buffer)[candidate.index]? = some request) :
    (c.issueEffects candidate request memPhy memoryImage).tickets = c.tickets := by
  unfold tickets traffic
  simp only [issueEffects_requestQueues, issueEffects_spec, issueEffects_pending, List.map_append]
  have marked : ∀ kind, ((c.requestQueues.put candidate.buffer
      ((c.requestQueues.queue candidate.buffer).set candidate.index
        (issueRequest c.spec request candidate.command))).queue kind).map
        (Request.ticket c.spec) =
      (c.requestQueues.queue kind).map (Request.ticket c.spec) := by
    intro kind
    by_cases same : kind = candidate.buffer
    · subst same
      rw [put_queue_self]
      exact map_set_of_found found (issueRequest_ticket ..)
    · rw [put_queue_of_ne same]
  rw [marked .read, marked .write, marked .active]

theorem scheduleMaintenance_pendingMaintenance {command : Command} {decoded : DecodedAddress} :
    ∀ waiting ∈ (c.scheduleMaintenance command decoded).pendingMaintenance,
      waiting ∈ c.pendingMaintenance ∨ waiting.type = .maintenance := by
  intro waiting member
  unfold scheduleMaintenance at member
  split at member
  · exact Or.inl member
  · dsimp only at member
    split at member
    · rcases List.mem_cons.mp member with rfl | old
      · exact Or.inr rfl
      · exact Or.inl old
    · rcases List.mem_append.mp member with old | new
      · exact Or.inl old
      · rw [List.mem_singleton.mp new]
        exact Or.inr rfl

/-- A command may queue a mitigation behind the waiting maintenance. -/
theorem issueEffects_pendingMaintenance :
    ∀ waiting ∈ (c.issueEffects candidate request memPhy memoryImage).pendingMaintenance,
      waiting ∈ c.pendingMaintenance ∨ waiting.type = .maintenance := by
  unfold issueEffects
  rw [recordIssue_eq, applyPowerCommand_eq]
  unfold execute
  dsimp only
  split
  · exact fun _ member => Or.inl member
  · exact scheduleMaintenance_pendingMaintenance

theorem QueueKinds.issueEffects (kinds : QueueKinds c)
    (found : (c.requestQueues.queue candidate.buffer)[candidate.index]? = some request) :
    QueueKinds (c.issueEffects candidate request memPhy memoryImage) := by
  have marked : ∀ kind, ∀ other ∈ (c.requestQueues.put candidate.buffer
      ((c.requestQueues.queue candidate.buffer).set candidate.index
        (issueRequest c.spec request candidate.command))).queue kind,
      ∃ old ∈ c.requestQueues.queue kind, other.type = old.type := by
    intro kind other member
    by_cases same : kind = candidate.buffer
    · subst same
      rw [put_queue_self] at member
      rcases List.mem_or_eq_of_mem_set member with old | rfl
      · exact ⟨other, old, rfl⟩
      · exact ⟨request, List.mem_of_getElem? found, issueRequest_type ..⟩
    · rw [put_queue_of_ne same] at member
      exact ⟨other, member, rfl⟩
  refine ⟨?_, ?_, ?_, ?_, ?_⟩
  · intro other member
    rw [issueEffects_requestQueues] at member
    obtain ⟨old, member, type⟩ := marked .read other member
    rw [type, kinds.read old member]
  · intro other member
    rw [issueEffects_requestQueues] at member
    obtain ⟨old, member, type⟩ := marked .write other member
    rw [type, kinds.write old member]
  · intro other member
    rw [issueEffects_requestQueues] at member
    obtain ⟨old, member, type⟩ := marked .active other member
    rw [type]
    exact kinds.active old member
  · rw [issueEffects_pending]
    exact kinds.pending
  · intro other member
    rw [issueEffects_requestQueues] at member
    rcases List.mem_append.mp member with queued | waiting
    · obtain ⟨old, member, type⟩ := marked .priority other queued
      rw [type]
      exact kinds.maintenance old (List.mem_append_left _ member)
    · rcases issueEffects_pendingMaintenance other waiting with old | new
      · exact kinds.maintenance other (List.mem_append_right _ old)
      · exact new

end Effects

section Moves

/-- Taking a request out of its queue. -/
theorem erase_cases {queues after : RequestQueues} {kind : RequestQueueKind} {index : Nat}
    {spec : DramSpec} (found : (queues.queue kind)[index]? = some request)
    (erases : queues.erase kind index spec = .ok after) :
    (∀ other, other ≠ kind → after.queue other = queues.queue other) ∧
      after.queue kind = (queues.queue kind).eraseIdx index := by
  by_cases active : kind = .active
  · subst active
    obtain ⟨-, rfl⟩ := erase_active found erases
    refine ⟨fun other differs => Function.update_of_ne differs .., ?_⟩
    dsimp only
    exact put_queue_self
  · rw [erase_of_ne_active active found] at erases
    cases erases
    exact ⟨fun other differs => put_queue_of_ne differs, put_queue_self⟩

/-- A promotion into a full active queue does nothing. -/
theorem promote_cases {queues : RequestQueues} {kind : RequestQueueKind} {index : Nat}
    {spec : DramSpec} (differs : kind ≠ .active)
    (found : (queues.queue kind)[index]? = some request) :
    queues.promote kind index spec = queues ∨
      ((∀ other, other ≠ kind → other ≠ .active →
          (queues.promote kind index spec).queue other = queues.queue other) ∧
        (queues.promote kind index spec).queue kind = (queues.queue kind).eraseIdx index ∧
        (queues.promote kind index spec).queue .active = queues.queue .active ++ [request]) := by
  cases space : queues.hasSpace .active with
  | false =>
    unfold RequestQueues.promote
    rw [found]
    exact Or.inl (if_pos (Or.inr space))
  | true =>
    refine Or.inr ?_
    rw [promote_of_hasSpace differs found space]
    refine ⟨fun other notKind notActive => ?_, Function.update_self .., ?_⟩
    · exact (Function.update_of_ne notKind ..).trans (Function.update_of_ne notActive ..)
    · dsimp only [RequestQueues.pushBack]
      rw [put_queue_of_ne differs.symm, put_queue_self]

theorem eraseIdx_perm {requests : List Request} {index : Nat}
    (found : requests[index]? = some request) :
    (request :: requests.eraseIdx index).Perm requests := by
  obtain ⟨inRange, rfl⟩ := List.getElem?_eq_some_iff.mp found
  exact List.getElem_cons_eraseIdx_perm inRange

/-- A read or write taken out of its queue is the only one missing. -/
theorem erased_perm {queues moved : RequestQueues} {kind : RequestQueueKind}
    (ordinary : kind ≠ .priority)
    (others : ∀ other, other ≠ kind → moved.queue other = queues.queue other)
    (here : (request :: moved.queue kind).Perm (queues.queue kind)) :
    (request :: (moved.queue .read ++ moved.queue .write ++ moved.queue .active)).Perm
      (queues.queue .read ++ queues.queue .write ++ queues.queue .active) := by
  rw [List.perm_iff_count] at here ⊢
  intro other
  have counts := here other
  simp only [List.count_cons, List.count_append] at counts ⊢
  cases kind with
  | priority => exact absurd rfl ordinary
  | read =>
    rw [others .write nofun, others .active nofun]
    omega
  | write =>
    rw [others .read nofun, others .active nofun]
    omega
  | active =>
    rw [others .read nofun, others .write nofun]
    omega

/-- A promoted request is still there. -/
theorem promoted_perm {queues moved : RequestQueues} {kind : RequestQueueKind}
    (ordinary : kind ≠ .priority) (waiting : kind ≠ .active)
    (others : ∀ other, other ≠ kind → other ≠ .active → moved.queue other = queues.queue other)
    (here : (request :: moved.queue kind).Perm (queues.queue kind))
    (active : moved.queue .active = queues.queue .active ++ [request]) :
    (moved.queue .read ++ moved.queue .write ++ moved.queue .active).Perm
      (queues.queue .read ++ queues.queue .write ++ queues.queue .active) := by
  rw [List.perm_iff_count] at here ⊢
  intro other
  have counts := here other
  simp only [active, List.count_cons, List.count_append, List.count_nil] at counts ⊢
  cases kind with
  | priority => exact absurd rfl ordinary
  | active => exact absurd rfl waiting
  | read =>
    rw [others .write nofun nofun]
    omega
  | write =>
    rw [others .read nofun nofun]
    omega

/-- A request is maintenance exactly when it waits in the maintenance queue. -/
theorem QueueKinds.maintenance_iff (kinds : QueueKinds c) {kind : RequestQueueKind}
    (member : request ∈ c.requestQueues.queue kind) :
    request.type = .maintenance ↔ kind = .priority := by
  cases kind with
  | priority => simp [kinds.maintenance request (List.mem_append_left _ member)]
  | read => simp [kinds.read request member]
  | write => simp [kinds.write request member]
  | active => simp [kinds.active request member]

/-- The queues may lose requests, and the active queue and the pending list gain ordinary ones. -/
theorem QueueKinds.of_subset (kinds : QueueKinds c)
    (read : ∀ request ∈ after.requestQueues.queue .read,
      request ∈ c.requestQueues.queue .read)
    (write : ∀ request ∈ after.requestQueues.queue .write,
      request ∈ c.requestQueues.queue .write)
    (active : ∀ request ∈ after.requestQueues.queue .active,
      request ∈ c.requestQueues.queue .active ∨ request.type ≠ .maintenance)
    (priority : ∀ request ∈ after.requestQueues.queue .priority,
      request ∈ c.requestQueues.queue .priority)
    (pending : ∀ request ∈ after.pending, request ∈ c.pending ∨ request.type ≠ .maintenance)
    (waiting : after.pendingMaintenance = c.pendingMaintenance) : QueueKinds after where
  read request member := kinds.read request (read request member)
  write request member := kinds.write request (write request member)
  active request member := (active request member).elim (kinds.active request) id
  pending request member := (pending request member).elim (kinds.pending request) id
  maintenance request member := by
    rcases List.mem_append.mp member with queued | waits
    · exact kinds.maintenance request (List.mem_append_left _ (priority request queued))
    · exact kinds.maintenance request (List.mem_append_right _ (waiting ▸ waits))

theorem mergedRequest_eq (c : Controller β) (request : Request) :
    c.mergedRequest request = { request with
      payload := (c.mergedRequest request).payload
      expectedPayload := (c.mergedRequest request).expectedPayload
      byteMask := (c.mergedRequest request).byteMask
      hasPayload := (c.mergedRequest request).hasPayload
      hasExpectedPayload := (c.mergedRequest request).hasExpectedPayload
      hasByteMask := (c.mergedRequest request).hasByteMask } := by
  unfold mergedRequest
  split
  · split <;> rfl
  · rfl

section Turns

variable [MemoryBackend β]

theorem commitIssued_eq {finished : Request} {memoryImage : MemoryImage β}
    (commits : c.commitIssued request = .ok (finished, memoryImage)) :
    finished = { request with
      payload := finished.payload
      hasPayload := finished.hasPayload
      byteMask := finished.byteMask
      dataCommitted := finished.dataCommitted } ∧
    (request.type ≠ .write → finished = request) := by
  unfold commitIssued at commits
  split at commits
  next writes =>
    refine ⟨?_, fun other => absurd writes.1 other⟩
    rw [commitWriteData_eq commits, ensureWritePayload_eq]
  next =>
    cases commits
    exact ⟨rfl, fun _ => rfl⟩

/-- What a data command makes pending is still the same request. -/
theorem Retired.ticket (how : Retired c candidate request after) :
    ({ how.finished with
      completion := c.autoPrechargeCompletion candidate.command how.completion }).ticket c.spec =
      request.ticket c.spec := by
  obtain ⟨frame, same⟩ := commitIssued_eq how.commits
  by_cases isWrite : request.type = .write
  · rw [frame]
    unfold retiring
    rw [mergedRequest_eq]
    unfold Request.ticket
    dsimp only
    rw [if_neg (by rw [isWrite]; nofun), if_neg (by rw [isWrite]; nofun)]
    rfl
  · have retired : c.retiring candidate.command request =
        { request with issuedDataCommand := candidate.command, issuedCycle := c.clk } := by
      unfold retiring mergedRequest
      exact if_neg isWrite
    rw [same (by rwa [retired]), retired]
    rfl

theorem Retired.type (how : Retired c candidate request after) :
    how.finished.type = request.type :=
  congrArg (fun ticket : Ticket => ticket.identity.type) how.ticket

theorem Advance.traffic
    (found : (c.requestQueues.queue candidate.buffer)[candidate.index]? = some request)
    (kinds : QueueKinds c) (advance : Advance c candidate request after) :
    QueueKinds after ∧ after.tickets.Perm c.tickets := by
  have member := List.mem_of_getElem? found
  have isPriority := kinds.maintenance_iff member
  cases advance with
  | served requestQueues maintenance own erases =>
    obtain ⟨others, here⟩ := erase_cases found erases
    rw [isPriority.mp maintenance] at others here
    refine ⟨kinds.of_subset ?_ ?_ ?_ ?_ (fun _ => Or.inl) rfl, ?_⟩
    · exact fun _ member => others .read nofun ▸ member
    · exact fun _ member => others .write nofun ▸ member
    · exact fun _ member => Or.inl (others .active nofun ▸ member)
    · exact fun _ member => List.mem_of_mem_eraseIdx (here ▸ member)
    · unfold tickets Controller.traffic
      dsimp only
      rw [others .read nofun, others .write nofun, others .active nofun]
  | promoted opening ordinary waiting =>
    have notPriority : candidate.buffer ≠ .priority := fun is => ordinary (isPriority.mpr is)
    rcases promote_cases waiting found with full | ⟨others, here, active⟩
    · rw [full]
      exact ⟨kinds, List.Perm.refl _⟩
    · have taken := here.symm ▸ eraseIdx_perm found
      have subset : ∀ kind, kind ≠ .active → ∀ other ∈
          (c.requestQueues.promote candidate.buffer candidate.index c.spec).queue kind,
          other ∈ c.requestQueues.queue kind := by
        intro kind notActive other member
        by_cases same : kind = candidate.buffer
        · subst same
          exact List.mem_of_mem_eraseIdx (here ▸ member)
        · exact others kind same notActive ▸ member
      refine ⟨kinds.of_subset (subset .read nofun) (subset .write nofun) ?_
        (subset .priority nofun) (fun _ => Or.inl) rfl, ?_⟩
      · intro other member
        dsimp only at member
        rw [active] at member
        rcases List.mem_append.mp member with old | new
        · exact Or.inl old
        · rw [List.mem_singleton.mp new]
          exact Or.inr ordinary
      · exact ((promoted_perm notPriority waiting others taken active).append_right
          c.pending).map _
  | stayed => exact ⟨kinds, List.Perm.refl _⟩
  | retired after data ordinary how =>
    have notPriority : candidate.buffer ≠ .priority := fun is => ordinary (isPriority.mpr is)
    obtain ⟨others, here⟩ := erase_cases found how.erases
    have taken := here.symm ▸ eraseIdx_perm found
    have subset : ∀ kind, ∀ other ∈ how.requestQueues.queue kind,
        other ∈ c.requestQueues.queue kind := by
      intro kind other member
      by_cases same : kind = candidate.buffer
      · subst same
        exact List.mem_of_mem_eraseIdx (here ▸ member)
      · exact others kind same ▸ member
    rw [how.result, leaveBuffer_eq]
    refine ⟨kinds.of_subset (subset .read) (subset .write)
      (fun other member => Or.inl (subset .active other member)) (subset .priority) ?_ rfl, ?_⟩
    · intro other member
      rcases List.mem_append.mp member with old | new
      · exact Or.inl old
      · rw [List.mem_singleton.mp new]
        exact Or.inr (how.type.trans_ne ordinary)
    · unfold tickets Controller.traffic
      dsimp only
      rw [← List.append_assoc, List.map_append, List.map_singleton, how.ticket]
      have moves := ((erased_perm notPriority others taken).append_right c.pending).map
        (Request.ticket c.spec)
      rw [List.cons_append, List.map_cons] at moves
      exact (List.perm_append_singleton _ _).trans moves

/-- A turn moves reads and writes and keeps all of them. -/
theorem Turn.traffic (kinds : QueueKinds c) (turn : Turn c bus issued after) :
    QueueKinds after ∧ after.tickets.Perm c.tickets := by
  cases turn with
  | idle chosen choosing =>
    exact ⟨choosing.housekeeping.kinds kinds, .of_eq choosing.housekeeping.tickets⟩
  | @issue chosen choosing candidate request picks memPhy memoryImage after issuing =>
    have found := issuing.issuable.found
    have chosenKinds := choosing.housekeeping.kinds kinds
    obtain ⟨afterKinds, perm⟩ := issuing.advance.traffic issuing.marked
      (chosenKinds.issueEffects found)
    rw [issueEffects_tickets found, choosing.housekeeping.tickets] at perm
    exact ⟨afterKinds, perm⟩

/-! ### The active queue -/

/-- The same request, up to the marks of a command. -/
def Marked (old new : Request) : Prop :=
  new = { old with
    issuedFirstActivate := new.issuedFirstActivate
    casSyncIssued := new.casSyncIssued }

omit [MemoryBackend β] in
theorem Marked.refl (request : Request) : Marked request request := rfl

/-- An active request was active before, or its bank has just been opened for it. -/
theorem Turn.active (turn : Turn c bus issued after) :
    ∀ request ∈ after.requestQueues.queue .active,
      (∃ old ∈ c.requestQueues.queue .active, Marked old request) ∨
      ∃ chosen candidate old, Choosing c chosen ∧ Issuable chosen candidate old ∧
        (commandMeta candidate.command).opening = true ∧ candidate.buffer ≠ .active ∧
        Marked old request := by
  cases turn with
  | idle chosen choosing =>
    rw [choosing.housekeeping.queue .active nofun]
    exact fun request member => Or.inl ⟨request, member, Marked.refl request⟩
  | @issue chosen choosing candidate issuedFor picks memPhy memoryImage after issuing =>
    have same := choosing.housekeeping.queue .active nofun
    have effected : ∀ request ∈ (chosen.issueEffects candidate issuedFor memPhy
        memoryImage).requestQueues.queue .active,
        ∃ old ∈ c.requestQueues.queue .active, Marked old request := by
      intro request member
      rw [issueEffects_requestQueues] at member
      rw [← same]
      by_cases here : candidate.buffer = .active
      · rw [here, put_queue_self] at member
        rcases List.mem_or_eq_of_mem_set member with old | rfl
        · exact ⟨request, old, Marked.refl request⟩
        · exact ⟨issuedFor, here ▸ List.mem_of_getElem? issuing.issuable.found,
            issueRequest_eq ..⟩
      · rw [put_queue_of_ne (Ne.symm here)] at member
        exact ⟨request, member, Marked.refl request⟩
    have marked := issuing.marked
    cases issuing.advance with
    | served requestQueues maintenance own erases =>
      obtain ⟨others, here⟩ := erase_cases marked erases
      intro request member
      refine Or.inl (effected request ?_)
      by_cases active : candidate.buffer = .active
      · exact active ▸ List.mem_of_mem_eraseIdx (here ▸ active ▸ member)
      · exact others .active (Ne.symm active) ▸ member
    | promoted opening ordinary waiting =>
      intro request member
      dsimp only at member
      rcases promote_cases waiting marked with full | ⟨-, -, active⟩
      · rw [full] at member
        exact Or.inl (effected request member)
      · rw [active] at member
        rcases List.mem_append.mp member with old | new
        · exact Or.inl (effected request old)
        · rw [List.mem_singleton.mp new]
          exact Or.inr ⟨chosen, candidate, issuedFor, choosing, issuing.issuable, opening,
            waiting, issueRequest_eq ..⟩
    | stayed => exact fun request member => Or.inl (effected request member)
    | retired after data ordinary how =>
      rw [how.result, leaveBuffer_eq]
      obtain ⟨others, here⟩ := erase_cases marked how.erases
      intro request member
      refine Or.inl (effected request ?_)
      by_cases active : candidate.buffer = .active
      · exact active ▸ List.mem_of_mem_eraseIdx (here ▸ active ▸ member)
      · exact others .active (Ne.symm active) ▸ member

end Turns

end Moves

/-! ### Acceptance -/

/-- An accepted read or write enters its queue, or the pending list when the write buffer answers
it. -/
structure Entered (c : Controller β) (request entered : Request) (after : Controller β) :
    Prop where
  identity : entered.identity =
    ({ request with controllerSequence := c.nextControllerSequence }).identity
  place : (after.requestQueues = c.requestQueues ∧ after.pending = c.pending ++ [entered]) ∨
    (after.pending = c.pending ∧
      ((request.type = .read ∧ after.requestQueues = c.requestQueues.pushBack .read entered) ∨
        (request.type = .write ∧ after.requestQueues = c.requestQueues.pushBack .write entered)))
  pendingMaintenance : after.pendingMaintenance = c.pendingMaintenance
  spec : after.spec = c.spec
  options : after.options = c.options
  responses : after.responses = c.responses
  injectedRequests : after.stats.injectedRequests = c.stats.injectedRequests + 1
  completedReads : after.stats.completedReads = c.stats.completedReads
  completedWrites : after.stats.completedWrites = c.stats.completedWrites
  nextControllerSequence : after.nextControllerSequence = c.nextControllerSequence + 1

theorem Entered.type {entered : Request} (enters : Entered c request entered after) :
    entered.type = request.type :=
  congrArg Identity.type enters.identity

theorem Entered.traffic {entered : Request} (enters : Entered c request entered after) :
    after.traffic.Perm (entered :: c.traffic) := by
  rw [List.perm_iff_count]
  intro other
  unfold Controller.traffic
  rcases enters.place with ⟨queues, pending⟩ | ⟨pending, ⟨-, queues⟩ | ⟨-, queues⟩⟩ <;>
    simp only [queues, pending, RequestQueues.pushBack, put_queue_self, ne_eq, reduceCtorEq,
      not_false_eq_true, put_queue_of_ne, List.count_append, List.count_cons,
      List.count_nil] <;> omega

theorem Entered.kinds {entered : Request} (ordinary : request.type ≠ .maintenance)
    (enters : Entered c request entered after) (kinds : QueueKinds c) : QueueKinds after := by
  have type := enters.type
  obtain ⟨read, write, active, pending, maintenance⟩ := kinds
  unfold MaintenanceMeets at maintenance
  rcases enters.place with ⟨queues, waits⟩ | ⟨waits, ⟨isRead, queues⟩ | ⟨isWrite, queues⟩⟩
  · refine ⟨?_, ?_, ?_, ?_, ?_⟩ <;>
      simp only [MaintenanceMeets, queues, waits, enters.pendingMaintenance]
    · exact read
    · exact write
    · exact active
    · intro other member
      rcases List.mem_append.mp member with old | new
      · exact pending other old
      · rw [List.mem_singleton.mp new, type]
        exact ordinary
    · exact maintenance
  · refine ⟨?_, ?_, ?_, ?_, ?_⟩ <;>
      simp only [MaintenanceMeets, queues, waits, enters.pendingMaintenance,
        RequestQueues.pushBack, put_queue_self, ne_eq, reduceCtorEq, not_false_eq_true,
        put_queue_of_ne]
    · intro other member
      rcases List.mem_append.mp member with old | new
      · exact read other old
      · rw [List.mem_singleton.mp new, type, isRead]
    · exact write
    · exact active
    · exact pending
    · exact maintenance
  · refine ⟨?_, ?_, ?_, ?_, ?_⟩ <;>
      simp only [MaintenanceMeets, queues, waits, enters.pendingMaintenance,
        RequestQueues.pushBack, put_queue_self, ne_eq, reduceCtorEq, not_false_eq_true,
        put_queue_of_ne]
    · exact read
    · intro other member
      rcases List.mem_append.mp member with old | new
      · exact write other old
      · rw [List.mem_singleton.mp new, type, isWrite]
    · exact active
    · exact pending
    · exact maintenance

section Entering

variable [MemoryBackend β] {accepted : Bool}

theorem Entry.enters (entry : Entry c request true after)
    (ordinary : request.type ≠ .maintenance) : ∃ entered, Entered c request entered after := by
  cases entry with
  | forwarded isRead hits forwards =>
    unfold forwardRead at forwards
    obtain ⟨⟨payload, byteMask, image⟩, -, forwards⟩ := bind_eq_ok.mp forwards
    cases forwards
    refine ⟨_, ?_, Or.inl ⟨rfl, rfl⟩, rfl, rfl, rfl, rfl, rfl, rfl, rfl, rfl⟩
    rfl
  | queuedRead isRead misses space =>
    refine ⟨_, ?_, Or.inr ⟨rfl, Or.inl ⟨isRead, rfl⟩⟩, rfl, rfl, rfl, rfl, rfl, rfl, rfl, rfl⟩
    rfl
  | coalesced isWrite buffered unread =>
    refine ⟨_, ?_, Or.inl ⟨rfl, rfl⟩, rfl, rfl, rfl, rfl, rfl, rfl, rfl, rfl⟩
    rw [ensureWritePayload_eq]
    rfl
  | buffered isWrite unbuffered space =>
    refine ⟨_, ?_, Or.inr ⟨rfl, Or.inr ⟨isWrite, rfl⟩⟩, rfl, rfl, rfl, rfl, rfl, rfl, rfl, rfl⟩
    rw [ensureWritePayload_eq]
    rfl
  | maintenance isMaintenance space => exact absurd isMaintenance ordinary

/-- What an offer does to the queues, once the controller is prepared for it. -/
inductive Outcome (c : Controller β) (request : Request) : Bool → Controller β → Prop
  | refused : Outcome c request false c
  | entered {entered : Request} {after : Controller β} (ordinary : request.type ≠ .maintenance)
      (enters : Entered c request entered after) : Outcome c request true after
  | maintenance (isMaintenance : request.type = .maintenance) :
      Outcome c request true { c.acceptSequence with
        requestQueues := c.requestQueues.pushBack .priority
          { request with controllerSequence := c.nextControllerSequence }
        stats := { c.stats with maintenanceRequests := c.stats.maintenanceRequests + 1 } }

theorem enqueue_outcome (returns : c.enqueue request = .ok (accepted, after)) :
    Outcome (c.prepareAccept request) { request with arrival := c.clk } accepted after := by
  obtain ⟨-, entry⟩ := enqueue_cases returns
  by_cases isMaintenance : request.type = .maintenance
  · cases entry with
    | refused => exact .refused
    | maintenance _ space => exact .maintenance isMaintenance
    | forwarded isRead => exact nomatch isMaintenance.symm.trans isRead
    | queuedRead isRead => exact nomatch isMaintenance.symm.trans isRead
    | coalesced isWrite => exact nomatch isMaintenance.symm.trans isWrite
    | buffered isWrite => exact nomatch isMaintenance.symm.trans isWrite
  · cases accepted with
    | false =>
      cases entry
      exact .refused
    | true =>
      obtain ⟨entered, enters⟩ := entry.enters isMaintenance
      exact .entered isMaintenance enters

end Entering

/-! ### Completion -/

/-- Completing requests only takes them off the pending list. -/
theorem QueueKinds.of_pending (kinds : QueueKinds c)
    (queues : after.requestQueues = c.requestQueues) (pending : after.pending.Sublist c.pending)
    (waiting : after.pendingMaintenance = c.pendingMaintenance) : QueueKinds after := by
  refine kinds.of_subset ?_ ?_ ?_ ?_ (fun _ member => Or.inl (pending.subset member)) waiting
  all_goals rw [queues]
  · exact fun _ member => member
  · exact fun _ member => member
  · exact fun _ member => Or.inl member
  · exact fun _ member => member

end Controller

end HbmSim
