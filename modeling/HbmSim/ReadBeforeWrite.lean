/-
A write that holds a bank open never waits for an older read.

A write opens its bank only when no older read of its bytes is unresolved.
Reads that arrive later are younger, and what moves keeps its age and its
bytes, so the write stays free.
-/

import HbmSim.Conservation

namespace HbmSim.Controller

variable {β : Type} {c before after : Controller β} {history : List ControllerEvent}
variable {request : Request}

/-- An older read that still needs the bytes of a write. -/
def Blocks (spec : DramSpec) (write read : Request) : Prop :=
  read.type = .read ∧ read.controllerSequence < write.controllerSequence ∧
    rangesOverlap write.address (requestDataSize spec write) read.address
      (requestDataSize spec read) = true

/-- No active write waits for a read, and no request is from the future. -/
structure WritesFree (c : Controller β) : Prop where
  kinds : QueueKinds c
  started : 0 < c.nextControllerSequence
  positive : ∀ request ∈ c.traffic, 0 < request.controllerSequence
  fresh : ∀ request ∈ c.traffic, request.controllerSequence < c.nextControllerSequence
  free : ∀ write ∈ c.requestQueues.queue .active, write.type = .write →
    ∀ read ∈ c.traffic, ¬ Blocks c.spec write read

/-! ### What blocking depends on -/

theorem Marked.blocks {spec : DramSpec} {old new read : Request} (marked : Marked old new) :
    Blocks spec new read ↔ Blocks spec old read := by
  rw [marked]
  rfl

/-- Requests with one ticket block the same writes. -/
theorem Blocks.of_ticket {spec : DramSpec} {write read other : Request}
    (same : other.ticket spec = read.ticket spec) (blocks : Blocks spec write read) :
    Blocks spec write other := by
  obtain ⟨isRead, older, overlap⟩ := blocks
  have type : other.type = read.type :=
    congrArg (fun ticket : Ticket => ticket.identity.type) same
  have sequence : other.controllerSequence = read.controllerSequence :=
    congrArg (fun ticket : Ticket => ticket.identity.controllerSequence) same
  have address : other.address = read.address :=
    congrArg (fun ticket : Ticket => ticket.identity.address) same
  have size : requestDataSize spec other = requestDataSize spec read := by
    have sizes := congrArg Ticket.readSize same
    unfold Request.ticket at sizes
    rwa [if_pos (type.trans isRead), if_pos isRead] at sizes
  exact ⟨type.trans isRead, sequence ▸ older, by rw [address, size]; exact overlap⟩

/-- The check of the source sees every unresolved read. -/
theorem not_blocks_of_check (kinds : QueueKinds c) {write : Request}
    (passes : c.hasUnresolvedOverlappingRead write write.controllerSequence = false) :
    ∀ read ∈ c.traffic, ¬ Blocks c.spec write read := by
  rintro read member ⟨isRead, older, overlap⟩
  unfold hasUnresolvedOverlappingRead at passes
  rw [Bool.or_eq_false_iff, Bool.or_eq_false_iff] at passes
  have hit : ∀ queue : List Request, read ∈ queue →
      queueHasOverlap c.spec write write.controllerSequence queue = true :=
    fun queue member => List.any_eq_true.mpr ⟨read, member,
      Bool.and_eq_true_iff.mpr ⟨decide_eq_true ⟨isRead, Or.inr older⟩, overlap⟩⟩
  unfold traffic at member
  simp only [List.mem_append] at member
  rcases member with ((reads | writes) | active) | pending
  · exact nomatch (hit _ reads).symm.trans passes.1.1
  · exact nomatch isRead.symm.trans (kinds.write read writes)
  · exact nomatch (hit _ active).symm.trans passes.1.2
  · exact nomatch (hit _ pending).symm.trans passes.2

/-! ### The invariant -/

theorem WritesFree.housekeeping (keeps : Housekeeping before after) (holds : WritesFree before) :
    WritesFree after where
  kinds := keeps.kinds holds.kinds
  started := keeps.nextControllerSequence ▸ holds.started
  positive := keeps.traffic ▸ holds.positive
  fresh := by
    rw [keeps.traffic, keeps.nextControllerSequence]
    exact holds.fresh
  free := by
    rw [keeps.queue .active nofun, keeps.traffic, keeps.spec]
    exact holds.free

theorem WritesFree.accept {entered : Request} (holds : WritesFree c)
    (ordinary : request.type ≠ .maintenance) (enters : Entered c request entered after) :
    WritesFree after := by
  have sequence : entered.controllerSequence = c.nextControllerSequence :=
    congrArg Identity.controllerSequence enters.identity
  have traffic : ∀ other ∈ after.traffic, other = entered ∨ other ∈ c.traffic :=
    fun other member => List.mem_cons.mp (enters.traffic.mem_iff.mp member)
  have active : after.requestQueues.queue .active = c.requestQueues.queue .active := by
    rcases enters.place with ⟨queues, -⟩ | ⟨-, ⟨-, queues⟩ | ⟨-, queues⟩⟩
    · rw [queues]
    · rw [queues]
      exact put_queue_of_ne nofun
    · rw [queues]
      exact put_queue_of_ne nofun
  refine ⟨enters.kinds ordinary holds.kinds, ?_, ?_, ?_, ?_⟩
  · rw [enters.nextControllerSequence]
    exact Nat.succ_pos _
  · intro other member
    rcases traffic other member with rfl | old
    · rw [sequence]
      exact holds.started
    · exact holds.positive other old
  · intro other member
    rw [enters.nextControllerSequence]
    rcases traffic other member with rfl | old
    · rw [sequence]
      exact Nat.lt_succ_self _
    · exact Nat.lt_succ_of_lt (holds.fresh other old)
  · intro write isActive isWrite read member blocks
    rw [active] at isActive
    rw [enters.spec] at blocks
    rcases traffic read member with rfl | old
    · have written : write ∈ c.traffic :=
        List.mem_append_left _ (List.mem_append_right _ isActive)
      have younger := holds.fresh write written
      rw [← sequence] at younger
      exact Nat.lt_asymm younger blocks.2.1
    · exact holds.free write isActive isWrite read old blocks

theorem WritesFree.of_pending (holds : WritesFree c) (kinds : QueueKinds after)
    (spec : after.spec = c.spec) (queues : after.requestQueues = c.requestQueues)
    (pending : after.pending.Sublist c.pending)
    (sequence : after.nextControllerSequence = c.nextControllerSequence) : WritesFree after := by
  have subset : ∀ request ∈ after.traffic, request ∈ c.traffic := by
    intro request member
    unfold traffic at member ⊢
    rw [queues] at member
    exact List.append_subset.mpr ⟨List.subset_append_left _ _,
      fun _ waits => List.mem_append_right _ (pending.subset waits)⟩ member
  refine ⟨kinds, sequence ▸ holds.started, fun request member =>
    holds.positive request (subset request member), fun request member => ?_, ?_⟩
  · rw [sequence]
    exact holds.fresh request (subset request member)
  · intro write isActive isWrite read member
    rw [spec]
    exact holds.free write (queues ▸ isActive) isWrite read (subset read member)

theorem WritesFree.acceptMaintenance (holds : WritesFree c) {queued : Request}
    (type : queued.type = .maintenance) :
    WritesFree { c.acceptSequence with
      requestQueues := c.requestQueues.pushBack .priority queued
      stats := { c.stats with maintenanceRequests := c.stats.maintenanceRequests + 1 } } := by
  refine ⟨⟨holds.kinds.read, holds.kinds.write, holds.kinds.active, holds.kinds.pending,
    fun other member => ?_⟩, Nat.succ_pos _, holds.positive,
    fun other member => Nat.lt_succ_of_lt (holds.fresh other member), holds.free⟩
  dsimp only [RequestQueues.pushBack] at member
  rw [put_queue_self] at member
  rcases List.mem_append.mp member with priority | waiting
  · rcases List.mem_append.mp priority with old | new
    · exact holds.kinds.maintenance other (List.mem_append_left _ old)
    · rw [List.mem_singleton.mp new, type]
  · exact holds.kinds.maintenance other (List.mem_append_right _ waiting)

section Steps

variable [MemoryBackend β] {bus : BusClass} {issued : List IssuedCommand}

theorem WritesFree.turn (holds : WritesFree c) (turn : Turn c bus issued after) :
    WritesFree after := by
  obtain ⟨kinds, perm⟩ := turn.traffic holds.kinds
  have frame := turn.turnFrame
  -- Every request of the traffic has its ticket from before.
  have before : ∀ request ∈ after.traffic, ∃ old ∈ c.traffic,
      old.ticket c.spec = request.ticket c.spec := by
    intro request member
    have listed : request.ticket after.spec ∈ after.tickets := List.mem_map_of_mem member
    rw [frame.spec] at listed
    exact List.mem_map.mp (perm.mem_iff.mp listed)
  have sequence : ∀ {old request : Request}, old.ticket c.spec = request.ticket c.spec →
      request.controllerSequence = old.controllerSequence :=
    fun same => (congrArg (fun ticket : Ticket => ticket.identity.controllerSequence) same).symm
  refine ⟨kinds, ?_, ?_, ?_, ?_⟩
  · rw [frame.nextControllerSequence]
    exact holds.started
  · intro request member
    obtain ⟨old, was, same⟩ := before request member
    rw [sequence same]
    exact holds.positive old was
  · intro request member
    obtain ⟨old, was, same⟩ := before request member
    rw [sequence same, frame.nextControllerSequence]
    exact holds.fresh old was
  · intro write isActive isWrite read member blocks
    rw [frame.spec] at blocks
    obtain ⟨old, was, same⟩ := before read member
    have oldBlocks := blocks.of_ticket same
    rcases turn.active write isActive with ⟨first, active, marked⟩ |
      ⟨chosen, candidate, first, choosing, issuable, opening, waiting, marked⟩
    · have type : first.type = .write := by rwa [marked] at isWrite
      exact holds.free first active type old was (marked.blocks.mp oldBlocks)
    · have type : first.type = .write := by rwa [marked] at isWrite
      obtain ⟨-, ordered, -, -⟩ := candidateEligible_iff.mp issuable.eligible
      have keeps := choosing.housekeeping
      have passes : chosen.hasUnresolvedOverlappingRead first first.controllerSequence = false :=
        Bool.eq_false_iff.mpr fun hit => ordered ⟨type, hit⟩
      have chosenFree := not_blocks_of_check (keeps.kinds holds.kinds) passes old
        (keeps.traffic ▸ was)
      rw [keeps.spec] at chosenFree
      exact chosenFree (marked.blocks.mp oldBlocks)

theorem writesFree_kept :
    Kept (fun _ _ => True) (fun _ _ => True) (fun _ (c : Controller β) => WritesFree c) where
  enqueue history c request accepted after holds _ returns := by
    have ready := holds.housekeeping (prepareAccept_housekeeping c request)
    cases enqueue_outcome returns with
    | refused => exact ready
    | entered ordinary enters => exact ready.accept ordinary enters
    | maintenance isMaintenance => exact ready.acceptMaintenance isMaintenance
  beginTick history c begun holds returns := by
    obtain ⟨sublist, frame⟩ := beginTick_eq returns
    have queues : begun.requestQueues = c.requestQueues := by rw [frame]
    have waiting : begun.pendingMaintenance = c.pendingMaintenance := by rw [frame]
    exact holds.of_pending (holds.kinds.of_pending queues sublist waiting) (by rw [frame]) queues
      sublist (by rw [frame])
  upkeep _ c holds _ := holds.housekeeping (upkeep_housekeeping c)
  turn _ _ _ _ _ holds _ returns := holds.turn (turn_cases returns)
  idleLowPower _ c holds := holds.housekeeping (idleLowPower_housekeeping c)
  popResponse _ c response after holds returns := by
    unfold popResponse at returns
    split at returns
    · cases returns
    · cases returns
      exact ⟨⟨holds.kinds.read, holds.kinds.write, holds.kinds.active, holds.kinds.pending,
        holds.kinds.maintenance⟩, holds.started, holds.positive, holds.fresh, holds.free⟩
  flushStorage _ c after holds returns := by
    obtain ⟨image, -, returned⟩ := bind_eq_ok.mp returns
    cases returned
    exact ⟨⟨holds.kinds.read, holds.kinds.write, holds.kinds.active, holds.kinds.pending,
      holds.kinds.maintenance⟩, holds.started, holds.positive, holds.fresh, holds.free⟩

/-! ### Active writes are never blocked -/

/-- No active write is blocked by an older read, and the ordering check lets each one through. -/
def ActiveWritesUnblocked (c : Controller β) : Prop :=
  ∀ write ∈ c.requestQueues.queue .active, write.type = .write →
    (∀ read ∈ c.requestQueues.queue .read ++ c.requestQueues.queue .active ++ c.pending,
      ¬ Blocks c.spec write read) ∧
    c.hasUnresolvedOverlappingRead write write.controllerSequence = false

omit [MemoryBackend β] in
theorem WritesFree.unblocked (holds : WritesFree c) : c.ActiveWritesUnblocked := by
  intro write isActive isWrite
  have free : ∀ read ∈ c.requestQueues.queue .read ++ c.requestQueues.queue .active ++ c.pending,
      ¬ Blocks c.spec write read := by
    intro read member
    refine holds.free write isActive isWrite read ?_
    unfold traffic
    simp only [List.mem_append] at member ⊢
    tauto
  refine ⟨free, ?_⟩
  have positive := holds.positive write
    (List.mem_append_left _ (List.mem_append_right _ isActive))
  have none : ∀ queue : List Request, (∀ read ∈ queue, ¬ Blocks c.spec write read) →
      queueHasOverlap c.spec write write.controllerSequence queue = false := by
    intro queue unblocked
    refine List.any_eq_false.mpr fun read member hit => ?_
    rw [Bool.and_eq_true, decide_eq_true_eq] at hit
    obtain ⟨⟨isRead, never | older⟩, overlap⟩ := hit
    · exact absurd never (Nat.ne_of_gt positive)
    · exact unblocked read member ⟨isRead, older, overlap⟩
  unfold hasUnresolvedOverlappingRead
  rw [none _ fun read member => free read (List.mem_append_left _ (List.mem_append_left _ member)),
    none _ fun read member => free read (List.mem_append_left _ (List.mem_append_right _ member)),
    none _ fun read member => free read (List.mem_append_right _ member)]
  rfl

/-- In every state a run reaches, and in front of every turn on the way, no active write has an
older unresolved read of its bytes. -/
theorem active_writes_unblocked {spec : DramSpec} {options : ControllerOptions}
    {image : MemoryImage β} {start final : Controller β} {ops : List ControllerOp}
    {events : List ControllerEvent} (created : create spec options image = .ok start)
    (returns : start.run ops = .ok (events, final)) :
    final.ActiveWritesUnblocked ∧
      start.RunMeets (fun _ _ => True) (fun c _ => c.ActiveWritesUnblocked) ops := by
  have guarded : start.RunMeets (fun _ _ => True) (fun _ _ => True) ops :=
    runMeets_of_forall (fun _ _ => trivial) (fun _ _ => trivial) start ops
  have holds : WritesFree start := by
    have kinds := (create_created created).conserved.kinds
    have empty := (create_created created).queues
    have absent : ∀ {meets : Request → Prop}, ∀ request ∈ ([] : List Request), meets request :=
      fun _ member => absurd member List.not_mem_nil
    have traffic : start.traffic = [] := by
      unfold Controller.traffic
      rw [empty, empty, empty, (create_created created).pending_eq]
      rfl
    refine ⟨kinds, ?_, ?_, ?_, ?_⟩
    · rw [(create_created created).result]
      exact Nat.one_pos
    · rw [traffic]
      exact absent
    · rw [traffic]
      exact absent
    · rw [empty]
      exact absent
  exact ⟨(writesFree_kept.run holds guarded returns).unblocked,
    writesFree_kept.runMeets (fun _ _ _ holds _ => WritesFree.unblocked holds) [] holds guarded⟩

/-- A write holds its bank open while a younger read of its bytes is queued. -/
def writeThenRead : List ControllerOp :=
  [.enqueue (writeAt twoBanks 1 4 [1, 2, 3, 4]), .tick, .enqueue (readAt twoBanks 2 0 8), .tick]

theorem active_writes_unblocked_writeThenRead : ∃ start events final,
    create twoBanks {} (imageOf twoBanks) = .ok start ∧
      start.run writeThenRead = .ok (events, final) ∧
      ∃ write ∈ final.requestQueues.queue .active, write.type = .write ∧
        final.hasUnresolvedOverlappingRead write write.controllerSequence = false := by
  obtain ⟨start, events, final, created, returns, checks⟩ :=
    freshRun_of_passes twoBanks {} writeThenRead
      (fun result => (result.2.requestQueues.queue .active).any fun request =>
        decide (request.type = .write)) (by decide +kernel)
  obtain ⟨write, member, isWrite⟩ := List.any_eq_true.mp checks
  rw [decide_eq_true_eq] at isWrite
  exact ⟨start, events, final, created, returns, write, member, isWrite,
    ((active_writes_unblocked created returns).1 write member isWrite).2⟩

end Steps

end HbmSim.Controller
