/-
What each part of a tick leaves alone. Housekeeping writes the maintenance
queues and the bookkeeping of the managers, and nothing that carries data or
holds a bank; `Core` is the part of the state it does not write.

An issued command writes the core in few ways: through the executor, and by
moving its request. Later files argue from these lemmas and do not unfold a
tick again.
-/

import HbmSim.ControllerRun

namespace HbmSim

/-! ### The core of the state -/

/-- The state that housekeeping does not write. -/
structure Core (β : Type) where
  spec : DramSpec
  options : ControllerOptions
  banks : Nat → BankState
  active : List Request
  read : List Request
  write : List Request
  activeCounts : Nat → Nat
  limit : RequestQueueKind → Nat
  pending : List Request
  responses : List TransactionResponse
  bufferedWriteAddrs : Finset Nat
  bufferedWrites : AList (fun _ : Nat => BufferedWriteState)
  memoryImage : MemoryImage β
  memPhy : MemPhy
  clk : Nat
  injectedRequests : Nat
  completedReads : Nat
  completedWrites : Nat
  scopes : TimingScope → Nat → TimingScopeState
  rowScopes : Nat → TimingScopeState
  columnScopes : Nat → TimingScopeState
  wckScopes : Nat → TimingScopeState
  refdbStates : Nat → RefdbState
  explicitPowerDownActive : Bool
  explicitSelfRefreshActive : Bool
  wckRetrainRequired : Bool
  nextControllerSequence : Nat

namespace Controller

variable {β : Type}

def core (c : Controller β) : Core β where
  spec := c.spec
  options := c.options
  banks := c.banks
  active := c.requestQueues.queue .active
  read := c.requestQueues.queue .read
  write := c.requestQueues.queue .write
  activeCounts := c.requestQueues.activeCounts
  limit := c.requestQueues.limit
  pending := c.pending
  responses := c.responses
  bufferedWriteAddrs := c.bufferedWriteAddrs
  bufferedWrites := c.bufferedWrites
  memoryImage := c.memoryImage
  memPhy := c.memPhy
  clk := c.clk
  injectedRequests := c.stats.injectedRequests
  completedReads := c.stats.completedReads
  completedWrites := c.stats.completedWrites
  scopes := c.timingEngine.scopes
  rowScopes := c.timingEngine.rowScopes
  columnScopes := c.timingEngine.columnScopes
  wckScopes := c.timingEngine.wckScopes
  refdbStates := c.timingEngine.refdbStates
  explicitPowerDownActive := c.explicitPowerDownActive
  explicitSelfRefreshActive := c.explicitSelfRefreshActive
  wckRetrainRequired := c.wckRetrainRequired
  nextControllerSequence := c.nextControllerSequence

/-- Every queued or waiting maintenance request meets a condition. -/
def MaintenanceMeets (meets : Request → Prop) (c : Controller β) : Prop :=
  ∀ request ∈ c.requestQueues.queue .priority ++ c.pendingMaintenance, meets request

/-- A maintenance request as the controller makes it. -/
def maintenanceRequest (id : Nat) (command : Command) (decoded : DecodedAddress) (clk : Nat) :
    Request where
  id := id
  type := .maintenance
  next := command
  decoded := decoded
  injectCycle := clk
  arrival := clk

/-- Housekeeping keeps the core, and whatever holds of the queued maintenance requests and of
every request the controller makes itself. -/
structure Housekeeping (before after : Controller β) : Prop where
  core : after.core = before.core
  maintenance : ∀ meets : Request → Prop,
    (∀ id command decoded clk, meets (maintenanceRequest id command decoded clk)) →
    before.MaintenanceMeets meets → after.MaintenanceMeets meets

variable {c before middle after : Controller β}

theorem Housekeeping.refl (c : Controller β) : Housekeeping c c :=
  ⟨rfl, fun _ _ held => held⟩

theorem Housekeeping.trans (first : Housekeeping before middle)
    (second : Housekeeping middle after) : Housekeeping before after :=
  ⟨second.core.trans first.core,
    fun meets made held => second.maintenance meets made (first.maintenance meets made held)⟩

/-- A change that rearranges the maintenance requests, or loses some. -/
theorem Housekeeping.of_subset (core : after.core = before.core)
    (subset : after.requestQueues.queue .priority ++ after.pendingMaintenance ⊆
      before.requestQueues.queue .priority ++ before.pendingMaintenance) :
    Housekeeping before after :=
  ⟨core, fun _ _ held request member => held request (subset member)⟩

/-! ### What housekeeping keeps, field by field -/

theorem Housekeeping.spec (keeps : Housekeeping before after) : after.spec = before.spec :=
  congrArg Core.spec keeps.core

theorem Housekeeping.options (keeps : Housekeeping before after) :
    after.options = before.options :=
  congrArg Core.options keeps.core

theorem Housekeeping.banks (keeps : Housekeeping before after) : after.banks = before.banks :=
  congrArg Core.banks keeps.core

theorem Housekeeping.clk (keeps : Housekeeping before after) : after.clk = before.clk :=
  congrArg Core.clk keeps.core

theorem Housekeeping.pending (keeps : Housekeeping before after) :
    after.pending = before.pending :=
  congrArg Core.pending keeps.core

theorem Housekeeping.responses (keeps : Housekeeping before after) :
    after.responses = before.responses :=
  congrArg Core.responses keeps.core

theorem Housekeeping.activeCounts (keeps : Housekeeping before after) :
    after.requestQueues.activeCounts = before.requestQueues.activeCounts :=
  congrArg Core.activeCounts keeps.core

theorem Housekeeping.limit (keeps : Housekeeping before after) :
    after.requestQueues.limit = before.requestQueues.limit :=
  congrArg Core.limit keeps.core

theorem Housekeeping.nextControllerSequence (keeps : Housekeeping before after) :
    after.nextControllerSequence = before.nextControllerSequence :=
  congrArg Core.nextControllerSequence keeps.core

theorem Housekeeping.queue (keeps : Housekeeping before after) (kind : RequestQueueKind)
    (ordinary : kind ≠ .priority) :
    after.requestQueues.queue kind = before.requestQueues.queue kind := by
  cases kind with
  | active => exact congrArg Core.active keeps.core
  | priority => exact absurd rfl ordinary
  | read => exact congrArg Core.read keeps.core
  | write => exact congrArg Core.write keeps.core

/-! ### Housekeeping -/

theorem scheduleMaintenance_housekeeping (c : Controller β) (command : Command)
    (decoded : DecodedAddress) : Housekeeping c (c.scheduleMaintenance command decoded) := by
  unfold scheduleMaintenance
  split
  · exact Housekeeping.refl c
  · refine ⟨rfl, fun meets made held request member => ?_⟩
    dsimp only at member
    split at member
    · rcases List.mem_append.mp member with queued | waiting
      · exact held request (List.mem_append_left _ queued)
      · rcases List.mem_cons.mp waiting with rfl | waiting
        · exact made _ _ _ _
        · exact held request (List.mem_append_right _ waiting)
    · rw [← List.append_assoc] at member
      rcases List.mem_append.mp member with old | new
      · exact held request old
      · rw [List.mem_singleton.mp new]
        exact made _ _ _ _

theorem wakeFromSelfRefresh_housekeeping (c : Controller β) :
    Housekeeping c c.wakeFromSelfRefresh := by
  unfold wakeFromSelfRefresh
  dsimp only
  split
  · have scheduled := scheduleMaintenance_housekeeping c .srefex {}
    exact ⟨scheduled.core, scheduled.maintenance⟩
  · exact Housekeeping.refl c

theorem foldl_housekeeping {α : Type} {step : Controller β → α → Controller β}
    (keeps : ∀ c item, Housekeeping c (step c item)) (items : List α) (c : Controller β) :
    Housekeeping c (items.foldl step c) := by
  induction items generalizing c with
  | nil => exact Housekeeping.refl c
  | cons item rest inductionHypothesis =>
    exact (keeps c item).trans (inductionHypothesis (step c item))

theorem scheduleRefresh_housekeeping (c : Controller β) : Housekeeping c c.scheduleRefresh := by
  unfold scheduleRefresh
  refine Housekeeping.trans ?_ (foldl_housekeeping
    (fun c (command : MaintenanceCommand) =>
      scheduleMaintenance_housekeeping c command.command command.decoded) _ _)
  exact ⟨rfl, fun _ _ held => held⟩

theorem rotateExit_subset (requests : List Request) : rotateExit requests ⊆ requests := by
  unfold rotateExit
  dsimp only
  split
  · exact List.Subset.refl _
  next exit found =>
    intro request member
    rcases List.mem_cons.mp member with rfl | rest
    · exact List.mem_of_find?_eq_some found
    · exact List.mem_of_mem_eraseP rest

theorem favourExit_housekeeping (c : Controller β) : Housekeeping c c.favourExit := by
  unfold favourExit
  split
  · exact Housekeeping.refl c
  have waiting := rotateExit_subset c.pendingMaintenance
  have queued := rotateExit_subset (c.requestQueues.queue .priority)
  have rotated : Housekeeping c { c with
      pendingMaintenance := rotateExit c.pendingMaintenance
      requestQueues := c.requestQueues.put .priority
        (rotateExit (c.requestQueues.queue .priority)) } := by
    refine Housekeeping.of_subset rfl ?_
    dsimp only
    rw [put_queue_self]
    exact List.append_subset.mpr ⟨fun _ member => List.mem_append_left _ (queued member),
      fun _ member => List.mem_append_right _ (waiting member)⟩
  dsimp only
  split
  next exit rest last exits lasts =>
    split
    · refine rotated.trans (Housekeeping.of_subset rfl ?_)
      dsimp only
      rw [put_queue_self, put_queue_self, exits]
      intro request member
      rcases List.mem_append.mp member with first | second
      · rcases List.mem_cons.mp first with rfl | dropped
        · exact List.mem_append_right _ List.mem_cons_self
        · exact List.mem_append_left _ (List.mem_of_mem_dropLast dropped)
      · rcases List.mem_cons.mp second with rfl | stays
        · exact List.mem_append_left _ (List.mem_of_getLast? lasts)
        · exact List.mem_append_right _ (List.mem_cons_of_mem _ stays)
    · exact rotated
  · exact rotated

theorem fillPriority_queues (requests : List Request) (queues : RequestQueues) :
    (∀ kind, kind ≠ .priority →
      (fillPriority requests queues).2.queue kind = queues.queue kind) ∧
    (fillPriority requests queues).2.activeCounts = queues.activeCounts ∧
    (fillPriority requests queues).2.limit = queues.limit ∧
    (fillPriority requests queues).2.queue .priority ++ (fillPriority requests queues).1 ⊆
      queues.queue .priority ++ requests := by
  induction requests generalizing queues with
  | nil => exact ⟨fun _ _ => rfl, rfl, rfl, List.Subset.refl _⟩
  | cons request rest inductionHypothesis =>
    unfold fillPriority
    split
    · obtain ⟨others, counts, limits, subset⟩ := inductionHypothesis
        (if request.next = .srefex then queues.pushFront .priority request
          else queues.pushBack .priority request)
      refine ⟨fun kind differs => ?_, ?_, ?_, fun other member => ?_⟩
      · rw [others kind differs]
        split <;> exact put_queue_of_ne differs
      · rw [counts]
        split <;> rfl
      · rw [limits]
        split <;> rfl
      · have moved := subset member
        split at moved <;>
          simp only [RequestQueues.pushFront, RequestQueues.pushBack, put_queue_self,
            List.mem_append, List.mem_cons, List.not_mem_nil, or_false] at moved ⊢ <;> tauto
    · exact ⟨fun _ _ => rfl, rfl, rfl, List.Subset.refl _⟩

theorem servicePendingMaintenance_housekeeping (c : Controller β) :
    Housekeeping c c.servicePendingMaintenance := by
  refine (favourExit_housekeeping c).trans ?_
  obtain ⟨others, counts, limits, subset⟩ :=
    fillPriority_queues c.favourExit.pendingMaintenance c.favourExit.requestQueues
  refine Housekeeping.of_subset ?_ subset
  unfold servicePendingMaintenance core
  dsimp only
  rw [others .active nofun, others .read nofun, others .write nofun, counts, limits]

theorem schedulePrecharge_housekeeping (c : Controller β) (flat : Nat) :
    Housekeeping c (c.schedulePrecharge flat) := by
  unfold schedulePrecharge
  dsimp only
  split
  · exact Housekeeping.refl c
  split
  · exact ⟨rfl, fun _ _ held => held⟩
  · refine ⟨rfl, fun meets made held request member => ?_⟩
    dsimp only [RequestQueues.pushBack] at member
    rw [put_queue_self] at member
    rcases List.mem_append.mp member with queued | waiting
    · rcases List.mem_append.mp queued with old | new
      · exact held request (List.mem_append_left _ old)
      · rw [List.mem_singleton.mp new]
        exact made _ _ _ _
    · exact held request (List.mem_append_right _ waiting)

theorem applyRowPolicyPreSchedule_housekeeping (c : Controller β) :
    Housekeeping c c.applyRowPolicyPreSchedule := by
  unfold applyRowPolicyPreSchedule
  split
  · exact Housekeeping.refl c
  · exact foldl_housekeeping schedulePrecharge_housekeeping _ _

theorem upkeep_housekeeping (c : Controller β) : Housekeeping c c.upkeep := by
  have pruned : Housekeeping c
      { c with timingEngine := c.timingEngine.pruneRecentActs c.spec c.clk } :=
    ⟨rfl, fun _ _ held => held⟩
  exact (((pruned.trans (wakeFromSelfRefresh_housekeeping _)).trans
    (scheduleRefresh_housekeeping _)).trans (servicePendingMaintenance_housekeeping _)).trans
    (applyRowPolicyPreSchedule_housekeeping _)

theorem enterLowPower_housekeeping (c : Controller β) : Housekeeping c c.enterLowPower := by
  unfold enterLowPower
  split
  · split
    · exact Housekeeping.refl c
    · have scheduled := scheduleMaintenance_housekeeping
        { c with automaticSelfRefreshRequest := some c.nextMaintenanceId } .srefen {}
      exact ⟨scheduled.core, scheduled.maintenance⟩
  · exact ⟨rfl, fun _ _ held => held⟩

theorem idleLowPower_housekeeping (c : Controller β) : Housekeeping c c.idleLowPower := by
  unfold idleLowPower
  split
  · exact Housekeeping.refl c
  split
  · exact ⟨rfl, fun _ _ held => held⟩
  have started : Housekeeping c
      (if c.lowPowerIdleSince = 0 then { c with lowPowerIdleSince := c.clk } else c) := by
    split
    · exact ⟨rfl, fun _ _ held => held⟩
    · exact Housekeeping.refl c
  dsimp only
  generalize (if c.lowPowerIdleSince = 0 then { c with lowPowerIdleSince := c.clk } else c) =
    later at started ⊢
  split
  · exact started.trans (enterLowPower_housekeeping later)
  · exact started

/-! ### Choosing -/

theorem dropSatisfied_subset (spec : DramSpec) (policy : RowPolicyKind)
    (banks : Nat → BankState) (requests : List Request) (rowPolicy : RowPolicyEngine) :
    (dropSatisfied spec policy banks requests rowPolicy).1 ⊆ requests := by
  induction requests generalizing rowPolicy with
  | nil => exact List.Subset.refl _
  | cons request rest inductionHypothesis =>
    unfold dropSatisfied
    dsimp only
    split
    · exact fun other member => List.mem_cons_of_mem _ (inductionHypothesis _ member)
    · exact List.Subset.refl _

theorem retireSatisfied_housekeeping (c : Controller β) : Housekeeping c c.retireSatisfied := by
  refine Housekeeping.of_subset rfl ?_
  unfold retireSatisfied
  dsimp only
  rw [put_queue_self]
  have subset := dropSatisfied_subset c.spec c.options.rowPolicy c.banks
    (c.requestQueues.queue .priority) c.rowPolicy
  exact List.append_subset.mpr ⟨fun _ member => List.mem_append_left _ (subset member),
    fun _ member => List.mem_append_right _ member⟩

theorem setWriteMode_housekeeping (c : Controller β) : Housekeeping c c.setWriteMode := by
  unfold setWriteMode
  dsimp only
  split <;> split <;> exact ⟨rfl, fun _ _ held => held⟩

end Controller

end HbmSim
