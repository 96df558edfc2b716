/-
The commands a run has issued, and the invariants that relate them to the
device: its banks, its timing engine, its clock, its power state and the PHY.
Only turns write the device; all other parts of a run let time pass and forget
activates that have left their window.
-/

import HbmSim.ControllerEntry

namespace HbmSim

/-! ### The commands of a history -/

/-- The commands among the events of a run, in order. -/
def commandsOf (events : List ControllerEvent) : List IssuedCommand :=
  events.filterMap fun
    | .issued command => some command
    | _ => none

theorem commandsOf_issued (history : List ControllerEvent) (issued : List IssuedCommand) :
    commandsOf (history ++ issued.map .issued) = commandsOf history ++ issued := by
  unfold commandsOf
  rw [List.filterMap_append, List.filterMap_map]
  exact congrArg _ (List.filterMap_some)

theorem commandsOf_responded (history : List ControllerEvent) (response : TransactionResponse) :
    commandsOf (history ++ [.responded response]) = commandsOf history := by
  unfold commandsOf
  rw [List.filterMap_append]
  exact List.append_nil _

namespace Controller

variable {β : Type} {c before after : Controller β} {history : List ControllerEvent}

theorem commandsOf_acceptance (accepted : Bool) (request : Request) :
    commandsOf (history ++ c.acceptance accepted request) = commandsOf history := by
  unfold commandsOf acceptance
  rw [List.filterMap_append]
  split <;> exact List.append_nil _

/-! ### What leaves the device alone -/

/-- The PHY is the same one, and still in low power if it was. -/
structure PhyKept (before after : MemPhy) : Prop where
  options : after.options = before.options
  lowPower : before.state = .lowPower → after.state = .lowPower

theorem PhyKept.refl (phy : MemPhy) : PhyKept phy phy := ⟨rfl, id⟩

theorem PhyKept.trans {before middle after : MemPhy} (first : PhyKept before middle)
    (second : PhyKept middle after) : PhyKept before after :=
  ⟨second.options.trans first.options, second.lowPower ∘ first.lowPower⟩

theorem PhyKept.behavioral {before after : MemPhy} (keeps : PhyKept before after) :
    after.behavioral = before.behavioral := by
  unfold MemPhy.behavioral
  rw [keeps.options]

/-- The device is as before, later, and may have forgotten activates outside their window. The
flag of a low-power state stays while an explicit one is active. -/
structure DeviceKept (before after : Controller β) : Prop where
  spec : after.spec = before.spec
  options : after.options = before.options
  banks : after.banks = before.banks
  clk : before.clk ≤ after.clk
  timingEngine : after.timingEngine = before.timingEngine ∨
    after.timingEngine = before.timingEngine.pruneRecentActs before.spec after.clk
  explicitPowerDownActive : after.explicitPowerDownActive = before.explicitPowerDownActive
  explicitSelfRefreshActive : after.explicitSelfRefreshActive = before.explicitSelfRefreshActive
  lowPowerActive : (before.explicitPowerDownActive || before.explicitSelfRefreshActive) = true →
    before.lowPowerActive = true → after.lowPowerActive = true
  memPhy : PhyKept before.memPhy after.memPhy

theorem Housekeeping.deviceKept (keeps : Housekeeping before after)
    (timingEngine : after.timingEngine = before.timingEngine ∨
      after.timingEngine = before.timingEngine.pruneRecentActs before.spec after.clk)
    (lowPowerActive : (before.explicitPowerDownActive || before.explicitSelfRefreshActive) =
      true → before.lowPowerActive = true → after.lowPowerActive = true) :
    DeviceKept before after :=
  ⟨keeps.spec, keeps.options, keeps.banks, Nat.le_of_eq keeps.clk.symm, timingEngine,
    congrArg Core.explicitPowerDownActive keeps.core,
    congrArg Core.explicitSelfRefreshActive keeps.core, lowPowerActive,
    by rw [show after.memPhy = before.memPhy from congrArg Core.memPhy keeps.core]
       exact PhyKept.refl _⟩

theorem Choosing.deviceKept (choosing : Choosing before after) : DeviceKept before after :=
  choosing.housekeeping.deviceKept (Or.inl choosing.timingEngine)
    fun _ active => choosing.lowPowerActive.trans active

/-- What a frame has to say beyond the core. -/
def outside (c : Controller β) : TimingEngine × Bool := (c.timingEngine, c.lowPowerActive)

@[simp] theorem scheduleMaintenance_outside (command : Command) (decoded : DecodedAddress) :
    (c.scheduleMaintenance command decoded).outside = c.outside := by
  rw [scheduleMaintenance_eq]
  rfl

theorem foldl_outside {α : Type} {step : Controller β → α → Controller β}
    (keeps : ∀ c item, (step c item).outside = c.outside) (items : List α)
    (c : Controller β) : (items.foldl step c).outside = c.outside := by
  induction items generalizing c with
  | nil => rfl
  | cons item rest inductionHypothesis => rw [List.foldl_cons, inductionHypothesis, keeps]

/-- New work keeps the timing, and the flag of an explicit low-power state. -/
theorem prepareAccept_outside (c : Controller β) (request : Request) :
    (c.prepareAccept request).timingEngine = c.timingEngine ∧
      ((c.explicitPowerDownActive || c.explicitSelfRefreshActive) = true →
        c.lowPowerActive = true → (c.prepareAccept request).lowPowerActive = true) := by
  have withdrawn : c.withdrawSelfRefresh.outside = c.outside ∧
      c.withdrawSelfRefresh.explicitPowerDownActive = c.explicitPowerDownActive ∧
      c.withdrawSelfRefresh.explicitSelfRefreshActive = c.explicitSelfRefreshActive := by
    unfold withdrawSelfRefresh
    split <;> exact ⟨rfl, rfl, rfl⟩
  have woken : ∀ c : Controller β, (c.wakeUp request).timingEngine = c.timingEngine ∧
      ((c.explicitPowerDownActive || c.explicitSelfRefreshActive) = true →
        c.lowPowerActive = true → (c.wakeUp request).lowPowerActive = true) := by
    intro c
    unfold wakeUp
    split
    · exact ⟨rfl, fun _ => id⟩
    split
    · dsimp only
      split
      · exact ⟨rfl, fun _ => id⟩
      · rw [scheduleMaintenance_eq]
        exact ⟨rfl, fun _ => id⟩
    next implicit => exact ⟨rfl, fun explicit => absurd explicit implicit⟩
  unfold prepareAccept
  split
  · exact ⟨rfl, fun _ => id⟩
  · obtain ⟨same, powerDown, selfRefresh⟩ := withdrawn
    obtain ⟨timing, flag⟩ := woken c.withdrawSelfRefresh
    rw [powerDown, selfRefresh] at flag
    exact ⟨timing.trans (congrArg Prod.fst same),
      fun explicit active => flag explicit ((congrArg Prod.snd same).trans active)⟩

theorem applyRowPolicyPreSchedule_outside (c : Controller β) :
    c.applyRowPolicyPreSchedule.outside = c.outside := by
  unfold applyRowPolicyPreSchedule
  split
  · rfl
  · refine foldl_outside (fun c flat => ?_) _ c
    unfold schedulePrecharge
    dsimp only
    split
    · rfl
    · split <;> rfl

theorem upkeep_outside (c : Controller β) :
    c.upkeep.outside = (c.timingEngine.pruneRecentActs c.spec c.clk, c.lowPowerActive) := by
  have service : ∀ c : Controller β, c.servicePendingMaintenance.outside = c.outside := by
    intro c
    unfold servicePendingMaintenance favourExit
    dsimp only
    split
    · rfl
    split
    · split <;> rfl
    · rfl
  have refresh : ∀ c : Controller β, c.scheduleRefresh.outside = c.outside := by
    intro c
    unfold scheduleRefresh
    dsimp only
    rw [foldl_outside (fun c command => scheduleMaintenance_outside _ _)]
    rfl
  have wake : ∀ c : Controller β, c.wakeFromSelfRefresh.outside = c.outside := by
    intro c
    unfold wakeFromSelfRefresh
    dsimp only
    split
    · exact scheduleMaintenance_outside _ _
    · rfl
  unfold upkeep
  dsimp only
  rw [applyRowPolicyPreSchedule_outside, service, refresh, wake]
  rfl

/-- An idle channel may enter a low-power mode, and leaves none. -/
theorem idleLowPower_outside (c : Controller β) :
    c.idleLowPower.timingEngine = c.timingEngine ∧
      (c.lowPowerActive = true → c.idleLowPower.lowPowerActive = true) := by
  have entry : ∀ c : Controller β, c.enterLowPower.timingEngine = c.timingEngine ∧
      (c.lowPowerActive = true → c.enterLowPower.lowPowerActive = true) := by
    intro c
    unfold enterLowPower
    split
    · split
      · exact ⟨rfl, id⟩
      · rw [scheduleMaintenance_eq]
        exact ⟨rfl, id⟩
    · exact ⟨rfl, fun _ => rfl⟩
  unfold idleLowPower
  split
  · exact ⟨rfl, id⟩
  split
  · exact ⟨rfl, id⟩
  have started : (if c.lowPowerIdleSince = 0 then { c with lowPowerIdleSince := c.clk }
      else c).outside = c.outside := by
    split <;> rfl
  dsimp only
  generalize (if c.lowPowerIdleSince = 0 then { c with lowPowerIdleSince := c.clk } else c) =
    later at started ⊢
  have timing : later.timingEngine = c.timingEngine := congrArg Prod.fst started
  have flag : later.lowPowerActive = c.lowPowerActive := congrArg Prod.snd started
  rw [← timing, ← flag]
  split
  · exact entry later
  · exact ⟨rfl, id⟩

/-! ### The PHY between the turns -/

theorem advanceLifecycle_kept (phy : MemPhy) (spec : DramSpec) (cycle : Nat) :
    PhyKept phy (phy.advanceLifecycle spec cycle) := by
  have after : PhyKept phy { phy.afterInitialization spec cycle with state := phy.state } := by
    unfold MemPhy.afterInitialization
    split <;> exact ⟨rfl, id⟩
  refine ⟨?_, fun isLow => ?_⟩
  · have options := after.options
    unfold MemPhy.advanceLifecycle
    repeat' split
    all_goals first
      | rfl
      | exact options
  · unfold MemPhy.advanceLifecycle
    rw [isLow]
    split
    · exact isLow
    · exact isLow

theorem takeCompletion_kept {phy next : MemPhy} {requestId controllerSequence : Nat}
    {completion : MemPhyCompletion}
    (takes : phy.takeCompletion requestId controllerSequence = some (completion, next)) :
    PhyKept phy next := by
  unfold MemPhy.takeCompletion at takes
  obtain ⟨found, -, is⟩ := Option.map_eq_some_iff.mp takes
  cases is
  exact ⟨rfl, id⟩

theorem submitData_kept {phy next : MemPhy} {spec : DramSpec} {request : Request}
    {command : Command} {cycle ready : Nat}
    (submits : phy.submitData spec request command cycle = .ok (ready, next)) :
    PhyKept phy next := by
  unfold MemPhy.submitData at submits
  split at submits
  · cases submits
    exact PhyKept.refl phy
  · obtain ⟨_, -, submits⟩ := bind_eq_ok.mp submits
    dsimp only at submits
    split at submits
    · cases submits
      exact ⟨rfl, id⟩
    · split at submits
      · cases submits
        exact ⟨rfl, id⟩
      · cases submits

theorem readiness_kept {request finished : Request} {phyCompletion : Option MemPhyCompletion}
    {memPhy : MemPhy} (ready : c.readiness request = .completes finished phyCompletion memPhy) :
    PhyKept c.memPhy memPhy := by
  unfold readiness at ready
  split at ready
  · cases ready
  split at ready
  · split at ready
    · cases ready
    next takes =>
      cases ready
      exact takeCompletion_kept takes
  · cases ready
    exact PhyKept.refl _

theorem submitIssued_kept {request : Request} {issued : Command} {completion : Nat}
    {memPhy : MemPhy} (submits : c.submitIssued request issued = .ok (completion, memPhy)) :
    PhyKept c.memPhy memPhy := by
  unfold submitIssued at submits
  split at submits
  · exact submitData_kept submits
  · split at submits <;> cases submits <;> exact PhyKept.refl _

section Steps

variable [MemoryBackend β] {request : Request} {candidate : Candidate} {bus : BusClass}

theorem Completion.phyKept {stays : Bool} (completion : Completion c request stays after) :
    PhyKept c.memPhy after.memPhy := by
  cases completion with
  | waits => exact PhyKept.refl _
  | read isRead ready completes =>
    have kept := readiness_kept ready
    unfold countCompleted keepResponse
    dsimp only
    split <;> exact kept
  | write isWrite ready completes =>
    have kept := readiness_kept ready
    unfold countCompleted keepResponse
    dsimp only
    split <;> exact kept
  | maintenance isMaintenance ready => exact readiness_kept ready

theorem completeEach_phyKept {requests left : List Request}
    (returns : completeEach requests c = .ok (left, after)) :
    PhyKept c.memPhy after.memPhy := by
  induction requests generalizing c left with
  | nil =>
    cases returns
    exact PhyKept.refl _
  | cons request rest inductionHypothesis =>
    obtain ⟨⟨stays, middle⟩, one, returns⟩ := bind_eq_ok.mp returns
    obtain ⟨⟨later, final⟩, others, returns⟩ := bind_eq_ok.mp returns
    cases returns
    exact (completeOne_cases one).phyKept.trans (inductionHypothesis others)

theorem tick_phyKept {phy next : MemPhy} {spec : DramSpec} {image image' : MemoryImage β}
    {cycle : Nat} (ticks : phy.tick spec image cycle = .ok (next, image')) :
    PhyKept phy next := by
  unfold MemPhy.tick at ticks
  obtain ⟨⟨reads, readsDone, readImage⟩, -, ticks⟩ := bind_eq_ok.mp ticks
  obtain ⟨⟨writes, writesDone, writeImage⟩, -, ticks⟩ := bind_eq_ok.mp ticks
  cases ticks
  have kept := advanceLifecycle_kept phy spec cycle
  exact ⟨kept.options, kept.lowPower⟩

theorem beginTick_deviceKept {begun : Controller β} (returns : c.beginTick = .ok begun) :
    DeviceKept c begun := by
  have phyKept : PhyKept c.memPhy begun.memPhy := by
    unfold beginTick completePending at returns
    obtain ⟨⟨memPhy, memoryImage⟩, ticks, returns⟩ := bind_eq_ok.mp returns
    obtain ⟨⟨left, completed⟩, each, returns⟩ := bind_eq_ok.mp returns
    cases returns
    exact (tick_phyKept ticks).trans (completeEach_phyKept each)
  rw [(beginTick_eq returns).2]
  exact ⟨rfl, rfl, rfl, Nat.le_succ _, Or.inl rfl, rfl, rfl, fun _ => id, phyKept⟩

theorem Entry.deviceKept {accepted : Bool} (entry : Entry c request accepted after) :
    DeviceKept c after := by
  cases entry with
  | forwarded isRead hits forwards =>
    unfold forwardRead at forwards
    obtain ⟨⟨payload, byteMask, image⟩, -, forwards⟩ := bind_eq_ok.mp forwards
    cases forwards
    exact ⟨rfl, rfl, rfl, Nat.le_refl _, Or.inl rfl, rfl, rfl, fun _ => id, PhyKept.refl _⟩
  | _ => exact ⟨rfl, rfl, rfl, Nat.le_refl _, Or.inl rfl, rfl, rfl, fun _ => id, PhyKept.refl _⟩

theorem Advance.deviceKept (advance : Advance c candidate request after) :
    DeviceKept c after := by
  cases advance with
  | retired after data ordinary how =>
    have phyKept := submitIssued_kept how.submits
    rw [leaveBuffer_eq] at phyKept
    rw [how.result, leaveBuffer_eq]
    exact ⟨rfl, rfl, rfl, Nat.le_refl _, Or.inl rfl, rfl, rfl, fun _ => id, phyKept⟩
  | _ => exact ⟨rfl, rfl, rfl, Nat.le_refl _, Or.inl rfl, rfl, rfl, fun _ => id, PhyKept.refl _⟩

/-- The rule for an invariant of the issued commands and the device: what keeps the device keeps
the invariant, and so do the effects of a command the choice let through. -/
theorem kept_of_commands {requests : Controller β → Request → Prop}
    {turns : Controller β → BusClass → Prop} {Inv : List IssuedCommand → Controller β → Prop}
    (quiet : ∀ commands before after, Inv commands before → DeviceKept before after →
      Inv commands after)
    (issue : ∀ commands c bus chosen candidate request memPhy memoryImage, Inv commands chosen →
      turns c bus → Choosing c chosen → c.picked bus = some (request, candidate.command) →
      Issuable chosen candidate request →
      chosen.memPhy.acceptCommand chosen.spec candidate.command chosen.clk = .ok memPhy →
      Inv (commands ++ [chosen.issuedRecord request candidate])
        (chosen.issueEffects candidate request memPhy memoryImage)) :
    Kept requests turns fun events c => Inv (commandsOf events) c where
  enqueue history c request accepted after holds _ returns := by
    rw [commandsOf_acceptance]
    obtain ⟨timing, flag⟩ := prepareAccept_outside c request
    exact quiet _ _ _ (quiet _ _ _ holds
      ((prepareAccept_housekeeping c request).deviceKept (Or.inl timing) flag))
      (enqueue_cases returns).2.deviceKept
  beginTick history c begun holds returns := quiet _ _ _ holds (beginTick_deviceKept returns)
  upkeep history c holds _ := by
    have outside := upkeep_outside c
    have flag : c.upkeep.lowPowerActive = c.lowPowerActive := congrArg Prod.snd outside
    refine quiet _ _ _ holds ((upkeep_housekeeping c).deviceKept (Or.inr ?_)
      fun _ => flag.trans)
    rw [(upkeep_housekeeping c).clk]
    exact congrArg Prod.fst outside
  turn history c bus issued after holds guard returns := by
    rw [commandsOf_issued]
    cases turn_cases returns with
    | idle chosen choosing =>
      rw [List.append_nil]
      exact quiet _ _ _ holds choosing.deviceKept
    | issue choosing picks issuing =>
      exact quiet _ _ _ (issue _ _ _ _ _ _ _ _ (quiet _ _ _ holds choosing.deviceKept) guard
        choosing picks issuing.issuable issuing.accepts) issuing.advance.deviceKept
  idleLowPower history c holds := by
    obtain ⟨timing, flag⟩ := idleLowPower_outside c
    exact quiet _ _ _ holds ((idleLowPower_housekeeping c).deviceKept (Or.inl timing)
      fun _ => flag)
  popResponse history c response after holds returns := by
    rw [commandsOf_responded]
    refine quiet _ _ _ holds ?_
    unfold popResponse at returns
    split at returns
    · cases returns
    · cases returns
      exact ⟨rfl, rfl, rfl, Nat.le_refl _, Or.inl rfl, rfl, rfl, fun _ => id, PhyKept.refl _⟩
  flushStorage history c after holds returns := by
    refine quiet _ _ _ holds ?_
    obtain ⟨image, -, returned⟩ := bind_eq_ok.mp returns
    cases returned
    exact ⟨rfl, rfl, rfl, Nat.le_refl _, Or.inl rfl, rfl, rfl, fun _ => id, PhyKept.refl _⟩

end Steps

end Controller

end HbmSim
