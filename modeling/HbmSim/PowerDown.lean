/-
Power-down excludes the other commands of the channel, as long as its exit goes
first.

A behavioral PHY and self refresh let nothing else through. Without them the
command check of the source does not look at power-down for activates, column
commands, precharges and refreshes, so these wait only while the exit is ahead
of them.
-/

import HbmSim.CommandHistory
import HbmSim.Conservation
import HbmSim.Lib.Span

namespace HbmSim

/-- Activates, column commands, precharges, refreshes, refresh management and mode registers. -/
def barredInPowerDown (command : Command) : Bool :=
  let row := commandMeta command
  row.activate || decide (command = .act2) || row.columnCommand || row.precharge ||
    row.refresh || row.rfm || row.modeRegister

/-- No barred command is issued between a power-down entry and the next exit. -/
def PowerDownExclusive (commands : List IssuedCommand) : Prop :=
  Span.Excludes (fun issued : IssuedCommand => decide (issued.command = .pde))
    (fun issued => decide (issued.command = .pdx)) (fun issued => barredInPowerDown issued.command)
    commands

def inPowerDown (commands : List IssuedCommand) : Bool :=
  Span.inside (fun issued : IssuedCommand => decide (issued.command = .pde))
    (fun issued => decide (issued.command = .pdx)) commands

namespace Controller

variable {β : Type} {c before after chosen : Controller β} {commands : List IssuedCommand}
variable {request : Request} {candidate : Candidate} {bus : BusClass}

/-! ### The condition -/

/-- The requests ahead of the first exit. -/
def aheadOfExit (requests : List Request) : List Request :=
  requests.takeWhile fun request => decide (request.next ≠ .pdx)

/-- The exit is ahead of everything a turn could serve: nothing is active, what is ahead of the
first exit in the priority queue is for other commands or is a precharge that is done already, and
without an exit no read or write is queued. -/
structure ExitFirst (c : Controller β) : Prop where
  active : c.requestQueues.queue .active = []
  ahead : ∀ request ∈ aheadOfExit (c.requestQueues.queue .priority),
    barredInPowerDown request.next = false ∨
      (request.next = .prepb ∧ (c.bankOf request).busy = false)
  ordinary : (∀ request ∈ c.requestQueues.queue .priority, request.next ≠ .pdx) →
    c.requestQueues.queue .read = [] ∧ c.requestQueues.queue .write = []

/-- In power-down, a turn of a direct PHY outside self refresh finds the exit first. -/
def PowerDownGuarded (c : Controller β) : Prop :=
  c.explicitPowerDownActive = true → c.memPhy.behavioral = true ∨
    c.spec.lowPowerMode = .selfRefresh ∨ c.explicitSelfRefreshActive = true ∨ ExitFirst c

instance : Decidable (ExitFirst c) :=
  decidable_of_iff (c.requestQueues.queue .active = [] ∧
      (∀ request ∈ aheadOfExit (c.requestQueues.queue .priority),
        barredInPowerDown request.next = false ∨
          (request.next = .prepb ∧ (c.bankOf request).busy = false)) ∧
      ((∀ request ∈ c.requestQueues.queue .priority, request.next ≠ .pdx) →
        c.requestQueues.queue .read = [] ∧ c.requestQueues.queue .write = []))
    ⟨fun ⟨active, ahead, ordinary⟩ => ⟨active, ahead, ordinary⟩,
      fun ⟨active, ahead, ordinary⟩ => ⟨active, ahead, ordinary⟩⟩

instance : Decidable (PowerDownGuarded c) := by
  unfold PowerDownGuarded
  infer_instance

/-! ### What the check lets through -/

/-- In power-down nothing that needs a quiet channel is legal. -/
theorem legal_powerDown {state : CommandStateSnapshot} {command : Command}
    (low : state.lowPowerActive = true) (awake : state.selfRefreshActive = false)
    (legal : (checkCommandState state command).legal = true) :
    command ≠ .mrw ∧ command ≠ .mrr ∧ command ≠ .wcksync ∧ command ≠ .pde ∧
      command ≠ .srefex := by
  unfold checkCommandState legalOutsideSelfRefresh at legal
  rw [if_neg (by rw [awake]; nofun)] at legal
  refine ⟨?_, ?_, ?_, ?_, ?_⟩ <;> rintro rfl <;> simp [low, awake] at legal

/-- In self refresh only the exit is legal. -/
theorem legal_selfRefresh {state : CommandStateSnapshot} {command : Command}
    (asleep : state.selfRefreshActive = true)
    (legal : (checkCommandState state command).legal = true) : command = .srefex := by
  unfold checkCommandState at legal
  by_contra other
  rw [if_pos ⟨asleep, other⟩] at legal
  cases legal

/-- A PHY in low power takes nothing but an exit. -/
theorem canAcceptCommand_lowPower {phy : MemPhy} {command : Command}
    (behavioral : phy.behavioral = true) (low : phy.state = .lowPower)
    (accepts : phy.canAcceptCommand command = true) : command = .pdx ∨ command = .srefex := by
  unfold MemPhy.canAcceptCommand at accepts
  rw [if_neg (by rw [behavioral]; nofun)] at accepts
  split at accepts
  · cases accepts
  · rw [low] at accepts
    exact of_decide_eq_true accepts

theorem acceptCommand_behavioral {phy next : MemPhy} {spec : DramSpec} {command : Command}
    {cycle : Nat} (accepts : phy.acceptCommand spec command cycle = .ok next) :
    next.behavioral = phy.behavioral := by
  unfold MemPhy.acceptCommand at accepts
  split at accepts
  · cases accepts
    rfl
  · obtain ⟨_, -, accepts⟩ := bind_eq_ok.mp accepts
    cases accepts
    unfold MemPhy.stateAfter
    split <;> try rfl
    split <;> rfl

/-- The entry puts a behavioral PHY to sleep. -/
theorem acceptCommand_entry {phy next : MemPhy} {spec : DramSpec} {command : Command}
    {cycle : Nat} (accepts : phy.acceptCommand spec command cycle = .ok next)
    (behavioral : phy.behavioral = true) (entry : command = .pde) : next.state = .lowPower := by
  subst entry
  unfold MemPhy.acceptCommand at accepts
  rw [if_neg (by rw [behavioral]; nofun)] at accepts
  obtain ⟨_, -, accepts⟩ := bind_eq_ok.mp accepts
  cases accepts
  rfl

/-! ### The invariant -/

/-- The power-down flag follows the commands, the modelled flag stays up with it, and the PHY
sleeps too unless the spec takes every low-power state for self refresh. -/
structure PowerTracked (commands : List IssuedCommand) (c : Controller β) : Prop where
  exclusive : PowerDownExclusive commands
  flag : c.explicitPowerDownActive = inPowerDown commands
  low : c.explicitPowerDownActive = true → c.lowPowerActive = true
  phy : c.explicitPowerDownActive = true → c.memPhy.behavioral = true →
    c.spec.lowPowerMode ≠ .selfRefresh →
    c.memPhy.state = .lowPower ∧ c.explicitSelfRefreshActive = false

theorem PowerTracked.quiet (tracked : PowerTracked commands before)
    (keeps : DeviceKept before after) : PowerTracked commands after where
  exclusive := tracked.exclusive
  flag := keeps.explicitPowerDownActive.trans tracked.flag
  low down := by
    rw [keeps.explicitPowerDownActive] at down
    exact keeps.lowPowerActive (by rw [down]; rfl) (tracked.low down)
  phy down behavioral mode := by
    rw [keeps.explicitPowerDownActive] at down
    rw [keeps.memPhy.behavioral] at behavioral
    rw [keeps.spec] at mode
    obtain ⟨state, awake⟩ := tracked.phy down behavioral mode
    exact ⟨keeps.memPhy.lowPower state, keeps.explicitSelfRefreshActive.trans awake⟩

theorem stateSnapshot_lowPowerActive (request : Request) (command : Command)
    (down : c.explicitPowerDownActive = true) :
    (c.stateSnapshot request command).lowPowerActive = true := by
  unfold stateSnapshot
  simp [down]

theorem stateSnapshot_selfRefreshActive (c : Controller β) (request : Request)
    (command : Command) :
    (c.stateSnapshot request command).selfRefreshActive =
      (c.explicitSelfRefreshActive || (c.lowPowerActive &&
        decide (c.spec.lowPowerMode = .selfRefresh))) := rfl

/-- A satisfied precharge is gone, so the precharge of a closed bank is never issued. -/
theorem Issuable.precharge_busy (issuable : Issuable c candidate request)
    (precharge : candidate.command = .prepb) : (c.bankOf request).busy = true := by
  have gates := issuable.gates
  rw [precharge] at gates
  unfold gatesOpen at gates
  simp only [Bool.and_eq_true] at gates
  unfold BankState.busy
  rw [gates.1.1.2, Bool.or_true]

/-- Maintenance for a command that is not barred issues that very command. -/
theorem Issuable.unbarred (issuable : Issuable c candidate request)
    (type : request.type = .maintenance) (free : barredInPowerDown request.next = false) :
    candidate.command = request.next := by
  rw [issuable.maintenance type]
  unfold nextMaintenanceCommand
  dsimp only
  have other : request.next ≠ .refab ∧ request.next ≠ .rfmab ∧ request.next ≠ .refpb ∧
      request.next ≠ .refdb ∧ request.next ≠ .rfmpb := by
    refine ⟨?_, ?_, ?_, ?_, ?_⟩ <;> intro is <;> rw [is] at free <;> cases free
  simp [other]

/-- Behind the exit no turn issues a barred command. -/
theorem ExitFirst.unbarred (first : ExitFirst c) (kinds : QueueKinds c)
    (choosing : Choosing c chosen) (issuable : Issuable chosen candidate request) :
    barredInPowerDown candidate.command = false := by
  have keeps := choosing.housekeeping
  obtain ⟨satisfied, split, precharges⟩ := choosing.dropped
  have found := List.mem_of_getElem? issuable.found
  have notExit : ∀ request ∈ satisfied, decide (request.next ≠ .pdx) = true := by
    intro request member
    rw [precharges request member]
    rfl
  have inactive : candidate.buffer ≠ .active := by
    intro is
    rw [is, keeps.queue .active nofun, first.active] at found
    cases found
  rcases issuable.place with active | ⟨priority, head⟩ | served
  · exact absurd active inactive
  · have atHead := issuable.found
    rw [priority, head] at atHead
    obtain ⟨rest, queue⟩ : ∃ rest, chosen.requestQueues.queue .priority = request :: rest := by
      cases whole : chosen.requestQueues.queue .priority with
      | nil => rw [whole] at atHead; cases atHead
      | cons other rest =>
        rw [whole] at atHead
        cases atHead
        exact ⟨rest, rfl⟩
    have type : request.type = .maintenance := by
      refine (keeps.kinds kinds).maintenance request (List.mem_append_left _ ?_)
      rw [queue]
      exact List.mem_cons_self
    by_cases exit : request.next = .pdx
    · rw [issuable.unbarred type (by rw [exit]; rfl), exit]
      rfl
    · have ahead : request ∈ aheadOfExit (c.requestQueues.queue .priority) := by
        unfold aheadOfExit
        rw [split, queue, List.takeWhile_append_of_pos notExit,
          List.takeWhile_cons_of_pos (by simpa using exit)]
        exact List.mem_append_right _ List.mem_cons_self
      rcases first.ahead request ahead with free | ⟨precharge, idle⟩
      · rw [issuable.unbarred type free]
        exact free
      · have command : candidate.command = .prepb := by
          rw [issuable.maintenance type]
          unfold nextMaintenanceCommand
          simp [precharge]
        have busy := issuable.precharge_busy command
        unfold bankOf at busy idle
        rw [keeps.banks, keeps.spec, idle] at busy
        cases busy
  · have exitless : ∀ request ∈ c.requestQueues.queue .priority, request.next ≠ .pdx := by
      rw [split, served, List.append_nil]
      intro request member
      rw [precharges request member]
      nofun
    obtain ⟨noReads, noWrites⟩ := first.ordinary exitless
    cases buffer : candidate.buffer with
    | active => exact absurd buffer inactive
    | priority => rw [buffer, served] at found; cases found
    | read => rw [buffer, keeps.queue .read nofun, noReads] at found; cases found
    | write => rw [buffer, keeps.queue .write nofun, noWrites] at found; cases found

/-- A guarded turn issues no barred command in power-down. -/
theorem PowerTracked.unbarred (tracked : PowerTracked commands chosen)
    (guarded : PowerDownGuarded c) (kinds : QueueKinds c) (choosing : Choosing c chosen)
    (issuable : Issuable chosen candidate request)
    (down : chosen.explicitPowerDownActive = true) :
    barredInPowerDown candidate.command = false := by
  have keeps := choosing.deviceKept
  cases asleep : (chosen.stateSnapshot request candidate.command).selfRefreshActive with
  | true =>
    rw [legal_selfRefresh asleep issuable.legal]
    rfl
  | false =>
    have awake := asleep
    rw [stateSnapshot_selfRefreshActive, Bool.or_eq_false_iff, tracked.low down,
      Bool.true_and, decide_eq_false_iff_not] at awake
    rw [keeps.explicitPowerDownActive] at down
    rcases guarded down with behavioral | mode | selfRefresh | first
    · rw [← keeps.memPhy.behavioral] at behavioral
      rw [← keeps.explicitPowerDownActive] at down
      obtain ⟨state, -⟩ := tracked.phy down behavioral awake.2
      rcases canAcceptCommand_lowPower behavioral state issuable.accepts with exit | exit <;>
        rw [exit] <;> rfl
    · rw [← keeps.spec] at mode
      exact absurd mode awake.2
    · rw [← keeps.explicitSelfRefreshActive, awake.1] at selfRefresh
      cases selfRefresh
    · exact first.unbarred kinds choosing issuable

/-- Explicit power-down keeps the modelled flag up through every command. -/
theorem issueEffects_low {memPhy : MemPhy} {memoryImage : MemoryImage β}
    (low : c.explicitPowerDownActive = true → c.lowPowerActive = true)
    (down : (c.issueEffects candidate request memPhy memoryImage).explicitPowerDownActive =
      true) : (c.issueEffects candidate request memPhy memoryImage).lowPowerActive = true := by
  obtain ⟨powerDown, -, lowPower⟩ :=
    issueEffects_power c candidate request memPhy memoryImage
  rw [powerDown, Bool.or_eq_true, decide_eq_true_eq, Bool.and_eq_true] at down
  rw [lowPower]
  rcases down with entry | ⟨was, stays⟩
  · rw [entry]
  · split
    · rfl
    · rfl
    next exit => rw [exit] at stays; cases stays
    · exact was
    · exact low was

theorem PowerTracked.issue (tracked : PowerTracked commands chosen)
    (guarded : PowerDownGuarded c) (kinds : QueueKinds c) (choosing : Choosing c chosen)
    (issuable : Issuable chosen candidate request) {memPhy : MemPhy}
    {memoryImage : MemoryImage β}
    (accepts : chosen.memPhy.acceptCommand chosen.spec candidate.command chosen.clk =
      .ok memPhy) :
    PowerTracked (commands ++ [chosen.issuedRecord request candidate])
      (chosen.issueEffects candidate request memPhy memoryImage) := by
  obtain ⟨powerDown, selfRefresh, -⟩ :=
    issueEffects_power chosen candidate request memPhy memoryImage
  have legal := issuable.legal
  refine ⟨?_, ?_, fun down => ?_, fun down behavioral mode => ?_⟩
  · refine tracked.exclusive.concat fun inside => ?_
    have down : chosen.explicitPowerDownActive = true := tracked.flag.trans inside
    exact tracked.unbarred guarded kinds choosing issuable down
  · unfold inPowerDown
    rw [powerDown, Span.inside_concat, tracked.flag]
    rfl
  · exact issueEffects_low tracked.low down
  · rw [powerDown, Bool.or_eq_true, decide_eq_true_eq, Bool.and_eq_true] at down
    rw [issueEffects_memPhy, acceptCommand_behavioral accepts] at behavioral
    rw [issueEffects_spec] at mode
    rw [issueEffects_memPhy, selfRefresh]
    have snapshot := stateSnapshot_selfRefreshActive chosen request candidate.command
    rcases down with entry | ⟨was, stays⟩
    · refine ⟨acceptCommand_entry accepts behavioral entry, ?_⟩
      have awake : chosen.explicitSelfRefreshActive = false := by
        by_contra asleep
        rw [Bool.not_eq_false] at asleep
        rw [asleep, Bool.true_or] at snapshot
        have exit := legal_selfRefresh snapshot legal
        rw [entry] at exit
        cases exit
      rw [awake, entry]
      rfl
    · -- In power-down the PHY takes only the exits, and the one of self refresh is not legal.
      obtain ⟨state, awake⟩ := tracked.phy was behavioral mode
      rw [awake, decide_eq_false mode, Bool.and_false, Bool.or_false] at snapshot
      have quiet := legal_powerDown (stateSnapshot_lowPowerActive request _ was) snapshot legal
      rcases canAcceptCommand_lowPower behavioral state issuable.accepts with exit | exit
      · rw [exit] at stays
        cases stays
      · exact absurd exit quiet.2.2.2.2

/-! ### Power-down is exclusive -/

section Runs

variable [MemoryBackend β]

/-- In every guarded run no barred command is issued between a power-down entry and the next
exit. -/
theorem power_down_exclusive {spec : DramSpec} {options : ControllerOptions}
    {image : MemoryImage β} {start final : Controller β} {ops : List ControllerOp}
    {events : List ControllerEvent} (created : create spec options image = .ok start)
    (guarded : start.RunMeets (fun _ _ => True) (fun c _ => PowerDownGuarded c) ops)
    (returns : start.run ops = .ok (events, final)) :
    PowerDownExclusive (commandsOf events) := by
  have kept : Kept (fun _ _ => True) (fun c _ => PowerDownGuarded c ∧ QueueKinds c)
      fun events (c : Controller β) => PowerTracked (commandsOf events) c :=
    kept_of_commands (fun _ _ _ tracked keeps => tracked.quiet keeps)
      fun _ _ _ _ _ _ _ _ tracked met choosing _ issuable accepts =>
        tracked.issue met.1 met.2 choosing issuable accepts
  have awake : start.explicitPowerDownActive = false := by
    rw [(create_created created).result]
  have begins : PowerTracked (commandsOf []) start :=
    ⟨Span.Excludes.nil, awake, fun down => absurd down (by rw [awake]; nofun),
      fun down => absurd down (by rw [awake]; nofun)⟩
  exact (kept.run begins (runMeets_kinds created guarded) returns).exclusive

/-- A power-down, and a read that ends it. -/
def readInPowerDown : List ControllerOp :=
  [.enqueue (maintain 1 .pde), .tick, .tick, .enqueue (readAt twoBanks 2 0 4)] ++
    List.replicate 20 .tick

theorem power_down_exclusive_readInPowerDown : ∃ start events final,
    create twoBanks {} (imageOf twoBanks) = .ok start ∧
      start.run readInPowerDown = .ok (events, final) ∧
      (commandsOf events).map (·.command) = [.pde, .pdx, .act] ∧
      PowerDownExclusive (commandsOf events) := by
  obtain ⟨start, events, final, created, guarded, returns, checks⟩ :=
    guardedRun_of_passes twoBanks {} readInPowerDown (fun _ _ => True)
      (fun c _ => PowerDownGuarded c)
      (fun result => decide ((commandsOf result.1).map (·.command) = [.pde, .pdx, .act]))
      (by decide +kernel) (by decide +kernel)
  exact ⟨start, events, final, created, returns, of_decide_eq_true checks,
    power_down_exclusive created guarded returns⟩

/-- A power-down while a read is queued already. -/
def readBeforePowerDown : List ControllerOp :=
  [.enqueue (readAt twoBanks 1 0 4), .enqueue (maintain 2 .pde), .tick, .tick]

/-- The read that was queued before the entry issued is activated in power-down. -/
theorem power_down_broken_by_queued_read : ∃ start events final,
    create twoBanks {} (imageOf twoBanks) = .ok start ∧
      start.run readBeforePowerDown = .ok (events, final) ∧
      ¬ PowerDownExclusive (commandsOf events) := by
  obtain ⟨start, events, final, created, returns, checks⟩ :=
    freshRun_of_passes twoBanks {} readBeforePowerDown
      (fun result => decide ((commandsOf result.1).map (·.command) = [.pde, .act]))
      (by decide +kernel)
  refine ⟨start, events, final, created, returns, fun exclusive => ?_⟩
  have commands := of_decide_eq_true checks
  obtain ⟨entry, rest, split, entered, others⟩ := List.map_eq_cons_iff.mp commands
  obtain ⟨later, rest, rfl, activate, nothing⟩ := List.map_eq_cons_iff.mp others
  have free := exclusive [] entry [] later rest split (decide_eq_true entered)
    fun _ member => absurd member List.not_mem_nil
  dsimp only at free
  rw [activate] at free
  cases free

end Runs

end Controller

end HbmSim
