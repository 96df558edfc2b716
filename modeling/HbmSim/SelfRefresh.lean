/-
Self refresh excludes every command but its exit, the exit is followed by its
recovery time, and no rank comes to owe a refresh meanwhile.

All of it depends on three fields, `Sleep`, which only the commands of self refresh,
the arrival of work and the refresh manager's own tick write. The exit goes in
the last turn of its tick, so its recovery begins before anything else is tried.
-/

import HbmSim.WriteDrain
import HbmSim.Lib.History

namespace HbmSim

/-- No command but the exit is issued between a self-refresh entry and the next exit. -/
def SelfRefreshExclusive (commands : List IssuedCommand) : Prop :=
  Span.Excludes (fun issued : IssuedCommand => decide (issued.command = .srefen))
    (fun issued => decide (issued.command = .srefex))
    (fun issued => decide (issued.command ≠ .srefex)) commands

def inSelfRefresh (commands : List IssuedCommand) : Bool :=
  Span.inside (fun issued : IssuedCommand => decide (issued.command = .srefen))
    (fun issued => decide (issued.command = .srefex)) commands

/-- The ticks an exit from self refresh takes. -/
def exitRecovery (spec : DramSpec) : Nat := timingDelay spec (max 1 spec.timing.nSREFEX)

/-- Every command comes after the recovery of every exit before it. -/
def ExitsRecovered (spec : DramSpec) (commands : List IssuedCommand) : Prop :=
  History.Each (fun before issued => ∀ exit ∈ before, exit.command = .srefex →
    exit.cycle + exitRecovery spec ≤ issued.cycle) commands

/-! ### The refresh manager in self refresh -/

namespace RefreshManager

/-- What each rank owes. -/
def credits (manager : RefreshManager) : List Int := manager.rankStates.map (·.credit)

theorem accrue_credit (clk intervalTicks fuel : Nat) (state : RankRefreshState) :
    (accrue true clk intervalTicks fuel state).1.credit = state.credit := by
  induction fuel generalizing state with
  | zero => rfl
  | succ fuel inductionHypothesis =>
    unfold accrue
    split
    · dsimp only
      rw [inductionHypothesis, if_pos rfl]
    · rfl

theorem accrueRank_credit (clk intervalTicks : Nat) (state : RankRefreshState) :
    (accrueRank true clk intervalTicks state).1.credit = state.credit := by
  unfold accrueRank
  dsimp only
  split <;> exact accrue_credit ..

/-- A deadline that passes in self refresh adds nothing to what a rank owes. -/
theorem tick_asleep {manager : RefreshManager} {spec : DramSpec} (clk : Nat) (prefer pull : Bool)
    (ranks : manager.rankStates.length = max 1 spec.org.ranks)
    (asleep : manager.selfRefreshActive = true) :
    (manager.tick spec clk prefer pull).2.credits = manager.credits := by
  unfold tick serve
  dsimp only
  split
  · rfl
  · rw [if_neg (not_not.mpr ranks), if_pos asleep, asleep]
    unfold credits
    dsimp only
    rw [List.map_map, List.map_map]
    exact List.map_congr_left fun state _ => accrueRank_credit clk _ state

end RefreshManager

namespace Controller

variable {β : Type} {c after : Controller β} {request : Request} {candidate : Candidate}
variable {bus : BusClass} {issued : List IssuedCommand}

/-! ### The state of self refresh -/

structure Sleep where
  asleep : Bool
  exitUntil : Nat
  manager : RefreshManager

def sleep (c : Controller β) : Sleep where
  asleep := c.explicitSelfRefreshActive
  exitUntil := c.lowPowerExitUntil
  manager := c.refreshManager

/-- What a command writes of it. -/
def Sleep.next (spec : DramSpec) (sleep : Sleep) (issued : IssuedCommand) : Sleep :=
  match issued.command with
  | .srefen => { sleep with
      asleep := true, manager := { sleep.manager with selfRefreshActive := true } }
  | .srefex => {
      asleep := false
      exitUntil := max sleep.exitUntil (issued.cycle + exitRecovery spec)
      manager := { sleep.manager with selfRefreshActive := false } }
  | _ => sleep

theorem foldl_sleep {α : Type} {step : Controller β → α → Controller β}
    (keeps : ∀ c item, (step c item).sleep = c.sleep) (items : List α) (c : Controller β) :
    (items.foldl step c).sleep = c.sleep := by
  induction items generalizing c with
  | nil => rfl
  | cons item rest inductionHypothesis => rw [List.foldl_cons, inductionHypothesis, keeps]

theorem scheduleMaintenance_sleep (c : Controller β) (command : Command)
    (decoded : DecodedAddress) : (c.scheduleMaintenance command decoded).sleep = c.sleep := by
  rw [scheduleMaintenance_eq]
  rfl

/-- New work may start an exit, and nothing else. -/
theorem prepareAccept_sleep (c : Controller β) (request : Request) :
    ∃ later, c.lowPowerExitUntil ≤ later ∧
      (c.prepareAccept request).sleep = { c.sleep with exitUntil := later } := by
  have withdrawn : c.withdrawSelfRefresh.sleep = c.sleep := by
    unfold withdrawSelfRefresh
    split <;> rfl
  have woken : ∀ c : Controller β, ∃ later, c.lowPowerExitUntil ≤ later ∧
      (c.wakeUp request).sleep = { c.sleep with exitUntil := later } := by
    intro c
    unfold wakeUp
    split
    · exact ⟨_, Nat.le_refl _, rfl⟩
    split
    · dsimp only
      split
      · exact ⟨_, Nat.le_refl _, rfl⟩
      · exact ⟨_, Nat.le_refl _, scheduleMaintenance_sleep ..⟩
    · exact ⟨_, Nat.le_max_left .., rfl⟩
  unfold prepareAccept
  split
  · exact ⟨_, Nat.le_refl _, rfl⟩
  · obtain ⟨later, grows, result⟩ := woken c.withdrawSelfRefresh
    rw [withdrawn] at result
    exact ⟨later, (congrArg Sleep.exitUntil withdrawn).ge.trans grows, result⟩

/-- Upkeep is where the refresh manager ticks. -/
theorem upkeep_sleep (c : Controller β) : ∃ prefer pull, c.upkeep.sleep =
    { c.sleep with manager := (c.refreshManager.tick c.spec c.clk prefer pull).2 } := by
  have precharges : ∀ c : Controller β, c.applyRowPolicyPreSchedule.sleep = c.sleep := by
    intro c
    unfold applyRowPolicyPreSchedule
    split
    · rfl
    · refine foldl_sleep (fun c flat => ?_) _ c
      unfold schedulePrecharge
      dsimp only
      split
      · rfl
      · split <;> rfl
  have service : ∀ c : Controller β, c.servicePendingMaintenance.sleep = c.sleep := by
    intro c
    unfold servicePendingMaintenance favourExit
    dsimp only
    split
    · rfl
    split
    · split <;> rfl
    · rfl
  have refresh : ∀ c : Controller β, ∃ prefer pull, c.scheduleRefresh.sleep =
      { c.sleep with manager := (c.refreshManager.tick c.spec c.clk prefer pull).2 } := by
    intro c
    unfold scheduleRefresh
    dsimp only
    rw [foldl_sleep fun c command => scheduleMaintenance_sleep ..]
    exact ⟨_, _, rfl⟩
  have wake : ∀ c : Controller β, c.wakeFromSelfRefresh.sleep = c.sleep := by
    intro c
    unfold wakeFromSelfRefresh
    dsimp only
    split
    · exact scheduleMaintenance_sleep ..
    · rfl
  let pruned : Controller β :=
    { c with timingEngine := c.timingEngine.pruneRecentActs c.spec c.clk }
  obtain ⟨prefer, pull, ticked⟩ := refresh pruned.wakeFromSelfRefresh
  refine ⟨prefer, pull, ?_⟩
  have keeps := wakeFromSelfRefresh_housekeeping pruned
  have manager : pruned.wakeFromSelfRefresh.refreshManager = c.refreshManager :=
    congrArg Sleep.manager (wake pruned)
  rw [wake, manager, keeps.spec, keeps.clk] at ticked
  unfold upkeep
  dsimp only
  rw [precharges, service]
  exact ticked

theorem idleLowPower_sleep (c : Controller β) : c.idleLowPower.sleep = c.sleep := by
  have entry : ∀ c : Controller β, c.enterLowPower.sleep = c.sleep := by
    intro c
    unfold enterLowPower
    split
    · split
      · rfl
      · exact scheduleMaintenance_sleep ..
    · rfl
  unfold idleLowPower
  split
  · rfl
  split
  · rfl
  dsimp only
  split <;> split
  · exact entry _
  · rfl
  · exact entry _
  · rfl

/-! ### Turns -/

theorem applyPowerCommand_sleep (c : Controller β) (request : Request) (candidate : Candidate) :
    (c.applyPowerCommand candidate.command).sleep =
      c.sleep.next c.spec (c.issuedRecord request candidate) := by
  unfold applyPowerCommand Sleep.next issuedRecord
  dsimp only
  cases candidate.command with
  | dvfs =>
    show (if _ then _ else c).sleep = c.sleep
    split <;> rfl
  | _ => rfl

theorem issueEffects_sleep (c : Controller β) (candidate : Candidate) (request : Request)
    (memPhy : MemPhy) (memoryImage : MemoryImage β) :
    (c.issueEffects candidate request memPhy memoryImage).sleep =
      c.sleep.next c.spec (c.issuedRecord request candidate) := by
  have executes : ∀ c : Controller β, (c.execute candidate request).sleep = c.sleep ∧
      (c.execute candidate request).spec = c.spec ∧
      (c.execute candidate request).clk = c.clk := by
    intro c
    unfold execute
    dsimp only
    split
    · exact ⟨rfl, rfl, rfl⟩
    · exact ⟨scheduleMaintenance_sleep .., by rw [scheduleMaintenance_eq],
        by rw [scheduleMaintenance_eq]⟩
  obtain ⟨same, spec, clk⟩ := executes { c with memPhy, memoryImage }
  have applied := applyPowerCommand_sleep
    (({ c with memPhy, memoryImage } : Controller β).execute candidate request) request candidate
  unfold issueEffects
  rw [recordIssue_eq]
  refine applied.trans ?_
  unfold issuedRecord
  rw [same, spec, clk]
  rfl

theorem choose_sleep {found : Option Candidate} {chosen : Controller β}
    (returns : c.choose bus = .ok (found, chosen)) : chosen.sleep = c.sleep := by
  have ordinary : ∀ c : Controller β, (c.chooseReadWrite bus).2.sleep = c.sleep := by
    intro c
    unfold chooseReadWrite setWriteMode
    dsimp only
    split
    · split <;> split <;> rfl
    · rfl
  have priority : (c.choosePriority bus).2.sleep = c.sleep := by
    unfold choosePriority
    dsimp only
    split
    · rfl
    · exact ordinary c.retireSatisfied
  unfold choose at returns
  obtain ⟨urgent, -, returns⟩ := bind_eq_ok.mp returns
  split at returns
  · cases returns
    rfl
  split at returns
  · cases returns
    rfl
  · rw [show c.choosePriority bus = (found, chosen) from Except.ok.inj returns] at priority
    exact priority

/-- The exit is not a column command. -/
theorem busMatches_column (c : Controller β) (request : Request) :
    c.busMatches request .srefex .column = false := by
  unfold busMatches
  rw [if_neg nofun]
  split <;> rfl

section Turns

variable [MemoryBackend β]

theorem retireOrAdvance_sleep (returns : c.retireOrAdvance candidate = .ok after) :
    after.sleep = c.sleep := by
  unfold retireOrAdvance at returns
  split at returns
  · cases returns
    rfl
  split at returns
  · obtain ⟨requestQueues, -, returns⟩ := bind_eq_ok.mp returns
    cases returns
    rfl
  split at returns
  · cases returns
    rfl
  split at returns
  · cases returns
    rfl
  · obtain ⟨how⟩ := retireData_cases returns
    rw [how.result, leaveBuffer_eq]
    rfl

/-- What a turn issues is written to the state of self refresh. In self refresh it is the exit,
and the column bus never issues that. -/
theorem turn_sleep (returns : c.turn bus = .ok (issued, after)) :
    after.sleep = issued.foldl (Sleep.next c.spec) c.sleep ∧ ∀ command ∈ issued,
      command.cycle = c.clk ∧ (c.explicitSelfRefreshActive = true → command.command = .srefex) ∧
      (bus = .column → command.command ≠ .srefex) := by
  unfold turn at returns
  obtain ⟨⟨found, chosen⟩, chooses, returns⟩ := bind_eq_ok.mp returns
  have same := choose_sleep chooses
  obtain ⟨choosing, picks⟩ := choose_spec chooses
  have keeps := choosing.housekeeping
  cases found with
  | none =>
    cases returns
    exact ⟨same, fun _ member => absurd member List.not_mem_nil⟩
  | some candidate =>
    obtain ⟨onBus, request, plain⟩ := picks candidate rfl
    obtain ⟨-, -, sameBus, issuable⟩ := upgraded_issuable plain
    dsimp only at returns
    unfold issue at returns
    rw [issuable.found] at returns
    obtain ⟨memPhy, -, returns⟩ := bind_eq_ok.mp returns
    obtain ⟨memoryImage, -, returns⟩ := bind_eq_ok.mp returns
    obtain ⟨final, advances, returns⟩ := bind_eq_ok.mp returns
    cases returns
    refine ⟨?_, List.forall_mem_singleton.mpr ⟨keeps.clk, fun asleep => ?_, ?_⟩⟩
    · rw [retireOrAdvance_sleep advances, issueEffects_sleep, same, keeps.spec]
      rfl
    · refine legal_selfRefresh ?_ issuable.legal
      have flag : chosen.explicitSelfRefreshActive = c.explicitSelfRefreshActive :=
        congrArg Sleep.asleep same
      rw [stateSnapshot_selfRefreshActive, flag, asleep]
      rfl
    · rintro rfl exit
      have fits := (candidateEligible_iff.mp issuable.eligible).2.2.1
      have exits : (chosen.upgraded candidate).command = .srefex := exit
      rw [exits, sameBus, onBus, busMatches_column] at fits
      cases fits

/-! ### Between the exits -/

/-- A turn begins after the recovery of the last exit. -/
def Recovered (c : Controller β) : Prop := c.lowPowerExitUntil ≤ c.clk

theorem foldl_next_exitUntil {spec : DramSpec} {sleep : Sleep}
    (others : ∀ command ∈ issued, command.command ≠ .srefex) :
    (issued.foldl (Sleep.next spec) sleep).exitUntil = sleep.exitUntil := by
  induction issued generalizing sleep with
  | nil => rfl
  | cons command rest inductionHypothesis =>
    obtain ⟨other, others⟩ := List.forall_mem_cons.mp others
    rw [List.foldl_cons, inductionHypothesis others]
    unfold Sleep.next
    split
    · rfl
    next exit => exact absurd exit other
    · rfl

theorem turnsMeet_recovered (c : Controller β) (free : c.Recovered) :
    TurnsMeet (fun c _ => c.Recovered) c.busesOf c := by
  unfold busesOf
  split
  · exact ⟨free, fun _ _ _ => trivial⟩
  split
  · refine ⟨free, fun issued after returns => ⟨?_, fun _ _ _ => trivial⟩⟩
    obtain ⟨sleeps, issues⟩ := turn_sleep returns
    have kept : after.lowPowerExitUntil = c.lowPowerExitUntil :=
      (congrArg Sleep.exitUntil sleeps).trans
        (foldl_next_exitUntil fun command member => (issues command member).2.2 rfl)
    unfold Recovered
    rw [kept, (turn_cases returns).turnFrame.clk]
    exact free
  · exact ⟨free, fun _ _ _ => trivial⟩

theorem runMeets_recovered (c : Controller β) (ops : List ControllerOp) :
    c.RunMeets (fun _ _ => True) (fun c _ => c.Recovered) ops := by
  refine Transition.Meets.of_forall fun op _ c => ?_
  cases op with
  | tick =>
    intro begun begins free
    obtain ⟨prefer, pull, sleeps⟩ := upkeep_sleep begun
    have kept : begun.upkeep.lowPowerExitUntil = begun.lowPowerExitUntil :=
      congrArg Sleep.exitUntil sleeps
    refine turnsMeet_recovered _ ?_
    unfold Recovered
    rw [kept, (upkeep_housekeeping begun).clk]
    exact free
  | _ => trivial

/-! ### The invariant -/

/-- The state of self refresh follows the commands, the manager follows the state, and the end of
the last exit covers every recovery. -/
structure Rested (spec : DramSpec) (commands : List IssuedCommand) (sleep : Sleep) : Prop where
  exclusive : SelfRefreshExclusive commands
  recovered : ExitsRecovered spec commands
  asleep : sleep.asleep = inSelfRefresh commands
  manager : sleep.manager.selfRefreshActive = sleep.asleep
  ranks : sleep.manager.rankStates.length = max 1 spec.org.ranks
  exits : ∀ exit ∈ commands, exit.command = .srefex →
    exit.cycle + exitRecovery spec ≤ sleep.exitUntil

omit [MemoryBackend β] in
/-- One more command, after the recovery of every exit and in self refresh the exit. -/
theorem Rested.issue {spec : DramSpec} {commands : List IssuedCommand} {sleep : Sleep}
    {command : IssuedCommand} (rested : Rested spec commands sleep)
    (late : sleep.exitUntil ≤ command.cycle)
    (allowed : sleep.asleep = true → command.command = .srefex) :
    Rested spec (commands ++ [command]) (sleep.next spec command) := by
  refine ⟨rested.exclusive.concat fun inside => ?_, History.each_concat.mpr
    ⟨rested.recovered, fun exit member is => (rested.exits exit member is).trans late⟩,
    ?_, ?_, ?_, fun exit member is => ?_⟩
  · have exit := allowed (rested.asleep.trans inside)
    simp [exit]
  · have was := rested.asleep
    unfold inSelfRefresh at was ⊢
    rw [Span.inside_concat, ← was]
    unfold Span.step Sleep.next
    split
    next entry => simp [entry]
    next exit => simp [exit]
    next noEntry noExit =>
      dsimp only
      rw [decide_eq_false noEntry, decide_eq_false noExit, Bool.false_or, Bool.not_false,
        Bool.and_true]
  · unfold Sleep.next
    split
    · rfl
    · rfl
    · exact rested.manager
  · unfold Sleep.next
    split <;> exact rested.ranks
  · rcases List.mem_append.mp member with old | new
    · refine (rested.exits exit old is).trans ?_
      unfold Sleep.next
      split
      · exact Nat.le_refl _
      · exact Nat.le_max_left ..
      · exact Nat.le_refl _
    · obtain rfl := List.mem_singleton.mp new
      unfold Sleep.next
      rw [is]
      exact Nat.le_max_right ..

omit [MemoryBackend β] in
/-- Without a command, the end of the exit may move on and the manager may do its work. -/
theorem Rested.quiet {spec : DramSpec} {commands : List IssuedCommand} {sleep later : Sleep}
    (rested : Rested spec commands sleep) (asleep : later.asleep = sleep.asleep)
    (grows : sleep.exitUntil ≤ later.exitUntil)
    (ranks : later.manager.rankStates.length = sleep.manager.rankStates.length)
    (manager : later.manager.selfRefreshActive = sleep.manager.selfRefreshActive) :
    Rested spec commands later :=
  ⟨rested.exclusive, rested.recovered, asleep.trans rested.asleep,
    manager.trans (rested.manager.trans asleep.symm), ranks.trans rested.ranks,
    fun exit member is => (rested.exits exit member is).trans grows⟩

theorem enqueue_sleep {accepted : Bool} (returns : c.enqueue request = .ok (accepted, after)) :
    ∃ later, c.lowPowerExitUntil ≤ later ∧ after.sleep = { c.sleep with exitUntil := later } := by
  obtain ⟨later, grows, prepared⟩ := prepareAccept_sleep c request
  refine ⟨later, grows, ?_⟩
  rw [← prepared]
  cases (enqueue_cases returns).2 with
  | forwarded isRead hits forwards =>
    unfold forwardRead at forwards
    obtain ⟨⟨payload, byteMask, image⟩, -, forwards⟩ := bind_eq_ok.mp forwards
    cases forwards
    rfl
  | _ => rfl

theorem rested_kept (spec : DramSpec) : Kept (fun _ _ => True) (fun c _ => c.Recovered)
    fun events (c : Controller β) => c.spec = spec ∧ Rested spec (commandsOf events) c.sleep where
  enqueue history c request accepted after holds _ returns := by
    obtain ⟨same, rested⟩ := holds
    obtain ⟨later, grows, sleeps⟩ := enqueue_sleep returns
    rw [commandsOf_acceptance, sleeps]
    refine ⟨?_, rested.quiet rfl grows rfl rfl⟩
    rw [(enqueue_cases returns).2.deviceKept.spec, (prepareAccept_housekeeping c request).spec]
    exact same
  beginTick history c begun holds returns := by
    rw [(beginTick_eq returns).2]
    exact holds
  upkeep history c holds _ := by
    obtain ⟨rfl, rested⟩ := holds
    obtain ⟨prefer, pull, sleeps⟩ := upkeep_sleep c
    obtain ⟨ranks, manager⟩ := RefreshManager.tick_kept c.clk prefer pull rested.ranks
    rw [sleeps]
    exact ⟨(upkeep_housekeeping c).spec, rested.quiet rfl (Nat.le_refl _) ranks manager⟩
  turn history c bus issued after holds recovered returns := by
    obtain ⟨rfl, rested⟩ := holds
    rw [commandsOf_issued]
    refine ⟨(turn_cases returns).turnFrame.spec, ?_⟩
    obtain ⟨sleeps, issues⟩ := turn_sleep returns
    rw [sleeps]
    cases turn_cases returns with
    | idle => rwa [List.append_nil]
    | issue choosing picks issuing =>
      obtain ⟨now, exit, -⟩ := issues _ (List.mem_singleton_self _)
      exact rested.issue (recovered.trans now.ge) exit
  idleLowPower history c holds := by
    rw [idleLowPower_sleep, (idleLowPower_housekeeping c).spec]
    exact holds
  popResponse history c response after holds returns := by
    rw [commandsOf_responded]
    unfold popResponse at returns
    split at returns
    · cases returns
    · cases returns
      exact holds
  flushStorage history c after holds returns := by
    obtain ⟨image, -, returned⟩ := bind_eq_ok.mp returns
    cases returned
    exact holds

/-! ### Self refresh is exclusive -/

omit [MemoryBackend β] in
/-- The constructor times every rank. -/
theorem create_refreshManager {spec : DramSpec} {options : ControllerOptions}
    {image : MemoryImage β} {start : Controller β}
    (created : create spec options image = .ok start) :
    start.refreshManager = RefreshManager.timed spec 0 := by
  unfold create at created
  obtain ⟨banks, -, created⟩ := bind_eq_ok.mp created
  obtain ⟨queues, -, created⟩ := bind_eq_ok.mp created
  obtain ⟨_, -, created⟩ := bind_eq_ok.mp created
  obtain ⟨_, -, created⟩ := bind_eq_ok.mp created
  obtain ⟨_, -, created⟩ := bind_eq_ok.mp created
  obtain ⟨memPhy, -, created⟩ := bind_eq_ok.mp created
  obtain ⟨rowPolicy, -, created⟩ := bind_eq_ok.mp created
  obtain ⟨refreshManager, resets, created⟩ := bind_eq_ok.mp created
  cases created
  obtain ⟨_, -, resets⟩ := bind_eq_ok.mp resets
  cases resets
  rfl

omit [MemoryBackend β] in
theorem foldl_next_credits (spec : DramSpec) (sleep : Sleep) :
    (issued.foldl (Sleep.next spec) sleep).manager.credits = sleep.manager.credits := by
  induction issued generalizing sleep with
  | nil => rfl
  | cons command rest inductionHypothesis =>
    rw [List.foldl_cons, inductionHypothesis]
    unfold Sleep.next
    split <;> rfl

theorem runTurns_credits {buses : List BusClass}
    (returns : runTurns buses c = .ok (issued, after)) :
    after.refreshManager.credits = c.refreshManager.credits := by
  induction buses generalizing c issued with
  | nil =>
    cases returns
    rfl
  | cons bus rest inductionHypothesis =>
    obtain ⟨⟨now, middle⟩, turn, returns⟩ := bind_eq_ok.mp returns
    obtain ⟨⟨later, final⟩, others, returns⟩ := bind_eq_ok.mp returns
    cases returns
    have sleeps := congrArg (fun sleep => sleep.manager.credits) (turn_sleep turn).1
    exact (inductionHypothesis others).trans (sleeps.trans (foldl_next_credits ..))

/-- An operation that starts in self refresh changes nothing a rank owes. -/
theorem apply_asleep {spec : DramSpec} {commands : List IssuedCommand} {op : ControllerOp}
    {events : List ControllerEvent} (same : c.spec = spec) (rested : Rested spec commands c.sleep)
    (asleep : inSelfRefresh commands = true) (returns : c.apply op = .ok (events, after)) :
    after.refreshManager.credits = c.refreshManager.credits := by
  cases op with
  | enqueue request =>
    obtain ⟨⟨accepted, next⟩, enqueues, returns⟩ := bind_eq_ok.mp returns
    cases returns
    obtain ⟨later, -, sleeps⟩ := enqueue_sleep enqueues
    exact congrArg (fun sleep => sleep.manager.credits) sleeps
  | tick =>
    obtain ⟨⟨issued, next⟩, ticks, returns⟩ := bind_eq_ok.mp returns
    cases returns
    obtain ⟨begun, begins, held⟩ := tick_cases ticks
    have begunSleep : begun.sleep = c.sleep := by
      rw [(beginTick_eq begins).2]
      rfl
    have manager : begun.refreshManager = c.refreshManager := congrArg Sleep.manager begunSleep
    rw [← manager]
    obtain ⟨-, -, rfl⟩ | ⟨-, turned, turns, rfl⟩ := held
    · rfl
    obtain ⟨prefer, pull, sleeps⟩ := upkeep_sleep begun
    have idle := congrArg (fun sleep => sleep.manager.credits) (idleLowPower_sleep turned)
    have ticked := congrArg (fun sleep => sleep.manager.credits) sleeps
    refine idle.trans ((runTurns_credits turns).trans (ticked.trans ?_))
    have beginSpec : begun.spec = spec := (beginTick_deviceKept begins).spec.trans same
    rw [← begunSleep] at rested
    refine RefreshManager.tick_asleep _ _ _ ?_ ?_
    · rw [beginSpec]
      exact rested.ranks
    · exact rested.manager.trans (rested.asleep.trans asleep)
  | popResponse =>
    obtain ⟨⟨response, next⟩, pops, returns⟩ := bind_eq_ok.mp returns
    cases returns
    unfold popResponse at pops
    split at pops
    · cases pops
    · cases pops
      rfl
  | flushStorage =>
    obtain ⟨next, flushes, returns⟩ := bind_eq_ok.mp returns
    cases returns
    obtain ⟨image, -, flushed⟩ := bind_eq_ok.mp flushes
    cases flushed
    rfl

/-- In every run: between a self-refresh entry and the next exit only that exit is issued, every
command comes after the recovery of every exit before it, and what is done in self refresh changes
nothing a rank owes. -/
theorem self_refresh_exclusive {spec : DramSpec} {options : ControllerOptions}
    {image : MemoryImage β} {start final : Controller β} {ops : List ControllerOp}
    {events : List ControllerEvent} (created : create spec options image = .ok start)
    (returns : start.run ops = .ok (events, final)) :
    SelfRefreshExclusive (commandsOf events) ∧ ExitsRecovered spec (commandsOf events) ∧
      (inSelfRefresh (commandsOf events) = true → ∀ op more after,
        final.apply op = .ok (more, after) →
        after.refreshManager.credits = final.refreshManager.credits) := by
  have manager := create_refreshManager created
  have asleep : start.explicitSelfRefreshActive = false := by
    rw [(create_created created).result]
  have begins : Rested spec (commandsOf []) start.sleep := by
    refine ⟨Span.Excludes.nil, History.Each.nil, asleep, ?_, ?_,
      fun _ member => absurd member List.not_mem_nil⟩
    · unfold sleep
      rw [manager, asleep]
      rfl
    · unfold sleep
      rw [manager]
      exact List.length_replicate
  obtain ⟨same, rested⟩ := (rested_kept spec).run ⟨(create_created created).spec_eq, begins⟩
    (runMeets_recovered start ops) returns
  exact ⟨rested.exclusive, rested.recovered, fun asleep op more after applies =>
    apply_asleep same rested asleep applies⟩

/-- The two banks with a quick exit from self refresh. -/
def quickExit : DramSpec := { twoBanks with timing := { twoBanks.timing with nSREFEX := 4 } }

/-- An exit between two entries. -/
def sleepTwice : List ControllerOp :=
  [.enqueue (maintain 1 .srefen), .tick, .enqueue (maintain 2 .srefex), .tick,
    .enqueue (maintain 3 .srefen)] ++ List.replicate 6 .tick

theorem self_refresh_exclusive_sleepTwice : ∃ start events final,
    create quickExit {} (imageOf quickExit) = .ok start ∧
      start.run sleepTwice = .ok (events, final) ∧
      (commandsOf events).map (fun issued => (issued.cycle, issued.command)) =
        [(1, .srefen), (2, .srefex), (6, .srefen)] ∧
      SelfRefreshExclusive (commandsOf events) ∧ ExitsRecovered quickExit (commandsOf events) ∧
      ∀ op more after, final.apply op = .ok (more, after) →
        after.refreshManager.credits = final.refreshManager.credits := by
  obtain ⟨start, events, final, created, returns, checks⟩ :=
    freshRun_of_passes quickExit {} sleepTwice (fun result =>
      decide ((commandsOf result.1).map (fun issued => (issued.cycle, issued.command)) =
        [(1, .srefen), (2, .srefex), (6, .srefen)]) && inSelfRefresh (commandsOf result.1))
      (by decide +kernel)
  obtain ⟨commands, asleep⟩ := Bool.and_eq_true_iff.mp checks
  obtain ⟨exclusive, recovered, credits⟩ := self_refresh_exclusive created returns
  exact ⟨start, events, final, created, returns, of_decide_eq_true commands, exclusive, recovered,
    credits asleep⟩

end Turns

end Controller

end HbmSim
