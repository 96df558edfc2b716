/-
Runs of a controller: what its users can do to it, and the events they see.

A tick gives each bus a turn, and what a later file asks of a run it often asks
of the state in front of each turn. `TurnsMeet` follows the turns of a tick.
-/

import HbmSim.ControllerTick
import HbmSim.ImageRefinement
import HbmSim.Lib.Transition

namespace HbmSim

inductive ControllerOp
  | enqueue (request : Request)
  | tick
  | popResponse
  | flushStorage

/-- An accepted request with the sequence it was given, an issued command, or a response handed
out. -/
inductive ControllerEvent
  | accepted (sequence : Nat) (request : Request)
  | issued (command : IssuedCommand)
  | responded (response : TransactionResponse)
  deriving DecidableEq

namespace Controller

variable {β : Type} [MemoryBackend β]

def apply (c : Controller β) :
    ControllerOp → Except Exception (List ControllerEvent × Controller β)
  | .enqueue request => do
    let (accepted, after) ← c.enqueue request
    return (if accepted then [.accepted c.nextControllerSequence request] else [], after)
  | .tick => do
    let (issued, after) ← c.tick
    return (issued.map .issued, after)
  | .popResponse => do
    let (response, after) ← c.popResponse
    return ([.responded response], after)
  | .flushStorage => do return ([], ← c.flushStorage)

/-- A run whose operations all return. -/
def run (c : Controller β) (ops : List ControllerOp) :
    Except Exception (List ControllerEvent × Controller β) :=
  Transition.run apply c ops

/-! ### Guards -/

/-- The state in front of each turn meets the guard. -/
def TurnsMeet (guard : Controller β → BusClass → Prop) : List BusClass → Controller β → Prop
  | [], _ => True
  | bus :: rest, c =>
    guard c bus ∧ ∀ issued after, c.turn bus = .ok (issued, after) → TurnsMeet guard rest after

/-- The turns of a tick meet the guard. -/
def TickMeets (guard : Controller β → BusClass → Prop) (c : Controller β) : Prop :=
  ∀ begun, c.beginTick = .ok begun → begun.lowPowerExitUntil ≤ begun.clk →
    TurnsMeet guard begun.upkeep.busesOf begun.upkeep

/-- An operation meets a guard on requests and a guard on turns. -/
def OpMeets (requests : Controller β → Request → Prop) (turns : Controller β → BusClass → Prop)
    (c : Controller β) : ControllerOp → Prop
  | .enqueue request => requests c request
  | .tick => c.TickMeets turns
  | _ => True

/-- Every operation of a run meets the two guards. -/
def RunMeets (requests : Controller β → Request → Prop) (turns : Controller β → BusClass → Prop)
    (c : Controller β) (ops : List ControllerOp) : Prop :=
  Transition.Meets apply (OpMeets requests turns) c ops

/-! ### Invariants of runs -/

section Invariants

variable {requests : Controller β → Request → Prop} {turns : Controller β → BusClass → Prop}
variable {Inv : List ControllerEvent → Controller β → Prop} {history : List ControllerEvent}
variable {c begun after : Controller β} {issued : List IssuedCommand}

/-- The event of an offered request, if it is accepted. -/
def acceptance (c : Controller β) (accepted : Bool) (request : Request) : List ControllerEvent :=
  if accepted then [.accepted c.nextControllerSequence request] else []

/-- A tick, part by part. -/
theorem tick_cases (returns : c.tick = .ok (issued, after)) :
    ∃ begun, c.beginTick = .ok begun ∧
      ((begun.clk < begun.lowPowerExitUntil ∧ issued = [] ∧ after = begun) ∨
        (begun.lowPowerExitUntil ≤ begun.clk ∧ ∃ turned,
          runTurns begun.upkeep.busesOf begun.upkeep = .ok (issued, turned) ∧
          after = turned.idleLowPower)) := by
  unfold tick at returns
  obtain ⟨begun, begins, returns⟩ := bind_eq_ok.mp returns
  refine ⟨begun, begins, ?_⟩
  split at returns
  next blocked =>
    cases returns
    exact Or.inl ⟨blocked, rfl, rfl⟩
  next free =>
    obtain ⟨⟨commands, turned⟩, turns, returns⟩ := bind_eq_ok.mp returns
    cases returns
    exact Or.inr ⟨Nat.le_of_not_lt free, turned, turns, rfl⟩

/-- An invariant of a run between operations, and one of the turns, that every part of an operation
keeps where the guards hold. They may speak of the events so far. -/
structure Staged (requests : Controller β → Request → Prop)
    (turns : Controller β → BusClass → Prop)
    (Inv Busy : List ControllerEvent → Controller β → Prop) : Prop where
  enqueue : ∀ history c request accepted after, Inv history c → requests c request →
    c.enqueue request = .ok (accepted, after) →
    Inv (history ++ c.acceptance accepted request) after
  beginTick : ∀ history c begun, Inv history c → c.beginTick = .ok begun → Inv history begun
  upkeep : ∀ history c, Inv history c → c.lowPowerExitUntil ≤ c.clk → Busy history c.upkeep
  turn : ∀ history c bus issued after, Busy history c → turns c bus →
    c.turn bus = .ok (issued, after) → Busy (history ++ issued.map .issued) after
  idleLowPower : ∀ history c, Busy history c → Inv history c.idleLowPower
  popResponse : ∀ history c response after, Inv history c →
    c.popResponse = .ok (response, after) → Inv (history ++ [.responded response]) after
  flushStorage : ∀ history c after, Inv history c → c.flushStorage = .ok after →
    Inv history after

/-- An invariant that is the same between operations and during the turns. -/
abbrev Kept (requests : Controller β → Request → Prop) (turns : Controller β → BusClass → Prop)
    (Inv : List ControllerEvent → Controller β → Prop) : Prop :=
  Staged requests turns Inv Inv

variable {Busy : List ControllerEvent → Controller β → Prop}

theorem Staged.runTurns (kept : Staged requests turns Inv Busy) {buses : List BusClass}
    (holds : Busy history c) (meets : TurnsMeet turns buses c)
    (returns : Controller.runTurns buses c = .ok (issued, after)) :
    Busy (history ++ issued.map .issued) after := by
  induction buses generalizing c history issued with
  | nil =>
    cases returns
    rwa [List.map_nil, List.append_nil]
  | cons bus rest inductionHypothesis =>
    obtain ⟨⟨now, middle⟩, turn, returns⟩ := bind_eq_ok.mp returns
    obtain ⟨⟨later, final⟩, others, returns⟩ := bind_eq_ok.mp returns
    cases returns
    rw [List.map_append, ← List.append_assoc]
    exact inductionHypothesis (kept.turn _ _ _ _ _ holds meets.1 turn)
      (meets.2 now middle turn) others

theorem Staged.tick (kept : Staged requests turns Inv Busy) (holds : Inv history c)
    (meets : c.TickMeets turns) (returns : c.tick = .ok (issued, after)) :
    Inv (history ++ issued.map .issued) after := by
  obtain ⟨begun, begins, ⟨-, rfl, rfl⟩ | ⟨free, turned, turns, rfl⟩⟩ := tick_cases returns
  · rw [List.map_nil, List.append_nil]
    exact kept.beginTick _ _ _ holds begins
  · exact kept.idleLowPower _ _ (kept.runTurns
      (kept.upkeep _ _ (kept.beginTick _ _ _ holds begins) free) (meets begun begins free) turns)

theorem Staged.apply (kept : Staged requests turns Inv Busy) {op : ControllerOp}
    {events : List ControllerEvent} (holds : Inv history c) (meets : OpMeets requests turns c op)
    (returns : c.apply op = .ok (events, after)) : Inv (history ++ events) after := by
  cases op with
  | enqueue request =>
    obtain ⟨⟨accepted, next⟩, enqueues, returns⟩ := bind_eq_ok.mp returns
    cases returns
    exact kept.enqueue _ _ _ _ _ holds meets enqueues
  | tick =>
    obtain ⟨⟨commands, next⟩, ticks, returns⟩ := bind_eq_ok.mp returns
    cases returns
    exact kept.tick holds meets ticks
  | popResponse =>
    obtain ⟨⟨response, next⟩, pops, returns⟩ := bind_eq_ok.mp returns
    cases returns
    exact kept.popResponse _ _ _ _ holds pops
  | flushStorage =>
    obtain ⟨next, flushes, returns⟩ := bind_eq_ok.mp returns
    cases returns
    rw [List.append_nil]
    exact kept.flushStorage _ _ _ holds flushes

/-- What every part keeps holds after every guarded run. -/
theorem Staged.run (kept : Staged requests turns Inv Busy) {ops : List ControllerOp}
    {events : List ControllerEvent} (start : Inv [] c) (meets : c.RunMeets requests turns ops)
    (returns : c.run ops = .ok (events, after)) : Inv events after :=
  Transition.run_invariant (fun _ _ _ _ _ holds met returns => kept.apply holds met returns)
    start meets returns

theorem Staged.turnsMeet (kept : Staged requests turns Inv Busy)
    {met : Controller β → BusClass → Prop}
    (here : ∀ history c bus, Busy history c → turns c bus → met c bus) {buses : List BusClass}
    (holds : Busy history c) (meets : TurnsMeet turns buses c) : TurnsMeet met buses c := by
  induction buses generalizing c history with
  | nil => trivial
  | cons bus rest inductionHypothesis =>
    exact ⟨here _ _ _ holds meets.1, fun issued after returns =>
      inductionHypothesis (kept.turn _ _ _ _ _ holds meets.1 returns)
        (meets.2 issued after returns)⟩

/-- What the invariant implies is met at every turn of a guarded run. -/
theorem Staged.runMeets (kept : Staged requests turns Inv Busy)
    {met : Controller β → BusClass → Prop}
    (here : ∀ history c bus, Busy history c → turns c bus → met c bus) {ops : List ControllerOp}
    (history : List ControllerEvent) (holds : Inv history c)
    (meets : c.RunMeets requests turns ops) : c.RunMeets requests met ops := by
  induction ops generalizing c history with
  | nil => trivial
  | cons op rest inductionHypothesis =>
    refine ⟨?_, fun events next returns =>
      inductionHypothesis _ (kept.apply holds meets.1 returns) (meets.2 events next returns)⟩
    cases op with
    | enqueue request => exact meets.1
    | tick =>
      exact fun begun begins free => kept.turnsMeet here
        (kept.upkeep _ _ (kept.beginTick _ _ _ holds begins) free) (meets.1 begun begins free)
    | popResponse => trivial
    | flushStorage => trivial

/-- An invariant is kept under stronger guards as well. -/
theorem Staged.mono {requests' : Controller β → Request → Prop}
    {turns' : Controller β → BusClass → Prop} (kept : Staged requests turns Inv Busy)
    (strongerRequests : ∀ c request, requests' c request → requests c request)
    (strongerTurns : ∀ c bus, turns' c bus → turns c bus) : Staged requests' turns' Inv Busy where
  enqueue _ _ _ _ _ holds met := kept.enqueue _ _ _ _ _ holds (strongerRequests _ _ met)
  beginTick := kept.beginTick
  upkeep := kept.upkeep
  turn _ _ _ _ _ holds met := kept.turn _ _ _ _ _ holds (strongerTurns _ _ met)
  idleLowPower := kept.idleLowPower
  popResponse := kept.popResponse
  flushStorage := kept.flushStorage

/-- Without a guard every run is guarded. -/
theorem runMeets_of_forall (holdsRequests : ∀ (c : Controller β) request, requests c request)
    (holdsTurns : ∀ (c : Controller β) bus, turns c bus) (c : Controller β)
    (ops : List ControllerOp) : c.RunMeets requests turns ops := by
  have turnsMeet : ∀ buses (c : Controller β), TurnsMeet turns buses c := by
    intro buses
    induction buses with
    | nil => exact fun _ => trivial
    | cons bus rest inductionHypothesis =>
      exact fun c => ⟨holdsTurns c bus, fun _ after _ => inductionHypothesis after⟩
  induction ops generalizing c with
  | nil => trivial
  | cons op rest inductionHypothesis =>
    refine ⟨?_, fun _ next _ => inductionHypothesis next⟩
    cases op with
    | enqueue request => exact holdsRequests c request
    | tick => exact fun begun _ _ => turnsMeet _ _
    | popResponse => trivial
    | flushStorage => trivial

end Invariants

/-! ### The first state -/

/-- A controller as the constructor leaves it. -/
structure Created (spec : DramSpec) (options : ControllerOptions) (image : MemoryImage β)
    (start : Controller β) : Prop where
  accepted : ∃ checked, validateSpec spec = .ok checked
  memPhy : MemPhy.create spec options.phy = .ok start.memPhy
  queues : ∀ kind, start.requestQueues.queue kind = []
  activeCounts : ∀ bank, start.requestQueues.activeCounts bank = 0
  activeLimit : spec.totalBanks = .ok (start.requestQueues.limit .active)
  priorityLimit : 0 < start.requestQueues.limit .priority
  result : start = {
    spec, options
    requestQueues := start.requestQueues
    memoryImage := image
    memPhy := start.memPhy
    rowPolicy := start.rowPolicy
    refreshManager := start.refreshManager }

omit [MemoryBackend β] in
theorem create_created {spec : DramSpec} {options : ControllerOptions} {image : MemoryImage β}
    {start : Controller β} (created : create spec options image = .ok start) :
    Created spec options image start := by
  unfold create at created
  obtain ⟨banks, total, created⟩ := bind_eq_ok.mp created
  obtain ⟨queues, makes, created⟩ := bind_eq_ok.mp created
  obtain ⟨checked, accepts, created⟩ := bind_eq_ok.mp created
  obtain ⟨_, -, created⟩ := bind_eq_ok.mp created
  obtain ⟨_, -, created⟩ := bind_eq_ok.mp created
  obtain ⟨memPhy, phy, created⟩ := bind_eq_ok.mp created
  obtain ⟨rowPolicy, -, created⟩ := bind_eq_ok.mp created
  obtain ⟨refreshManager, -, created⟩ := bind_eq_ok.mp created
  cases created
  unfold RequestQueues.create at makes
  obtain ⟨_, positive, makes⟩ := bind_eq_ok.mp makes
  rw [throwIf_eq_ok] at positive
  simp only [not_or] at positive
  cases makes
  exact ⟨⟨checked, accepts⟩, phy, fun _ => rfl, fun _ => rfl, total,
    Nat.pos_of_ne_zero positive.2.1, rfl⟩

section Created

omit [MemoryBackend β]

variable {spec : DramSpec} {options : ControllerOptions} {image : MemoryImage β}
variable {start : Controller β}

theorem Created.spec_eq (created : Created spec options image start) : start.spec = spec := by
  rw [created.result]

theorem Created.options_eq (created : Created spec options image start) :
    start.options = options := by
  rw [created.result]

theorem Created.pending_eq (created : Created spec options image start) : start.pending = [] := by
  rw [created.result]

theorem Created.pendingMaintenance_eq (created : Created spec options image start) :
    start.pendingMaintenance = [] := by
  rw [created.result]

theorem Created.responses_eq (created : Created spec options image start) :
    start.responses = [] := by
  rw [created.result]

theorem Created.stats_eq (created : Created spec options image start) : start.stats = {} := by
  rw [created.result]

theorem Created.timingEngine_eq (created : Created spec options image start) :
    start.timingEngine = {} := by
  rw [created.result]

end Created

/-! ### A small controller -/

/-- The small device with two banks. -/
def twoBanks : DramSpec :=
  { smallSpec with org := { smallSpec.org with banksPerGroup := 2 } }

/-- A new image of a whole device. -/
def imageOf (spec : DramSpec) : MemoryImage SparseMemoryBackend where
  lineSize := spec.transactionBytes
  spec := some spec
  options := { eccShadowEnabled := false, capacityBytes := spec.capacityOf }
  backend := { lineSize := spec.transactionBytes, capacityBytes := spec.capacityOf }

/-- A read, and an unmasked write, decoded by the address mapper. -/
def readAt (spec : DramSpec) (id address size : Nat) : Request where
  id := id
  address := address
  type := .read
  decoded := decode spec address
  transferBytes := size

def writeAt (spec : DramSpec) (id address : Nat) (payload : ByteVector) : Request where
  id := id
  address := address
  type := .write
  decoded := decode spec address
  payload := payload
  hasPayload := true

/-- An external maintenance request for a command. -/
def maintain (id : Nat) (command : Command) : Request where
  id := id
  type := .maintenance
  next := command

/-- A run of a new controller. -/
def freshRun (spec : DramSpec) (options : ControllerOptions) (ops : List ControllerOp) :
    Except Exception (List ControllerEvent × Controller SparseMemoryBackend) := do
  let start ← create spec options (imageOf spec)
  start.run ops

/-- A computation returns a value that passes a check. -/
def passes {α : Type} (result : Except Exception α) (check : α → Bool) : Bool :=
  match result with
  | .ok value => check value
  | .error _ => false

theorem passes_iff {α : Type} {result : Except Exception α} {check : α → Bool} :
    passes result check = true ↔ ∃ value, result = .ok value ∧ check value = true := by
  unfold passes
  split
  · simp
  · simp

theorem freshRun_of_passes (spec : DramSpec) (options : ControllerOptions)
    (ops : List ControllerOp)
    (check : List ControllerEvent × Controller SparseMemoryBackend → Bool)
    (passed : passes (freshRun spec options ops) check = true) :
    ∃ start events final, create spec options (imageOf spec) = .ok start ∧
      start.run ops = .ok (events, final) ∧ check (events, final) = true := by
  obtain ⟨value, returns, checks⟩ := passes_iff.mp passed
  obtain ⟨start, creates, runs⟩ := bind_eq_ok.mp returns
  exact ⟨start, value.1, value.2, creates, runs, checks⟩

/-! ### Guarded small runs -/

section Checks

variable (requests : Controller β → Request → Prop)
variable (turns : Controller β → BusClass → Prop)
variable [∀ c request, Decidable (requests c request)] [∀ c bus, Decidable (turns c bus)]

/-- The turns of a tick, each with its guard checked first. -/
def turnsCheck : List BusClass → Controller β → Bool
  | [], _ => true
  | bus :: rest, c => decide (turns c bus) && match c.turn bus with
    | .error _ => true
    | .ok (_, after) => turnsCheck rest after

def opCheck (c : Controller β) : ControllerOp → Bool
  | .enqueue request => decide (requests c request)
  | .tick => match c.beginTick with
    | .error _ => true
    | .ok begun => decide (begun.clk < begun.lowPowerExitUntil) ||
      turnsCheck turns begun.upkeep.busesOf begun.upkeep
  | _ => true

/-- Whether every operation of a run meets the guards. -/
def runCheck : List ControllerOp → Controller β → Bool
  | [], _ => true
  | op :: rest, c => opCheck requests turns c op && match c.apply op with
    | .error _ => true
    | .ok (_, after) => runCheck rest after

theorem turnsMeet_of_check {buses : List BusClass} {c : Controller β}
    (checked : turnsCheck turns buses c = true) : TurnsMeet turns buses c := by
  induction buses generalizing c with
  | nil => trivial
  | cons bus rest inductionHypothesis =>
    unfold turnsCheck at checked
    obtain ⟨here, later⟩ := Bool.and_eq_true_iff.mp checked
    refine ⟨of_decide_eq_true here, fun issued after returns => ?_⟩
    rw [returns] at later
    exact inductionHypothesis later

theorem runMeets_of_check {ops : List ControllerOp} {c : Controller β}
    (checked : runCheck requests turns ops c = true) : c.RunMeets requests turns ops := by
  induction ops generalizing c with
  | nil => trivial
  | cons op rest inductionHypothesis =>
    unfold runCheck at checked
    obtain ⟨here, later⟩ := Bool.and_eq_true_iff.mp checked
    refine ⟨?_, fun events after returns => ?_⟩
    · cases op with
      | enqueue request =>
        have allowed : requests c request := of_decide_eq_true here
        exact allowed
      | tick =>
        intro begun begins free
        unfold opCheck at here
        rw [begins] at here
        rcases Bool.or_eq_true_iff.mp here with blocked | met
        · exact absurd (of_decide_eq_true blocked) (Nat.not_lt.mpr free)
        · exact turnsMeet_of_check turns met
      | popResponse => trivial
      | flushStorage => trivial
    · rw [returns] at later
      exact inductionHypothesis later

end Checks

/-- A run of a new controller that meets its guards, with a check of its result. -/
theorem guardedRun_of_passes (spec : DramSpec) (options : ControllerOptions)
    (ops : List ControllerOp) (requests : Controller SparseMemoryBackend → Request → Prop)
    (turns : Controller SparseMemoryBackend → BusClass → Prop)
    [∀ c request, Decidable (requests c request)] [∀ c bus, Decidable (turns c bus)]
    (check : List ControllerEvent × Controller SparseMemoryBackend → Bool)
    (guarded : passes (create spec options (imageOf spec)) (runCheck requests turns ops) = true)
    (passed : passes (freshRun spec options ops) check = true) :
    ∃ start events final, create spec options (imageOf spec) = .ok start ∧
      start.RunMeets requests turns ops ∧ start.run ops = .ok (events, final) ∧
      check (events, final) = true := by
  obtain ⟨start, events, final, created, returns, checks⟩ :=
    freshRun_of_passes spec options ops check passed
  rw [created] at guarded
  exact ⟨start, events, final, created, runMeets_of_check requests turns guarded, returns, checks⟩

end Controller

end HbmSim
