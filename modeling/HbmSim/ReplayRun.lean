/-
The replay of what a controller records is in step with the controller through the
whole run: between the turns nothing that the replay follows changes but the time,
and a turn's command has passed the gates.

A controller has one flag more than the replay: an idle channel may count as in low
power without a command. So the replay is compared with the controller as its
explicit commands alone have left it.
-/

import HbmSim.Errands
import HbmSim.ValidatorAgrees

namespace HbmSim

/-! ### Low power without a command -/

/-- A state with fewer low-power flags admits every command but the exits as well, and an exit as
long as its own flag is still there. -/
theorem checkCommandState_fewer {state : CommandStateSnapshot} {command : Command} {low self : Bool}
    (fewer : low = true → state.lowPowerActive = true)
    (fewerSelf : self = true → state.selfRefreshActive = true)
    (powerDown : command = .pdx → low = true) (selfRefresh : command = .srefex → self = true)
    (legal : (checkCommandState state command).legal = true) :
    (checkCommandState { state with lowPowerActive := low, selfRefreshActive := self }
      command).legal = true := by
  unfold checkCommandState at legal ⊢
  split at legal
  · cases legal
  next awake =>
    rw [if_neg fun asleep => awake ⟨fewerSelf asleep.1, asleep.2⟩]
    unfold legalOutsideSelfRefresh at legal ⊢
    dsimp only at legal ⊢
    have quiet : (!state.lowPowerActive) = true → (!low) = true := by
      cases low with
      | false => exact fun _ => rfl
      | true => rw [fewer rfl]; exact id
    have quietSelf : (!state.selfRefreshActive) = true → (!self) = true := by
      cases self with
      | false => exact fun _ => rfl
      | true => rw [fewerSelf rfl]; exact id
    cases command with
    | pdx =>
      simp only [Bool.and_eq_true] at legal ⊢
      exact ⟨⟨legal.1.1, powerDown rfl⟩, quietSelf legal.2⟩
    | srefex =>
      simp only [Bool.and_eq_true] at legal ⊢
      exact ⟨legal.1, selfRefresh rfl⟩
    | _ =>
      simp only [Bool.and_eq_true] at legal ⊢
      tauto

namespace Controller

section Explicit

variable {β : Type} {c before after : Controller β} {request : Request} {command : Command}

/-- The controller as its explicit low-power commands alone have left it. -/
def explicit (c : Controller β) : Controller β :=
  { c with lowPowerActive := c.explicitPowerDownActive || c.explicitSelfRefreshActive }

theorem explicit_eq
    (flags : c.lowPowerActive = (c.explicitPowerDownActive || c.explicitSelfRefreshActive)) :
    c.explicit = c := by
  unfold explicit
  rw [← flags]

theorem DeviceKept.explicit (keeps : DeviceKept before after) :
    DeviceKept before.explicit after.explicit where
  spec := keeps.spec
  options := keeps.options
  banks := keeps.banks
  clk := keeps.clk
  timingEngine := keeps.timingEngine
  explicitPowerDownActive := keeps.explicitPowerDownActive
  explicitSelfRefreshActive := keeps.explicitSelfRefreshActive
  lowPowerActive := by
    unfold Controller.explicit
    dsimp only
    rw [keeps.explicitPowerDownActive, keeps.explicitSelfRefreshActive]
    exact fun _ => id
  memPhy := keeps.memPhy

/-- What is legal now is legal by the explicit commands. -/
theorem stateOk_explicit
    (low : (c.explicitPowerDownActive || c.explicitSelfRefreshActive) = true →
      c.lowPowerActive = true)
    (powerDown : command = .pdx → c.explicitPowerDownActive = true)
    (selfRefresh : command = .srefex → c.explicitSelfRefreshActive = true)
    (legal : c.stateOk request command = true) : c.explicit.stateOk request command = true := by
  have fewer : ∀ (own : Bool) (mode : Prop) [Decidable mode],
      (own || ((c.explicitPowerDownActive || c.explicitSelfRefreshActive) && decide mode)) = true →
        (own || (c.lowPowerActive && decide mode)) = true := by
    intro own mode _ either
    rw [Bool.or_eq_true, Bool.and_eq_true] at either ⊢
    exact either.imp_right (And.imp_left low)
  refine @checkCommandState_fewer (c.stateSnapshot request command) command _ _ (fewer _ _)
    (fewer _ _) (fun is => ?_) (fun is => ?_) legal
  · exact Bool.or_eq_true_iff.mpr (Or.inl (powerDown is))
  · exact Bool.or_eq_true_iff.mpr (Or.inl (selfRefresh is))

end Explicit

/-- Housekeeping enters and leaves no low-power state. -/
theorem Housekeeping.power {β : Type} {before after : Controller β}
    (keeps : Housekeeping before after) :
    after.explicitPowerDownActive = before.explicitPowerDownActive ∧
      after.explicitSelfRefreshActive = before.explicitSelfRefreshActive :=
  ⟨congrArg Core.explicitPowerDownActive keeps.core,
    congrArg Core.explicitSelfRefreshActive keeps.core⟩

/-! ### The edge record between the turns -/

section Edge

variable {β : Type} {c before after : Controller β} {request : Request}

theorem scheduleMaintenance_risingEdge (c : Controller β) (command : Command)
    (decoded : DecodedAddress) :
    (c.scheduleMaintenance command decoded).risingEdge = c.risingEdge := by
  rw [scheduleMaintenance_eq]

theorem prepareAccept_risingEdge (c : Controller β) (request : Request) :
    (c.prepareAccept request).risingEdge = c.risingEdge := by
  have withdrawn : c.withdrawSelfRefresh.risingEdge = c.risingEdge := by
    unfold withdrawSelfRefresh
    split <;> rfl
  have woken : ∀ c : Controller β, (c.wakeUp request).risingEdge = c.risingEdge := by
    intro c
    unfold wakeUp
    split
    · rfl
    split
    · dsimp only
      split
      · rfl
      · exact scheduleMaintenance_risingEdge _ _ _
    · rfl
  unfold prepareAccept
  split
  · rfl
  · exact (woken _).trans withdrawn

theorem upkeep_risingEdge (c : Controller β) : c.upkeep.risingEdge = c.risingEdge := by
  have wake : ∀ c : Controller β, c.wakeFromSelfRefresh.risingEdge = c.risingEdge := by
    intro c
    unfold wakeFromSelfRefresh
    dsimp only
    split
    · exact scheduleMaintenance_risingEdge _ _ _
    · rfl
  have refresh : ∀ c : Controller β, c.scheduleRefresh.risingEdge = c.risingEdge := by
    intro c
    unfold scheduleRefresh
    dsimp only
    exact List.foldlRecOn (motive := fun after : Controller β => after.risingEdge = c.risingEdge)
      _ _ rfl fun middle kept command _ =>
        (scheduleMaintenance_risingEdge middle _ _).trans kept
  have service : ∀ c : Controller β, c.servicePendingMaintenance.risingEdge = c.risingEdge := by
    intro c
    unfold servicePendingMaintenance favourExit
    dsimp only
    split
    · rfl
    split
    · split <;> rfl
    · rfl
  have policy : ∀ c : Controller β, c.applyRowPolicyPreSchedule.risingEdge = c.risingEdge := by
    intro c
    unfold applyRowPolicyPreSchedule
    split
    · rfl
    · refine List.foldlRecOn
        (motive := fun after : Controller β => after.risingEdge = c.risingEdge) _ _ rfl
        fun middle kept flat _ => Eq.trans ?_ kept
      unfold schedulePrecharge
      dsimp only
      split
      · rfl
      · split <;> rfl
  unfold upkeep
  dsimp only
  rw [policy, service, refresh, wake]

theorem idleLowPower_risingEdge (c : Controller β) : c.idleLowPower.risingEdge = c.risingEdge := by
  have entry : ∀ c : Controller β, c.enterLowPower.risingEdge = c.risingEdge := by
    intro c
    unfold enterLowPower
    split
    · split
      · rfl
      · exact scheduleMaintenance_risingEdge _ _ _
    · rfl
  obtain ⟨since, same | ⟨-, same⟩⟩ := idleLowPower_cases c
  · rw [same]
  · rw [same, entry]

variable [MemoryBackend β] {bus : BusClass} {candidate : Candidate}

omit [MemoryBackend β] in
theorem choose_risingEdge {found : Option Candidate} {chosen : Controller β}
    (returns : c.choose bus = .ok (found, chosen)) : chosen.risingEdge = c.risingEdge := by
  rcases choose_chosen returns with rfl | rfl | rfl
  · rfl
  · rfl
  · unfold setWriteMode
    dsimp only
    split <;> split <;> rfl

theorem Entry.risingEdge {accepted : Bool} (entry : Entry c request accepted after) :
    after.risingEdge = c.risingEdge ∧ after.wckRetrainRequired = c.wckRetrainRequired := by
  cases entry with
  | forwarded isRead hits forwards =>
    unfold forwardRead at forwards
    obtain ⟨⟨payload, byteMask, image⟩, -, forwards⟩ := bind_eq_ok.mp forwards
    cases forwards
    exact ⟨rfl, rfl⟩
  | _ => exact ⟨rfl, rfl⟩

theorem Advance.risingEdge (advance : Advance c candidate request after) :
    after.risingEdge = c.risingEdge ∧ after.wckRetrainRequired = c.wckRetrainRequired := by
  cases advance with
  | retired after data ordinary how =>
    rw [how.result, leaveBuffer_eq]
    exact ⟨rfl, rfl⟩
  | _ => exact ⟨rfl, rfl⟩

end Edge

/-! ### The replay through a run -/

/-- What the gates leave open of a turn and its command: two buses do not share it, a second
activate keeps its deadline, an exit finds the state it leaves, and no running data clock is cut
short. -/
structure KeepsReplayRules {β : Type} [MemoryBackend β] (c : Controller β) (bus : BusClass) :
    Prop where
  unified : bus = .unified → c.spec.dualCommandBus = false ∧ c.spec.hbmEdgePairing = false
  deadline : ∀ request, c.picked bus = some (request, .act2) →
    c.clk ≤ (c.bankOf request).act2Deadline
  powerDown : ∀ request, c.picked bus = some (request, .pdx) → c.explicitPowerDownActive = true
  selfRefresh : ∀ request, c.picked bus = some (request, .srefex) →
    c.explicitSelfRefreshActive = true
  dataClock : ∀ request, c.picked bus = some (request, .wcksync) →
    (c.timingEngine.wckState c.spec request.decoded).wckActiveUntil ≤
      synchronizedUntil c.spec c.clk

end Controller

/-- What the offline check asks of a record as a whole: one channel inside the geometry, second
activates with their owners, the dual-bank refresh of the device, and cycles that stay in a 64-bit
word. -/
structure ReplayableTrace (spec : DramSpec) (channel : Nat) (trace : List IssuedCommand) :
    Prop where
  inside : ∀ issued ∈ trace, issued.decoded.InBounds spec
  oneChannel : ∀ issued ∈ trace, issued.decoded.channel = channel
  owned : SecondActivatesOwned spec trace
  dualBank : ∀ issued ∈ trace, issued.command = .refdb → spec.lpddrDualBankRefresh = true
  room : ∀ issued ∈ trace, ∀ delay ∈ replayDelays spec, issued.cycle + delay ≤ uint64Max

theorem ReplayableTrace.before {spec : DramSpec} {channel : Nat} {trace : List IssuedCommand}
    {issued : IssuedCommand} (replayable : ReplayableTrace spec channel (trace ++ [issued])) :
    ReplayableTrace spec channel trace := by
  obtain ⟨inside, oneChannel, owned, dualBank, room⟩ := replayable
  have earlier : ∀ record ∈ trace, record ∈ trace ++ [issued] :=
    fun _ member => List.mem_append_left _ member
  exact ⟨fun record member => inside record (earlier record member),
    fun record member => oneChannel record (earlier record member),
    (History.each_concat.mp owned).1, fun record member => dualBank record (earlier record member),
    fun record member => room record (earlier record member)⟩

namespace Controller

section Replays

variable {β : Type} {c before after : Controller β} {spec : DramSpec} {channel : Nat}
variable {trace : List IssuedCommand} {state : Validator.State} {request : Request}
variable {candidate : Candidate}

/-- Between the turns the replay stays in step. -/
theorem Mirrors.quiet (mirrors : Mirrors channel trace before.explicit state)
    (keeps : DeviceKept before after) (risingEdge : after.risingEdge = before.risingEdge)
    (retrain : after.wckRetrainRequired = before.wckRetrainRequired) :
    Mirrors channel trace after.explicit state := by
  have marks : after.timingEngine.marks = before.timingEngine.marks := by
    rcases keeps.timingEngine with same | pruned
    · rw [same]
    · rw [pruned]
      rfl
  have sweeps : after.timingEngine.refdbStates = before.timingEngine.refdbStates := by
    rcases keeps.timingEngine with same | pruned
    · rw [same]
    · rw [pruned]
      rfl
  have clocks : after.timingEngine.wckScopes = before.timingEngine.wckScopes := by
    rcases keeps.timingEngine with same | pruned
    · rw [same]
    · rw [pruned]
      rfl
  have windows := mirrors.windows.quiet keeps.explicit
  obtain ⟨banks, flags, pairing, table, refreshes, -, followed, clock, past, pairs⟩ := mirrors
  unfold explicit at banks flags pairing table refreshes followed clock past pairs ⊢
  dsimp only at banks flags pairing table refreshes followed clock past pairs
  refine ⟨?_, ⟨?_, ?_, ?_, rfl, ?_⟩, ?_, ?_, ?_, windows, ?_, ?_, ?_, ?_⟩
  · rw [keeps.spec, keeps.banks]
    exact banks
  · rw [keeps.explicitPowerDownActive]
    exact flags.powerDown
  · rw [keeps.explicitSelfRefreshActive]
    exact flags.selfRefresh
  · rw [retrain]
    exact flags.wckRetrainRequired
  · rw [retrain, keeps.spec]
    exact flags.retrains
  · rw [risingEdge]
    exact pairing
  · rw [marks]
    exact table
  · rw [keeps.spec, sweeps]
    exact refreshes
  · rw [keeps.spec]
    exact followed
  · rw [keeps.spec, clocks]
    exact clock
  · exact fun record member => (past record member).trans keeps.clk
  · rw [keeps.spec]
    exact pairs

theorem issueEffects_lowPower {memPhy : MemPhy} {memoryImage : MemoryImage β}
    (low : (c.explicitPowerDownActive || c.explicitSelfRefreshActive) = true →
      c.lowPowerActive = true)
    (either : ((c.issueEffects candidate request memPhy memoryImage).explicitPowerDownActive ||
      (c.issueEffects candidate request memPhy memoryImage).explicitSelfRefreshActive) = true) :
    (c.issueEffects candidate request memPhy memoryImage).lowPowerActive = true := by
  obtain ⟨down, self, flag⟩ := issueEffects_power c candidate request memPhy memoryImage
  rw [down, self] at either
  rw [flag]
  cases command : candidate.command <;> rw [command] at either <;> simp at either low ⊢ <;> tauto

/-- The effects of a command are the same ones by the explicit commands. -/
theorem Mirrors.issued {memPhy : MemPhy} {memoryImage : MemoryImage β}
    (low : (c.explicitPowerDownActive || c.explicitSelfRefreshActive) = true →
      c.lowPowerActive = true)
    (mirrors : Mirrors channel trace
      (c.explicit.issueEffects candidate request memPhy memoryImage) state) :
    Mirrors channel trace (c.issueEffects candidate request memPhy memoryImage).explicit state := by
  obtain ⟨down, self, -⟩ := issueEffects_power c candidate request memPhy memoryImage
  obtain ⟨down', self', -⟩ := issueEffects_power c.explicit candidate request memPhy memoryImage
  rw [← explicit_eq mirrors.flags.lowPowerActive] at mirrors
  refine mirrors.quiet ⟨?_, ?_, ?_, ?_, Or.inl ?_, down.trans down'.symm, self.trans self'.symm,
    fun either _ => ?_, ?_⟩ ?_ ?_
  · rw [issueEffects_spec, issueEffects_spec]
    rfl
  · rw [issueEffects_options, issueEffects_options]
    rfl
  · rw [issueEffects_banks, issueEffects_banks]
    rfl
  · rw [issueEffects_clk, issueEffects_clk]
    exact Nat.le_refl _
  · rw [issueEffects_timingEngine, issueEffects_timingEngine]
    rfl
  · rw [← down.trans down'.symm, ← self.trans self'.symm] at either
    exact issueEffects_lowPower low either
  · rw [issueEffects_memPhy, issueEffects_memPhy]
    exact PhyKept.refl _
  · rw [issueEffects_risingEdge, issueEffects_risingEdge]
    rfl
  · rw [issueEffects_wckRetrainRequired, issueEffects_wckRetrainRequired]
    rfl

/-- The replay of the record is clean so far and in step, if the record is one the offline check
can follow. -/
structure InStep (spec : DramSpec) (channel : Nat) (trace : List IssuedCommand)
    (c : Controller β) : Prop where
  spec_eq : c.spec = spec
  low : (c.explicitPowerDownActive || c.explicitSelfRefreshActive) = true → c.lowPowerActive = true
  follows : ReplayableTrace spec channel trace → (Validator.replay spec trace).1 = [] ∧
    Mirrors channel trace c.explicit (Validator.replay spec trace).2

theorem InStep.quiet (inStep : InStep spec channel trace before) (keeps : DeviceKept before after)
    (risingEdge : after.risingEdge = before.risingEdge)
    (retrain : after.wckRetrainRequired = before.wckRetrainRequired) :
    InStep spec channel trace after := by
  obtain ⟨spec_eq, low, follows⟩ := inStep
  refine ⟨keeps.spec.trans spec_eq, fun either => ?_, fun replayable => ?_⟩
  · rw [keeps.explicitPowerDownActive, keeps.explicitSelfRefreshActive] at either
    exact keeps.lowPowerActive either (low either)
  · obtain ⟨clean, mirrors⟩ := follows replayable
    exact ⟨clean, mirrors.quiet keeps risingEdge retrain⟩

section Turns

variable [MemoryBackend β] {bus : BusClass} {chosen : Controller β}

/-- A turn issues on its own bus. -/
theorem turn_bus {issued : List IssuedCommand} (returns : c.turn bus = .ok (issued, after)) :
    ∀ record ∈ issued, record.bus = bus := by
  unfold turn at returns
  obtain ⟨⟨candidate, chosen⟩, chooses, returns⟩ := bind_eq_ok.mp returns
  cases candidate with
  | none =>
    cases returns
    exact fun _ member => absurd member List.not_mem_nil
  | some candidate =>
    obtain ⟨onBus, request, issuable⟩ := (choose_spec chooses).2 candidate rfl
    obtain ⟨-, -, sameBus, issuable⟩ := upgraded_issuable issuable
    obtain ⟨rfl, -⟩ := issue_moves issuable returns
    rw [List.forall_mem_singleton]
    exact sameBus.trans onBus

/-- The command of a turn that keeps the rules is admitted by the explicit commands. -/
theorem admitted_of_turn (rules : KeepsReplayRules c bus) (choosing : Choosing c chosen)
    (onBus : candidate.bus = bus)
    (picks : c.picked bus = some (request, candidate.command))
    (issuable : Issuable chosen candidate request)
    (low : (chosen.explicitPowerDownActive || chosen.explicitSelfRefreshActive) = true →
      chosen.lowPowerActive = true)
    (replayable : ReplayableTrace chosen.spec channel
      (trace ++ [chosen.issuedRecord request candidate])) :
    Admitted chosen.explicit trace request (chosen.explicit.issuedRecord request candidate) := by
  obtain ⟨powerDown, selfRefresh⟩ := choosing.housekeeping.power
  have member : chosen.issuedRecord request candidate ∈
      trace ++ [chosen.issuedRecord request candidate] :=
    List.mem_append_right _ (List.mem_singleton_self _)
  have timing := issuable.timing
  unfold timingOk at timing
  simp only [Bool.and_eq_true] at timing
  obtain ⟨⟨legal, ready⟩, opens⟩ := timing
  have exits : candidate.command = .srefex → chosen.explicitSelfRefreshActive = true :=
    fun is => selfRefresh.trans (rules.selfRefresh request (is ▸ picks))
  have matching : chosen.busMatches request candidate.command candidate.bus = true := by
    have eligible := issuable.eligible
    unfold candidateEligible at eligible
    by_contra other
    rw [Bool.not_eq_true] at other
    rw [other] at eligible
    simp at eligible
  exact {
    address := rfl
    now := rfl
    inside := replayable.inside _ member
    busMatches := matching
    legal := stateOk_explicit low
      (fun is => powerDown.trans (rules.powerDown request (is ▸ picks))) exits legal
    ready
    opens
    unified := fun shared => by
      have free := rules.unified (onBus.symm.trans shared)
      rw [← choosing.housekeeping.spec] at free
      exact free
    second := fun second => by
      refine ⟨(History.each_concat.mp replayable.owned).2 second, ?_⟩
      have due := rules.deadline request (second ▸ picks)
      unfold bankOf at due
      rw [← choosing.housekeeping.spec, ← choosing.housekeeping.banks,
        ← choosing.housekeeping.clk] at due
      exact due
    dualBank := replayable.dualBank _ member
    selfRefresh := exits
    dataClock := fun synchronizes => by
      have due := rules.dataClock request (synchronizes ▸ picks)
      rw [← choosing.housekeeping.spec, ← choosing.housekeeping.clk, ← choosing.timingEngine]
        at due
      exact due
    room := replayable.room _ member }

theorem InStep.issue (inStep : InStep spec channel trace chosen) (rules : KeepsReplayRules c bus)
    (choosing : Choosing c chosen) (onBus : candidate.bus = bus)
    (picks : c.picked bus = some (request, candidate.command))
    (issuable : Issuable chosen candidate request) {memPhy : MemPhy}
    {memoryImage : MemoryImage β} :
    InStep spec channel (trace ++ [chosen.issuedRecord request candidate])
      (chosen.issueEffects candidate request memPhy memoryImage) := by
  obtain ⟨rfl, low, follows⟩ := inStep
  refine ⟨issueEffects_spec .., issueEffects_lowPower low, fun replayable => ?_⟩
  obtain ⟨clean, mirrors⟩ := follows replayable.before
  have admitted := admitted_of_turn rules choosing onBus picks issuable low replayable
  have member : chosen.issuedRecord request candidate ∈
      trace ++ [chosen.issuedRecord request candidate] :=
    List.mem_append_right _ (List.mem_singleton_self _)
  have within := replayable.inside _ member
  have isChannel := replayable.oneChannel _ member
  have inRange : Validator.decodedInRange chosen.spec (chosen.issuedRecord request candidate) =
      true :=
    decide_eq_true ⟨le_max_left .., within.channel, within.pseudoChannel, within.sid, within.rank,
      within.bankGroup, within.bank, within.row, within.column⟩
  have noError : Validator.checkCommand chosen.spec
      (chosen.issuedRecord request candidate) _ = [] := admitted.clean mirrors isChannel
  rw [Validator.replay_concat, clean]
  unfold Validator.step
  rw [if_pos inRange, noError]
  exact ⟨rfl, (admitted.issue mirrors isChannel).issued low⟩

theorem inStep_kept (spec : DramSpec) (channel : Nat) : Kept (fun _ _ => True) KeepsReplayRules
    fun events (c : Controller β) => InStep spec channel (commandsOf events) c where
  enqueue history c request accepted after holds _ returns := by
    rw [commandsOf_acceptance]
    obtain ⟨timing, flag⟩ := prepareAccept_outside c request
    have frame := prepareAccept_housekeeping c request
    have prepared := holds.quiet (frame.deviceKept (Or.inl timing) flag)
      (prepareAccept_risingEdge c request) (congrArg Core.wckRetrainRequired frame.core)
    have entry := (enqueue_cases returns).2
    exact prepared.quiet entry.deviceKept entry.risingEdge.1 entry.risingEdge.2
  beginTick history c begun holds returns := by
    refine holds.quiet (beginTick_deviceKept returns) ?_ ?_ <;> rw [(beginTick_eq returns).2]
  upkeep history c holds _ := by
    have outside := upkeep_outside c
    have frame := upkeep_housekeeping c
    have flag : c.upkeep.lowPowerActive = c.lowPowerActive := congrArg Prod.snd outside
    refine holds.quiet (frame.deviceKept (Or.inr ?_) fun _ => flag.trans) (upkeep_risingEdge c)
      (congrArg Core.wckRetrainRequired frame.core)
    rw [frame.clk]
    exact congrArg Prod.fst outside
  turn history c bus issued after holds rules returns := by
    rw [commandsOf_issued]
    rcases turn_parts returns with ⟨rfl, choosing, chooses⟩ |
      ⟨chosen, candidate, request, rfl, parts⟩
    · rw [List.append_nil]
      exact holds.quiet choosing.deviceKept (choose_risingEdge chooses)
        (congrArg Core.wckRetrainRequired choosing.housekeeping.core)
    · obtain ⟨found, chooses⟩ := parts.chooses
      obtain ⟨memPhy, memoryImage, issuing, -⟩ := parts.moves
      have ready := holds.quiet parts.choosing.deviceKept (choose_risingEdge chooses)
        (congrArg Core.wckRetrainRequired parts.choosing.housekeeping.core)
      have onBus : candidate.bus = bus := turn_bus returns _ (List.mem_singleton_self _)
      exact (ready.issue rules parts.choosing onBus parts.picks issuing.issuable).quiet
        issuing.advance.deviceKept issuing.advance.risingEdge.1 issuing.advance.risingEdge.2
  idleLowPower history c holds := by
    obtain ⟨timing, flag⟩ := idleLowPower_outside c
    have frame := idleLowPower_housekeeping c
    exact holds.quiet (frame.deviceKept (Or.inl timing) fun _ => flag) (idleLowPower_risingEdge c)
      (congrArg Core.wckRetrainRequired frame.core)
  popResponse history c response after holds returns := by
    rw [commandsOf_responded]
    unfold popResponse at returns
    split at returns
    · cases returns
    · cases returns
      exact holds.quiet ⟨rfl, rfl, rfl, Nat.le_refl _, Or.inl rfl, rfl, rfl, fun _ => id,
        PhyKept.refl _⟩ rfl rfl
  flushStorage history c after holds returns := by
    obtain ⟨image, -, returned⟩ := bind_eq_ok.mp returns
    cases returned
    exact holds.quiet ⟨rfl, rfl, rfl, Nat.le_refl _, Or.inl rfl, rfl, rfl, fun _ => id,
      PhyKept.refl _⟩ rfl rfl

theorem create_inStep {options : ControllerOptions} {image : MemoryImage β} {start : Controller β}
    (created : create spec options image = .ok start) (channel : Nat) :
    InStep spec channel [] start := by
  have first := create_created created
  have mirrors := Mirrors.create created channel
  refine ⟨first.spec_eq, fun either => ?_, fun _ => ⟨rfl, ?_⟩⟩
  · rw [← mirrors.flags.lowPowerActive] at either
    exact either
  · rw [explicit_eq mirrors.flags.lowPowerActive]
    exact mirrors

end Turns

end Replays

end Controller

end HbmSim
