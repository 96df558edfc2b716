/-
The online gates and the offline check agree: commands that pass the gates one
after the other, and the rules the gates leave to the rest of the controller,
are recorded without errors.

The proof runs the device and the replay side by side. The invariant `Mirrors`
puts the parts of the mirror together.
-/

import HbmSim.ValidatorTiming

namespace HbmSim

variable {request : Request} {issued : IssuedCommand} {trace : List IssuedCommand}

namespace Controller

variable {β : Type} {c start final : Controller β} {gated : GatedCommand} {channel : Nat}
variable {state : Validator.State}

/-! ### The mirror -/

/-- The replay of the trace is in step with the controller of its channel. -/
structure Mirrors (channel : Nat) (trace : List IssuedCommand) (c : Controller β)
    (state : Validator.State) : Prop where
  banks : BanksMirror c.spec trace c.banks state.bankStates
  flags : ChannelMirrors c (state.channelStates channel)
  pairing : PairingMirrors c.risingEdge (state.hbmPairingStates channel)
  table : c.timingEngine.marks = replayMarks state.constraintScopes
  sweeps : c.spec.lpddrDualBankRefresh = true → ∀ rank,
    SweepMirrors c.spec (c.timingEngine.refdbStates rank) (state.refreshStates rank)
  windows : WindowsTracked trace c
  followed : Validator.WindowsFollowed c.spec trace state.activationScopes
  clock : Validator.checksWck c.spec = true → ∀ index,
    ClockMirrors (c.timingEngine.wckScopes index) (state.wckScopes index)
  past : ∀ record ∈ trace, record.cycle ≤ c.clk
  pairs : c.spec.lpddrDualBankRefresh = true →
    2 ≤ c.spec.org.bankGroups ∧ c.spec.org.bankGroups % 2 = 0

theorem Mirrors.atTick (mirrors : Mirrors channel trace c state) {cycle : Nat}
    (later : c.clk ≤ cycle) : Mirrors channel trace (c.atTick cycle) state where
  banks := mirrors.banks
  flags := ⟨mirrors.flags.powerDown, mirrors.flags.selfRefresh, mirrors.flags.wckRetrainRequired,
    mirrors.flags.lowPowerActive, mirrors.flags.retrains⟩
  pairing := mirrors.pairing
  table := mirrors.table
  sweeps := mirrors.sweeps
  windows := mirrors.windows.quiet
    ⟨rfl, rfl, rfl, later, Or.inr rfl, rfl, rfl, fun _ => id, PhyKept.refl _⟩
  followed := mirrors.followed
  clock := mirrors.clock
  past := fun record member => (mirrors.past record member).trans later
  pairs := mirrors.pairs

theorem Mirrors.create [MemoryBackend β] {spec : DramSpec} {options : ControllerOptions}
    {image : MemoryImage β} (created : create spec options image = .ok start) (channel : Nat) :
    Mirrors channel [] start {} := by
  obtain ⟨checked, accepted⟩ := (create_created created).accepted
  rw [(create_created created).result]
  refine ⟨fun _ => ⟨rfl, rfl, nofun⟩, ⟨rfl, rfl, rfl, rfl, nofun⟩, ⟨rfl, rfl, rfl, rfl⟩, rfl,
    fun dual _ => ⟨rfl, rfl, fun _ _ _ listed => absurd listed List.not_mem_nil, ?_⟩,
    fun _ => Window.Tracks.start, fun _ _ _ => Window.Tracks.start, fun _ _ => ⟨rfl, rfl⟩,
    fun _ member => absurd member List.not_mem_nil, validateSpec_bankGroups accepted⟩
  have groups := validateSpec_bankGroups accepted dual
  exact Nat.mul_pos (by dsimp only at groups ⊢; omega) (validateSpec_positive accepted).banksPerGroup

/-! ### One command -/

/-- A command that passes the gates, with what the offline check asks of it. -/
structure Admitted (c : Controller β) (trace : List IssuedCommand) (request : Request)
    (issued : IssuedCommand) : Prop where
  address : request.decoded = issued.decoded
  now : issued.cycle = c.clk
  inside : issued.decoded.InBounds c.spec
  busMatches : c.busMatches request issued.command issued.bus = true
  legal : c.stateOk request issued.command = true
  ready : c.timingEngine.constraintReady c.spec issued.decoded issued.command c.clk = true
  opens : c.gatesOpen request issued.command = true
  unified : issued.bus = .unified → c.spec.dualCommandBus = false ∧ c.spec.hbmEdgePairing = false
  second : issued.command = .act2 → SecondActivateDue c trace issued
  dualBank : issued.command = .refdb → c.spec.lpddrDualBankRefresh = true
  selfRefresh : issued.command = .srefex → c.explicitSelfRefreshActive = true
  dataClock : issued.command = .wcksync →
    (c.timingEngine.wckState c.spec issued.decoded).wckActiveUntil ≤
      synchronizedUntil c.spec issued.cycle
  room : ∀ delay ∈ replayDelays c.spec, issued.cycle + delay ≤ uint64Max

/-- The gates let data through only while the data clock runs. -/
theorem wckReady_of_gatesOpen {command : Command} (opens : c.gatesOpen request command = true)
    (data : (commandMeta command).data = true) (lpddr : c.spec.lpddrFamily = true) :
    c.wckReadyForData request = true := by
  unfold gatesOpen at opens
  rcases (commandMeta_data_iff command).mp data with rfl | rfl | rfl | rfl <;>
    · simp only [Bool.and_eq_true, Bool.or_eq_true, Bool.not_eq_true'] at opens
      exact opens.2.resolve_left (by rw [lpddr]; nofun)

/-- An admitted command has no error. -/
theorem Admitted.clean (admitted : Admitted c trace request issued)
    (mirrors : Mirrors channel trace c state) (isChannel : issued.decoded.channel = channel) :
    Validator.checkCommand c.spec issued state = [] := by
  have here : scopeIndex c.spec .channel issued.decoded = channel :=
    (clampCoordinate_of_lt admitted.inside.channel).trans isChannel
  have ready := admitted.ready
  rw [← admitted.now] at ready
  have swept := ((TimingEngine.constraintReady_iff _).mp ready).1
  have refresh : Validator.checkRefresh c.spec issued
      (state.refreshStates (scopeIndex c.spec .rank issued.decoded)) = [] := by
    by_cases dual : c.spec.lpddrDualBankRefresh = true
    · exact checkRefresh_clean (mirrors.sweeps dual _) admitted.inside
        (fun dual => (mirrors.pairs dual).2) swept
    · exact if_neg fun both => dual both.1
  have window := checkFaw_clean
    (admitted.now ▸ mirrors.windows (scopeIndex c.spec c.spec.activationScope issued.decoded))
    mirrors.followed (admitted.now ▸ mirrors.past) fun counts => by
      rw [← admitted.address]
      exact gatesOpen_fawReady admitted.opens counts
  have clock := checkWck_clean mirrors.clock fun data lpddr => by
    rw [admitted.now, ← admitted.address]
    exact wckReady_of_gatesOpen admitted.opens data lpddr
  unfold Validator.checkCommand
  rw [refresh, checkBus_clean admitted.busMatches fun bus => (admitted.unified bus).1, here,
    checkEdges_clean mirrors.pairing admitted.inside admitted.address admitted.now
      admitted.busMatches fun bus => (admitted.unified bus).2,
    checkState_clean mirrors.banks mirrors.flags admitted.inside admitted.address admitted.now
      admitted.legal admitted.opens admitted.second admitted.dualBank admitted.selfRefresh,
    checkTable_clean mirrors.table ready, window, clock]
  rfl

theorem idle_of_act1 (legal : c.stateOk request .act1 = true) :
    (c.bankOf request).openRow = none := by
  unfold stateOk checkCommandState at legal
  split at legal
  · cases legal
  · unfold legalOutsideSelfRefresh at legal
    have closed := (@bankState_closed request β c .act1).mp
      (of_decide_eq_true (Bool.and_eq_true_iff.mp legal).2)
    unfold BankState.busy at closed
    exact Option.not_isSome_iff_eq_none.mp (by simp [Bool.or_eq_false_iff.mp closed])

theorem issueTiming_refdbStates {spec : DramSpec} {engine : TimingEngine} (command : Command)
    (clk : Nat) (dual : spec.lpddrDualBankRefresh = true) :
    (issueTiming spec request command clk engine).refdbStates =
      engine.sweepAfter spec request.decoded command clk := by
  have gates : (scopeGates spec request command clk engine).refdbStates = engine.refdbStates := by
    unfold scopeGates
    cases command with
    | rd | rda | wr | wra =>
      unfold columnGates
      dsimp only
      split <;> rfl
    | _ => rfl
  unfold issueTiming
  rw [applyConstraints_eq]
  dsimp only
  rw [if_pos dual]
  unfold TimingEngine.sweepAfter TimingEngine.sweepBy
  rw [gates]

/-- The controller and the replay are in step after an admitted command. -/
theorem Admitted.issue {candidate : Candidate} {memPhy : MemPhy} {memoryImage : MemoryImage β}
    (admitted : Admitted c trace request (c.issuedRecord request candidate))
    (mirrors : Mirrors channel trace c state) (isChannel : request.decoded.channel = channel) :
    Mirrors channel (trace ++ [c.issuedRecord request candidate])
      (c.issueEffects candidate request memPhy memoryImage)
      (Validator.replayCommand c.spec (c.issuedRecord request candidate) state) := by
  have clean := admitted.clean mirrors isChannel
  unfold Validator.checkCommand at clean
  simp only [List.append_eq_nil_iff] at clean
  have here : scopeIndex c.spec .channel request.decoded = channel :=
    (clampCoordinate_of_lt admitted.inside.channel).trans isChannel
  unfold Validator.replayCommand
  constructor
  case banks =>
    rw [issueEffects_spec, issueEffects_banks]
    exact mirrors.banks.replay admitted.inside rfl (notActivating_of_legal admitted.legal)
      (fun first => idle_of_act1 (first ▸ admitted.legal)) admitted.room
  case flags =>
    rw [show scopeIndex c.spec .channel (c.issuedRecord request candidate).decoded = channel
      from here]
    dsimp only
    rw [Function.update_self]
    exact mirrors.flags.replay rfl
  case pairing =>
    rw [issueEffects_risingEdge]
    exact mirrors.pairing.replay admitted.inside isChannel rfl rfl admitted.busMatches
      admitted.room
  case table =>
    rw [issueEffects_timingEngine]
    exact marks_replay mirrors.table rfl admitted.room
  case sweeps =>
    rw [issueEffects_spec, issueEffects_timingEngine]
    intro dual rank
    rw [issueTiming_refdbStates _ _ dual]
    exact sweeps_replay dual (mirrors.sweeps dual) admitted.inside (mirrors.pairs dual)
      admitted.room rank
  case windows => exact mirrors.windows.record admitted.opens
  case followed =>
    rw [issueEffects_spec]
    exact mirrors.followed.replay mirrors.past clean.1.2
  case clock =>
    rw [issueEffects_spec, issueEffects_timingEngine]
    intro checked index
    exact clock_replay checked (mirrors.clock checked) rfl admitted.dataClock admitted.room index
  case past =>
    rw [issueEffects_clk]
    exact List.forall_mem_append.mpr ⟨mirrors.past,
      List.forall_mem_singleton.mpr (Nat.le_refl c.clk)⟩
  case pairs =>
    rw [issueEffects_spec]
    exact mirrors.pairs

/-! ### A run behind the gates -/

/-- Where the record of a run keeps to its channel and its second activates to their owners, its
replay is clean and in step with the controller. -/
def Followed (spec : DramSpec) (channel : Nat) (trace : List IssuedCommand) (c : Controller β) :
    Prop :=
  c.spec = spec ∧
    ((∀ record ∈ trace, record.decoded.InBounds spec ∧ record.decoded.channel = channel) →
      SecondActivatesOwned spec trace →
      (Validator.replay spec trace).1 = [] ∧
        Mirrors channel trace c (Validator.replay spec trace).2)

/-- A command that passed the gates is admitted. -/
theorem admitted_of_passesGates {gated : GatedCommand} (rules : OfflineRules c gated)
    (passes : (c.atTick gated.cycle).passesGates gated = true)
    (inside : gated.request.decoded.InBounds c.spec)
    (owned : gated.candidate.command = .act2 → ∀ first,
      latestFirstActivate c.spec trace (gated.request.decoded.flatBank c.spec) = some first →
      gated.request.id = first.requestId ∧ gated.request.decoded.row = first.decoded.row) :
    Admitted (c.atTick gated.cycle) trace gated.request
      ((c.atTick gated.cycle).issuedRecord gated.request gated.candidate) := by
  unfold passesGates timingOk at passes
  simp only [Bool.and_eq_true] at passes
  obtain ⟨busMatches, ⟨legal, ready⟩, opens⟩ := passes
  exact {
    address := rfl
    now := rfl
    inside
    busMatches
    legal
    ready
    opens
    unified := rules.bus
    second := fun second => ⟨owned second, rules.deadline second⟩
    dualBank := rules.dualBank
    selfRefresh := rules.selfRefresh
    dataClock := rules.dataClock
    room := rules.fits }

theorem Followed.issue {spec : DramSpec} {events : List IssuedCommand} {next : Controller β}
    (followed : Followed spec channel trace c) (rules : OfflineRules c gated)
    (returns : c.issueGated gated = .ok (events, next)) :
    Followed spec channel (trace ++ events) next := by
  unfold issueGated at returns
  dsimp only at returns
  split at returns
  next passed =>
    cases returns
    obtain ⟨later, passes⟩ := passed
    obtain ⟨rfl, follows⟩ := followed
    refine ⟨by rw [issueEffects_spec]; rfl, fun inside owned => ?_⟩
    obtain ⟨insideTrace, insideHere⟩ := List.forall_mem_append.mp inside
    obtain ⟨within, isChannel⟩ := List.forall_mem_singleton.mp insideHere
    obtain ⟨ownedTrace, ownedHere⟩ := History.each_concat.mp owned
    obtain ⟨clean, mirrors⟩ := follows insideTrace ownedTrace
    have admitted := admitted_of_passesGates rules passes within ownedHere
    have inRange : Validator.decodedInRange c.spec
        ((c.atTick gated.cycle).issuedRecord gated.request gated.candidate) = true :=
      decide_eq_true ⟨le_max_left .., within.channel, within.pseudoChannel, within.sid, within.rank,
        within.bankGroup, within.bank, within.row, within.column⟩
    have noError : Validator.checkCommand c.spec _ _ = [] :=
      admitted.clean (mirrors.atTick later) isChannel
    rw [Validator.replay_concat, clean]
    unfold Validator.step
    rw [if_pos inRange, noError]
    exact ⟨rfl, admitted.issue (mirrors.atTick later) isChannel⟩
  next => cases returns

/-- The replay of a run of one channel is clean, and in step with the controller at the end. -/
theorem Followed.run [MemoryBackend β] {spec : DramSpec} {options : ControllerOptions}
    {image : MemoryImage β} {commands : List GatedCommand}
    (created : create spec options image = .ok start)
    (returns : start.issueAllGated commands = .ok (trace, final))
    (meets : start.MeetsOfflineRules commands) : Followed spec channel trace final := by
  have isSpec : start.spec = spec := by rw [(create_created created).result]
  have begins : Followed spec channel [] start :=
    ⟨isSpec, fun _ _ => ⟨rfl, Mirrors.create created channel⟩⟩
  have keeps : ∀ (history : List IssuedCommand) (c : Controller β) gated events next,
      Followed spec channel history c → OfflineRules c gated →
      c.issueGated gated = .ok (events, next) → Followed spec channel (history ++ events) next :=
    fun _ _ _ _ _ followed rules returns => followed.issue rules returns
  exact Transition.run_invariant keeps begins meets returns

theorem validateSingleStackTrace_clean {spec : DramSpec}
    (clean : (Validator.replay spec trace).1 = [])
    (completed : ∀ flat < scopeCount spec .bank,
      ((Validator.replay spec trace).2.bankStates flat).activating = false) :
    Validator.validateSingleStackTrace spec trace = [] := by
  have none : ((List.range (scopeCount spec .bank)).any fun index =>
      ((Validator.replay spec trace).2.bankStates index).activating) = false := by
    rw [List.any_eq_false]
    intro index member
    rw [completed index (List.mem_range.mp member)]
    nofun
  unfold Validator.validateSingleStackTrace
  dsimp only
  rw [clean, none, if_neg nofun]
  exact if_neg (by decide)

/-- The record of one stack is checked as a whole. -/
theorem validateCommandTrace_clean {spec : DramSpec} {stack : Int}
    (accepted : ∃ checked, validateSpec spec = .ok checked)
    (oneStack : ∀ issued ∈ trace, issued.stackId = stack)
    (whole : Validator.validateSingleStackTrace spec trace = []) :
    Validator.validateCommandTrace spec trace = .ok [] := by
  obtain ⟨checked, accepted⟩ := accepted
  have part : ∀ other : Int, Validator.validateSingleStackTrace spec
      (trace.filter fun issued => decide (issued.stackId = other)) = [] := by
    intro other
    by_cases same : stack = other
    · rw [List.filter_eq_self.mpr fun issued member =>
        decide_eq_true ((oneStack issued member).trans same)]
      exact whole
    · rw [List.filter_eq_nil_iff.mpr fun issued member => by
        rw [oneStack issued member, decide_eq_true_eq]
        exact same]
      exact validateSingleStackTrace_clean rfl fun _ _ => rfl
  unfold Validator.validateCommandTrace
  refine bind_eq_ok.mpr ⟨checked, accepted, ?_⟩
  refine congrArg Except.ok (List.flatMap_eq_nil_iff.mpr fun other _ => ?_)
  rw [part other]
  rfl

/-- Commands that pass the online gates one after the other, and keep the rules the gates leave
open, are recorded without errors when every first activate has been completed. -/
theorem validator_accepts_gated [MemoryBackend β] {spec : DramSpec} {options : ControllerOptions}
    {image : MemoryImage β} {commands : List GatedCommand}
    (created : create spec options image = .ok start)
    (returns : start.issueAllGated commands = .ok (trace, final))
    (meets : start.MeetsOfflineRules commands) (recorded : ChannelRecord spec trace)
    (owned : SecondActivatesOwned spec trace)
    (completed : ∀ flat < spec.bankCount, (final.banks flat).activating = false) :
    Validator.validateCommandTrace spec trace = .ok [] := by
  obtain ⟨inBounds, ⟨channel, oneChannel⟩, stack, oneStack⟩ := recorded
  have followed : Followed spec channel trace final := Followed.run created returns meets
  obtain ⟨clean, mirrors⟩ := followed.2
    (fun record member => ⟨inBounds record member, oneChannel record member⟩) owned
  obtain ⟨checked, accepted⟩ := (create_created created).accepted
  refine validateCommandTrace_clean ⟨checked, accepted⟩ oneStack
    (validateSingleStackTrace_clean clean fun flat inside => ?_)
  rw [scopeCount_bank (decode_inBounds (validateSpec_positive accepted) 0)] at inside
  exact (mirrors.banks flat).activating.trans (completed flat inside)

/-- A run of a new controller behind the gates. -/
def gatedRun (spec : DramSpec) (commands : List GatedCommand) :
    Option (List IssuedCommand × Controller SparseMemoryBackend) :=
  match create spec {} (imageOf spec) with
  | .error _ => none
  | .ok start =>
    match start.issueAllGated commands with
    | .error _ => none
    | .ok result => some result

theorem gatedRun_eq_some {spec : DramSpec} {commands : List GatedCommand}
    {result : List IssuedCommand × Controller SparseMemoryBackend}
    (returns : gatedRun spec commands = some result) :
    ∃ start, create spec {} (imageOf spec) = .ok start ∧
      start.issueAllGated commands = .ok result := by
  unfold gatedRun at returns
  split at returns
  next => cases returns
  next start created =>
    split at returns
    next => cases returns
    next issues =>
      cases returns
      exact ⟨start, created, issues⟩

/-- A split-activate device. -/
def splitDraft : DramSpec :=
  { TimingEngine.pairDraft with splitActivate := true, lowPowerMode := .selfRefresh }

def splitSpec : DramSpec :=
  { splitDraft with timingConstraints := makeLpddrConstraints splitDraft.timing }

/-- A command for a request, at a cycle. -/
def gate (cycle : Nat) (command : Command) (request : Request) : GatedCommand where
  cycle := cycle
  request := request
  candidate := { index := 0, buffer := .active, command, bus := .unified }

/-- A read that has had its first activate. -/
def halfOpened (id : Nat) : Request := { id := id, issuedFirstActivate := true }

/-- A whole read, with its clock command. -/
def splitRead : List GatedCommand :=
  [gate 1 .act1 { id := 1 }, gate 5 .act2 (halfOpened 1), gate 30 .casrd (halfOpened 1),
    gate 31 .rd (halfOpened 1)]

def splitReadTrace : List IssuedCommand :=
  [{ cycle := 1, requestId := 1, command := .act1 },
    { cycle := 5, requestId := 1, command := .act2 },
    { cycle := 30, requestId := 1, command := .casrd },
    { cycle := 31, requestId := 1, command := .rd }]

theorem splitReadTrace_owned : SecondActivatesOwned splitSpec splitReadTrace := by
  have one : ∀ events : List IssuedCommand, ∀ event, SecondActivatesOwned splitSpec events →
      (event.command = .act2 → ∀ first,
        latestFirstActivate splitSpec events (event.decoded.flatBank splitSpec) = some first →
        event.requestId = first.requestId ∧ event.decoded.row = first.decoded.row) →
      SecondActivatesOwned splitSpec (events ++ [event]) := fun _ _ owned rule =>
    History.each_concat.mpr ⟨owned, rule⟩
  refine one [_, _, _] _ (one [_, _] _ (one [_] _ (one [] _ History.Each.nil ?_) ?_) ?_) ?_
  · nofun
  · rintro - first latest
    cases latest
    exact ⟨rfl, rfl⟩
  · nofun
  · nofun

theorem validator_accepts_gated_splitRead : finalizeSpec splitDraft = .ok splitSpec ∧
    ∃ start trace final, create splitSpec {} (imageOf splitSpec) = .ok start ∧
      start.issueAllGated splitRead = .ok (trace, final) ∧
      trace.map (·.command) = [.act1, .act2, .casrd, .rd] ∧
      Validator.validateCommandTrace splitSpec trace = .ok [] := by
  have checked : passes (create splitSpec {} (imageOf splitSpec)) (fun start =>
      Transition.meetsCheck issueGated OfflineRules start splitRead &&
        match start.issueAllGated splitRead with
        | .error _ => false
        | .ok (trace, final) =>
          decide (∀ flat < splitSpec.bankCount, (final.banks flat).activating = false) &&
            decide (trace = splitReadTrace)) = true := by decide +kernel
  obtain ⟨start, created, passed⟩ := passes_iff.mp checked
  obtain ⟨rules, passed⟩ := Bool.and_eq_true_iff.mp passed
  split at passed
  next => cases passed
  next trace final returns =>
    obtain ⟨completed, isTrace⟩ := Bool.and_eq_true_iff.mp passed
    rw [decide_eq_true_eq] at completed isTrace
    have recorded : ChannelRecord splitSpec trace := by
      rw [isTrace]
      refine ⟨?_, ⟨0, by decide⟩, 0, by decide⟩
      have inside : ({} : DecodedAddress).InBounds splitSpec := by constructor <;> decide
      simp only [splitReadTrace, List.forall_mem_cons]
      exact ⟨inside, inside, inside, inside, fun _ listed => absurd listed List.not_mem_nil⟩
    have owned : SecondActivatesOwned splitSpec trace := by
      rw [isTrace]
      exact splitReadTrace_owned
    refine ⟨rfl, start, trace, final, created, returns, by rw [isTrace]; rfl, ?_⟩
    exact validator_accepts_gated created returns
      (Transition.meets_of_check issueGated OfflineRules rules) recorded owned completed

/-- Devices with commands that pass their gates. A second activate comes late or for another
request, a device without dual-bank refresh gets one, self refresh ends during power-down, a
synchronization cuts the data clock short, two buses share a command, and one controller serves two
channels or two stacks. -/
def gateGaps : List (DramSpec × List GatedCommand) :=
  let opened := [gate 1 .act1 { id := 1 }, gate 5 .act2 (halfOpened 1)]
  let read := halfOpened 1
  let elsewhere : Request := { maintain 2 .srefex with decoded := { channel := 1 } }
  [(splitSpec, [gate 1 .act1 { id := 1 }, gate 20 .act2 read]),
    (splitSpec, [gate 1 .act1 { id := 1 }, gate 5 .act2 (halfOpened 2)]),
    (splitSpec, [gate 1 .refdb (maintain 1 .refdb)]),
    (splitSpec, [gate 1 .pde (maintain 1 .pde), gate 2 .srefex (maintain 2 .srefex)]),
    (splitSpec, opened ++ [gate 30 .casrd read, gate 31 .rd read, gate 35 .wcksync read,
      gate 50 .rd read]),
    ({ splitSpec with dualCommandBus := true }, opened),
    ({ splitSpec with org := { splitSpec.org with channels := 2 } },
      [gate 1 .srefen (maintain 1 .srefen), gate 2 .srefex elsewhere]),
    (splitSpec, [gate 1 .act1 { id := 1 }, gate 5 .act2 { read with targetStack := 1 }])]

/-- Requests and ticks that reach two of the gaps: a synchronization in front of a second read, and
a dual-bank refresh. -/
def gapRuns : List (List ControllerOp) :=
  [.enqueue (readAt splitSpec 1 0 4) :: List.replicate 34 .tick ++
      .enqueue (maintain 2 .wcksync) :: List.replicate 14 .tick ++
      .enqueue (readAt splitSpec 3 4 4) :: List.replicate 15 .tick,
    .enqueue (maintain 1 .refdb) :: List.replicate 3 .tick]

/-- The gates let commands through that the offline check reports, some of them in whole runs of
the controller. -/
theorem validator_rejects_gated :
    (gateGaps.Forall fun gap => ∃ start trace final,
      create gap.1 {} (imageOf gap.1) = .ok start ∧
        start.issueAllGated gap.2 = .ok (trace, final) ∧
        (∀ flat < gap.1.bankCount, (final.banks flat).activating = false) ∧
        Validator.validateCommandTrace gap.1 trace ≠ .ok []) ∧
    gapRuns.Forall fun ops => ∃ start events final,
      create splitSpec {} (imageOf splitSpec) = .ok start ∧
        start.run ops = .ok (events, final) ∧
        (∀ flat < splitSpec.bankCount, (final.banks flat).activating = false) ∧
        Validator.validateCommandTrace splitSpec (commandsOf events) ≠ .ok [] := by
  have gated : (gateGaps.all fun gap =>
      match gatedRun gap.1 gap.2 with
      | none => false
      | some (trace, final) =>
        decide (∀ flat < gap.1.bankCount, (final.banks flat).activating = false) &&
          decide (Validator.validateCommandTrace gap.1 trace ≠ .ok [])) = true := by
    decide +kernel
  have whole : (gapRuns.all fun ops => passes (freshRun splitSpec {} ops) fun result =>
      decide (∀ flat < splitSpec.bankCount, (result.2.banks flat).activating = false) &&
        decide (Validator.validateCommandTrace splitSpec (commandsOf result.1) ≠ .ok [])) =
      true := by
    decide +kernel
  refine ⟨List.forall_iff_forall_mem.mpr fun gap listed => ?_,
    List.forall_iff_forall_mem.mpr fun ops listed => ?_⟩
  · have passed := List.all_eq_true.mp gated gap listed
    split at passed
    next => cases passed
    next trace final returns =>
      obtain ⟨start, created, issues⟩ := gatedRun_eq_some returns
      obtain ⟨completed, reported⟩ := Bool.and_eq_true_iff.mp passed
      exact ⟨start, trace, final, created, issues, of_decide_eq_true completed,
        of_decide_eq_true reported⟩
  · obtain ⟨start, events, final, created, returns, checks⟩ :=
      freshRun_of_passes splitSpec {} ops _ (List.all_eq_true.mp whole ops listed)
    obtain ⟨completed, reported⟩ := Bool.and_eq_true_iff.mp checks
    exact ⟨start, events, final, created, returns, of_decide_eq_true completed,
      of_decide_eq_true reported⟩

end Controller

end HbmSim
