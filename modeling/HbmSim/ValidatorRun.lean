/-
A whole run of a device without split activates passes the offline check. The rules
that the gates leave open are kept at every turn: no second activate is legal, the
controller enters power down and starts the data clock for a request only, and it
leaves no low-power state that a command has not entered.
-/

import HbmSim.DfiRun

namespace HbmSim

/-! ### Plain errands -/

/-- An errand that asks for nothing the gates leave unchecked: a second stack, a way into or out of
power down beside a mode for idle channels, a start of the data clock, a dual-bank refresh of a
device without one. -/
structure Errand.Plain (spec : DramSpec) (errand : Errand) : Prop where
  stack : errand.targetStack ≤ 0
  power : errand.type = .maintenance → errand.next = .pde ∨ errand.next = .pdx →
    spec.lowPowerMode = .off
  clock : errand.type = .maintenance → errand.next = .wcksync → spec.lpddrFamily = false
  dualBank : errand.type = .maintenance → errand.next = .refdb → spec.lpddrDualBankRefresh = true

theorem Errand.Plain.own {spec : DramSpec} {command : Command} {decoded : DecodedAddress}
    (power : command = .pde ∨ command = .pdx → spec.lowPowerMode = .off)
    (clock : command ≠ .wcksync)
    (dualBank : command = .refdb → spec.lpddrDualBankRefresh = true) :
    (Errand.own command decoded).Plain spec where
  stack := show (-1 : Int) ≤ 0 by decide
  power _ := power
  clock _ is := absurd is clock
  dualBank _ := dualBank

theorem seedRefreshBatch_commands {spec : DramSpec} {rank : Nat} {state : RankRefreshState} :
    ∀ command ∈ (seedRefreshBatch spec rank state).1,
      command.command = .refab ∨ command.command = .refpb ∨
        (command.command = .refdb ∧ spec.lpddrDualBankRefresh = true) := by
  intro command member
  unfold seedRefreshBatch at member
  split at member
  · obtain ⟨_, -, member⟩ := List.mem_flatMap.mp member
    obtain ⟨_, -, rfl⟩ := List.mem_map.mp member
    exact Or.inl rfl
  · have listed : command.command =
        if spec.lpddrDualBankRefresh = true then .refdb else .refpb := by
      dsimp only at member
      split at member
      all_goals
        obtain ⟨_, -, member⟩ := List.mem_flatMap.mp member
        obtain ⟨_, -, rfl⟩ := List.mem_map.mp member
        rfl
    rw [listed]
    split
    next dual => exact Or.inr (Or.inr ⟨rfl, dual⟩)
    next => exact Or.inr (Or.inl rfl)

/-- The controller's own errands are plain. -/
theorem OwnErrand.plain {spec : DramSpec} {meets : Errand → Prop} {errand : Errand}
    (met : ∀ errand, meets errand → errand.Plain spec) (own : OwnErrand spec meets errand) :
    errand.Plain spec := by
  have awake : ∀ {command : Command}, command ≠ .pde ∧ command ≠ .pdx →
      command = .pde ∨ command = .pdx → spec.lowPowerMode = .off :=
    fun others power => (power.elim others.1 others.2).elim
  cases own with
  | sleeps is =>
    rcases is with rfl | rfl <;> exact .own (awake (by decide)) (by decide) nofun
  | wakes held => exact .own (awake (by decide)) (by decide) nofun
  | powersUp held entered isEntry =>
    exact .own (fun _ => (met _ entered).power isEntry.1 (Or.inl isEntry.2)) (by decide) nofun
  | refreshes inside member =>
    obtain is | is | ⟨is, dual⟩ := seedRefreshBatch_commands _ member
    · exact .own (awake (by rw [is]; decide)) (by rw [is]; decide) (by rw [is]; nofun)
    · exact .own (awake (by rw [is]; decide)) (by rw [is]; decide) (by rw [is]; nofun)
    · exact .own (awake (by rw [is]; decide)) (by rw [is]; decide) fun _ => dual
  | mitigates held is =>
    rcases is with rfl | rfl <;> exact .own (awake (by decide)) (by decide) nofun
  | precharges inside => exact .own (awake (by decide)) (by decide) nofun

/-- The errands of a plain run: plain, and inside the device. -/
def PlainInside (spec : DramSpec) (errand : Errand) : Prop :=
  errand.decoded.InBounds spec ∧ errand.Plain spec

/-! ### No split activates -/

theorem BankState.phase_activating {bank : BankState} :
    bank.phase = .activating ↔ bank.activating = true := by
  unfold phase
  split
  next activating => exact ⟨fun _ => activating, fun _ => rfl⟩
  next whole =>
    refine ⟨fun is => ?_, fun activating => absurd activating whole⟩
    split at is <;> cases is

theorem phaseAfter_whole {spec : DramSpec} {decoded : DecodedAddress} {command : Command}
    {flat : Nat} {phase : BankPhase} (other : command ≠ .act1) (whole : phase ≠ .activating) :
    phaseAfter spec decoded command flat phase ≠ .activating := by
  cases command with
  | act1 => exact absurd rfl other
  | act | act2 | pre | prepb | rda | wra | preab =>
    unfold phaseAfter
    dsimp only
    split
    · nofun
    · exact whole
  | _ => exact whole

namespace Controller

section Unsplit

variable {β : Type} {c before after : Controller β} {spec : DramSpec} {request : Request}
variable {command : Command} {candidate : Candidate} {commands : List IssuedCommand}

theorem stateOk_unsplit (unsplit : c.spec.splitActivate = false)
    (legal : c.stateOk request command = true) : command ≠ .act1 ∧ command ≠ .act2 := by
  unfold stateOk checkCommandState legalOutsideSelfRefresh stateSnapshot at legal
  dsimp only at legal
  rw [unsplit] at legal
  constructor <;> rintro rfl <;> split at legal <;> simp at legal

/-- No bank of a device without split activates waits for a second activate, and there is none. -/
structure Unsplit (spec : DramSpec) (commands : List IssuedCommand) (c : Controller β) : Prop where
  spec_eq : c.spec = spec
  whole : ∀ flat, (c.banks flat).activating = false
  noSecond : ∀ issued ∈ commands, issued.command ≠ .act2

theorem Unsplit.quiet (unsplit : Unsplit spec commands before) (keeps : DeviceKept before after) :
    Unsplit spec commands after :=
  ⟨keeps.spec.trans unsplit.spec_eq, keeps.banks.symm ▸ unsplit.whole, unsplit.noSecond⟩

theorem Unsplit.issue (unsplit : Unsplit spec commands c) (single : spec.splitActivate = false)
    (issuable : Issuable c candidate request) {memPhy : MemPhy} {memoryImage : MemoryImage β} :
    Unsplit spec (commands ++ [c.issuedRecord request candidate])
      (c.issueEffects candidate request memPhy memoryImage) := by
  obtain ⟨rfl, whole, noSecond⟩ := unsplit
  obtain ⟨notFirst, notSecond⟩ := stateOk_unsplit single issuable.legal
  refine ⟨issueEffects_spec .., fun flat => ?_, List.forall_mem_append.mpr ⟨noSecond, ?_⟩⟩
  · have waits : (c.banks flat).phase ≠ .activating := fun is => by
      have waiting := BankState.phase_activating.mp is
      rw [whole flat] at waiting
      cases waiting
    rw [← Bool.not_eq_true, ← BankState.phase_activating, issueEffects_banks,
      issueBanks_phase issuable.notActivating]
    exact phaseAfter_whole notFirst waits
  · rw [List.forall_mem_singleton]
    exact notSecond

variable [MemoryBackend β] {options : ControllerOptions} {image : MemoryImage β}
variable {start : Controller β}

theorem unsplit_kept (single : spec.splitActivate = false) : Kept (fun _ _ => True)
    (fun _ _ => True) fun events (c : Controller β) => Unsplit spec (commandsOf events) c :=
  kept_of_commands (fun _ _ _ unsplit keeps => unsplit.quiet keeps)
    fun _ _ _ _ _ _ _ _ unsplit _ _ _ issuable _ => unsplit.issue single issuable

omit [MemoryBackend β] in
theorem create_unsplit (created : create spec options image = .ok start) :
    Unsplit spec [] start := by
  have first := create_created created
  refine ⟨first.spec_eq, fun flat => ?_, fun _ member => absurd member List.not_mem_nil⟩
  rw [first.result]

end Unsplit

/-! ### Low power by commands -/

section LowPower

variable {β : Type} {c before after : Controller β} {request : Request} {candidate : Candidate}

/-- An exit from power down finds the channel in low power and not in self refresh. -/
theorem stateOk_pdx (legal : c.stateOk request .pdx = true) :
    (c.explicitPowerDownActive = true ∨ c.lowPowerActive = true) ∧
      c.explicitSelfRefreshActive = false := by
  unfold stateOk checkCommandState legalOutsideSelfRefresh stateSnapshot at legal
  dsimp only at legal
  split at legal
  · cases legal
  · simp only [Bool.and_eq_true, Bool.or_eq_true, Bool.not_eq_true', Bool.or_eq_false_iff] at legal
    exact ⟨legal.1.2.imp_right And.left, legal.2.1⟩

/-- An exit from self refresh finds the channel in it, by command or by its mode. -/
theorem stateOk_srefex (legal : c.stateOk request .srefex = true) :
    c.explicitSelfRefreshActive = true ∨
      (c.lowPowerActive = true ∧ c.spec.lowPowerMode = .selfRefresh) := by
  unfold stateOk checkCommandState legalOutsideSelfRefresh stateSnapshot at legal
  simp only [ne_eq, not_true_eq_false, and_false, if_false, Bool.and_eq_true, Bool.or_eq_true,
    decide_eq_true_eq] at legal
  exact legal.2

theorem stateOk_wcksync (legal : c.stateOk request .wcksync = true) :
    c.spec.lpddrFamily = true := by
  unfold stateOk checkCommandState legalOutsideSelfRefresh stateSnapshot at legal
  dsimp only at legal
  split at legal
  · cases legal
  · simp only [Bool.and_eq_true] at legal
    tauto

/-- Outside the power-down mode a channel counts as in low power by a command only. -/
def LowPowerNamed (c : Controller β) : Prop :=
  c.spec.lowPowerMode ≠ .powerDown → c.lowPowerActive = true →
    (c.explicitPowerDownActive || c.explicitSelfRefreshActive) = true

theorem LowPowerNamed.frame (named : LowPowerNamed before) (spec : after.spec = before.spec)
    (core : after.explicitPowerDownActive = before.explicitPowerDownActive ∧
      after.explicitSelfRefreshActive = before.explicitSelfRefreshActive)
    (low : after.lowPowerActive = true → before.lowPowerActive = true) : LowPowerNamed after := by
  intro mode active
  rw [core.1, core.2]
  exact named (spec ▸ mode) (low active)

theorem prepareAccept_lowPower (c : Controller β) (request : Request)
    (low : (c.prepareAccept request).lowPowerActive = true) : c.lowPowerActive = true := by
  have withdrawn : c.withdrawSelfRefresh.lowPowerActive = c.lowPowerActive := by
    unfold withdrawSelfRefresh
    split <;> rfl
  have woken : ∀ c : Controller β, (c.wakeUp request).lowPowerActive = true →
      c.lowPowerActive = true := by
    intro c
    unfold wakeUp
    split
    · exact id
    next awake => exact fun _ => Bool.not_eq_false _ ▸ awake
  unfold prepareAccept at low
  split at low
  · exact low
  · exact withdrawn ▸ woken _ low

theorem LowPowerNamed.issueEffects (named : LowPowerNamed c) {memPhy : MemPhy}
    {memoryImage : MemoryImage β} :
    LowPowerNamed (c.issueEffects candidate request memPhy memoryImage) := by
  obtain ⟨down, self, flag⟩ := issueEffects_power c candidate request memPhy memoryImage
  intro mode active
  rw [issueEffects_spec] at mode
  have before := named mode
  rw [flag] at active
  rw [down, self]
  cases command : candidate.command <;> rw [command] at active <;> simp at active before ⊢ <;> tauto

theorem LowPowerNamed.idleLowPower (named : LowPowerNamed c) : LowPowerNamed c.idleLowPower := by
  obtain ⟨since, same | ⟨isOn, same⟩⟩ := idleLowPower_cases c
  · rw [same]
    exact named
  · rw [same]
    unfold enterLowPower
    split
    · split
      · exact named
      · rw [scheduleMaintenance_eq]
        exact named
    next other =>
      intro mode
      cases is : c.spec.lowPowerMode with
      | off => exact absurd is isOn
      | powerDown => exact absurd is mode
      | selfRefresh => exact absurd is other

variable [MemoryBackend β]

theorem Entry.lowPower {accepted : Bool} (entry : Entry c request accepted after) :
    after.lowPowerActive = c.lowPowerActive := by
  cases entry with
  | forwarded isRead hits forwards =>
    unfold forwardRead at forwards
    obtain ⟨⟨payload, byteMask, image⟩, -, forwards⟩ := bind_eq_ok.mp forwards
    cases forwards
    rfl
  | _ => rfl

theorem Advance.lowPower (advance : Advance c candidate request after) :
    after.lowPowerActive = c.lowPowerActive := by
  cases advance with
  | retired after data ordinary how =>
    rw [how.result, leaveBuffer_eq]
  | _ => rfl

theorem lowPowerNamed_kept : Kept (fun _ _ => True) (fun _ _ => True)
    fun _ (c : Controller β) => LowPowerNamed c where
  enqueue history c request accepted after named _ returns := by
    have housekeeping := prepareAccept_housekeeping c request
    have prepared := named.frame housekeeping.spec housekeeping.power
      (prepareAccept_lowPower c request)
    have entry := (enqueue_cases returns).2
    exact prepared.frame entry.deviceKept.spec ⟨entry.deviceKept.explicitPowerDownActive,
      entry.deviceKept.explicitSelfRefreshActive⟩ entry.lowPower.symm.trans
  beginTick history c begun named returns := by
    rw [(beginTick_eq returns).2]
    exact named
  upkeep history c named _ := by
    have housekeeping := upkeep_housekeeping c
    have flag : c.upkeep.lowPowerActive = c.lowPowerActive := congrArg Prod.snd (upkeep_outside c)
    exact named.frame housekeeping.spec housekeeping.power flag.symm.trans
  turn history c bus issued after named _ returns := by
    have ready : ∀ {chosen : Controller β}, Choosing c chosen → LowPowerNamed chosen :=
      fun choosing => named.frame choosing.housekeeping.spec choosing.housekeeping.power
        choosing.lowPowerActive.symm.trans
    cases turn_cases returns with
    | idle chosen choosing => exact ready choosing
    | issue choosing picks issuing =>
      have advance := issuing.advance
      exact (ready choosing).issueEffects.frame advance.deviceKept.spec
        ⟨advance.deviceKept.explicitPowerDownActive,
          advance.deviceKept.explicitSelfRefreshActive⟩ advance.lowPower.symm.trans
  idleLowPower history c named := named.idleLowPower
  popResponse history c response after named returns := by
    unfold Controller.popResponse at returns
    split at returns
    · cases returns
    · cases returns
      exact named
  flushStorage history c after named returns := by
    obtain ⟨image, -, returned⟩ := bind_eq_ok.mp returns
    cases returned
    exact named

end LowPower

/-! ### Plain runs -/

section Plain

variable {β : Type} [MemoryBackend β] {spec : DramSpec} {options : ControllerOptions}
variable {image : MemoryImage β} {start final c : Controller β} {ops : List ControllerOp}
variable {events history : List ControllerEvent} {bus : BusClass}

omit [MemoryBackend β] in
theorem issuable_of_picked {request : Request} {command : Command}
    (picks : c.picked bus = some (request, command)) : ∃ chosen candidate,
      Choosing c chosen ∧ candidate.command = command ∧ Issuable chosen candidate request := by
  unfold picked at picks
  split at picks
  next candidate chosen chooses =>
    obtain ⟨choosing, issuable⟩ := choose_spec chooses
    obtain ⟨-, other, issuable⟩ := issuable candidate rfl
    rw [issuable.found] at picks
    obtain ⟨rfl, same⟩ := Prod.mk.inj (Option.some.inj picks)
    obtain ⟨-, -, -, upgraded⟩ := upgraded_issuable issuable
    exact ⟨chosen, _, choosing, same, upgraded⟩
  next => cases picks

/-- Where every errand is plain, the rules that the gates leave open are kept. -/
theorem Sent.keepsReplayRules (sent : Sent spec (PlainInside spec) history c)
    (single : spec.splitActivate = false) (named : LowPowerNamed c)
    (unified : bus = .unified → c.spec.dualCommandBus = false ∧ c.spec.hbmEdgePairing = false) :
    KeepsReplayRules c bus := by
  have plain : ∀ {request command}, c.picked bus = some (request, command) →
      isControl command = true → request.errand.Plain spec ∧ request.type = .maintenance ∧
        request.next = command := by
    intro request command picks control
    obtain ⟨chosen, candidate, choosing, rfl, issuable⟩ := issuable_of_picked picks
    have member := List.mem_of_getElem? issuable.found
    exact ⟨((sent.errands.choosing choosing).queued _ request member).2,
      issuable.control_own control⟩
  have legal : ∀ {request command}, c.picked bus = some (request, command) → ∃ chosen,
      Choosing c chosen ∧ chosen.stateOk request command = true := by
    intro request command picks
    obtain ⟨chosen, candidate, choosing, rfl, issuable⟩ := issuable_of_picked picks
    exact ⟨chosen, choosing, issuable.legal⟩
  refine ⟨unified, fun request picks => ?_, fun request picks => ?_, fun request picks => ?_,
    fun request picks => ?_⟩
  · obtain ⟨chosen, choosing, admitted⟩ := legal picks
    have same : chosen.spec = spec := choosing.housekeeping.spec.trans sent.spec_eq
    exact absurd rfl (stateOk_unsplit (same ▸ single) admitted).2
  · obtain ⟨chosen, choosing, admitted⟩ := legal picks
    obtain ⟨errand, isMaintenance, next⟩ := plain picks rfl
    have off := errand.power isMaintenance (Or.inr next)
    obtain ⟨asleep, awake⟩ := stateOk_pdx admitted
    rw [choosing.housekeeping.power.1, choosing.lowPowerActive] at asleep
    rw [choosing.housekeeping.power.2] at awake
    rcases asleep with down | low
    · exact down
    · have entered := named (by rw [sent.spec_eq, off]; nofun) low
      rwa [awake, Bool.or_false] at entered
  · obtain ⟨chosen, choosing, admitted⟩ := legal picks
    have asleep := stateOk_srefex admitted
    rw [choosing.housekeeping.spec, choosing.lowPowerActive,
      choosing.housekeeping.power.2] at asleep
    rcases asleep with explicit | ⟨low, mode⟩
    · exact explicit
    · -- Power down would have been asked for, and the mode would be off.
      refine (Bool.or_eq_true_iff.mp (named (by rw [mode]; nofun) low)).resolve_left fun down => ?_
      obtain ⟨entry, entered, isMaintenance, isEntry⟩ := sent.asked down
      have off := entered.2.power isMaintenance (Or.inl isEntry)
      rw [sent.spec_eq, off] at mode
      cases mode
  · obtain ⟨chosen, choosing, admitted⟩ := legal picks
    obtain ⟨errand, isMaintenance, next⟩ := plain picks rfl
    have family := stateOk_wcksync admitted
    rw [choosing.housekeeping.spec, sent.spec_eq, errand.clock isMaintenance next] at family
    cases family

/-- A unified turn belongs to a device without separate buses. -/
def UnifiedAlone (c : Controller β) (bus : BusClass) : Prop :=
  bus = .unified → c.spec.dualCommandBus = false

theorem runMeets_buses {requests : Controller β → Request → Prop}
    (offered : ∀ request, .enqueue request ∈ ops → ∀ c, requests c request) :
    start.RunMeets requests UnifiedAlone ops := by
  refine Transition.Meets.of_forall fun op listed c => ?_
  cases op with
  | enqueue request => exact offered request listed c
  | tick =>
    intro begun begins free
    unfold busesOf
    split
    next shared => exact ⟨fun _ => shared, fun _ _ _ => trivial⟩
    split
    · exact ⟨nofun, fun _ _ _ => ⟨nofun, fun _ _ _ => trivial⟩⟩
    · exact ⟨nofun, fun _ _ _ => trivial⟩
  | popResponse => trivial
  | flushStorage => trivial

/-- An offered request comes inside the device, or is not accepted. -/
def OfferedPlain (spec : DramSpec) (c : Controller β) (request : Request) : Prop :=
  (∃ checked, c.checkRequest request = .ok checked) → c.spec = spec →
    PlainInside spec request.errand

theorem offeredPlain (offered : ∀ request, .enqueue request ∈ ops → request.errand.Plain spec) :
    start.RunMeets (OfferedPlain spec) UnifiedAlone ops :=
  runMeets_buses fun request listed c checked same =>
    ⟨sentInside_guard c request checked same, offered request listed⟩

theorem sentPlain_kept (accepted : ∃ checked, validateSpec spec = .ok checked) :
    Kept (OfferedPlain spec) UnifiedAlone
      fun history (c : Controller β) => Sent spec (PlainInside spec) history c := by
  obtain ⟨checked, accepted⟩ := accepted
  have inside := fun {errand} => @OwnErrand.inBounds spec (validateSpec_positive accepted)
    (validateSpec_bankGroups accepted) (PlainInside spec) (fun _ => And.left) errand
  exact (sent_kept fun errand own => ⟨inside own, own.plain fun _ => And.right⟩).mono
    (fun _ _ => id) fun _ _ _ => trivial

theorem plain_keepsRules (created : create spec options image = .ok start)
    (single : spec.splitActivate = false)
    (pairing : spec.hbmEdgePairing = true → spec.dualCommandBus = true)
    (offered : ∀ request, .enqueue request ∈ ops → request.errand.Plain spec) :
    start.RunMeets (OfferedPlain spec) KeepsReplayRules ops := by
  have first := create_created created
  have sends : start.RunMeets (OfferedPlain spec) (fun c bus => UnifiedAlone c bus ∧
      ∃ history, Sent spec (PlainInside spec) history c) ops :=
    (sentPlain_kept first.accepted).runMeets (fun history c bus sent shared =>
      ⟨shared, history, sent⟩) [] (create_sent created) (offeredPlain offered)
  have begins : LowPowerNamed start := by
    intro mode low
    rw [first.result] at low
    cases low
  refine (lowPowerNamed_kept.mono (fun _ _ _ => trivial) fun _ _ _ => trivial).runMeets
    (fun history c bus named held => ?_) [] begins sends
  obtain ⟨shared, earlier, sent⟩ := held
  refine sent.keepsReplayRules single named fun unified => ?_
  have alone := shared unified
  refine ⟨alone, ?_⟩
  rw [sent.spec_eq] at alone ⊢
  by_contra pairs
  rw [pairing (Bool.not_eq_false _ ▸ pairs)] at alone
  cases alone

/-- The offline check accepts every run of a one-channel device without split activates to which
only plain requests are offered, as long as the clock stays away from the end of its word. -/
theorem validator_accepts_run (created : create spec options image = .ok start)
    (single : spec.splitActivate = false) (channels : spec.org.channels = 1)
    (pairing : spec.hbmEdgePairing = true → spec.dualCommandBus = true)
    (offered : ∀ request, .enqueue request ∈ ops → request.errand.Plain spec)
    (returns : start.run ops = .ok (events, final))
    (room : ∀ delay ∈ replayDelays spec, final.clk + delay ≤ uint64Max) :
    Validator.validateCommandTrace spec (commandsOf events) = .ok [] := by
  have first := create_created created
  have sent : Sent spec (PlainInside spec) events final :=
    (sentPlain_kept first.accepted).run (create_sent created) (offeredPlain offered) returns
  have unsplit : Unsplit spec (commandsOf events) final :=
    unsplit_kept single |>.run (create_unsplit created)
      (runMeets_of_forall (fun _ _ => trivial) (fun _ _ => trivial) start ops) returns
  have inStep : InStep spec 0 (commandsOf events) final :=
    ((inStep_kept spec 0).mono (fun _ _ _ => trivial) fun _ _ => id).run (create_inStep created 0)
      (plain_keepsRules created single pairing offered) returns
  have replayable : ReplayableTrace spec 0 (commandsOf events) := by
    refine ⟨fun issued member => ?_, fun issued member => ?_,
      fun before issued after split second => ?_, fun issued member is => ?_,
      fun issued member delay listed => ?_⟩
    · obtain ⟨errand, plain, same, -⟩ := sent.issued issued member
      exact same ▸ plain.1
    · obtain ⟨errand, plain, same, -⟩ := sent.issued issued member
      have inside := plain.1.channel
      rw [channels] at inside
      rw [same]
      exact Nat.lt_one_iff.mp inside
    · exact absurd second (unsplit.noSecond issued (by rw [split]; simp))
    · obtain ⟨errand, plain, -, -, control⟩ := sent.issued issued member
      obtain ⟨isMaintenance, next⟩ := control (by rw [is]; rfl)
      exact plain.2.dualBank isMaintenance (next.trans is)
    · have past := (run_inOrder returns).past issued member
      exact (Nat.add_le_add_right past delay).trans (room delay listed)
  obtain ⟨clean, mirrors⟩ := inStep.follows replayable
  have oneStack : ∀ issued ∈ commandsOf events, issued.stackId = 0 := by
    intro issued member
    obtain ⟨errand, plain, -, stack, -⟩ := sent.issued issued member
    exact stack.trans (max_eq_left plain.2.stack)
  exact validateCommandTrace_clean first.accepted oneStack
    (validateSingleStackTrace_clean clean fun flat _ =>
      (mirrors.banks flat).activating.trans (unsplit.whole flat))

end Plain

/-- A device with a row and a column bus and paired edges. -/
def edgePairedBanks : DramSpec :=
  { finalTwoBanks with dualCommandBus := true, hbmEdgePairing := true }

/-- Two reads that overlap, the precharge of their rank, and a power down. -/
def readsThenRest : List ControllerOp :=
  .enqueue (readAt edgePairedBanks 1 0 4) :: List.replicate 20 .tick ++
    .enqueue (readAt edgePairedBanks 2 8 4) :: List.replicate 24 .tick ++
    .enqueue (maintain 3 .preab) :: List.replicate 6 .tick ++
    .enqueue (maintain 4 .pde) :: List.replicate 6 .tick ++
    [.enqueue (maintain 5 .pdx), .tick]

theorem validator_accepts_run_readsThenRest : ∃ start events final,
    create edgePairedBanks {} (imageOf edgePairedBanks) = .ok start ∧
      start.run readsThenRest = .ok (events, final) ∧
      (commandsOf events).map (fun issued => (issued.cycle, issued.command)) =
        [(1, .act), (21, .rd), (21, .act), (41, .rd), (45, .preab), (51, .pde), (57, .pdx)] ∧
      Validator.validateCommandTrace edgePairedBanks (commandsOf events) = .ok [] := by
  obtain ⟨start, events, final, created, returns, checks⟩ :=
    freshRun_of_passes edgePairedBanks {} readsThenRest
      (fun result => decide ((commandsOf result.1).map
          (fun issued => (issued.cycle, issued.command)) =
          [(1, .act), (21, .rd), (21, .act), (41, .rd), (45, .preab), (51, .pde), (57, .pdx)]) &&
        (replayDelays edgePairedBanks).all fun delay =>
          decide (result.2.clk + delay ≤ uint64Max)) (by decide +kernel)
  obtain ⟨commands, room⟩ := Bool.and_eq_true_iff.mp checks
  simp only [List.all_eq_true, decide_eq_true_eq] at room
  refine ⟨start, events, final, created, returns, of_decide_eq_true commands,
    validator_accepts_run created rfl rfl (fun _ => rfl) (fun request offered => ?_) returns room⟩
  have listed : request = readAt edgePairedBanks 1 0 4 ∨ request = readAt edgePairedBanks 2 8 4 ∨
      request = maintain 3 .preab ∨ request = maintain 4 .pde ∨ request = maintain 5 .pdx := by
    unfold readsThenRest at offered
    simpa using offered
  rcases listed with rfl | rfl | rfl | rfl | rfl
  · exact ⟨by decide, nofun, nofun, nofun⟩
  · exact ⟨by decide, nofun, nofun, nofun⟩
  all_goals exact ⟨by decide, fun _ _ => rfl, fun _ _ => rfl, nofun⟩

end Controller

end HbmSim
