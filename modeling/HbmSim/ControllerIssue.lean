/-
One turn of a bus, taken apart once: what the choice guarantees about the
command it picks, what the command does to the state, and how its request moves
on. Every invariant of the controller is argued from the lemmas of this file.
-/

import HbmSim.ControllerFrame

namespace HbmSim.Controller

variable {β : Type} {c chosen after : Controller β} {candidate : Candidate} {request : Request}
variable {bus : BusClass} {issued : List IssuedCommand}

/-! ### The choice -/

/-- A candidate and its request, past every check of the choice. For a read or write an
auto-precharge command may stand for the plain data command that was next. Maintenance goes in
order, and the read and write queues go when none is left. -/
structure Issuable (c : Controller β) (candidate : Candidate) (request : Request) : Prop where
  found : (c.requestQueues.queue candidate.buffer)[candidate.index]? = some request
  next : ∃ next, c.nextCommand request = some next ∧ (candidate.command = next ∨
    (request.type ≠ .maintenance ∧ ((next = .rd ∧ candidate.command = .rda) ∨
      (next = .wr ∧ candidate.command = .wra))))
  eligible : c.candidateEligible request candidate.command candidate.bus candidate.buffer true =
    true
  timing : c.timingOk request candidate.command = true
  admission : c.phyAdmissionOk candidate.command = true
  place : candidate.buffer = .active ∨ (candidate.buffer = .priority ∧ candidate.index = 0) ∨
    c.requestQueues.queue .priority = []

/-- What choosing changes: satisfied precharges leave the priority queue, and the mode turns. -/
structure Choosing (before after : Controller β) : Prop where
  housekeeping : Housekeeping before after
  timingEngine : after.timingEngine = before.timingEngine
  pendingMaintenance : after.pendingMaintenance = before.pendingMaintenance
  lowPowerActive : after.lowPowerActive = before.lowPowerActive
  exitPending : after.explicitLowPowerExitPending = before.explicitLowPowerExitPending
  dropped : ∃ satisfied, before.requestQueues.queue .priority =
      satisfied ++ after.requestQueues.queue .priority ∧
    ∀ request ∈ satisfied, request.next = .prepb

theorem Choosing.refl (c : Controller β) : Choosing c c :=
  ⟨Housekeeping.refl c, rfl, rfl, rfl, rfl, [], rfl, fun _ member => absurd member List.not_mem_nil⟩

theorem dropSatisfied_dropped (spec : DramSpec) (policy : RowPolicyKind)
    (banks : Nat → BankState) (requests : List Request) (rowPolicy : RowPolicyEngine) :
    ∃ satisfied, requests =
        satisfied ++ (dropSatisfied spec policy banks requests rowPolicy).1 ∧
      ∀ request ∈ satisfied, request.next = .prepb := by
  induction requests generalizing rowPolicy with
  | nil => exact ⟨[], rfl, fun _ member => absurd member List.not_mem_nil⟩
  | cons request rest inductionHypothesis =>
    unfold dropSatisfied
    dsimp only
    split
    next drops =>
      obtain ⟨satisfied, split, precharges⟩ := inductionHypothesis
        (rowPolicy.onIssue policy (request.decoded.flatBank spec) .prepb)
      exact ⟨request :: satisfied, congrArg (request :: ·) split,
        List.forall_mem_cons.mpr ⟨drops.1, precharges⟩⟩
    next => exact ⟨[], rfl, fun _ member => absurd member List.not_mem_nil⟩

theorem retireSatisfied_choosing (c : Controller β) : Choosing c c.retireSatisfied := by
  refine ⟨retireSatisfied_housekeeping c, rfl, rfl, rfl, rfl, ?_⟩
  unfold retireSatisfied
  dsimp only
  rw [put_queue_self]
  exact dropSatisfied_dropped ..

theorem setWriteMode_choosing (c : Controller β) : Choosing c c.setWriteMode := by
  refine ⟨setWriteMode_housekeeping c, ?_, ?_, ?_, ?_, [], ?_,
    fun _ member => absurd member List.not_mem_nil⟩
  all_goals
    unfold setWriteMode
    dsimp only
    split <;> split <;> rfl

theorem setWriteMode_requestQueues (c : Controller β) :
    c.setWriteMode.requestQueues = c.requestQueues := by
  unfold setWriteMode
  dsimp only
  split <;> split <;> rfl

theorem Choosing.trans {before middle : Controller β} (first : Choosing before middle)
    (second : Choosing middle after) : Choosing before after := by
  obtain ⟨early, firstSplit, firstPrecharges⟩ := first.dropped
  obtain ⟨late, secondSplit, secondPrecharges⟩ := second.dropped
  refine ⟨first.housekeeping.trans second.housekeeping,
    second.timingEngine.trans first.timingEngine,
    second.pendingMaintenance.trans first.pendingMaintenance,
    second.lowPowerActive.trans first.lowPowerActive,
    second.exitPending.trans first.exitPending, early ++ late, ?_,
    List.forall_mem_append.mpr ⟨firstPrecharges, secondPrecharges⟩⟩
  rw [firstSplit, secondSplit, List.append_assoc]

section Picking

/-- What an eligible command has passed, check by check. -/
theorem candidateEligible_iff {command : Command} {kind : RequestQueueKind} {avoid : Bool} :
    c.candidateEligible request command bus kind avoid = true ↔
      ¬ (c.memPhy.behavioral = true ∧ request.type = .read ∧ (commandMeta command).data = true ∧
        c.hasUnresolvedOverlappingWrite request = true) ∧
      ¬ (request.type = .write ∧
        c.hasUnresolvedOverlappingRead request request.controllerSequence = true) ∧
      c.busMatches request command bus = true ∧
      ¬ (avoid = true ∧ c.wouldCloseActive request command kind = true) := by
  unfold candidateEligible
  split
  next blocked => exact ⟨nofun, fun passes => absurd blocked passes.1⟩
  next free =>
    split
    next blocked => exact ⟨nofun, fun passes => absurd blocked passes.2.1⟩
    next ordered =>
      split
      next other => exact ⟨nofun, fun passes => nomatch other.symm.trans passes.2.2.1⟩
      next onBus =>
        rw [Bool.not_eq_false] at onBus
        split
        next closes => exact ⟨nofun, fun passes => absurd closes passes.2.2.2⟩
        next stays => exact ⟨fun _ => ⟨free, ordered, onBus, stays⟩, fun _ => rfl⟩

/-- Not closing an active bank is vacuous for the active queue itself. -/
theorem candidateEligible_active {command : Command}
    (eligible : c.candidateEligible request command bus .active false = true) :
    c.candidateEligible request command bus .active true = true := by
  obtain ⟨free, ordered, onBus, -⟩ := candidateEligible_iff.mp eligible
  exact candidateEligible_iff.mpr ⟨free, ordered, onBus, fun closes => nomatch closes.2⟩

theorem pickBestReadyFrom_issuable {kind : RequestQueueKind} {avoid : Bool}
    (avoids : kind ≠ .active → avoid = true)
    (place : kind = .active ∨ c.requestQueues.queue .priority = [])
    (picked : c.pickBestReadyFrom kind bus avoid = some candidate) :
    candidate.bus = bus ∧ candidate.buffer = kind ∧
      ∃ request, Issuable c candidate request := by
  unfold pickBestReadyFrom at picked
  obtain ⟨selected, found, rfl⟩ := Option.map_eq_some_iff.mp picked
  obtain ⟨member, eligible, ready⟩ := selectScheduledRequest_spec found
  obtain ⟨⟨request, index⟩, entry, view⟩ := List.mem_filterMap.mp member
  unfold candidateView at view
  obtain ⟨command, next, rfl⟩ := Option.map_eq_some_iff.mp view
  dsimp only at eligible ready
  rw [ready, if_pos rfl] at eligible
  rw [Bool.and_eq_true] at ready
  refine ⟨rfl, rfl, request, ?_, ⟨command, next, Or.inl rfl⟩, ?_, ready.2, eligible,
    place.imp_right Or.inr⟩
  · exact List.mem_zipIdx_iff_getElem?.mp entry
  · dsimp only
    by_cases active : kind = .active
    · subst active
      cases avoid with
      | false => exact candidateEligible_active ready.1
      | true => exact ready.1
    · rw [avoids active] at ready
      exact ready.1

/-- A request whose second activate is due in this very cycle, and can issue. -/
structure UrgentAct2 (c : Controller β) (bus : BusClass) (request : Request) : Prop where
  next : c.nextCommand request = some .act2
  due : (c.bankOf request).act2Deadline = c.clk
  eligible : c.candidateEligible request .act2 bus .active false = true
  timing : c.timingOk request .act2 = true
  admission : c.phyAdmissionOk .act2 = true

theorem urgentStep_spec {best result : Option (Request × Nat)} {entry : Request × Nat}
    (steps : c.urgentStep bus best entry = .ok result) :
    result = best ∨ (result = some entry ∧ UrgentAct2 c bus entry.1) := by
  unfold urgentStep at steps
  dsimp only at steps
  split at steps
  · cases steps
    exact Or.inl rfl
  next isNext =>
    rw [ne_eq, not_not] at isNext
    split at steps
    · cases steps
    next early =>
      split at steps
      · cases steps
        exact Or.inl rfl
      next passes =>
        simp only [not_or, Bool.not_eq_false] at passes
        have due := Nat.le_antisymm (Nat.le_of_not_lt passes.1) (Nat.le_of_not_lt early)
        have urgent : UrgentAct2 c bus entry.1 :=
          ⟨isNext, due, passes.2.1, passes.2.2.1, passes.2.2.2⟩
        split at steps
        · cases steps
          exact Or.inr ⟨rfl, urgent⟩
        · split at steps
          · cases steps
            exact Or.inr ⟨rfl, urgent⟩
          · cases steps
            exact Or.inl rfl

theorem foldlM_urgentStep {entries : List (Request × Nat)} {start best : Option (Request × Nat)}
    {entry : Request × Nat} (folds : entries.foldlM (c.urgentStep bus) start = .ok best)
    (is : best = some entry) :
    start = some entry ∨ (entry ∈ entries ∧ UrgentAct2 c bus entry.1) := by
  induction entries generalizing start with
  | nil =>
    cases folds
    exact Or.inl is
  | cons first rest inductionHypothesis =>
    rw [List.foldlM_cons] at folds
    obtain ⟨middle, steps, continues⟩ := bind_eq_ok.mp folds
    rcases inductionHypothesis continues with kept | ⟨member, urgent⟩
    · rcases urgentStep_spec steps with same | ⟨entered, urgent⟩
      · exact Or.inl (same ▸ kept)
      · obtain rfl : first = entry := Option.some.inj (entered.symm.trans kept)
        exact Or.inr ⟨List.mem_cons_self, urgent⟩
    · exact Or.inr ⟨List.mem_cons_of_mem _ member, urgent⟩

theorem pickUrgentAct2_picks (picked : c.pickUrgentAct2 bus = .ok (some candidate)) :
    candidate.bus = bus ∧ candidate.buffer = .active ∧ candidate.command = .act2 ∧
      ∃ request, (c.requestQueues.queue .active)[candidate.index]? = some request ∧
        UrgentAct2 c bus request := by
  unfold pickUrgentAct2 at picked
  split at picked
  · cases picked
  obtain ⟨best, folds, returned⟩ := bind_eq_ok.mp picked
  cases best with
  | none => cases returned
  | some entry =>
    cases returned
    obtain ⟨member, urgent⟩ := (foldlM_urgentStep folds rfl).resolve_left nofun
    exact ⟨rfl, rfl, rfl, entry.1, List.mem_zipIdx_iff_getElem?.mp member, urgent⟩

theorem pickUrgentAct2_issuable (picked : c.pickUrgentAct2 bus = .ok (some candidate)) :
    candidate.bus = bus ∧ candidate.buffer = .active ∧
      ∃ request, Issuable c candidate request := by
  obtain ⟨onBus, buffer, command, request, found, urgent⟩ := pickUrgentAct2_picks picked
  refine ⟨onBus, buffer, request, ?_, ?_, ?_, ?_, ?_, Or.inl buffer⟩
  · rw [buffer]
    exact found
  · exact ⟨.act2, urgent.next, Or.inl command⟩
  · rw [command, onBus, buffer]
    exact candidateEligible_active urgent.eligible
  · rw [command]
    exact urgent.timing
  · rw [command]
    exact urgent.admission

theorem pickPriority_issuable (picked : c.pickPriority bus = some candidate) :
    candidate.bus = bus ∧ candidate.buffer = .priority ∧
      ∃ request, Issuable c candidate request := by
  unfold pickPriority at picked
  split at picked
  · cases picked
  next request rest queue =>
    obtain ⟨command, next, passes⟩ := Option.bind_eq_some_iff.mp picked
    split at passes
    next checks =>
      cases passes
      refine ⟨rfl, rfl, request, ?_, ⟨command, next, Or.inl rfl⟩, checks.1, checks.2.1,
        checks.2.2, Or.inr (Or.inl ⟨rfl, rfl⟩)⟩
      rw [queue]
      rfl
    next => cases passes

theorem pickReadWrite_issuable (served : c.requestQueues.queue .priority = [])
    (picked : c.pickReadWrite bus = some candidate) :
    candidate.bus = bus ∧ (candidate.buffer = .read ∨ candidate.buffer = .write) ∧
      ∃ request, Issuable c candidate request := by
  unfold pickReadWrite at picked
  split at picked
  · split at picked
    next found =>
      cases picked
      obtain ⟨onBus, buffer, issuable⟩ := pickBestReadyFrom_issuable (fun _ => rfl) (Or.inr served) found
      exact ⟨onBus, Or.inr buffer, issuable⟩
    next =>
      split at picked
      · obtain ⟨onBus, buffer, issuable⟩ := pickBestReadyFrom_issuable (fun _ => rfl) (Or.inr served) picked
        exact ⟨onBus, Or.inl buffer, issuable⟩
      · cases picked
  · obtain ⟨onBus, buffer, issuable⟩ := pickBestReadyFrom_issuable (fun _ => rfl) (Or.inr served) picked
    exact ⟨onBus, Or.inl buffer, issuable⟩

theorem choosePriority_spec : Choosing c (c.choosePriority bus).2 ∧
    ∀ candidate, (c.choosePriority bus).1 = some candidate →
      candidate.bus = bus ∧ ∃ request, Issuable (c.choosePriority bus).2 candidate request := by
  unfold choosePriority
  dsimp only
  split
  next found =>
    refine ⟨retireSatisfied_choosing c, fun candidate is => ?_⟩
    cases is
    obtain ⟨onBus, -, issuable⟩ := pickPriority_issuable found
    exact ⟨onBus, issuable⟩
  next =>
    unfold chooseReadWrite
    split
    next served =>
      refine ⟨(retireSatisfied_choosing c).trans (setWriteMode_choosing _),
        fun candidate is => ?_⟩
      rw [← setWriteMode_requestQueues] at served
      obtain ⟨onBus, -, issuable⟩ := pickReadWrite_issuable served is
      exact ⟨onBus, issuable⟩
    next => exact ⟨retireSatisfied_choosing c, nofun⟩

theorem choose_spec {found : Option Candidate} (returns : c.choose bus = .ok (found, chosen)) :
    Choosing c chosen ∧ ∀ candidate, found = some candidate →
      candidate.bus = bus ∧ ∃ request, Issuable chosen candidate request := by
  unfold choose at returns
  obtain ⟨urgent, picks, rest⟩ := bind_eq_ok.mp returns
  split at rest
  next candidate =>
    cases rest
    refine ⟨Choosing.refl c, fun other is => ?_⟩
    cases is
    obtain ⟨onBus, -, issuable⟩ := pickUrgentAct2_issuable picks
    exact ⟨onBus, issuable⟩
  next =>
    split at rest
    next candidate active =>
      cases rest
      refine ⟨Choosing.refl c, fun other is => ?_⟩
      cases is
      unfold pickActive at active
      split at active
      · cases active
      · obtain ⟨onBus, -, issuable⟩ :=
          pickBestReadyFrom_issuable (fun differs => absurd rfl differs) (Or.inl rfl) active
        exact ⟨onBus, issuable⟩
    next =>
      have spec : Choosing c (c.choosePriority bus).2 ∧ ∀ candidate,
          (c.choosePriority bus).1 = some candidate → candidate.bus = bus ∧
            ∃ request, Issuable (c.choosePriority bus).2 candidate request := choosePriority_spec
      rw [show c.choosePriority bus = (found, chosen) from Except.ok.inj rest] at spec
      exact spec

end Picking

theorem Issuable.legal (issuable : Issuable c candidate request) :
    (checkCommandState (c.stateSnapshot request candidate.command) candidate.command).legal =
      true := by
  have timing := issuable.timing
  unfold timingOk stateOk at timing
  rw [Bool.and_eq_true, Bool.and_eq_true] at timing
  exact timing.1.1

theorem Issuable.gates (issuable : Issuable c candidate request) :
    c.gatesOpen request candidate.command = true := by
  have timing := issuable.timing
  unfold timingOk at timing
  rw [Bool.and_eq_true] at timing
  exact timing.2

theorem Issuable.accepts (issuable : Issuable c candidate request) :
    c.memPhy.canAcceptCommand candidate.command = true := by
  have admission := issuable.admission
  unfold phyAdmissionOk at admission
  rw [Bool.and_eq_true] at admission
  exact admission.1

theorem nextMaintenanceCommand_cases (c : Controller β) (request : Request) :
    c.nextMaintenanceCommand request = .preab ∨ c.nextMaintenanceCommand request = .prepb ∨
      c.nextMaintenanceCommand request = request.next := by
  unfold nextMaintenanceCommand
  dsimp only
  split
  · exact Or.inl rfl
  split
  · exact Or.inr (Or.inl rfl)
  split
  · exact Or.inl rfl
  · exact Or.inr (Or.inr rfl)

/-- A maintenance request issues a precharge or its own command. -/
theorem Issuable.maintenance (issuable : Issuable c candidate request)
    (isMaintenance : request.type = .maintenance) :
    candidate.command = c.nextMaintenanceCommand request := by
  obtain ⟨next, isNext, same | ⟨ordinary, -⟩⟩ := issuable.next
  · unfold nextCommand at isNext
    dsimp only at isNext
    rw [if_pos isMaintenance] at isNext
    rw [same, Option.some.inj isNext]
  · exact absurd isMaintenance ordinary

/-- The data command of a maintenance request is its own. -/
theorem Issuable.own (issuable : Issuable c candidate request)
    (data : (commandMeta candidate.command).data = true)
    (isMaintenance : request.type = .maintenance) : candidate.command = request.next := by
  have command := issuable.maintenance isMaintenance
  rcases nextMaintenanceCommand_cases c request with other | other | next
  · rw [command, other] at data
    cases data
  · rw [command, other] at data
    cases data
  · exact command.trans next

/-! ### The upgrade to an auto precharge -/

theorem phyAdmissionOk_upgrade {plain upgrade : Command}
    (pair : (plain = .rd ∧ upgrade = .rda) ∨ (plain = .wr ∧ upgrade = .wra))
    (admission : c.phyAdmissionOk plain = true) : c.phyAdmissionOk upgrade = true := by
  unfold phyAdmissionOk MemPhy.canAcceptCommand MemPhy.canAcceptData MemPhy.isRead
    MemPhy.isWrite at *
  rcases pair with ⟨rfl, rfl⟩ | ⟨rfl, rfl⟩ <;> simpa [commandMeta] using admission

theorem candidateEligible_upgrade {plain upgrade : Command} {kind : RequestQueueKind}
    (pair : (plain = .rd ∧ upgrade = .rda) ∨ (plain = .wr ∧ upgrade = .wra))
    (matching : c.busMatches request upgrade bus = true)
    (eligible : c.candidateEligible request plain bus kind true = true) :
    c.candidateEligible request upgrade bus kind true = true := by
  have data : (commandMeta plain).data = (commandMeta upgrade).data := by
    rcases pair with ⟨rfl, rfl⟩ | ⟨rfl, rfl⟩ <;> rfl
  have stays : c.wouldCloseActive request upgrade kind = false := by
    unfold wouldCloseActive
    rcases pair with ⟨rfl, rfl⟩ | ⟨rfl, rfl⟩ <;> simp
  obtain ⟨free, ordered, -, -⟩ := candidateEligible_iff.mp eligible
  rw [data] at free
  refine candidateEligible_iff.mpr ⟨free, ordered, matching, fun closes => ?_⟩
  rw [stays] at closes
  nomatch closes.2

/-- The upgrade changes the command only, from a plain to an auto-precharge data command. -/
theorem upgraded_cases (c : Controller β) (candidate : Candidate) :
    c.upgraded candidate = candidate ∨ ∃ request upgrade,
      (c.requestQueues.queue candidate.buffer)[candidate.index]? = some request ∧
      request.type ≠ .maintenance ∧
      ((candidate.command = .rd ∧ upgrade = .rda) ∨ (candidate.command = .wr ∧ upgrade = .wra)) ∧
      c.busMatches request upgrade candidate.bus = true ∧ c.timingOk request upgrade = true ∧
      c.upgraded candidate = { candidate with command := upgrade } := by
  unfold upgraded
  cases found : (c.requestQueues.queue candidate.buffer)[candidate.index]? with
  | none => exact Or.inl rfl
  | some request =>
    dsimp only
    by_cases applies : c.options.rowPolicy = .closedCap ∧
        (candidate.command = .rd ∨ candidate.command = .wr) ∧ request.type ≠ .maintenance ∧
        c.rowPolicy.shouldAutoPrecharge c.options.rowPolicy (request.decoded.flatBank c.spec) =
          true ∧
        c.busMatches request (if candidate.command = .rd then .rda else .wra) candidate.bus =
          true ∧ c.timingOk request (if candidate.command = .rd then .rda else .wra) = true
    · refine Or.inr ⟨request, _, rfl, applies.2.2.1, ?_, applies.2.2.2.2.1, applies.2.2.2.2.2,
        if_pos applies⟩
      rcases applies.2.1 with read | write
      · exact Or.inl ⟨read, if_pos read⟩
      · exact Or.inr ⟨write, if_neg (by rw [write]; nofun)⟩
    · exact Or.inl (if_neg applies)

theorem upgraded_issuable (issuable : Issuable c candidate request) :
    (c.upgraded candidate).buffer = candidate.buffer ∧
      (c.upgraded candidate).index = candidate.index ∧
      (c.upgraded candidate).bus = candidate.bus ∧
      Issuable c (c.upgraded candidate) request := by
  rcases upgraded_cases c candidate with same |
    ⟨other, upgrade, found, ordinary, pair, matching, timing, is⟩
  · rw [same]
    exact ⟨rfl, rfl, rfl, issuable⟩
  · obtain rfl : other = request := Option.some.inj (found.symm.trans issuable.found)
    rw [is]
    refine ⟨rfl, rfl, rfl, found, ?_, candidateEligible_upgrade pair matching issuable.eligible,
      timing, phyAdmissionOk_upgrade pair issuable.admission, issuable.place⟩
    obtain ⟨next, isNext, same | ⟨-, ⟨-, was⟩ | ⟨-, was⟩⟩⟩ := issuable.next
    · rw [same] at pair
      exact ⟨next, isNext, Or.inr ⟨ordinary, pair⟩⟩
    all_goals
      rw [was] at pair
      rcases pair with ⟨absurd, -⟩ | ⟨absurd, -⟩ <;> cases absurd

/-! ### The effects of a command -/

theorem scheduleMaintenance_eq (c : Controller β) (command : Command) (decoded : DecodedAddress) :
    c.scheduleMaintenance command decoded = { c with
      nextMaintenanceId := (c.scheduleMaintenance command decoded).nextMaintenanceId
      pendingMaintenance := (c.scheduleMaintenance command decoded).pendingMaintenance
      stats := { c.stats with
        maintenanceRequests :=
          (c.scheduleMaintenance command decoded).stats.maintenanceRequests } } := by
  unfold scheduleMaintenance
  split <;> rfl

theorem recordIssue_eq (c : Controller β) (request : Request) (command : Command)
    (bus : BusClass) :
    c.recordIssue request command bus = { c with
      rowPolicy := (c.recordIssue request command bus).rowPolicy
      risingEdge := (c.recordIssue request command bus).risingEdge } := by
  unfold recordIssue
  dsimp only
  split <;> rfl

theorem applyPowerCommand_eq (c : Controller β) (command : Command) :
    c.applyPowerCommand command = { c with
      refreshManager := (c.applyPowerCommand command).refreshManager
      lowPowerActive := (c.applyPowerCommand command).lowPowerActive
      explicitPowerDownActive := (c.applyPowerCommand command).explicitPowerDownActive
      explicitSelfRefreshActive := (c.applyPowerCommand command).explicitSelfRefreshActive
      wckRetrainRequired := (c.applyPowerCommand command).wckRetrainRequired
      explicitLowPowerExitPending := (c.applyPowerCommand command).explicitLowPowerExitPending
      automaticSelfRefreshRequest := (c.applyPowerCommand command).automaticSelfRefreshRequest
      lowPowerExitUntil := (c.applyPowerCommand command).lowPowerExitUntil } := by
  unfold applyPowerCommand
  split <;> try rfl
  split <;> rfl

section Effects

variable {memPhy : MemPhy} {memoryImage : MemoryImage β}

/-- What a command writes, and, by what is not listed, what it leaves. -/
theorem issueEffects_eq :
    c.issueEffects candidate request memPhy memoryImage =
      { c.issueEffects candidate request memPhy memoryImage with
        spec := c.spec
        options := c.options
        banks := issueBanks c.spec request candidate.command c.clk c.banks
        requestQueues := c.requestQueues.put candidate.buffer
          ((c.requestQueues.queue candidate.buffer).set candidate.index
            (issueRequest c.spec request candidate.command))
        pending := c.pending
        responses := c.responses
        bufferedWriteAddrs := c.bufferedWriteAddrs
        bufferedWrites := c.bufferedWrites
        memoryImage := memoryImage
        memPhy := memPhy
        clk := c.clk
        stats := { c.stats with
          maintenanceRequests :=
            (c.issueEffects candidate request memPhy memoryImage).stats.maintenanceRequests }
        timingEngine := issueTiming c.spec request candidate.command c.clk c.timingEngine
        writeMode := c.writeMode
        lowPowerIdleSince := c.lowPowerIdleSince
        nextControllerSequence := c.nextControllerSequence } := by
  unfold issueEffects
  rw [recordIssue_eq, applyPowerCommand_eq]
  unfold execute
  dsimp only
  split
  · rfl
  · rw [scheduleMaintenance_eq]

@[simp] theorem issueEffects_spec :
    (c.issueEffects candidate request memPhy memoryImage).spec = c.spec := by
  rw [issueEffects_eq]

@[simp] theorem issueEffects_options :
    (c.issueEffects candidate request memPhy memoryImage).options = c.options := by
  rw [issueEffects_eq]

@[simp] theorem issueEffects_banks :
    (c.issueEffects candidate request memPhy memoryImage).banks =
      issueBanks c.spec request candidate.command c.clk c.banks := by
  rw [issueEffects_eq]

@[simp] theorem issueEffects_requestQueues :
    (c.issueEffects candidate request memPhy memoryImage).requestQueues =
      c.requestQueues.put candidate.buffer
        ((c.requestQueues.queue candidate.buffer).set candidate.index
          (issueRequest c.spec request candidate.command)) := by
  rw [issueEffects_eq]

@[simp] theorem issueEffects_clk :
    (c.issueEffects candidate request memPhy memoryImage).clk = c.clk := by
  rw [issueEffects_eq]

@[simp] theorem issueEffects_pending :
    (c.issueEffects candidate request memPhy memoryImage).pending = c.pending := by
  rw [issueEffects_eq]

@[simp] theorem issueEffects_timingEngine :
    (c.issueEffects candidate request memPhy memoryImage).timingEngine =
      issueTiming c.spec request candidate.command c.clk c.timingEngine := by
  rw [issueEffects_eq]

@[simp] theorem issueEffects_memPhy :
    (c.issueEffects candidate request memPhy memoryImage).memPhy = memPhy := by
  rw [issueEffects_eq]

/-- The power flags before a command's own effect on them are the controller's. -/
theorem execute_power (c : Controller β) (candidate : Candidate) (request : Request) :
    (c.execute candidate request).explicitPowerDownActive = c.explicitPowerDownActive ∧
      (c.execute candidate request).explicitSelfRefreshActive = c.explicitSelfRefreshActive ∧
      (c.execute candidate request).lowPowerActive = c.lowPowerActive := by
  unfold execute
  dsimp only
  split
  · exact ⟨rfl, rfl, rfl⟩
  · rw [scheduleMaintenance_eq]
    exact ⟨rfl, rfl, rfl⟩

/-- The power flags after a command. -/
theorem issueEffects_power (c : Controller β) (candidate : Candidate) (request : Request)
    (memPhy : MemPhy) (memoryImage : MemoryImage β) :
    (c.issueEffects candidate request memPhy memoryImage).explicitPowerDownActive =
        (decide (candidate.command = .pde) ||
          (c.explicitPowerDownActive && !decide (candidate.command = .pdx))) ∧
      (c.issueEffects candidate request memPhy memoryImage).explicitSelfRefreshActive =
        (decide (candidate.command = .srefen) ||
          (c.explicitSelfRefreshActive && !decide (candidate.command = .srefex))) ∧
      (c.issueEffects candidate request memPhy memoryImage).lowPowerActive =
        match candidate.command with
        | .pde | .srefen => true
        | .pdx => c.explicitSelfRefreshActive
        | .srefex => c.explicitPowerDownActive
        | _ => c.lowPowerActive := by
  obtain ⟨powerDown, selfRefresh, lowPower⟩ :=
    execute_power { c with memPhy, memoryImage } candidate request
  unfold issueEffects
  rw [recordIssue_eq]
  dsimp only
  generalize ({ c with memPhy, memoryImage } : Controller β).execute candidate request =
    executed at powerDown selfRefresh lowPower
  unfold applyPowerCommand
  cases candidate.command <;> simp [powerDown, selfRefresh, lowPower]
  split <;> simp [powerDown, selfRefresh, lowPower]

end Effects

/-! ### What no turn changes -/

structure TurnFrame (before after : Controller β) : Prop where
  spec : after.spec = before.spec
  options : after.options = before.options
  clk : after.clk = before.clk
  responses : after.responses = before.responses
  injectedRequests : after.stats.injectedRequests = before.stats.injectedRequests
  completedReads : after.stats.completedReads = before.stats.completedReads
  completedWrites : after.stats.completedWrites = before.stats.completedWrites
  nextControllerSequence : after.nextControllerSequence = before.nextControllerSequence
  limit : after.requestQueues.limit = before.requestQueues.limit

theorem Housekeeping.turnFrame {before : Controller β} (keeps : Housekeeping before after) :
    TurnFrame before after :=
  ⟨keeps.spec, keeps.options, keeps.clk, keeps.responses,
    congrArg Core.injectedRequests keeps.core, congrArg Core.completedReads keeps.core,
    congrArg Core.completedWrites keeps.core, keeps.nextControllerSequence,
    keeps.limit⟩

theorem TurnFrame.trans {before middle : Controller β} (first : TurnFrame before middle)
    (second : TurnFrame middle after) : TurnFrame before after :=
  ⟨second.spec.trans first.spec, second.options.trans first.options,
    second.clk.trans first.clk, second.responses.trans first.responses,
    second.injectedRequests.trans first.injectedRequests,
    second.completedReads.trans first.completedReads,
    second.completedWrites.trans first.completedWrites,
    second.nextControllerSequence.trans first.nextControllerSequence,
    second.limit.trans first.limit⟩

theorem issueEffects_turnFrame {memPhy : MemPhy} {memoryImage : MemoryImage β} :
    TurnFrame c (c.issueEffects candidate request memPhy memoryImage) := by
  rw [issueEffects_eq]
  exact ⟨rfl, rfl, rfl, rfl, rfl, rfl, rfl, rfl, rfl⟩

/-! ### How the request moves on -/

/-- A command leaves two marks on its request at most. -/
theorem issueRequest_eq (spec : DramSpec) (request : Request) (command : Command) :
    issueRequest spec request command = { request with
      issuedFirstActivate := (issueRequest spec request command).issuedFirstActivate
      casSyncIssued := (issueRequest spec request command).casSyncIssued } := by
  unfold issueRequest
  split <;> try rfl
  all_goals split <;> rfl

@[simp] theorem issueRequest_type (spec : DramSpec) (request : Request) (command : Command) :
    (issueRequest spec request command).type = request.type := by
  rw [issueRequest_eq]

@[simp] theorem issueRequest_next (spec : DramSpec) (request : Request) (command : Command) :
    (issueRequest spec request command).next = request.next := by
  rw [issueRequest_eq]

@[simp] theorem issueRequest_decoded (spec : DramSpec) (request : Request) (command : Command) :
    (issueRequest spec request command).decoded = request.decoded := by
  rw [issueRequest_eq]

theorem leaveBuffer_eq (c : Controller β) (request : Request) :
    c.leaveBuffer request = { c with
      bufferedWrites := (c.leaveBuffer request).bufferedWrites
      bufferedWriteAddrs := (c.leaveBuffer request).bufferedWriteAddrs } := by
  unfold leaveBuffer
  split <;> rfl

section Moving

variable [MemoryBackend β]

/-- What `retireData` makes pending, before the data is committed. -/
def retiring (c : Controller β) (command : Command) (request : Request) : Request :=
  c.mergedRequest { request with issuedDataCommand := command, issuedCycle := c.clk }

/-- A data command: its request has left the queues and the write buffer, its data has gone to the
image or to the PHY, and it is pending. -/
structure Retired (c : Controller β) (candidate : Candidate) (request : Request)
    (after : Controller β) where
  finished : Request
  memoryImage : MemoryImage β
  completion : Nat
  memPhy : MemPhy
  requestQueues : RequestQueues
  commits : (c.leaveBuffer (c.retiring candidate.command request)).commitIssued
    (c.retiring candidate.command request) = .ok (finished, memoryImage)
  submits : (c.leaveBuffer (c.retiring candidate.command request)).submitIssued finished
    candidate.command = .ok (completion, memPhy)
  erases : c.requestQueues.erase candidate.buffer candidate.index c.spec = .ok requestQueues
  result : after = { c.leaveBuffer (c.retiring candidate.command request) with
    memoryImage := memoryImage
    memPhy := memPhy
    requestQueues := requestQueues
    pending := c.pending ++ [{ finished with
      completion := c.autoPrechargeCompletion candidate.command completion }] }

theorem retireData_cases (returns : c.retireData candidate request = .ok after) :
    Nonempty (Retired c candidate request after) := by
  unfold retireData at returns
  obtain ⟨⟨finished, memoryImage⟩, commits, returns⟩ := bind_eq_ok.mp returns
  obtain ⟨⟨completion, memPhy⟩, submits, returns⟩ := bind_eq_ok.mp returns
  obtain ⟨requestQueues, erases, returns⟩ := bind_eq_ok.mp returns
  have frame := leaveBuffer_eq c (c.retiring candidate.command request)
  unfold retiring at frame
  rw [frame] at erases
  cases returns
  refine ⟨⟨finished, memoryImage, completion, memPhy, requestQueues, commits, submits, erases, ?_⟩⟩
  unfold retiring
  rw [frame]
  rfl

/-- The ways a request moves on after its command. -/
inductive Advance (c : Controller β) (candidate : Candidate) (request : Request) :
    Controller β → Prop
  /-- A maintenance request is done with its own command. -/
  | served (requestQueues : RequestQueues) (maintenance : request.type = .maintenance)
      (own : candidate.command = request.next)
      (erases : c.requestQueues.erase candidate.buffer candidate.index c.spec =
        .ok requestQueues) :
      Advance c candidate request { c with
        requestQueues := requestQueues
        stats := { c.stats with maintenanceServed := c.stats.maintenanceServed + 1 } }
  /-- A read or write that has opened its bank becomes active. -/
  | promoted (opening : (commandMeta candidate.command).opening = true)
      (ordinary : request.type ≠ .maintenance) (waiting : candidate.buffer ≠ .active) :
      Advance c candidate request { c with
        requestQueues := c.requestQueues.promote candidate.buffer candidate.index c.spec }
  /-- Any other command without data leaves the request where it is. -/
  | stayed (plain : (commandMeta candidate.command).data = false) :
      Advance c candidate request c
  | retired (after : Controller β) (data : (commandMeta candidate.command).data = true)
      (ordinary : request.type ≠ .maintenance) (how : Retired c candidate request after) :
      Advance c candidate request after

theorem retireOrAdvance_cases
    (found : (c.requestQueues.queue candidate.buffer)[candidate.index]? = some request)
    (own : (commandMeta candidate.command).data = true → request.type = .maintenance →
      candidate.command = request.next)
    (returns : c.retireOrAdvance candidate = .ok after) : Advance c candidate request after := by
  unfold retireOrAdvance at returns
  rw [found] at returns
  dsimp only at returns
  split at returns
  next done =>
    obtain ⟨requestQueues, erases, returns⟩ := bind_eq_ok.mp returns
    cases returns
    exact .served requestQueues done.1 done.2 erases
  next unserved =>
    split at returns
    next opens =>
      cases returns
      exact .promoted opens.1 opens.2.1 opens.2.2
    next =>
      split at returns
      next plain =>
        cases returns
        exact .stayed plain
      next data =>
        rw [Bool.not_eq_false] at data
        obtain ⟨how⟩ := retireData_cases returns
        exact .retired after data (fun type => unserved ⟨type, own data type⟩) how

/-- An issued command, from the state the choice left. -/
structure Issuing (chosen : Controller β) (candidate : Candidate) (request : Request)
    (memPhy : MemPhy) (memoryImage : MemoryImage β) (after : Controller β) : Prop where
  issuable : Issuable chosen candidate request
  accepts : chosen.memPhy.acceptCommand chosen.spec candidate.command chosen.clk = .ok memPhy
  stores : chosen.applyStorageCommandEvent request candidate.command = .ok memoryImage
  advance : Advance (chosen.issueEffects candidate request memPhy memoryImage) candidate
    (issueRequest chosen.spec request candidate.command) after

/-- The issued command has marked its request in place. -/
theorem Issuing.marked {memPhy : MemPhy} {memoryImage : MemoryImage β}
    (issuing : Issuing chosen candidate request memPhy memoryImage after) :
    (((chosen.issueEffects candidate request memPhy memoryImage).requestQueues.queue
      candidate.buffer)[candidate.index]?) =
      some (issueRequest chosen.spec request candidate.command) := by
  rw [issueEffects_requestQueues, put_queue_self, List.getElem?_set_self]
  obtain ⟨inRange, -⟩ := List.getElem?_eq_some_iff.mp issuing.issuable.found
  exact inRange

/-- The request that a turn of a bus picks, and the command it issues for it. -/
def picked (c : Controller β) (bus : BusClass) : Option (Request × Command) :=
  match c.choose bus with
  | .ok (some candidate, chosen) =>
    (chosen.requestQueues.queue candidate.buffer)[candidate.index]?.map fun request =>
      (request, (chosen.upgraded candidate).command)
  | _ => none

/-- A turn chooses, and then issues at most one command. -/
inductive Turn (c : Controller β) (bus : BusClass) : List IssuedCommand → Controller β → Prop
  | idle (chosen : Controller β) (choosing : Choosing c chosen) : Turn c bus [] chosen
  | issue {chosen : Controller β} (choosing : Choosing c chosen) {candidate : Candidate}
      {request : Request} (picks : c.picked bus = some (request, candidate.command))
      {memPhy : MemPhy}
      {memoryImage : MemoryImage β} {after : Controller β}
      (issuing : Issuing chosen candidate request memPhy memoryImage after) :
      Turn c bus [chosen.issuedRecord request candidate] after

/-- What a chosen command does, from the state the choice left. -/
theorem issue_moves (issuable : Issuable c candidate request)
    (returns : c.issue candidate = .ok (issued, after)) :
    issued = [c.issuedRecord request candidate] ∧
      ∃ memPhy memoryImage, Issuing c candidate request memPhy memoryImage after ∧
        (c.issueEffects candidate request memPhy memoryImage).retireOrAdvance candidate =
          .ok after := by
  unfold issue at returns
  rw [issuable.found] at returns
  obtain ⟨memPhy, accepts, returns⟩ := bind_eq_ok.mp returns
  obtain ⟨memoryImage, stores, returns⟩ := bind_eq_ok.mp returns
  obtain ⟨final, advances, returns⟩ := bind_eq_ok.mp returns
  cases returns
  refine ⟨rfl, memPhy, memoryImage, ⟨issuable, accepts, stores,
    retireOrAdvance_cases ?_ ?_ advances⟩, advances⟩
  · rw [issueEffects_requestQueues, put_queue_self, List.getElem?_set_self]
    obtain ⟨inRange, -⟩ := List.getElem?_eq_some_iff.mp issuable.found
    exact inRange
  · intro data type
    rw [issueRequest_type] at type
    rw [issueRequest_next]
    exact issuable.own data type

theorem issue_cases (issuable : Issuable c candidate request)
    (returns : c.issue candidate = .ok (issued, after)) :
    issued = [c.issuedRecord request candidate] ∧
      ∃ memPhy memoryImage, Issuing c candidate request memPhy memoryImage after := by
  obtain ⟨record, memPhy, memoryImage, issuing, -⟩ := issue_moves issuable returns
  exact ⟨record, memPhy, memoryImage, issuing⟩

/-- The parts of a turn: its choice, and the effects and the move of what it chose. -/
structure TurnParts (c : Controller β) (bus : BusClass) (chosen : Controller β)
    (candidate : Candidate) (request : Request) (after : Controller β) : Prop where
  chooses : ∃ found, c.choose bus = .ok (found, chosen)
  choosing : Choosing c chosen
  picks : c.picked bus = some (request, candidate.command)
  moves : ∃ memPhy memoryImage, Issuing chosen candidate request memPhy memoryImage after ∧
    (chosen.issueEffects candidate request memPhy memoryImage).retireOrAdvance candidate =
      .ok after

theorem turn_parts (returns : c.turn bus = .ok (issued, after)) :
    (issued = [] ∧ Choosing c after ∧ c.choose bus = .ok (none, after)) ∨
      ∃ chosen candidate request, issued = [chosen.issuedRecord request candidate] ∧
        TurnParts c bus chosen candidate request after := by
  unfold turn at returns
  obtain ⟨⟨candidate, chosen⟩, chooses, returns⟩ := bind_eq_ok.mp returns
  obtain ⟨choosing, issuable⟩ := choose_spec chooses
  cases candidate with
  | none =>
    cases returns
    exact Or.inl ⟨rfl, choosing, chooses⟩
  | some candidate =>
    obtain ⟨-, request, issuable⟩ := issuable candidate rfl
    have picks : c.picked bus = some (request, (chosen.upgraded candidate).command) := by
      unfold picked
      rw [chooses]
      dsimp only
      rw [issuable.found]
      rfl
    obtain ⟨-, -, -, issuable⟩ := upgraded_issuable issuable
    obtain ⟨rfl, moves⟩ := issue_moves issuable returns
    exact Or.inr ⟨chosen, _, request, rfl, ⟨_, chooses⟩, choosing, picks, moves⟩

theorem turn_cases (returns : c.turn bus = .ok (issued, after)) : Turn c bus issued after := by
  rcases turn_parts returns with ⟨rfl, choosing, -⟩ | ⟨chosen, candidate, request, rfl, parts⟩
  · exact .idle _ choosing
  · obtain ⟨memPhy, memoryImage, issuing, -⟩ := parts.moves
    exact .issue parts.choosing parts.picks issuing

theorem Advance.turnFrame (advance : Advance c candidate request after) :
    TurnFrame c after := by
  cases advance with
  | served requestQueues maintenance own erases =>
    exact ⟨rfl, rfl, rfl, rfl, rfl, rfl, rfl, rfl, erase_limit erases⟩
  | promoted => exact ⟨rfl, rfl, rfl, rfl, rfl, rfl, rfl, rfl, promote_limit⟩
  | stayed => exact ⟨rfl, rfl, rfl, rfl, rfl, rfl, rfl, rfl, rfl⟩
  | retired after data ordinary how =>
    rw [how.result, leaveBuffer_eq]
    exact ⟨rfl, rfl, rfl, rfl, rfl, rfl, rfl, rfl, erase_limit how.erases⟩

theorem Turn.turnFrame (turn : Turn c bus issued after) : TurnFrame c after := by
  cases turn with
  | idle chosen choosing => exact choosing.housekeeping.turnFrame
  | issue choosing picks issuing =>
    exact (choosing.housekeeping.turnFrame.trans issueEffects_turnFrame).trans
      issuing.advance.turnFrame

end Moving

end HbmSim.Controller
