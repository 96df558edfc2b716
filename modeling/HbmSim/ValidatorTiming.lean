/-
The replay of the offline check against the device it checks, continued: the
buses and edges, the constraint table, the dual-bank refresh, the activation
window and the data clock.
-/

import HbmSim.ValidatorMirror

namespace HbmSim

variable {spec : DramSpec} {request : Request} {issued : IssuedCommand}
variable {trace : List IssuedCommand}

namespace Controller

variable {β : Type} {c : Controller β}

/-! ### Buses and edges -/

theorem rowCommand_of_busMatches {command : Command}
    (fits : c.busMatches request command .row = true) :
    (commandMeta command).rowCommand = true := by
  unfold busMatches at fits
  rw [if_neg nofun] at fits
  split at fits
  · rw [if_neg nofun] at fits
    split at fits
    next => cases fits
    next pre =>
      rw [not_and_or, not_not, not_not] at pre
      rcases pre with rfl | rfl <;> rfl
  · split at fits
    next row => exact row
    next => split at fits <;> cases fits

theorem columnCommand_of_busMatches {command : Command}
    (fits : c.busMatches request command .column = true) :
    (commandMeta command).columnCommand = true := by
  unfold busMatches at fits
  rw [if_neg nofun] at fits
  split at fits
  · cases fits
  · split at fits
    next => cases fits
    next =>
      split at fits
      next column => exact column
      next => cases fits

/-- A command that fits its bus passes the bus check, unless a device with two buses uses the
unified one. -/
theorem checkBus_clean (fits : c.busMatches request issued.command issued.bus = true)
    (unified : issued.bus = .unified → c.spec.dualCommandBus = false) :
    Validator.checkBus c.spec issued = [] := by
  unfold Validator.checkBus
  split
  next dual =>
    rw [Validator.failures_eq_nil]
    cases bus : issued.bus with
    | unified => exact absurd (unified bus) (by rw [dual]; nofun)
    | row =>
      rw [bus] at fits
      simp [rowCommand_of_busMatches fits]
    | column =>
      rw [bus] at fits
      simp [columnCommand_of_busMatches fits]
  next => rfl

/-- The replayed record of the last rising edge is the online one. -/
structure PairingMirrors (edge : RisingEdgeCommandInfo) (pairing : Validator.HbmPairingState) :
    Prop where
  command : pairing.command = edge.command
  pseudoChannel : pairing.pseudoChannel = edge.pseudoChannel
  bankKey : pairing.bankKey = edge.bankKey
  nextPairingFallingEdge : pairing.nextPairingFallingEdge = edge.nextPairingFallingEdge

theorem hbmBankKey_eq (inside : issued.decoded.InBounds c.spec) :
    Validator.hbmBankKey c.spec issued.decoded = c.bankKey issued.decoded := by
  unfold Validator.hbmBankKey bankKey
  rw [max_eq_right (Nat.one_le_of_lt inside.bankGroup), max_eq_right (Nat.one_le_of_lt inside.bank)]

/-- On a falling edge only a precharge fits a bus, and the strict rule holds for it. -/
theorem fallingEdge_of_busMatches {command : Command} {bus : BusClass}
    (fits : c.busMatches request command bus = true) (split : bus ≠ .unified)
    (pairing : c.spec.hbmEdgePairing = true) (falling : c.isRisingEdge = false) :
    (command = .prepb ∨ command = .preab) ∧
      (c.spec.hbmStrictEdgePairing = true → c.canIssueFallingEdgePre request command = true) := by
  unfold busMatches at fits
  rw [if_neg split, if_pos ⟨pairing, falling⟩] at fits
  split at fits
  · cases fits
  · split at fits
    next => cases fits
    next pre =>
      rw [not_and_or, not_not, not_not] at pre
      refine ⟨pre, fun strict => ?_⟩
      rw [strict, Bool.not_true, Bool.false_or] at fits
      exact fits

theorem checkEdges_clean {pairing : Validator.HbmPairingState}
    (mirrors : PairingMirrors c.risingEdge pairing) (inside : issued.decoded.InBounds c.spec)
    (address : request.decoded = issued.decoded) (now : issued.cycle = c.clk)
    (fits : c.busMatches request issued.command issued.bus = true)
    (unified : issued.bus = .unified → c.spec.hbmEdgePairing = false) :
    Validator.checkEdges c.spec issued pairing = [] := by
  unfold Validator.checkEdges
  split
  next edges =>
    split
    next even =>
      have falling : c.isRisingEdge = false := by
        unfold isRisingEdge
        rw [← now, even]
        rfl
      have twoBuses : issued.bus ≠ .unified := fun bus =>
        absurd (unified bus) (by rw [edges]; nofun)
      obtain ⟨pre, strictRule⟩ := fallingEdge_of_busMatches fits twoBuses edges falling
      rw [List.append_eq_nil_iff]
      constructor
      · rw [Validator.failures_eq_nil]
        unfold Validator.isFallingEdgePre
        rcases pre with pre | pre <;> rw [pre] <;> simp [commandMeta]
      · unfold Validator.checkPairing
        split
        · rfl
        next strict =>
          split
          · rfl
          next due =>
            rw [not_or, not_not, not_not, mirrors.nextPairingFallingEdge, mirrors.pseudoChannel]
              at due
            rw [not_or, Bool.not_eq_false] at strict
            have allowed := strictRule strict.1
            unfold canIssueFallingEdgePre at allowed
            rw [← now, if_neg (not_not.mpr due.1), address, if_neg (not_not.mpr due.2.symm)]
              at allowed
            rw [Validator.failures_eq_nil, List.forall_mem_singleton, mirrors.command,
              mirrors.bankKey, hbmBankKey_eq inside]
            split at allowed
            next => cases allowed
            next single =>
              rw [Bool.not_eq_true] at single
              simpa [single] using allowed
    next => rfl
  next => rfl

/-- The edge records agree after a command. -/
theorem PairingMirrors.replay {pairings : Nat → Validator.HbmPairingState} {channel : Nat}
    (mirrors : PairingMirrors c.risingEdge (pairings channel))
    (inside : issued.decoded.InBounds c.spec) (isChannel : issued.decoded.channel = channel)
    (address : request.decoded = issued.decoded) (now : issued.cycle = c.clk)
    (fits : c.busMatches request issued.command issued.bus = true)
    (room : ∀ delay ∈ replayDelays c.spec, issued.cycle + delay ≤ uint64Max) :
    PairingMirrors (c.edgeRecord request issued.command issued.bus)
      (Validator.replayPairing c.spec issued pairings channel) := by
  have here : scopeIndex c.spec .channel issued.decoded = channel :=
    (clampCoordinate_of_lt inside.channel).trans isChannel
  have rising : c.isRisingEdge = true ↔ issued.cycle % 2 ≠ 0 := by
    unfold isRisingEdge
    rw [decide_eq_true_eq, now]
    omega
  unfold edgeRecord Validator.replayPairing
  by_cases edge : c.spec.hbmEdgePairing = true ∧ issued.bus = .row ∧ c.isRisingEdge = true
  · obtain ⟨edges, row, isRising⟩ := edge
    rw [row] at fits
    have soon : issued.cycle + (if issued.command = .act then 3 else 1) ≤ uint64Max := by
      have three := room 3 (List.mem_append_left _ List.mem_cons_self)
      split <;> omega
    have recorded : c.spec.hbmEdgePairing = true ∧ issued.cycle % 2 ≠ 0 ∧ issued.bus = .row ∧
        (commandMeta issued.command).rowCommand = true :=
      ⟨edges, rising.mp isRising, row, rowCommand_of_busMatches fits⟩
    rw [if_pos ⟨edges, row, isRising⟩, if_pos recorded, here,
      Function.update_self, address, hbmBankKey_eq inside, laterCycle_eq soon, now]
    exact ⟨rfl, rfl, rfl, rfl⟩
  · rw [if_neg edge, if_neg fun both => edge ⟨both.1, both.2.2.1, rising.mpr both.2.1⟩]
    exact mirrors

end Controller

/-! ### The constraint table -/

section Table

variable {scopes : TimingScope → Nat → Validator.ScopeState} {engine : TimingEngine}

/-- The ready times of the replayed buckets, by the engine's keys. -/
def replayMarks (scopes : TimingScope → Nat → Validator.ScopeState) :
    TimingEngine.MarkKey → Nat := fun key => (scopes key.1 key.2.1).nextCommand key.2.2

theorem replayMarks_updateScopes (scope : TimingScope) (select : Nat → Bool)
    (constraint : TimingConstraint) (ready : Nat) (key : TimingEngine.MarkKey) :
    replayMarks (Validator.updateScopes scope select (Validator.holdBack constraint ready) scopes)
        key =
      if key.1 = scope ∧ select key.2.1 = true ∧ key.2.2 ∈ constraint.following then
        max (replayMarks scopes key) ready
      else replayMarks scopes key := by
  obtain ⟨other, index, command⟩ := key
  unfold replayMarks Validator.updateScopes Validator.holdBack
  dsimp only
  by_cases same : other = scope
  · subst same
    rw [Function.update_self]
    cases select index with
    | true => simp only [if_true, true_and]
    | false => simp only [Bool.false_eq_true, false_and, and_false, if_false]
  · rw [Function.update_of_ne same, if_neg fun both => same both.1]

/-- A constraint raises the replayed ready times as it raises the engine's. -/
theorem replayConstraint_marks {constraint : TimingConstraint}
    (room : issued.cycle + timingDelay spec (max 0 constraint.latency) ≤ uint64Max) :
    replayMarks (Validator.replayConstraint spec issued scopes constraint) =
      Watermark.raise (TimingEngine.Imposed.Touches spec) (TimingEngine.Imposed.ready spec)
        (replayMarks scopes)
        ⟨⟨issued.command, issued.decoded, issued.cycle⟩, constraint⟩ := by
  funext key
  unfold Validator.replayConstraint Watermark.raise
  rw [laterCycle_eq room]
  by_cases applies : constraint.window ≤ 0 ∧ issued.command ∈ constraint.preceding
  · rw [if_neg (by rw [not_or, not_lt, not_not]; exact applies)]
    simp only [TimingEngine.Imposed.Touches, TimingEngine.Imposed.ready, TimingEngine.Reaches,
      applies, true_and]
    cases sibling : constraint.sibling with
    | false =>
      simp only [if_true]
      unfold Validator.dualBank
      by_cases pair : issued.command = .refdb ∧ spec.lpddrDualBankRefresh = true ∧
          constraint.scope = .bank
      · -- Both banks of the pair are held back; twice is once.
        rw [if_pos (by simp [pair]), replayMarks_updateScopes, replayMarks_updateScopes]
        simp only [pair, decide_eq_true_eq, true_and]
        by_cases bank : key.1 = .bank <;> by_cases follows : key.2.2 ∈ constraint.following <;>
          by_cases here : key.2.1 = scopeIndex spec .bank issued.decoded <;>
          simp [bank, follows, here]
      · rw [if_neg (by simp only [Bool.and_eq_true, decide_eq_true_eq, and_assoc]; exact pair),
          replayMarks_updateScopes]
        simp only [pair, false_and, or_false, decide_eq_true_eq]
        exact if_congr (and_congr_right fun _ => and_comm) rfl rfl
    | true =>
      simp only [reduceCtorEq, if_false, replayMarks_updateScopes, decide_eq_true_eq, and_assoc]
      refine if_congr (and_congr_right fun _ => ?_) rfl rfl
      tauto
  · rw [if_pos (by rwa [not_and_or, not_le] at applies), if_neg fun touches =>
      applies ⟨touches.1, touches.2.1⟩]

theorem replayTable_marks
    (room : ∀ delay ∈ replayDelays spec, issued.cycle + delay ≤ uint64Max) :
    replayMarks (Validator.replayTable spec issued scopes) =
      (spec.timingConstraints.map
          (TimingEngine.Imposed.mk ⟨issued.command, issued.decoded, issued.cycle⟩)).foldl
        (Watermark.raise (TimingEngine.Imposed.Touches spec) (TimingEngine.Imposed.ready spec))
        (replayMarks scopes) := by
  have fits : ∀ constraint ∈ spec.timingConstraints,
      issued.cycle + timingDelay spec (max 0 constraint.latency) ≤ uint64Max :=
    fun constraint listed => room _ (List.mem_append_right _ (List.mem_map_of_mem listed))
  unfold Validator.replayTable
  generalize spec.timingConstraints = constraints at fits
  induction constraints generalizing scopes with
  | nil => rfl
  | cons constraint rest inductionHypothesis =>
    rw [List.forall_mem_cons] at fits
    rw [List.foldl_cons, inductionHypothesis fits.2, replayConstraint_marks fits.1]
    rfl

/-- A command the engine finds ready violates no constraint of the table. -/
theorem checkTable_clean (mirrors : engine.marks = replayMarks scopes)
    (ready : engine.constraintReady spec issued.decoded issued.command issued.cycle = true) :
    Validator.checkTable spec issued scopes = [] := by
  have due := ((TimingEngine.constraintReady_iff engine).mp ready).2
  rw [mirrors] at due
  unfold Validator.checkTable
  rw [List.flatMap_eq_nil_iff]
  intro constraint listed
  split
  · rfl
  next binds =>
    rw [not_or, not_lt, not_not] at binds
    have early := due constraint listed binds.1 binds.2
    rw [Validator.failures_eq_nil, List.forall_mem_singleton, decide_eq_true_eq]
    unfold standsFor at early
    unfold Validator.dualBank Validator.scopeStateFor
    split
    next pair =>
      simp only [Bool.and_eq_true, decide_eq_true_eq] at pair
      rw [if_pos ⟨pair.1.2, pair.1.1, pair.2⟩, List.forall_mem_cons, List.forall_mem_singleton,
        pair.2] at early
      rw [pair.2]
      exact max_le early.1 early.2
    next alone =>
      simp only [Bool.and_eq_true, decide_eq_true_eq] at alone
      rw [if_neg fun pair => alone ⟨⟨pair.2.1, pair.1⟩, pair.2.2⟩, List.forall_mem_singleton]
        at early
      exact early

/-- The gates of the scopes are not those of the table. -/
theorem scopeGates_marks (request : Request) (command : Command) (clk : Nat) :
    (scopeGates spec request command clk engine).marks = engine.marks := by
  have bankGroup : ∀ (engine : TimingEngine) (change : TimingScopeState → TimingScopeState),
      (∀ scope, (change scope).nextCommand = scope.nextCommand) →
      (engine.modifyBankGroup spec request.decoded change).marks = engine.marks := by
    intro engine change keeps
    funext key
    unfold TimingEngine.marks TimingEngine.modifyBankGroup
    rw [TimingEngine.modifyScope_scopes]
    split
    · rw [keeps]
    · rfl
  have columns : ∀ latency (engine : TimingEngine),
      (columnGates spec request clk latency engine).marks = engine.marks := by
    intro latency engine
    unfold columnGates
    dsimp only
    split
    · exact bankGroup _ _ fun _ => rfl
    · exact bankGroup _ _ fun _ => rfl
  have activates : ∀ engine : TimingEngine,
      (activateGates spec request clk engine).marks = engine.marks := fun engine =>
    bankGroup (engine.modifyRow spec request.decoded _) _ fun _ => rfl
  unfold scopeGates
  cases command with
  | act | act1 => exact activates _
  | rd | rda | wr | wra => exact columns _ _
  | _ => rfl

/-- The marks agree after a command. -/
theorem marks_replay (mirrors : engine.marks = replayMarks scopes)
    (address : request.decoded = issued.decoded)
    (room : ∀ delay ∈ replayDelays spec, issued.cycle + delay ≤ uint64Max) :
    (issueTiming spec request issued.command issued.cycle engine).marks =
      replayMarks (Validator.replayTable spec issued scopes) := by
  unfold issueTiming
  rw [address, replayTable_marks room, ← mirrors,
    ← @scopeGates_marks spec engine request issued.command issued.cycle]
  exact TimingEngine.applyConstraints_marks ⟨issued.command, issued.decoded, issued.cycle⟩ _

end Table

/-! ### The dual-bank refresh -/

section Sweep

/-- The replayed sweep is as far as the engine's, and the engine has visited the pair of every bank
it counts as refreshed. -/
structure SweepMirrors (spec : DramSpec) (sweep : RefdbState) (refresh : Validator.RefreshState) :
    Prop where
  bankCount : refresh.bankCount = sweep.bankCount
  next : refresh.next = sweep.ready
  visited : ∀ bankGroup bank, bank < spec.org.banksPerGroup →
    bankGroup * spec.org.banksPerGroup + bank ∈ refresh.refreshedBanks →
    sweep.visitedPairs (bankGroup / 2 * spec.org.banksPerGroup + bank) = true
  unfinished : sweep.bankCount < spec.org.bankGroups / 2 * spec.org.banksPerGroup

/-- The bank group of the other bank of a pair is the neighbour. -/
theorem refdbPartner_bankGroup {decoded : DecodedAddress} (inside : decoded.InBounds spec)
    (even : spec.org.bankGroups % 2 = 0) :
    (lpddrRefdbPartner spec decoded).bankGroup ≠ decoded.bankGroup ∧
      (lpddrRefdbPartner spec decoded).bankGroup / 2 = decoded.bankGroup / 2 := by
  have below := inside.bankGroup
  have parity : decoded.bankGroup ^^^ 1 =
      if decoded.bankGroup % 2 = 0 then decoded.bankGroup + 1 else decoded.bankGroup - 1 := by
    have half : (decoded.bankGroup ^^^ 1) / 2 = decoded.bankGroup / 2 := by
      rw [Nat.xor_div_two]
      exact Nat.xor_zero _
    have low : (decoded.bankGroup ^^^ 1) % 2 = (decoded.bankGroup + 1) % 2 :=
      Nat.xor_mod_two_eq
    split <;> omega
  unfold lpddrRefdbPartner
  dsimp only
  rw [if_neg (by omega)]
  dsimp only
  rw [parity]
  split <;> split <;> omega

variable {sweep : RefdbState} {refresh : Validator.RefreshState}

/-- A dual-bank refresh the engine finds ready passes the check of the sweep. -/
theorem checkRefresh_clean (mirrors : SweepMirrors spec sweep refresh)
    (inside : issued.decoded.InBounds spec)
    (even : spec.lpddrDualBankRefresh = true → spec.org.bankGroups % 2 = 0)
    (ready : spec.lpddrDualBankRefresh = true ∧ issued.command = .refdb →
      sweep.ready ≤ issued.cycle ∧
        sweep.visitedPairs (TimingEngine.refdbPair spec issued.decoded) = false) :
    Validator.checkRefresh spec issued refresh = [] := by
  unfold Validator.checkRefresh
  split
  next dual =>
    obtain ⟨due, unvisited⟩ := ready dual
    obtain ⟨differs, pair⟩ := refdbPartner_bankGroup inside (even dual.1)
    have fresh : ∀ bankGroup, bankGroup / 2 = issued.decoded.bankGroup / 2 →
        bankGroup * spec.org.banksPerGroup + issued.decoded.bank ∉ refresh.refreshedBanks := by
      intro bankGroup same listed
      have visited := mirrors.visited bankGroup _ inside.bank listed
      rw [same] at visited
      exact absurd (visited.symm.trans unvisited) nofun
    have apart : (lpddrRefdbPartner spec issued.decoded).bankGroup * spec.org.banksPerGroup +
        issued.decoded.bank ≠
        issued.decoded.bankGroup * spec.org.banksPerGroup + issued.decoded.bank := fun same =>
      differs ((place_injective inside.bank inside.bank).mp same).1
    rw [List.append_eq_nil_iff, Validator.failures_eq_nil, List.forall_mem_singleton,
      decide_eq_true_eq, mirrors.next]
    refine ⟨due, ?_⟩
    simp only [Validator.refdbBanks, List.map_cons, List.map_nil, Validator.insertBanks,
      if_neg (fresh _ rfl), List.mem_cons, fresh _ pair, apart, or_self, if_false, List.append_nil]
  next => rfl

/-- The banks of a refresh join the ones refreshed before. -/
theorem mem_insertBanks {bank : Nat} (banks refreshed : List Nat) :
    bank ∈ (Validator.insertBanks banks refreshed).2 → bank ∈ banks ∨ bank ∈ refreshed := by
  induction banks generalizing refreshed with
  | nil => exact Or.inr
  | cons first rest inductionHypothesis =>
    unfold Validator.insertBanks
    dsimp only
    intro listed
    rcases inductionHypothesis _ listed with later | before
    · exact Or.inl (List.mem_cons_of_mem _ later)
    · split at before
      · exact Or.inr before
      · rcases List.mem_cons.mp before with rfl | old
        · exact Or.inl List.mem_cons_self
        · exact Or.inr old

/-- A dual-bank refresh moves both sweeps on. -/
theorem SweepMirrors.refdb (mirrors : SweepMirrors spec sweep refresh)
    (inside : issued.decoded.InBounds spec) (even : spec.org.bankGroups % 2 = 0)
    (room : ∀ delay ∈ replayDelays spec, issued.cycle + delay ≤ uint64Max)
    {engine : TimingEngine}
    (here : engine.refdbStates (scopeIndex spec .rank issued.decoded) = sweep) :
    SweepMirrors spec (engine.sweepAfter spec issued.decoded .refdb issued.cycle
        (scopeIndex spec .rank issued.decoded))
      (Validator.replayRefdb spec issued refresh) := by
  obtain ⟨bankCount, next, visited, unfinished⟩ := mirrors
  have pairs : spec.org.bankGroups * spec.org.banksPerGroup / 2 =
      spec.org.bankGroups / 2 * spec.org.banksPerGroup := by
    rw [Nat.mul_comm, Nat.mul_div_assoc _ (Nat.dvd_of_mod_eq_zero even), Nat.mul_comm]
  have short : issued.cycle + timingDelay spec
      (if 0 < spec.timing.nREFDB2REFDBS then spec.timing.nREFDB2REFDBS else spec.timing.nRRDL) ≤
        uint64Max := by
    split <;> exact room _ (by simp [replayDelays])
  have long : issued.cycle + timingDelay spec spec.timing.nREFDB2REFDBL ≤ uint64Max :=
    room _ (by simp [replayDelays])
  unfold TimingEngine.sweepAfter TimingEngine.sweepBy Validator.replayRefdb
  dsimp only
  rw [Function.update_self, here, pairs, bankCount]
  by_cases last : sweep.bankCount + 1 = spec.org.bankGroups / 2 * spec.org.banksPerGroup
  · rw [last, Nat.mod_self]
    refine ⟨by simp, ?_, by simp, by dsimp only; omega⟩
    simp only [decide_true, true_and, if_true]
    split
    · exact laterCycle_eq long
    · exact laterCycle_eq short
  · have more : (sweep.bankCount + 1) % (spec.org.bankGroups / 2 * spec.org.banksPerGroup) =
        sweep.bankCount + 1 := Nat.mod_eq_of_lt (by omega)
    rw [more]
    refine ⟨by simp [last], ?_, ?_, by dsimp only; omega⟩
    · simp only [decide_eq_false last, Bool.false_eq_true, false_and, if_false,
        Nat.succ_ne_zero]
      exact laterCycle_eq short
    · intro bankGroup bank small listed
      simp only [decide_eq_false last, Bool.false_eq_true, if_false] at listed
      simp only [Nat.succ_ne_zero, if_false, Function.update_apply]
      split
      · rfl
      next other =>
        rcases mem_insertBanks _ _ listed with new | old
        · refine absurd ?_ other
          obtain ⟨-, pair⟩ := refdbPartner_bankGroup inside even
          simp only [Validator.refdbBanks, List.map_cons, List.map_nil, List.mem_cons,
            List.not_mem_nil, or_false, place_injective small inside.bank] at new
          unfold TimingEngine.refdbPair
          rcases new with ⟨rfl, rfl⟩ | ⟨rfl, rfl⟩
          · rfl
          · rw [pair]
        · exact visited _ _ small old

/-- A self refresh of the channel starts every sweep of it anew, on both sides. -/
theorem srefexRanks_iff (inside : issued.decoded.InBounds spec) (index : Nat) :
    ((siblingRange spec .pseudoChannel issued.decoded).1 * (spec.org.sids * spec.org.ranks) ≤
        index ∧
      index < (siblingRange spec .pseudoChannel issued.decoded).2 *
        (spec.org.sids * spec.org.ranks)) ↔
      (issued.decoded.channel * (spec.org.pseudoChannels * spec.org.sids * spec.org.ranks) ≤
          index ∧
        index < issued.decoded.channel *
            (spec.org.pseudoChannels * spec.org.sids * spec.org.ranks) +
          spec.org.pseudoChannels * spec.org.sids * spec.org.ranks) := by
  have channel := inside.channel
  have positive := Nat.one_le_of_lt inside.pseudoChannel
  have below : issued.decoded.channel * spec.org.pseudoChannels + spec.org.pseudoChannels ≤
      spec.org.channels * spec.org.pseudoChannels :=
    (Nat.succ_mul ..).symm.trans_le (Nat.mul_le_mul_right _ channel)
  unfold siblingRange scopeIndex scopeCount
  dsimp only
  rw [clampCoordinate_of_lt channel, max_eq_right positive,
    max_eq_right (Nat.one_le_of_lt channel), min_eq_left ((Nat.le_add_right ..).trans below),
    min_eq_left below, Nat.add_mul, Nat.mul_assoc issued.decoded.channel, ← Nat.mul_assoc
      spec.org.pseudoChannels]

/-- The sweeps of all ranks agree after a command. -/
theorem sweeps_replay {engine : TimingEngine} {refreshes : Nat → Validator.RefreshState}
    (dual : spec.lpddrDualBankRefresh = true)
    (mirrors : ∀ rank, SweepMirrors spec (engine.refdbStates rank) (refreshes rank))
    (inside : issued.decoded.InBounds spec)
    (even : 2 ≤ spec.org.bankGroups ∧ spec.org.bankGroups % 2 = 0)
    (room : ∀ delay ∈ replayDelays spec, issued.cycle + delay ≤ uint64Max) (rank : Nat) :
    SweepMirrors spec (engine.sweepAfter spec issued.decoded issued.command issued.cycle rank)
      (Validator.replayRefresh spec issued refreshes rank) := by
  have positive : 0 < spec.org.bankGroups / 2 * spec.org.banksPerGroup :=
    Nat.mul_pos (by omega) (Nat.zero_lt_of_lt inside.bank)
  have fresh : ∀ ready ready' : Nat, ready' = ready →
      SweepMirrors spec { bankCount := 0, ready } { next := ready' } := fun _ _ same =>
    ⟨rfl, same, fun _ _ _ listed => absurd listed List.not_mem_nil, positive⟩
  unfold Validator.replayRefresh
  dsimp only
  rw [if_neg (by rw [dual]; nofun)]
  cases command : issued.command with
  | refdb =>
    by_cases here : rank = scopeIndex spec .rank issued.decoded
    · subst here
      dsimp only
      rw [Function.update_self]
      exact (mirrors _).refdb inside even.2 room rfl
    · unfold TimingEngine.sweepAfter TimingEngine.sweepBy
      dsimp only
      rw [Function.update_of_ne here, Function.update_of_ne here]
      exact mirrors rank
  | refab =>
    unfold TimingEngine.sweepAfter TimingEngine.sweepBy
    dsimp only
    by_cases here : rank = scopeIndex spec .rank issued.decoded
    · subst here
      rw [Function.update_self, Function.update_self]
      exact fresh _ _ (laterCycle_eq (room _ (by simp [replayDelays])))
    · rw [Function.update_of_ne here, Function.update_of_ne here]
      exact mirrors rank
  | srefex =>
    unfold TimingEngine.sweepAfter TimingEngine.sweepBy
    dsimp only
    by_cases within : issued.decoded.channel *
          (spec.org.pseudoChannels * spec.org.sids * spec.org.ranks) ≤ rank ∧
        rank < issued.decoded.channel *
            (spec.org.pseudoChannels * spec.org.sids * spec.org.ranks) +
          spec.org.pseudoChannels * spec.org.sids * spec.org.ranks
    · rw [if_pos within, if_pos ((srefexRanks_iff inside rank).mpr within)]
      exact fresh _ _ rfl
    · rw [if_neg within, if_neg fun ranks => within ((srefexRanks_iff inside rank).mp ranks)]
      exact mirrors rank
  | _ => exact mirrors rank

end Sweep

/-! ### The activation window -/

/-- A command that finds fewer than four recent activates online finds no more in the replay. -/
theorem checkFaw_clean {scopes : Nat → Validator.ScopeState} {recent : List Nat}
    (tracked : Window.Tracks 4 (activateWindow spec) issued.cycle
      (activatesIn spec (scopeIndex spec spec.activationScope issued.decoded) trace) recent)
    (followed : Validator.WindowsFollowed spec trace scopes)
    (ordered : ∀ record ∈ trace, record.cycle ≤ issued.cycle)
    (few : countsAsActivate issued.command = true → recent.length < 4) :
    Validator.checkFaw spec issued
      (scopes (scopeIndex spec spec.activationScope issued.decoded)) = [] := by
  unfold Validator.checkFaw
  split
  next counts =>
    rw [Validator.failures_eq_nil, List.forall_mem_singleton, decide_eq_true_eq]
    refine Nat.lt_of_le_of_lt ?_ (few counts)
    obtain ⟨old, split, -⟩ := (followed issued.cycle ordered
      (scopeIndex spec spec.activationScope issued.decoded)).forgotten
    unfold Validator.recentActs
    generalize (scopes (scopeIndex spec spec.activationScope issued.decoded)).recentActs = acts
      at split
    have pruned := split
    rw [← List.takeWhile_append_dropWhile (p := fun act => decide (act ≤ issued.cycle ∧
      timingDelay spec (max 1 spec.timing.nFAW) ≤ issued.cycle - act)) (l := acts),
      ← List.append_assoc] at pruned
    refine tracked.length_le pruned fun first isHead => ?_
    have kept := List.head?_dropWhile_not (fun act => decide (act ≤ issued.cycle ∧
      timingDelay spec (max 1 spec.timing.nFAW) ≤ issued.cycle - act)) acts
    rw [Option.mem_def.mp isHead] at kept
    have past : first ≤ issued.cycle := by
      have listed : first ∈ acts :=
        (List.dropWhile_sublist _).subset (List.mem_of_mem_head? isHead)
      have event : first ∈ activatesIn spec
          (scopeIndex spec spec.activationScope issued.decoded) trace := by
        rw [split]
        exact List.mem_append_right _ listed
      obtain ⟨record, member, rfl⟩ := List.mem_map.mp event
      exact ordered record (List.mem_of_mem_filter member)
    have fresh := of_decide_eq_false kept
    unfold activateWindow
    omega
  next => rfl

/-! ### The data clock -/

section Clock

/-- The replayed window of the data clock is the online one. -/
structure ClockMirrors (wck : TimingScopeState) (replayed : Validator.ScopeState) : Prop where
  wckReadyAt : replayed.wckReadyAt = wck.wckReadyAt
  wckActiveUntil : replayed.wckActiveUntil = wck.wckActiveUntil

variable {engine : TimingEngine} {scopes : Nat → Validator.ScopeState}

theorem checkWck_clean (checks : Validator.checksWck spec = true →
      ∀ index, ClockMirrors (engine.wckScopes index) (scopes index))
    (ready : (commandMeta issued.command).data = true → spec.lpddrFamily = true →
      engine.wckReadyForData spec issued.decoded issued.cycle = true) :
    Validator.checkWck spec issued (scopes (scopeIndex spec spec.wckScope issued.decoded)) =
      [] := by
  unfold Validator.checkWck
  split
  next applies =>
    obtain ⟨checked, data⟩ := applies
    obtain ⟨readyAt, activeUntil⟩ := checks checked (scopeIndex spec spec.wckScope issued.decoded)
    unfold Validator.checksWck at checked
    rw [Bool.and_eq_true, decide_eq_true_eq] at checked
    have open' := ready data checked.1
    unfold TimingEngine.wckReadyForData at open'
    rw [if_neg (by rw [checked.1]; nofun), if_neg checked.2] at open'
    rw [Validator.failures_eq_nil, List.forall_mem_singleton, readyAt, activeUntil]
    exact open'
  next => rfl

theorem issueTiming_wckScopes (request : Request) (command : Command) (clk : Nat) :
    (issueTiming spec request command clk engine).wckScopes =
      (scopeGates spec request command clk engine).wckScopes := by
  unfold issueTiming
  rw [applyConstraints_eq]

theorem modifyWck_wckScopes (engine : TimingEngine) (decoded : DecodedAddress)
    (change : TimingScopeState → TimingScopeState) (index : Nat) :
    (engine.modifyWck spec decoded change).wckScopes index =
      if index = scopeIndex spec spec.wckScope decoded then change (engine.wckScopes index)
      else engine.wckScopes index := by
  unfold TimingEngine.modifyWck TimingEngine.modifyAt
  dsimp only
  rw [Function.update_apply]
  split
  next here => rw [here]
  next => rfl

/-- A change of one bucket of the data clock mirrors the replayed one. -/
theorem clockMirrors_modifyWck {gated : TimingEngine}
    (change : TimingScopeState → TimingScopeState)
    (mirrors : ∀ index, ClockMirrors (gated.wckScopes index) (scopes index))
    (address : request.decoded = issued.decoded)
    (agrees : ClockMirrors (change (gated.wckScopes (scopeIndex spec spec.wckScope issued.decoded)))
      (Validator.replayWckState spec issued
        (scopes (scopeIndex spec spec.wckScope issued.decoded)))) (index : Nat) :
    ClockMirrors ((gated.modifyWck spec request.decoded change).wckScopes index)
      (Function.update scopes (scopeIndex spec spec.wckScope issued.decoded)
        (Validator.replayWckState spec issued
          (scopes (scopeIndex spec spec.wckScope issued.decoded))) index) := by
  rw [modifyWck_wckScopes, address]
  by_cases here : index = scopeIndex spec spec.wckScope issued.decoded
  · subst here
    rw [if_pos rfl, Function.update_self]
    exact agrees
  · rw [if_neg here, Function.update_of_ne here]
    exact mirrors index

/-- A data command keeps both clocks running for its data. -/
theorem columnGates_clock (lpddr : spec.lpddrFamily = true)
    (mirrors : ∀ index, ClockMirrors (engine.wckScopes index) (scopes index))
    (address : request.decoded = issued.decoded) {latency : Int}
    (fits : issued.cycle + timingDelay spec (latency + spec.timing.nBL + spec.timing.nWCKPST) ≤
      uint64Max)
    (replayed : ∀ wck, Validator.replayWckState spec issued wck = { wck with
      wckActiveUntil := max wck.wckActiveUntil (laterCycle issued.cycle
        (timingDelay spec (latency + spec.timing.nBL + spec.timing.nWCKPST))) }) (index : Nat) :
    ClockMirrors ((columnGates spec request issued.cycle latency engine).wckScopes index)
      (Function.update scopes (scopeIndex spec spec.wckScope issued.decoded)
        (Validator.replayWckState spec issued
          (scopes (scopeIndex spec spec.wckScope issued.decoded))) index) := by
  obtain ⟨readyAt, activeUntil⟩ := mirrors (scopeIndex spec spec.wckScope issued.decoded)
  unfold columnGates
  dsimp only
  rw [if_pos lpddr]
  refine clockMirrors_modifyWck _ mirrors address ?_ index
  rw [replayed, laterCycle_eq fits]
  exact ⟨readyAt, congrArg (max · _) activeUntil⟩

/-- The data clock agrees after a command that does not cut it short. -/
theorem clock_replay (checked : Validator.checksWck spec = true)
    (mirrors : ∀ index, ClockMirrors (engine.wckScopes index) (scopes index))
    (address : request.decoded = issued.decoded)
    (dataClock : issued.command = .wcksync →
      (engine.wckState spec issued.decoded).wckActiveUntil ≤
        synchronizedUntil spec issued.cycle)
    (room : ∀ delay ∈ replayDelays spec, issued.cycle + delay ≤ uint64Max) (index : Nat) :
    ClockMirrors
      ((issueTiming spec request issued.command issued.cycle engine).wckScopes index)
      (Validator.replayWck spec issued scopes index) := by
  have lpddr : spec.lpddrFamily = true := (Bool.and_eq_true_iff.mp checked).1
  have later : ∀ delay ∈ replayDelays spec,
      laterCycle issued.cycle delay = issued.cycle + delay := fun delay listed =>
    laterCycle_eq (room delay listed)
  rw [issueTiming_wckScopes]
  unfold Validator.replayWck
  rw [if_pos checked]
  unfold scopeGates
  cases command : issued.command with
  | casrd | caswr =>
    refine clockMirrors_modifyWck _ mirrors address ?_ index
    unfold Validator.replayWckState
    rw [command]
    exact ⟨later _ (by simp [replayDelays]), later _ (by simp [replayDelays])⟩
  | wcksync =>
    refine clockMirrors_modifyWck _ mirrors address ?_ index
    unfold Validator.replayWckState
    rw [command]
    refine ⟨later _ (by simp [replayDelays]), ?_⟩
    exact (later _ (by simp [replayDelays])).trans (max_eq_right (dataClock command)).symm
  | wcktrain =>
    refine clockMirrors_modifyWck _ mirrors address ?_ index
    unfold Validator.replayWckState
    rw [command]
    have ready := later (timingDelay spec (max 1 spec.timing.nWCKTRAIN))
      (by simp [replayDelays])
    refine ⟨ready, ?_⟩
    dsimp only
    rw [ready, Nat.add_assoc]
    exact (laterCycle_eq (by
      rw [Nat.add_assoc]
      exact room _ (by simp [replayDelays]))).trans (Nat.add_assoc ..)
  | dvfs =>
    refine clockMirrors_modifyWck _ mirrors address ?_ index
    unfold Validator.replayWckState
    rw [command]
    obtain ⟨readyAt, activeUntil⟩ := mirrors (scopeIndex spec spec.wckScope issued.decoded)
    exact ⟨readyAt, activeUntil⟩
  | rd | rda =>
    refine columnGates_clock lpddr mirrors address (room _ (by simp [replayDelays])) ?_ index
    intro wck
    unfold Validator.replayWckState
    rw [command]
  | wr | wra =>
    refine columnGates_clock lpddr mirrors address (room _ (by simp [replayDelays])) ?_ index
    intro wck
    unfold Validator.replayWckState
    rw [command]
  | _ =>
    have same : ∀ wck, Validator.replayWckState spec issued wck = wck := by
      intro wck
      unfold Validator.replayWckState
      rw [command]
    dsimp only
    rw [same, Function.update_eq_self]
    exact mirrors index

end Clock

end HbmSim
