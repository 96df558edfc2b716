/-
The three sources of maintenance: the refresh manager, which turns passed
deadlines into refresh commands, the refresh-management counters, which ask for
a mitigation after enough activates, and the row policy, which counts column
accesses and closes a bank at its cap.

Each of them only says what should be done. The controller queues the commands
and decides when they issue.
-/

import HbmSim.Timing

namespace HbmSim

structure MaintenanceCommand where
  command : Command := .nop
  decoded : DecodedAddress := {}
  deriving DecidableEq, Repr

/-! ### Refresh -/

/-- `credit` counts the refreshes a rank owes; a negative credit was paid in advance. -/
structure RankRefreshState where
  nextRefreshCycle : Nat := 0
  sidCursor : Nat := 0
  flatBankCursor : Nat := 0
  credit : Int := 0
  postponeCount : Int := 0
  pullinCount : Int := 0
  deriving DecidableEq, Repr

structure RefreshManager where
  rankStates : List RankRefreshState := []
  rankCursor : Nat := 0
  selfRefreshActive : Bool := false
  deriving DecidableEq, Repr

structure RefreshTickResult where
  startedBatch : Bool := false
  postponed : Bool := false
  pulledIn : Bool := false
  credit : Int := 0
  commands : List MaintenanceCommand := []
  deriving DecidableEq, Repr

def refreshInterval (spec : DramSpec) : Int :=
  let interval :=
    if spec.refreshPolicy = .allBank then spec.timing.nREFI
    else if 0 < spec.timing.nREFIpb then spec.timing.nREFIpb
    else spec.timing.nREFI
  if spec.refreshTemperatureMode ≠ .normal then
    max 1 (interval.tdiv (max 1 spec.refreshHighTempMultiplier))
  else interval

/-- The bank positions of one stack id, as a batch counts them. -/
def positionsPerSid (spec : DramSpec) : Nat :=
  if spec.lpddrDualBankRefresh then
    max 1 (max 1 spec.org.bankGroups / 2) * max 1 spec.org.banksPerGroup
  else max 1 spec.org.bankGroups * max 1 spec.org.banksPerGroup

/-- The commands of one batch, and the rank's cursors after it. -/
def seedRefreshBatch (spec : DramSpec) (rank : Nat) (state : RankRefreshState) :
    List MaintenanceCommand × RankRefreshState :=
  if spec.refreshPolicy = .allBank then
    let commands := (List.range (max 1 spec.org.pseudoChannels)).flatMap fun pseudoChannel =>
      (List.range (max 1 spec.org.sids)).map fun sid =>
        { command := .refab, decoded := { pseudoChannel, sid, rank } }
    (commands, state)
  else
    let banksPerGroup := max 1 spec.org.banksPerGroup
    let sidCount := max 1 spec.org.sids
    let flat := state.flatBankCursor % positionsPerSid spec
    let sid := state.sidCursor % sidCount
    -- A dual-bank refresh names the even bank group of its pair.
    let bankGroup :=
      if spec.lpddrDualBankRefresh then flat / banksPerGroup * 2 else flat / banksPerGroup
    let commands := (List.range (max 1 spec.org.channels)).flatMap fun channel =>
      (List.range (max 1 spec.org.pseudoChannels)).map fun pseudoChannel =>
        { command := if spec.lpddrDualBankRefresh then .refdb else .refpb
          decoded :=
            { channel, pseudoChannel, sid, rank, bankGroup, bank := flat % banksPerGroup } }
    let cursor := state.flatBankCursor + 1
    if positionsPerSid spec ≤ cursor then
      (commands,
        { state with flatBankCursor := 0, sidCursor := (state.sidCursor + 1) % sidCount })
    else (commands, { state with flatBankCursor := cursor })

namespace RefreshManager

/-- All ranks have their first deadline at a cycle. -/
def timedAt (spec : DramSpec) (deadline : Nat) : RefreshManager where
  rankStates := List.replicate (max 1 spec.org.ranks) { nextRefreshCycle := deadline }

def timed (spec : DramSpec) (clk : Nat) : RefreshManager :=
  timedAt spec (clk + timingDelay spec (refreshInterval spec))

/-- `reset`. -/
def reset (spec : DramSpec) (clk : Nat) : Except Exception RefreshManager := do
  validateSpec spec
  return timed spec clk

def aggregateCredit (manager : RefreshManager) : Int := (manager.rankStates.map (·.credit)).sum

/-- Every passed deadline adds an obligation, except in self refresh. The loop runs as long as a
deadline has passed; each round moves the deadline on, so `fuel` rounds past the clock suffice. -/
def accrue (selfRefresh : Bool) (clk intervalTicks : Nat) :
    Nat → RankRefreshState → RankRefreshState × Bool
  | 0, state => (state, false)
  | fuel + 1, state =>
    if state.nextRefreshCycle ≤ clk then
      let state := { state with
        credit := if selfRefresh then state.credit else state.credit + 1
        nextRefreshCycle := state.nextRefreshCycle + intervalTicks }
      ((accrue selfRefresh clk intervalTicks fuel state).1, true)
    else (state, false)

/-- The deadlines of one rank, and whether one has just passed. -/
def accrueRank (selfRefresh : Bool) (clk intervalTicks : Nat) (state : RankRefreshState) :
    RankRefreshState × Bool :=
  let (state, newlyDue) :=
    accrue selfRefresh clk intervalTicks (clk + 1 - state.nextRefreshCycle) state
  (if 0 ≤ state.credit then { state with pullinCount := 0 } else state, newlyDue)

/-- The order in which the ranks are looked at. -/
def rotation (manager : RefreshManager) : List Nat :=
  (List.range manager.rankStates.length).map fun offset =>
    (manager.rankCursor + offset) % manager.rankStates.length

/-- What a rank's obligation asks for in this tick. -/
inductive Service
  | wait
  | postpone
  | refresh
  deriving DecidableEq

def serviceOf (spec : DramSpec) (preferPostpone newlyDue : Bool) (state : RankRefreshState) :
    Service :=
  let creditLimit := max 0 spec.refreshCreditLimit
  if state.credit ≤ 0 then .wait
  else if newlyDue = true ∧ preferPostpone = true ∧ 0 < spec.refreshPostponeLimit ∧
      state.postponeCount < spec.refreshPostponeLimit ∧
      (creditLimit = 0 ∨ state.credit ≤ creditLimit) then .postpone
  else if preferPostpone = true ∧ newlyDue = false ∧ 0 < state.postponeCount ∧
      state.postponeCount < spec.refreshPostponeLimit then .wait
  else .refresh

/-- Put back a rank's state and move the cursor behind it. -/
def settle (manager : RefreshManager) (rank : Nat) (state : RankRefreshState) : RefreshManager :=
  { manager with
    rankStates := manager.rankStates.set rank state
    rankCursor := (rank + 1) % manager.rankStates.length }

/-- Serve the first rank that owes a refresh. -/
def serveDue (manager : RefreshManager) (spec : DramSpec) (preferPostpone : Bool)
    (newlyDue : List Bool) : Option (RefreshTickResult × RefreshManager) :=
  manager.rotation.findSome? fun rank =>
    let state := manager.rankStates.getD rank {}
    match serviceOf spec preferPostpone (newlyDue.getD rank false) state with
    | .wait => none
    | .postpone =>
      let manager := manager.settle rank { state with postponeCount := state.postponeCount + 1 }
      some ({ postponed := true, credit := manager.aggregateCredit }, manager)
    | .refresh =>
      let (commands, state) := seedRefreshBatch spec rank state
      let credit := state.credit - 1
      let manager := manager.settle rank
        { state with credit, postponeCount := if credit ≤ 0 then 0 else state.postponeCount }
      some ({ startedBatch := true, commands, credit := manager.aggregateCredit }, manager)

/-- The ticks in front of a deadline in which it may be paid in advance. -/
def pullInWindow (spec : DramSpec) : Nat := timingDelay spec (max 1 ((refreshInterval spec).tdiv 2))

/-- Pay in advance for the first idle rank whose deadline is not beyond the horizon. -/
def pullIn (manager : RefreshManager) (spec : DramSpec) (horizon : Nat) :
    Option (RefreshTickResult × RefreshManager) :=
  manager.rotation.findSome? fun rank =>
    let state := manager.rankStates.getD rank {}
    if state.credit = 0 ∧ state.nextRefreshCycle ≤ horizon ∧
        state.pullinCount < spec.refreshPullinLimit then
      let (commands, state) := seedRefreshBatch spec rank state
      let manager := manager.settle rank
        { state with credit := state.credit - 1, pullinCount := state.pullinCount + 1 }
      some ({ startedBatch := true, pulledIn := true, commands,
              credit := manager.aggregateCredit }, manager)
    else none

/-- The part of a tick behind the deadlines: at most one rank is served. -/
def serve (manager : RefreshManager) (spec : DramSpec) (horizon : Nat)
    (preferPostpone allowPullIn : Bool) (newlyDue : List Bool) :
    RefreshTickResult × RefreshManager :=
  if manager.selfRefreshActive then ({ credit := manager.aggregateCredit }, manager)
  else
    match manager.serveDue spec preferPostpone newlyDue with
    | some served => served
    | none =>
      let early :=
        if allowPullIn = true ∧ 0 < spec.refreshPullinLimit then manager.pullIn spec horizon
        else none
      early.getD ({ credit := manager.aggregateCredit }, manager)

/-- A rank that owes a refresh is served first, then one that may pay in advance; in self refresh
and with no such rank nothing happens. -/
theorem serve_cases (manager : RefreshManager) (spec : DramSpec) (horizon : Nat)
    (preferPostpone allowPullIn : Bool) (newlyDue : List Bool) :
    ((manager.selfRefreshActive = false → manager.serveDue spec preferPostpone newlyDue = none) ∧
      manager.serve spec horizon preferPostpone allowPullIn newlyDue =
        ({ credit := manager.aggregateCredit }, manager)) ∨
    manager.selfRefreshActive = false ∧
      (manager.serveDue spec preferPostpone newlyDue =
          some (manager.serve spec horizon preferPostpone allowPullIn newlyDue) ∨
        manager.pullIn spec horizon =
          some (manager.serve spec horizon preferPostpone allowPullIn newlyDue)) := by
  unfold serve
  cases manager.selfRefreshActive with
  | true => exact Or.inl ⟨nofun, rfl⟩
  | false =>
    rw [if_neg Bool.false_ne_true]
    cases manager.serveDue spec preferPostpone newlyDue with
    | some served => exact Or.inr ⟨rfl, Or.inl rfl⟩
    | none =>
      dsimp only
      split
      · cases manager.pullIn spec horizon with
        | some early => exact Or.inr ⟨rfl, Or.inr rfl⟩
        | none => exact Or.inl ⟨fun _ => rfl, rfl⟩
      · exact Or.inl ⟨fun _ => rfl, rfl⟩

theorem serveDue_settles {manager next : RefreshManager} {spec : DramSpec} {prefer : Bool}
    {newlyDue : List Bool} {result : RefreshTickResult}
    (serves : manager.serveDue spec prefer newlyDue = some (result, next)) :
    ∃ rank state, next = manager.settle rank state := by
  obtain ⟨rank, -, serves⟩ := List.exists_of_findSome?_eq_some serves
  dsimp only at serves
  split at serves
  · cases serves
  · cases serves
    exact ⟨_, _, rfl⟩
  · cases serves
    exact ⟨_, _, rfl⟩

theorem pullIn_settles {manager next : RefreshManager} {spec : DramSpec} {horizon : Nat}
    {result : RefreshTickResult} (pulls : manager.pullIn spec horizon = some (result, next)) :
    ∃ rank state, next = manager.settle rank state := by
  obtain ⟨rank, -, pulls⟩ := List.exists_of_findSome?_eq_some pulls
  dsimp only at pulls
  split at pulls
  · cases pulls
    exact ⟨_, _, rfl⟩
  · cases pulls

/-- Whichever rank is served, nothing but its state and the cursor changes. -/
theorem serve_settles (manager : RefreshManager) (spec : DramSpec) (horizon : Nat)
    (preferPostpone allowPullIn : Bool) (newlyDue : List Bool) :
    (manager.serve spec horizon preferPostpone allowPullIn newlyDue).2 = manager ∨
      ∃ rank state, (manager.serve spec horizon preferPostpone allowPullIn newlyDue).2 =
        manager.settle rank state := by
  rcases manager.serve_cases spec horizon preferPostpone allowPullIn newlyDue with
    ⟨-, quiet⟩ | ⟨-, serves | pulls⟩
  · exact Or.inl (congrArg Prod.snd quiet)
  · exact Or.inr (serveDue_settles serves)
  · exact Or.inr (pullIn_settles pulls)

/-- Whichever rank is served, the manager keeps its ranks and does not leave self refresh. -/
theorem serve_kept (manager : RefreshManager) (spec : DramSpec) (horizon : Nat)
    (preferPostpone allowPullIn : Bool) (newlyDue : List Bool) :
    (manager.serve spec horizon preferPostpone allowPullIn newlyDue).2.rankStates.length =
        manager.rankStates.length ∧
      (manager.serve spec horizon preferPostpone allowPullIn newlyDue).2.selfRefreshActive =
        manager.selfRefreshActive := by
  rcases manager.serve_settles spec horizon preferPostpone allowPullIn newlyDue with
    same | ⟨rank, state, settles⟩
  · rw [same]
    exact ⟨rfl, rfl⟩
  · rw [settles]
    exact ⟨List.length_set, rfl⟩

def tick (manager : RefreshManager) (spec : DramSpec) (clk : Nat)
    (preferPostpone allowPullIn : Bool) : RefreshTickResult × RefreshManager :=
  let interval := refreshInterval spec
  if spec.supportsRefresh = false ∨ interval ≤ 0 then ({}, manager)
  else
    let manager :=
      if manager.rankStates.length ≠ max 1 spec.org.ranks then timed spec clk else manager
    let accrued : List (RankRefreshState × Bool) := manager.rankStates.map
      (accrueRank manager.selfRefreshActive clk (timingDelay spec interval))
    { manager with rankStates := accrued.map Prod.fst }.serve spec (clk + pullInWindow spec)
      preferPostpone allowPullIn (accrued.map Prod.snd)

/-- A tick keeps the ranks and does not leave self refresh. -/
theorem tick_kept {manager : RefreshManager} {spec : DramSpec} (clk : Nat) (prefer pull : Bool)
    (ranks : manager.rankStates.length = max 1 spec.org.ranks) :
    (manager.tick spec clk prefer pull).2.rankStates.length = manager.rankStates.length ∧
      (manager.tick spec clk prefer pull).2.selfRefreshActive = manager.selfRefreshActive := by
  unfold tick
  dsimp only
  split
  · exact ⟨rfl, rfl⟩
  · rw [if_neg (not_not.mpr ranks)]
    obtain ⟨length, asleep⟩ := serve_kept { manager with
      rankStates := (manager.rankStates.map (accrueRank manager.selfRefreshActive clk
        (timingDelay spec (refreshInterval spec)))).map Prod.fst } spec (clk + pullInWindow spec)
      prefer pull ((manager.rankStates.map (accrueRank manager.selfRefreshActive clk
        (timingDelay spec (refreshInterval spec)))).map Prod.snd)
    refine ⟨length.trans ?_, asleep⟩
    rw [List.length_map, List.length_map]

/-! ### The manager on words -/

-- The functions above count on, and a controller's own clock keeps them in range. The functions
-- below follow the types of the source, for a caller with cycles of its own: deadlines are 64-bit
-- words, credits are of type `int`. Where one of these overflows there is no result.

def resetWord (spec : DramSpec) (clk : Nat) : Except Exception RefreshManager := do
  validateSpec spec
  return timedAt spec (laterCycle clk (timingDelay spec (refreshInterval spec)))

/-- A sum of type `int`. -/
def sumInt (first second : Int) : Option Int :=
  if -(intMax : Int) - 1 ≤ first + second ∧ first + second ≤ intMax then some (first + second)
  else none

/-- The loop over the passed deadlines, which may go on without end where the words wrap around. -/
def accrueWord (selfRefresh : Bool) (clk intervalTicks : Nat) :
    Nat → RankRefreshState → Option (RankRefreshState × Bool)
  | 0, _ => none
  | rounds + 1, state =>
    if state.nextRefreshCycle ≤ clk then do
      let credit ← (if selfRefresh then some state.credit else sumInt state.credit 1)
      let after ← accrueWord selfRefresh clk intervalTicks rounds { state with
        credit := credit
        nextRefreshCycle := laterCycle state.nextRefreshCycle intervalTicks }
      return (after.1, true)
    else some (state, false)

/-- After as many rounds as there are words the deadlines repeat, so a loop that goes on then does
not end. -/
def accrueRankWord (selfRefresh : Bool) (clk intervalTicks : Nat) (state : RankRefreshState) :
    Option (RankRefreshState × Bool) := do
  let (state, newlyDue) ← accrueWord selfRefresh clk intervalTicks (2 ^ 64) state
  return (if 0 ≤ state.credit then { state with pullinCount := 0 } else state, newlyDue)

/-- A loop over the ranks adds each offset to the cursor as an `int`, up to the rank it serves. -/
def rotationFits (manager : RefreshManager) (spec : DramSpec) (preferPostpone : Bool)
    (newlyDue : List Bool) : Bool :=
  manager.selfRefreshActive ||
    decide (manager.rankCursor + manager.rankStates.length ≤ intMax + 1) ||
    (List.range manager.rankStates.length).any fun offset =>
      let rank := (manager.rankCursor + offset) % manager.rankStates.length
      decide (manager.rankCursor + offset ≤ intMax ∧
        serviceOf spec preferPostpone (newlyDue.getD rank false)
          (manager.rankStates.getD rank {}) ≠ .wait)

/-- `aggregate_credit` fits its type. -/
def aggregateFits (manager : RefreshManager) : Bool :=
  (manager.rankStates.foldlM (fun total state => sumInt total state.credit) 0).isSome

def tickWord (manager : RefreshManager) (spec : DramSpec) (clk : Nat)
    (preferPostpone allowPullIn : Bool) : Option (RefreshTickResult × RefreshManager) :=
  let interval := refreshInterval spec
  if spec.supportsRefresh = false ∨ interval ≤ 0 then some ({}, manager)
  else do
    let manager :=
      if manager.rankStates.length ≠ max 1 spec.org.ranks then
        timedAt spec (laterCycle clk (timingDelay spec interval))
      else manager
    let accrued ← manager.rankStates.mapM
      (accrueRankWord manager.selfRefreshActive clk (timingDelay spec interval))
    let manager := { manager with rankStates := accrued.map Prod.fst }
    let served := manager.serve spec (laterCycle clk (pullInWindow spec)) preferPostpone
      allowPullIn (accrued.map Prod.snd)
    -- A batch for single banks counts the positions of a stack id in an `int`.
    if manager.rotationFits spec preferPostpone (accrued.map Prod.snd) = true ∧
        served.2.aggregateFits = true ∧ (served.1.startedBatch = true →
          spec.refreshPolicy ≠ .allBank → positionsPerSid spec ≤ intMax) then some served
    else none

end RefreshManager

/-! ### Refresh management -/

/-- `rank_index`: the rank a coordinate lies in. -/
def rankIndex (spec : DramSpec) (decoded : DecodedAddress) : Nat := scopeIndex spec .rank decoded

/-- `rank_bank_range`: the banks of the rank, as a half-open interval. -/
def rankBankRange (spec : DramSpec) (decoded : DecodedAddress) : Nat × Nat :=
  let banksPerRank := max 1 (spec.org.bankGroups * spec.org.banksPerGroup)
  let first := rankIndex spec decoded * banksPerRank
  (first, min spec.bankCount (first + banksPerRank))

structure RfmManager where
  actCountSinceRfm : Nat → Int := fun _ => 0
  rfmPendingBank : Nat → Bool := fun _ => false
  rfmPendingAllBank : Nat → Bool := fun _ => false

namespace RfmManager

def decrementValue (spec : DramSpec) : Int :=
  max 1 (if 0 < spec.rfmDecrement then spec.rfmDecrement
    else if 0 < spec.rfmActThreshold then spec.rfmActThreshold else 1)

/-- Count an activate; at the threshold ask for one mitigation. -/
def onActivate (manager : RfmManager) (spec : DramSpec) (decoded : DecodedAddress) :
    Option MaintenanceCommand × RfmManager :=
  let flat := decoded.flatBank spec
  if spec.supportsRfm = false ∨ spec.rfmActThreshold ≤ 0 ∨ spec.bankCount ≤ flat then
    (none, manager)
  else
    let count := manager.actCountSinceRfm flat + 1
    let manager :=
      { manager with actCountSinceRfm := Function.update manager.actCountSinceRfm flat count }
    if count < spec.rfmActThreshold then (none, manager)
    else if spec.rfmPolicy = .allBank then
      let rank := rankIndex spec decoded
      if manager.rfmPendingAllBank rank then (none, manager)
      else (some { command := .rfmab, decoded },
        { manager with
          rfmPendingAllBank := Function.update manager.rfmPendingAllBank rank true })
    else if manager.rfmPendingBank flat then (none, manager)
    else (some { command := .rfmpb, decoded },
      { manager with rfmPendingBank := Function.update manager.rfmPendingBank flat true })

def onRfmpb (manager : RfmManager) (spec : DramSpec) (decoded : DecodedAddress) : RfmManager :=
  let flat := decoded.flatBank spec
  if spec.bankCount ≤ flat then manager
  else
    { manager with
      actCountSinceRfm := Function.update manager.actCountSinceRfm flat
        (max 0 (manager.actCountSinceRfm flat - decrementValue spec))
      rfmPendingBank := Function.update manager.rfmPendingBank flat false }

def onRfmab (manager : RfmManager) (spec : DramSpec) (decoded : DecodedAddress) : RfmManager :=
  let (first, last) := rankBankRange spec decoded
  { manager with
    actCountSinceRfm := fun flat =>
      if first ≤ flat ∧ flat < last then
        max 0 (manager.actCountSinceRfm flat - decrementValue spec)
      else manager.actCountSinceRfm flat
    rfmPendingBank := fun flat =>
      if first ≤ flat ∧ flat < last then false else manager.rfmPendingBank flat
    rfmPendingAllBank :=
      Function.update manager.rfmPendingAllBank (rankIndex spec decoded) false }

end RfmManager

/-! ### Row policy -/

structure RowPolicyEngine where
  bankCount : Nat
  cap : Int
  columnAccesses : Nat → Int := fun _ => 0
  prechargePending : Nat → Bool := fun _ => false

namespace RowPolicyEngine

def reset (bankCount : Nat) (cap : Int) : Except Exception RowPolicyEngine := do
  throwIf (bankCount = 0) (invalidArgument "row-policy bank_count must be positive")
  throwIf (cap ≤ 0) (invalidArgument "closed-page cap must be positive")
  return { bankCount, cap }

def shouldAutoPrecharge (engine : RowPolicyEngine) (policy : RowPolicyKind) (flatBank : Nat) :
    Bool :=
  decide (policy = .closedCap ∧ flatBank < engine.bankCount ∧
    engine.cap ≤ engine.columnAccesses flatBank)

def shouldSchedulePrecharge (engine : RowPolicyEngine) (policy : RowPolicyKind)
    (flatBank activeRequests : Nat) : Bool :=
  engine.shouldAutoPrecharge policy flatBank && decide (activeRequests = 0) &&
    !engine.prechargePending flatBank

def markPrechargePending (engine : RowPolicyEngine) (flatBank : Nat) : RowPolicyEngine :=
  if flatBank < engine.bankCount then
    { engine with prechargePending := Function.update engine.prechargePending flatBank true }
  else engine

def onIssue (engine : RowPolicyEngine) (policy : RowPolicyKind) (flatBank : Nat)
    (issued : Command) : RowPolicyEngine :=
  let row := commandMeta issued
  if policy ≠ .closedCap then engine
  else if row.allBank = true ∧ row.closing = true then
    { engine with columnAccesses := fun _ => 0, prechargePending := fun _ => false }
  else if engine.bankCount ≤ flatBank then engine
  else if row.closing then
    { engine with
      columnAccesses := Function.update engine.columnAccesses flatBank 0
      prechargePending := Function.update engine.prechargePending flatBank false }
  else if row.accessing then
    { engine with
      columnAccesses :=
        Function.update engine.columnAccesses flatBank (engine.columnAccesses flatBank + 1) }
  else engine

end RowPolicyEngine

end HbmSim
