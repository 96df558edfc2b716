/-
The timing engine: the gates that span several banks. Each scope of the device
has a bucket of ready times; the table-driven constraints, the four-activate
window and the clock window of LPDDR data commands are kept in these buckets.

The arrays of buckets are functions of the index. An index is the mixed-radix
number of the coordinates down to the scope.
-/

import HbmSim.Address

namespace HbmSim

/-- `timing_delay`: clock cycles as controller ticks. -/
def timingDelay (spec : DramSpec) (cycles : Int) : Nat := cycles.toNat * max 1 spec.tickMultiplier

theorem timingDelay_pos {spec : DramSpec} {cycles : Int} (positive : 0 < cycles) :
    0 < timingDelay spec cycles :=
  Nat.mul_pos (by omega) (by omega)

/-- A cycle some delay later, as a 64-bit word. -/
def laterCycle (cycle delay : Nat) : Nat := (cycle + delay) % 2 ^ 64

theorem laterCycle_eq {cycle delay : Nat} (fits : cycle + delay ≤ uint64Max) :
    laterCycle cycle delay = cycle + delay :=
  Nat.mod_eq_of_lt (Nat.lt_of_le_of_lt fits (by decide))

/-! ### Buckets -/

structure TimingScopeState where
  nextRow : Nat := 0
  nextAct : Nat := 0
  nextCol : Nat := 0
  nextCas : Nat := 0
  wckReadyAt : Nat := 0
  wckActiveUntil : Nat := 0
  recentActs : List Nat := []
  nextCommand : Command → Nat := fun _ => 0

/-- The sweep of the dual-bank refresh over a rank. -/
structure RefdbState where
  bankCount : Nat := 0
  ready : Nat := 0
  visitedPairs : Nat → Bool := fun _ => false

/-- `scopes` holds the buckets the constraint table addresses by scope. The other arrays take
their scope from the spec. -/
structure TimingEngine where
  scopes : TimingScope → Nat → TimingScopeState := fun _ _ => {}
  refdbStates : Nat → RefdbState := fun _ => {}
  activationScopes : Nat → TimingScopeState := fun _ => {}
  rowScopes : Nat → TimingScopeState := fun _ => {}
  columnScopes : Nat → TimingScopeState := fun _ => {}
  wckScopes : Nat → TimingScopeState := fun _ => {}

/-! ### Scope indices -/

/-- A coordinate pulled into its dimension. -/
def clampCoordinate (value count : Nat) : Nat := min value (max 1 count - 1)

/-- `scope_index`: the coordinates of a bucket, level by level. -/
def scopeIndex (spec : DramSpec) (scope : TimingScope) (decoded : DecodedAddress) : Nat :=
  let channel := clampCoordinate decoded.channel spec.org.channels
  let pseudoChannel := channel * max 1 spec.org.pseudoChannels +
    clampCoordinate decoded.pseudoChannel spec.org.pseudoChannels
  let sid := pseudoChannel * max 1 spec.org.sids + clampCoordinate decoded.sid spec.org.sids
  let rank := sid * max 1 spec.org.ranks + clampCoordinate decoded.rank spec.org.ranks
  let bankGroup := rank * max 1 spec.org.bankGroups +
    clampCoordinate decoded.bankGroup spec.org.bankGroups
  let bank := bankGroup * max 1 spec.org.banksPerGroup +
    clampCoordinate decoded.bank spec.org.banksPerGroup
  match scope with
  | .channel => channel
  | .pseudoChannel => pseudoChannel
  | .sid => sid
  | .rank => rank
  | .bankGroup => bankGroup
  | .bank => bank

/-- `scope_count`: the number of buckets of a scope. -/
def scopeCount (spec : DramSpec) (scope : TimingScope) : Nat :=
  let channels := max 1 spec.org.channels
  let pseudoChannels := channels * max 1 spec.org.pseudoChannels
  let sids := pseudoChannels * max 1 spec.org.sids
  let ranks := sids * max 1 spec.org.ranks
  let bankGroups := ranks * max 1 spec.org.bankGroups
  match scope with
  | .channel => channels
  | .pseudoChannel => pseudoChannels
  | .sid => sids
  | .rank => ranks
  | .bankGroup => bankGroups
  | .bank => bankGroups * max 1 spec.org.banksPerGroup

/-- `sibling_range`: the buckets under the same parent, as a half-open interval. -/
def siblingRange (spec : DramSpec) (scope : TimingScope) (decoded : DecodedAddress) : Nat × Nat :=
  let (first, count) := match scope with
    | .channel => (0, max 1 spec.org.channels)
    | .pseudoChannel => (scopeIndex spec .channel decoded * max 1 spec.org.pseudoChannels,
        max 1 spec.org.pseudoChannels)
    | .sid => (scopeIndex spec .pseudoChannel decoded * max 1 spec.org.sids, max 1 spec.org.sids)
    | .rank => (scopeIndex spec .sid decoded * max 1 spec.org.ranks, max 1 spec.org.ranks)
    | .bankGroup => (scopeIndex spec .rank decoded * max 1 spec.org.bankGroups,
        max 1 spec.org.bankGroups)
    | .bank => (scopeIndex spec .bankGroup decoded * max 1 spec.org.banksPerGroup,
        max 1 spec.org.banksPerGroup)
  (min first (scopeCount spec scope), min (first + count) (scopeCount spec scope))

namespace TimingEngine

/-- The scopes whose buckets an engine keeps. -/
def bucketScopes : List TimingScope := [.channel, .pseudoChannel, .sid, .rank, .bankGroup, .bank]

/-- `reset`: empty buckets. Their counts are products of type `int`, which overflow where there is
no result. -/
def reset (spec : DramSpec) : Option TimingEngine :=
  if validateSpec spec = .ok () ∧ ∀ scope ∈ bucketScopes, scopeCount spec scope ≤ intMax then
    some {}
  else none

variable (engine : TimingEngine) (spec : DramSpec) (decoded : DecodedAddress)

def rowState : TimingScopeState := engine.rowScopes (scopeIndex spec spec.rowBusScope decoded)

def columnState : TimingScopeState :=
  engine.columnScopes (scopeIndex spec spec.columnBusScope decoded)

def bankGroupState : TimingScopeState :=
  engine.scopes .bankGroup (scopeIndex spec .bankGroup decoded)

def wckState : TimingScopeState := engine.wckScopes (scopeIndex spec spec.wckScope decoded)

def scopeState (scope : TimingScope) : TimingScopeState :=
  engine.scopes scope (scopeIndex spec scope decoded)

/-- Change one bucket of an array. -/
def modifyAt (buckets : Nat → TimingScopeState) (index : Nat)
    (change : TimingScopeState → TimingScopeState) : Nat → TimingScopeState :=
  Function.update buckets index (change (buckets index))

def modifyRow (change : TimingScopeState → TimingScopeState) : TimingEngine :=
  { engine with
    rowScopes := modifyAt engine.rowScopes (scopeIndex spec spec.rowBusScope decoded) change }

def modifyColumn (change : TimingScopeState → TimingScopeState) : TimingEngine :=
  { engine with
    columnScopes :=
      modifyAt engine.columnScopes (scopeIndex spec spec.columnBusScope decoded) change }

def modifyWck (change : TimingScopeState → TimingScopeState) : TimingEngine :=
  { engine with
    wckScopes := modifyAt engine.wckScopes (scopeIndex spec spec.wckScope decoded) change }

def modifyScope (scope : TimingScope) (index : Nat)
    (change : TimingScopeState → TimingScopeState) : TimingEngine :=
  { engine with
    scopes := Function.update engine.scopes scope (modifyAt (engine.scopes scope) index change) }

def modifyBankGroup (change : TimingScopeState → TimingScopeState) : TimingEngine :=
  engine.modifyScope .bankGroup (scopeIndex spec .bankGroup decoded) change

/-! ### Readiness -/

/-- The bank pair a dual-bank refresh visits. -/
def refdbPair : Nat := decoded.bankGroup / 2 * spec.org.banksPerGroup + decoded.bank

/-- A constraint of the table that holds back a command by a ready time. -/
def bindsOn (constraint : TimingConstraint) (command : Command) : Bool :=
  decide (constraint.window ≤ 0 ∧ command ∈ constraint.following)

def constraintReady (command : Command) (clk : Nat) : Bool :=
  let dualBank := spec.lpddrDualBankRefresh = true ∧ command = .refdb
  let refresh := engine.refdbStates (scopeIndex spec .rank decoded)
  if dualBank ∧ (clk < refresh.ready ∨ refresh.visitedPairs (refdbPair spec decoded) = true) then
    false
  else
    spec.timingConstraints.all fun constraint =>
      if bindsOn constraint command then
        decide ((engine.scopeState spec decoded constraint.scope).nextCommand command ≤ clk) &&
        !decide (dualBank ∧ constraint.scope = .bank ∧
          clk < (engine.scopeState spec (lpddrRefdbPartner spec decoded) .bank).nextCommand
            command)
      else true

/-- The first tick the constraint table lets a command through. -/
def constraintReadyAt (command : Command) : Nat :=
  let dualBank := spec.lpddrDualBankRefresh = true ∧ command = .refdb
  let refresh := engine.refdbStates (scopeIndex spec .rank decoded)
  if dualBank ∧ refresh.visitedPairs (refdbPair spec decoded) = true then uint64Max
  else
    spec.timingConstraints.foldl
      (fun ready constraint =>
        if bindsOn constraint command then
          let ready :=
            max ready ((engine.scopeState spec decoded constraint.scope).nextCommand command)
          if dualBank ∧ constraint.scope = .bank then
            max ready
              ((engine.scopeState spec (lpddrRefdbPartner spec decoded) .bank).nextCommand command)
          else ready
        else ready)
      (if dualBank then refresh.ready else 0)

/-- Fewer than four activates in the window. -/
def fawReady : Bool :=
  decide ((engine.activationScopes
    (scopeIndex spec spec.activationScope decoded)).recentActs.length < 4)

def wckReadyForData (clk : Nat) : Bool :=
  if spec.lpddrFamily = false then true
  else if spec.lpddrWckMode = .alwaysOn then true
  else
    let wck := engine.wckState spec decoded
    decide (wck.wckReadyAt ≤ clk ∧ clk < wck.wckActiveUntil)

/-! ### Recording a command -/

def recordActivate (clk : Nat) : TimingEngine :=
  { engine with
    activationScopes :=
      modifyAt engine.activationScopes (scopeIndex spec spec.activationScope decoded) fun scope =>
        { scope with recentActs := scope.recentActs ++ [clk] } }

/-- Drop the activates that have left the window. -/
def pruneRecentActs (clk : Nat) : TimingEngine :=
  { engine with
    activationScopes := fun index =>
      { engine.activationScopes index with
        recentActs := (engine.activationScopes index).recentActs.dropWhile fun act =>
          decide (act ≤ clk ∧ timingDelay spec (max 1 spec.timing.nFAW) ≤ clk - act) } }

/-- Raise the ready time of the commands a constraint holds back. -/
def holdBack (constraint : TimingConstraint) (ready : Nat) (scope : TimingScopeState) :
    TimingScopeState :=
  { scope with
    nextCommand := fun command =>
      if command ∈ constraint.following then max (scope.nextCommand command) ready
      else scope.nextCommand command }

/-- The dual-bank sweep after a command; `later` is the cycle that lies a delay after it. -/
def sweepBy (issued : Command) (later : Nat → Nat) : Nat → RefdbState :=
  let rank := scopeIndex spec .rank decoded
  let refresh := engine.refdbStates rank
  match issued with
  | .refdb =>
    let bankCount := (refresh.bankCount + 1) % (spec.org.bankGroups / 2 * spec.org.banksPerGroup)
    let shortGap :=
      if 0 < spec.timing.nREFDB2REFDBS then spec.timing.nREFDB2REFDBS else spec.timing.nRRDL
    let longGap := if 0 < spec.timing.nREFDB2REFDBL then spec.timing.nREFDB2REFDBL else shortGap
    Function.update engine.refdbStates rank
      { bankCount
        ready := later (timingDelay spec (if bankCount = 0 then longGap else shortGap))
        visitedPairs :=
          if bankCount = 0 then fun _ => false
          else Function.update refresh.visitedPairs (refdbPair spec decoded) true }
  | .refab =>
    Function.update engine.refdbStates rank
      { bankCount := 0, ready := later (timingDelay spec spec.timing.nRFC) }
  | .srefex =>
    let (first, last) := siblingRange spec .pseudoChannel decoded
    let ranksPerPc := spec.org.sids * spec.org.ranks
    fun index =>
      if first * ranksPerPc ≤ index ∧ index < last * ranksPerPc then {}
      else engine.refdbStates index
  | _ => engine.refdbStates

def imposeConstraint (issued : Command) (later : Nat → Nat) (engine : TimingEngine)
    (constraint : TimingConstraint) : TimingEngine :=
  if 0 < constraint.window ∨ issued ∉ constraint.preceding then engine
  else
    let change := holdBack constraint (later (timingDelay spec (max 0 constraint.latency)))
    let current := scopeIndex spec constraint.scope decoded
    if constraint.sibling = false then
      let engine := engine.modifyScope constraint.scope current change
      if issued = .refdb ∧ spec.lpddrDualBankRefresh = true ∧ constraint.scope = .bank then
        engine.modifyScope .bank (scopeIndex spec .bank (lpddrRefdbPartner spec decoded)) change
      else engine
    else
      let (first, last) := siblingRange spec constraint.scope decoded
      { engine with
        scopes := Function.update engine.scopes constraint.scope fun index =>
          if first ≤ index ∧ index < last ∧ index ≠ current then
            change (engine.scopes constraint.scope index)
          else engine.scopes constraint.scope index }

def imposeConstraints (issued : Command) (later : Nat → Nat) : TimingEngine :=
  let engine :=
    if spec.lpddrDualBankRefresh then
      { engine with refdbStates := engine.sweepBy spec decoded issued later }
    else engine
  spec.timingConstraints.foldl (imposeConstraint spec decoded issued later) engine

/-- `apply_constraints`, which adds cycles as 64-bit words. -/
def applyConstraintsWord (issued : Command) (clk : Nat) : TimingEngine :=
  engine.imposeConstraints spec decoded issued (laterCycle clk)

/-! ### The controller's own cycles -/

-- A controller counts its cycles from zero, one by one, so its sums stay below the wrap-around
-- and are added as numbers.

def sweepAfter (issued : Command) (clk : Nat) : Nat → RefdbState :=
  engine.sweepBy spec decoded issued (clk + ·)

def applyConstraints (issued : Command) (clk : Nat) : TimingEngine :=
  engine.imposeConstraints spec decoded issued (clk + ·)

end TimingEngine

end HbmSim
