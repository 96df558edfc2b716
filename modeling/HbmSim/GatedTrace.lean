/-
Commands that pass the controller's gates one after the other, without the
queues and the choice of a request: each is checked against the device, applied
to it and recorded.

The gates leave some rules of the offline check to other parts of the
controller, such as the deadline of a split activate. `OfflineRules` collects
them, command by command.
-/

import HbmSim.ControllerRun
import HbmSim.Lib.History

namespace HbmSim

/-- A command, the cycle it issues at and the request it issues for. -/
structure GatedCommand where
  cycle : Nat
  request : Request
  candidate : Candidate
  deriving DecidableEq, Repr

/-! ### Delays -/

/-- Everything the replay of a trace adds to a cycle. -/
def replayDelays (spec : DramSpec) : List Nat :=
  let timing := spec.timing
  let wait := timingDelay spec
  [3, wait (max 1 timing.nWCKTRAIN), wait (max 1 timing.nWCKTRAIN) + wait (max 1 timing.nWCKPST),
    wait (max 1 timing.nAADMin), wait (max timing.nAADMin timing.nAADMax),
    wait timing.nREFDB2REFDBS, wait timing.nREFDB2REFDBL, wait timing.nRRDL, wait timing.nRFC,
    wait (max 1 timing.nWCK2CK), wait (max timing.nWCKPST (timing.nWCK2CK + 1)),
    wait (max 1 timing.nWCKSYNC), wait (max timing.nWCKPST (timing.nWCKSYNC + 1)),
    wait (timing.nCL + timing.nBL + timing.nWCKPST),
    wait (timing.nCWL + timing.nBL + timing.nWCKPST)] ++
    spec.timingConstraints.map fun constraint => wait (max 0 constraint.latency)

/-- The cycle a WCK synchronization keeps the data clock running to. -/
def synchronizedUntil (spec : DramSpec) (cycle : Nat) : Nat :=
  cycle + timingDelay spec (max spec.timing.nWCKPST (spec.timing.nWCKSYNC + 1))

namespace Controller

variable {β : Type}

/-! ### Issuing behind the gates -/

/-- The controller at a tick, once the old activates are dropped. -/
def atTick (c : Controller β) (cycle : Nat) : Controller β :=
  { c with clk := cycle, timingEngine := c.timingEngine.pruneRecentActs c.spec cycle }

/-- `bus_matches` and `timing_ok`. -/
def passesGates (c : Controller β) (gated : GatedCommand) : Bool :=
  c.busMatches gated.request gated.candidate.command gated.candidate.bus &&
    c.timingOk gated.request gated.candidate.command

/-- A command that passes the gates takes effect and is recorded. -/
def issueGated (c : Controller β) (gated : GatedCommand) :
    Except GatedCommand (List IssuedCommand × Controller β) :=
  let now := c.atTick gated.cycle
  if c.clk ≤ gated.cycle ∧ now.passesGates gated = true then
    .ok ([now.issuedRecord gated.request gated.candidate],
      now.issueEffects gated.candidate gated.request c.memPhy c.memoryImage)
  else .error gated

def issueAllGated (c : Controller β) (commands : List GatedCommand) :
    Except GatedCommand (List IssuedCommand × Controller β) :=
  Transition.run issueGated c commands

/-! ### What the gates leave open -/

/-- What the offline check asks of a command beyond the gates: only a unified device uses the
unified bus, a second activate keeps its deadline, a dual-bank refresh has a device that knows it,
a self refresh ends only after it began, and no running data clock is cut short. Cycles stay in a
64-bit word. -/
structure OfflineRules (c : Controller β) (gated : GatedCommand) : Prop where
  bus : gated.candidate.bus = .unified →
    c.spec.dualCommandBus = false ∧ c.spec.hbmEdgePairing = false
  deadline : gated.candidate.command = .act2 →
    gated.cycle ≤ (c.bankOf gated.request).act2Deadline
  dualBank : gated.candidate.command = .refdb → c.spec.lpddrDualBankRefresh = true
  selfRefresh : gated.candidate.command = .srefex → c.explicitSelfRefreshActive = true
  dataClock : gated.candidate.command = .wcksync →
    (c.timingEngine.wckState c.spec gated.request.decoded).wckActiveUntil ≤
      synchronizedUntil c.spec gated.cycle
  fits : ∀ delay ∈ replayDelays c.spec, gated.cycle + delay ≤ uint64Max

instance (c : Controller β) (gated : GatedCommand) : Decidable (OfflineRules c gated) :=
  decidable_of_iff (_ ∧ _ ∧ _ ∧ _ ∧ _ ∧ _)
    ⟨fun ⟨bus, deadline, dualBank, selfRefresh, dataClock, fits⟩ =>
      ⟨bus, deadline, dualBank, selfRefresh, dataClock, fits⟩,
    fun ⟨bus, deadline, dualBank, selfRefresh, dataClock, fits⟩ =>
      ⟨bus, deadline, dualBank, selfRefresh, dataClock, fits⟩⟩

/-- Every command of a gated run meets the offline rules. -/
def MeetsOfflineRules (c : Controller β) (commands : List GatedCommand) : Prop :=
  Transition.Meets issueGated OfflineRules c commands

end Controller

/-! ### Conditions on the record -/

/-- The latest first activate of a bank. -/
def latestFirstActivate (spec : DramSpec) (trace : List IssuedCommand) (flat : Nat) :
    Option IssuedCommand :=
  trace.foldl
    (fun latest issued =>
      if issued.command = .act1 ∧ issued.decoded.flatBank spec = flat then some issued else latest)
    none

theorem latestFirstActivate_concat {spec : DramSpec} {flat : Nat} (trace : List IssuedCommand)
    (issued : IssuedCommand) : latestFirstActivate spec (trace ++ [issued]) flat =
      if issued.command = .act1 ∧ issued.decoded.flatBank spec = flat then some issued
      else latestFirstActivate spec trace flat := by
  unfold latestFirstActivate
  rw [List.foldl_append]
  rfl

/-- A second activate belongs to the request and the row of the latest first one of its bank. -/
def SecondActivatesOwned (spec : DramSpec) (trace : List IssuedCommand) : Prop :=
  History.Each (fun earlier issued => issued.command = .act2 →
    ∀ first, latestFirstActivate spec earlier (issued.decoded.flatBank spec) = some first →
      issued.requestId = first.requestId ∧ issued.decoded.row = first.decoded.row) trace

/-- The record of one channel of one stack, inside its geometry. -/
structure ChannelRecord (spec : DramSpec) (trace : List IssuedCommand) : Prop where
  inBounds : ∀ issued ∈ trace, issued.decoded.InBounds spec
  oneChannel : ∃ channel, ∀ issued ∈ trace, issued.decoded.channel = channel
  oneStack : ∃ stack, ∀ issued ∈ trace, issued.stackId = stack

end HbmSim
