/-
The four-activate window: in every activation scope, five successive activates
span the window. Refreshes of a bank count as activates.

The engine keeps the recent activates of each scope. What it has dropped has
left the window, so a new activate that finds fewer than four recent ones comes
a whole window after the fourth one before it.
-/

import HbmSim.CommandHistory
import HbmSim.Lib.Window

namespace HbmSim

/-- The commands that count as activates. -/
def countsAsActivate (command : Command) : Bool :=
  decide (command = .act ∨ command = .act1 ∨ command = .refpb ∨ command = .refdb)

/-- The cycles of the activates of a scope, in order. -/
def activatesIn (spec : DramSpec) (scope : Nat) (commands : List IssuedCommand) : List Nat :=
  (commands.filter fun issued => countsAsActivate issued.command &&
    decide (scopeIndex spec spec.activationScope issued.decoded = scope)).map (·.cycle)

def activateWindow (spec : DramSpec) : Nat := timingDelay spec (max 1 spec.timing.nFAW)

variable {spec : DramSpec} {scope : Nat}

theorem activatesIn_concat (commands : List IssuedCommand) (issued : IssuedCommand) :
    activatesIn spec scope (commands ++ [issued]) =
      if countsAsActivate issued.command = true ∧
          scopeIndex spec spec.activationScope issued.decoded = scope then
        activatesIn spec scope commands ++ [issued.cycle]
      else activatesIn spec scope commands := by
  unfold activatesIn
  rw [List.filter_append, List.map_append]
  split
  next counts =>
    rw [List.filter_cons_of_pos (by rw [counts.1, decide_eq_true counts.2]; rfl)]
    rfl
  next other =>
    rw [List.filter_cons_of_neg (by rwa [Bool.and_eq_true, decide_eq_true_eq])]
    exact List.append_nil _

/-! ### What a command does to the recent activates -/

theorem imposeConstraint_eq (decoded : DecodedAddress) (issued : Command) (later : Nat → Nat)
    (engine : TimingEngine) (constraint : TimingConstraint) :
    TimingEngine.imposeConstraint spec decoded issued later engine constraint = { engine with
      scopes :=
        (TimingEngine.imposeConstraint spec decoded issued later engine constraint).scopes } := by
  unfold TimingEngine.imposeConstraint
  dsimp only
  split
  · rfl
  split
  · split <;> rfl
  · rfl

/-- The constraint table writes the buckets it addresses, and the sweeps. -/
theorem applyConstraints_eq (decoded : DecodedAddress) (issued : Command) (clk : Nat)
    (engine : TimingEngine) :
    engine.applyConstraints spec decoded issued clk = { engine with
      scopes := (engine.applyConstraints spec decoded issued clk).scopes
      refdbStates :=
        if spec.lpddrDualBankRefresh then engine.sweepAfter spec decoded issued clk
        else engine.refdbStates } := by
  have folds : ∀ (constraints : List TimingConstraint) (engine : TimingEngine),
      constraints.foldl (TimingEngine.imposeConstraint spec decoded issued (clk + ·)) engine =
        { engine with scopes := (constraints.foldl
            (TimingEngine.imposeConstraint spec decoded issued (clk + ·)) engine).scopes } := by
    intro constraints
    induction constraints with
    | nil => exact fun _ => rfl
    | cons constraint rest inductionHypothesis =>
      intro engine
      rw [List.foldl_cons, inductionHypothesis, imposeConstraint_eq]
  unfold TimingEngine.applyConstraints TimingEngine.imposeConstraints
  dsimp only
  rw [folds]
  split <;> rfl

theorem columnGates_activationScopes (request : Request) (clk : Nat) (latency : Int)
    (engine : TimingEngine) :
    (columnGates spec request clk latency engine).activationScopes = engine.activationScopes := by
  unfold columnGates
  dsimp only
  split <;> rfl

/-- A command that counts as an activate is recorded in its scope; no other is. -/
theorem issueTiming_recentActs (request : Request) (issued : Command) (clk : Nat)
    (engine : TimingEngine) (scope : Nat) :
    ((issueTiming spec request issued clk engine).activationScopes scope).recentActs =
      if countsAsActivate issued = true ∧
          scopeIndex spec spec.activationScope request.decoded = scope then
        (engine.activationScopes scope).recentActs ++ [clk]
      else (engine.activationScopes scope).recentActs := by
  have recorded : ∀ gated : TimingEngine, gated.activationScopes = engine.activationScopes →
      ((gated.recordActivate spec request.decoded clk).activationScopes scope).recentActs =
        if scopeIndex spec spec.activationScope request.decoded = scope then
          (engine.activationScopes scope).recentActs ++ [clk]
        else (engine.activationScopes scope).recentActs := by
    intro gated same
    unfold TimingEngine.recordActivate TimingEngine.modifyAt
    dsimp only
    rw [same, Function.update_apply]
    split
    next here =>
      rw [if_pos here.symm, here]
    next elsewhere => rw [if_neg (Ne.symm elsewhere)]
  unfold issueTiming
  rw [applyConstraints_eq]
  unfold scopeGates
  dsimp only
  cases issued with
  | act | act1 =>
    simp only [countsAsActivate, activateGates, true_or, or_true, decide_true, true_and]
    exact recorded _ rfl
  | refpb | refdb =>
    simp only [countsAsActivate, true_or, or_true, decide_true, true_and]
    exact recorded _ rfl
  | rd | rda | wr | wra =>
    rw [columnGates_activationScopes]
    rfl
  | _ => rfl

/-! ### The invariant -/

namespace Controller

variable {β : Type} {c before after : Controller β} {commands : List IssuedCommand}
variable {request : Request} {candidate : Candidate}

/-- In every scope the engine's recent activates follow the issued ones. -/
def WindowsTracked (commands : List IssuedCommand) (c : Controller β) : Prop :=
  ∀ scope, Window.Tracks 4 (activateWindow c.spec) c.clk (activatesIn c.spec scope commands)
    (c.timingEngine.activationScopes scope).recentActs

theorem WindowsTracked.quiet (tracked : WindowsTracked commands before)
    (keeps : DeviceKept before after) : WindowsTracked commands after := by
  intro scope
  have later := (tracked scope).later keeps.clk
  rw [keeps.spec]
  rcases keeps.timingEngine with same | pruned
  · rw [same]
    exact later
  · rw [pruned]
    refine later.prune fun time expired => ?_
    rw [decide_eq_true_eq] at expired
    unfold activateWindow
    omega

/-- A command that counts as an activate has found fewer than four recent ones. -/
theorem gatesOpen_fawReady {command : Command} (opens : c.gatesOpen request command = true)
    (counts : countsAsActivate command = true) :
    (c.timingEngine.activationScopes
      (scopeIndex c.spec c.spec.activationScope request.decoded)).recentActs.length < 4 := by
  have few : c.timingEngine.fawReady c.spec request.decoded = true := by
    unfold countsAsActivate at counts
    rw [decide_eq_true_eq] at counts
    unfold gatesOpen at opens
    rcases counts with rfl | rfl | rfl | rfl <;>
      simp only [Bool.and_eq_true] at opens <;> tauto
  exact of_decide_eq_true few

theorem WindowsTracked.record (tracked : WindowsTracked commands c)
    (opens : c.gatesOpen request candidate.command = true) {memPhy : MemPhy}
    {memoryImage : MemoryImage β} :
    WindowsTracked (commands ++ [c.issuedRecord request candidate])
      (c.issueEffects candidate request memPhy memoryImage) := by
  intro scope
  rw [issueEffects_spec, issueEffects_clk, issueEffects_timingEngine, issueTiming_recentActs,
    activatesIn_concat]
  unfold issuedRecord
  dsimp only
  split
  next counts =>
    refine (tracked scope).record ?_
    rw [← counts.2]
    exact gatesOpen_fawReady opens counts.1
  next => exact tracked scope

theorem WindowsTracked.issue (tracked : WindowsTracked commands c)
    (issuable : Issuable c candidate request) {memPhy : MemPhy} {memoryImage : MemoryImage β} :
    WindowsTracked (commands ++ [c.issuedRecord request candidate])
      (c.issueEffects candidate request memPhy memoryImage) := by
  have timing := issuable.timing
  unfold timingOk at timing
  exact tracked.record (Bool.and_eq_true_iff.mp timing).2

/-- In every run, five successive activates of one scope span the four-activate window. -/
theorem activates_spaced [MemoryBackend β] {spec : DramSpec} {options : ControllerOptions}
    {image : MemoryImage β} {start final : Controller β} {ops : List ControllerOp}
    {events : List ControllerEvent} (created : create spec options image = .ok start)
    (returns : start.run ops = .ok (events, final)) (scope : Nat) {position first fifth : Nat}
    (opens : (activatesIn spec scope (commandsOf events))[position]? = some first)
    (closes : (activatesIn spec scope (commandsOf events))[position + 4]? = some fifth) :
    first + timingDelay spec (max 1 spec.timing.nFAW) ≤ fifth := by
  have kept : Kept (fun _ _ => True) (fun _ _ => True)
      fun events (c : Controller β) => WindowsTracked (commandsOf events) c :=
    kept_of_commands (fun _ _ _ tracked keeps => tracked.quiet keeps)
      fun _ _ _ _ _ _ _ _ tracked _ _ _ issuable _ => tracked.issue issuable
  have begins : WindowsTracked (commandsOf []) start := by
    intro scope
    rw [(create_created created).timingEngine_eq]
    exact Window.Tracks.start
  have tracked := kept.run begins
    (runMeets_of_forall (fun _ _ => trivial) (fun _ _ => trivial) start ops) returns scope
  rw [(run_configuration (create_created created) returns).1] at tracked
  exact tracked.spaced position first fifth opens closes

/-- Five reads of five banks. -/
def fiveBanks : DramSpec :=
  { smallSpec with org := { smallSpec.org with banksPerGroup := 5 } }

def fiveReads : List ControllerOp :=
  (List.range 5).map (fun id => .enqueue { id := id, decoded := { bank := id } }) ++
    List.replicate 40 .tick

theorem activates_spaced_fiveReads : ∃ start events final first fifth,
    create fiveBanks {} (imageOf fiveBanks) = .ok start ∧
      start.run fiveReads = .ok (events, final) ∧
      activatesIn fiveBanks 0 (commandsOf events) ≠ [] ∧
      (activatesIn fiveBanks 0 (commandsOf events))[0]? = some first ∧
      (activatesIn fiveBanks 0 (commandsOf events))[4]? = some fifth ∧ first + 16 ≤ fifth := by
  obtain ⟨start, events, final, created, returns, checks⟩ :=
    freshRun_of_passes fiveBanks {} fiveReads
      (fun result => decide (activatesIn fiveBanks 0 (commandsOf result.1) = [1, 7, 13, 19, 25]))
      (by decide +kernel)
  rw [decide_eq_true_eq] at checks
  have opens : (activatesIn fiveBanks 0 (commandsOf events))[0]? = some 1 := by rw [checks]; rfl
  have closes : (activatesIn fiveBanks 0 (commandsOf events))[0 + 4]? = some 25 := by
    rw [checks]
    rfl
  exact ⟨start, events, final, 1, 25, created, returns, by rw [checks]; nofun, opens, closes,
    activates_spaced created returns 0 opens closes⟩

end Controller

end HbmSim
