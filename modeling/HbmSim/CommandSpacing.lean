/-
The distances and the sweeps of a whole run. The engine's marks follow the issued
commands, so every command that the choice lets through keeps its distance, by the
table of constraints, from every command before it.

A dual-bank refresh is let through only where the sweep of its rank has not been.
So the sweeps of a rank visit each pair of banks once, whatever the order the
refreshes come in and whoever asks for them.
-/

import HbmSim.Errands
import HbmSim.Lib.Rounds
import HbmSim.ValidatorAgrees

namespace HbmSim

variable {spec : DramSpec} {commands : List IssuedCommand} {issued : IssuedCommand}

/-! ### The table over a trace -/

def IssuedCommand.timed (issued : IssuedCommand) : TimedCommand where
  command := issued.command
  decoded := issued.decoded
  cycle := issued.cycle

/-- A command keeps its distance from one before it, constraint by constraint. -/
def KeepsDistance (spec : DramSpec) (earlier later : IssuedCommand) : Prop :=
  ∀ constraint ∈ spec.timingConstraints, constraint.window = 0 →
    earlier.command ∈ constraint.preceding → later.command ∈ constraint.following →
    Related spec constraint earlier.command later.command earlier.decoded later.decoded →
    earlier.cycle + constraint.latency.toNat * spec.tickMultiplier ≤ later.cycle

namespace TimingEngine

variable {engine : TimingEngine} {history : List TimedCommand} {decoded : DecodedAddress}
variable {command : Command} {clk : Nat}

theorem issueTiming_marks {request : Request} (same : engine.marks = (after spec history).marks) :
    (issueTiming spec request command clk engine).marks =
      (after spec (history ++ [⟨command, request.decoded, clk⟩])).marks := by
  unfold issueTiming after
  rw [List.foldl_append, List.foldl_cons, List.foldl_nil]
  rw [applyConstraints_marks ⟨command, request.decoded, clk⟩, scopeGates_marks, same]
  exact (applyConstraints_marks ⟨command, request.decoded, clk⟩ (after spec history)).symm

/-- A command that an engine with the marks of a history finds ready keeps its distance from every
command of the history. -/
theorem distance_of_marks {draft : DramSpec} (finalized : finalizeSpec draft = .ok spec)
    (same : engine.marks = (after spec history).marks) {issued : TimedCommand}
    (applied : issued ∈ history) (insideIssued : issued.decoded.InBounds spec)
    (inside : decoded.InBounds spec)
    (ready : engine.constraintReady spec decoded command clk = true)
    {constraint : TimingConstraint} (member : constraint ∈ spec.timingConstraints)
    (window : constraint.window = 0) (precedes : issued.command ∈ constraint.preceding)
    (follows : command ∈ constraint.following)
    (related : Related spec constraint issued.command command issued.decoded decoded) :
    issued.cycle + constraint.latency.toNat * spec.tickMultiplier ≤ clk := by
  have wellFormed := finalizeSpec_wellFormed finalized constraint member
  obtain ⟨other, stands, reaches⟩ :=
    (related_iff_reaches wellFormed insideIssued inside).mp related
  have due := ((constraintReady_iff engine).mp ready).2 constraint member (le_of_eq window) follows
    other stands
  rw [same, after_marks_le] at due
  rw [← ready_eq finalized]
  exact due issued applied constraint member ⟨le_of_eq window, precedes, rfl, follows, reaches⟩

end TimingEngine

namespace Controller

section Spacing

variable {β : Type} {c before after : Controller β} {request : Request} {candidate : Candidate}

/-- The marks are those of the issued commands, and these keep their distances. -/
structure TableTracked (spec : DramSpec) (commands : List IssuedCommand) (c : Controller β) :
    Prop where
  spec_eq : c.spec = spec
  marks : c.timingEngine.marks =
    (TimingEngine.after spec (commands.map IssuedCommand.timed)).marks
  spaced : (∀ issued ∈ commands, issued.decoded.InBounds spec) →
    commands.Pairwise (KeepsDistance spec)

theorem TableTracked.quiet (tracked : TableTracked spec commands before)
    (keeps : DeviceKept before after) : TableTracked spec commands after := by
  refine ⟨keeps.spec.trans tracked.spec_eq, ?_, tracked.spaced⟩
  rcases keeps.timingEngine with same | pruned
  · rw [same]
    exact tracked.marks
  · rw [pruned]
    exact tracked.marks

theorem TableTracked.issue {draft : DramSpec} (finalized : finalizeSpec draft = .ok spec)
    (tracked : TableTracked spec commands c) (issuable : Issuable c candidate request)
    {memPhy : MemPhy} {memoryImage : MemoryImage β} :
    TableTracked spec (commands ++ [c.issuedRecord request candidate])
      (c.issueEffects candidate request memPhy memoryImage) := by
  obtain ⟨spec_eq, marks, spaced⟩ := tracked
  subst spec_eq
  have timing := issuable.timing
  unfold timingOk at timing
  have ready := (Bool.and_eq_true_iff.mp (Bool.and_eq_true_iff.mp timing).1).2
  refine ⟨issueEffects_spec .., ?_, fun inside => ?_⟩
  · rw [issueEffects_timingEngine, List.map_append]
    exact TimingEngine.issueTiming_marks marks
  · obtain ⟨insideBefore, insideNew⟩ := List.forall_mem_append.mp inside
    rw [List.forall_mem_singleton] at insideNew
    refine List.pairwise_append.mpr
      ⟨spaced insideBefore, List.pairwise_singleton _ _, fun earlier applied later is => ?_⟩
    rw [List.mem_singleton.mp is]
    intro constraint member window precedes follows related
    exact TimingEngine.distance_of_marks finalized marks
      (List.mem_map_of_mem (f := IssuedCommand.timed) applied) (insideBefore earlier applied)
      insideNew ready member window precedes follows related

/-- In every run of a device whose table was finalized, every two issued commands keep the distance
of every constraint that relates them: bank by bank, group by group, and between siblings. -/
theorem commands_spaced [MemoryBackend β] {draft : DramSpec}
    (finalized : finalizeSpec draft = .ok spec) {options : ControllerOptions}
    {image : MemoryImage β} {start final : Controller β} {ops : List ControllerOp}
    {events : List ControllerEvent} (created : create spec options image = .ok start)
    (returns : start.run ops = .ok (events, final)) :
    (commandsOf events).Pairwise (KeepsDistance spec) := by
  have kept : Kept (fun _ _ => True) (fun _ _ => True)
      fun events (c : Controller β) => TableTracked spec (commandsOf events) c :=
    kept_of_commands (fun _ _ _ tracked keeps => tracked.quiet keeps)
      fun _ _ _ _ _ _ _ _ tracked _ _ _ issuable _ => tracked.issue finalized issuable
  have begins : TableTracked spec (commandsOf []) start := by
    refine ⟨(create_created created).spec_eq, ?_, fun _ => List.Pairwise.nil⟩
    rw [(create_created created).timingEngine_eq]
    rfl
  have tracked := kept.run begins
    (runMeets_of_forall (fun _ _ => trivial) (fun _ _ => trivial) start ops) returns
  refine tracked.spaced fun issued member => ?_
  obtain ⟨errand, inside, same, -⟩ := (run_sentInside created returns).issued issued member
  exact same ▸ inside

theorem commands_spaced_readThenPreab : ∃ start events final,
    create finalTwoBanks {} (imageOf finalTwoBanks) = .ok start ∧
      start.run (readThenPreab 50) = .ok (events, final) ∧
      (commandsOf events).map (fun issued => (issued.cycle, issued.command)) =
        [(1, .act), (21, .rd), (51, .preab)] ∧
      (commandsOf events).Pairwise (KeepsDistance finalTwoBanks) := by
  obtain ⟨start, events, final, created, returns, checks⟩ :=
    freshRun_of_passes finalTwoBanks {} (readThenPreab 50)
      (fun result => (commandsOf result.1).map (fun issued => (issued.cycle, issued.command)) =
        [(1, .act), (21, .rd), (51, .preab)]) (by decide +kernel)
  exact ⟨start, events, final, created, returns, of_decide_eq_true checks,
    commands_spaced (show finalizeSpec twoBanks = .ok finalTwoBanks from rfl) created returns⟩

end Spacing

end Controller

/-! ### The sweeps of the dual-bank refresh -/

/-- The pairs of banks of a rank that a sweep has to visit. -/
def bankPairs (spec : DramSpec) : Nat := spec.org.bankGroups / 2 * spec.org.banksPerGroup

/-- What a command is for the sweeps of the rank of an address: a refresh of all banks and the end
of a self refresh begin the sweeps anew. -/
def sweepStep (spec : DramSpec) (place : DecodedAddress) (pairs : List Nat)
    (issued : IssuedCommand) : List Nat :=
  match issued.command with
  | .refdb => if bucketOf .rank issued.decoded = bucketOf .rank place then
      pairs ++ [TimingEngine.refdbPair spec issued.decoded] else pairs
  | .refab => if bucketOf .rank issued.decoded = bucketOf .rank place then [] else pairs
  | .srefex => if issued.decoded.channel = place.channel then [] else pairs
  | _ => pairs

/-- The pairs of a rank that dual-bank refreshes have visited since the sweeps began. -/
def pairsVisited (spec : DramSpec) (place : DecodedAddress) (commands : List IssuedCommand) :
    List Nat :=
  commands.foldl (sweepStep spec place) []

variable {place : DecodedAddress}

theorem pairsVisited_concat : pairsVisited spec place (commands ++ [issued]) =
    sweepStep spec place (pairsVisited spec place commands) issued := by
  unfold pairsVisited
  rw [List.foldl_append, List.foldl_cons, List.foldl_nil]

theorem refdbPair_lt (inside : place.InBounds spec) (even : spec.org.bankGroups % 2 = 0) :
    TimingEngine.refdbPair spec place < bankPairs spec := by
  have groups := inside.bankGroup
  exact place_lt inside.bank (by omega)

theorem mem_pairsVisited (even : spec.org.bankGroups % 2 = 0)
    (inside : ∀ issued ∈ commands, issued.decoded.InBounds spec) :
    ∀ pair ∈ pairsVisited spec place commands, pair < bankPairs spec := by
  induction commands using List.reverseRecOn with
  | nil => exact fun _ member => absurd member List.not_mem_nil
  | append_singleton commands issued inductionHypothesis =>
    obtain ⟨insideBefore, insideNew⟩ := List.forall_mem_append.mp inside
    rw [List.forall_mem_singleton] at insideNew
    have before := inductionHypothesis insideBefore
    have nothing : ∀ pair ∈ ([] : List Nat), pair < bankPairs spec :=
      fun _ member => absurd member List.not_mem_nil
    rw [pairsVisited_concat]
    unfold sweepStep
    split
    · split
      · rw [List.forall_mem_append, List.forall_mem_singleton]
        exact ⟨before, refdbPair_lt insideNew even⟩
      · exact before
    · split
      · exact nothing
      · exact before
    · split
      · exact nothing
      · exact before
    · exact before

/-- The engine's sweep of a rank is at the open round of the visits. -/
structure SweepTracked (spec : DramSpec) (pairs : List Nat) (sweep : RefdbState) : Prop where
  bankCount : sweep.bankCount = pairs.length % bankPairs spec
  visited : ∀ pair, sweep.visitedPairs pair = true ↔
    pair ∈ Rounds.openRound (bankPairs spec) pairs

theorem SweepTracked.fresh {sweep : RefdbState} (bankCount : sweep.bankCount = 0)
    (unvisited : sweep.visitedPairs = fun _ => false) : SweepTracked spec [] sweep := by
  refine ⟨by rw [bankCount, List.length_nil, Nat.zero_mod], fun pair => ?_⟩
  rw [unvisited, Rounds.openRound_nil]
  exact iff_of_false Bool.false_ne_true List.not_mem_nil

/-- The ranks of a channel are those whose sweeps the end of a self refresh clears. -/
theorem srefexRanks_place (inside : issued.decoded.InBounds spec) (within : place.InBounds spec) :
    ((siblingRange spec .pseudoChannel issued.decoded).1 * (spec.org.sids * spec.org.ranks) ≤
        scopeIndex spec .rank place ∧
      scopeIndex spec .rank place < (siblingRange spec .pseudoChannel issued.decoded).2 *
        (spec.org.sids * spec.org.ranks)) ↔ issued.decoded.channel = place.channel := by
  obtain ⟨channel, pseudoChannel, sid, rank, -, -, -, -⟩ := within
  have radix : ∀ {value count : Nat}, value < count → max 1 count = count := by omega
  have small := place_lt rank (place_lt sid pseudoChannel)
  have split : scopeIndex spec .rank place =
      place.channel * (spec.org.pseudoChannels * spec.org.sids * spec.org.ranks) +
        ((place.pseudoChannel * spec.org.sids + place.sid) * spec.org.ranks + place.rank) := by
    unfold scopeIndex
    simp only [clampCoordinate_of_lt, radix pseudoChannel, radix sid, radix rank, *]
    ring
  rw [srefexRanks_iff inside, split]
  exact place_range small

/-- A command takes the engine's sweep of a rank where it takes the visits. -/
theorem SweepTracked.step {engine : TimingEngine} {pairs : List Nat}
    (positive : 0 < bankPairs spec) (inside : issued.decoded.InBounds spec)
    (within : place.InBounds spec)
    (tracked : SweepTracked spec pairs (engine.refdbStates (scopeIndex spec .rank place))) :
    SweepTracked spec (sweepStep spec place pairs issued)
      (engine.sweepAfter spec issued.decoded issued.command issued.cycle
        (scopeIndex spec .rank place)) := by
  have same : scopeIndex spec .rank place = scopeIndex spec .rank issued.decoded ↔
      bucketOf .rank issued.decoded = bucketOf .rank place := by
    rw [eq_comm, scopeIndex_eq_iff inside within]
  unfold sweepStep TimingEngine.sweepAfter TimingEngine.sweepBy
  cases issued.command with
  | refdb =>
    dsimp only
    rw [Function.update_apply]
    by_cases here : scopeIndex spec .rank place = scopeIndex spec .rank issued.decoded
    · rw [if_pos here, if_pos (same.mp here), ← here]
      have next : ((engine.refdbStates (scopeIndex spec .rank place)).bankCount + 1) %
          (spec.org.bankGroups / 2 * spec.org.banksPerGroup) =
            (pairs.length + 1) % bankPairs spec := by
        rw [tracked.bankCount]
        exact Nat.mod_add_mod _ _ _
      refine ⟨?_, fun pair => ?_⟩
      · dsimp only
        rw [List.length_append, List.length_singleton]
        exact next
      · dsimp only
        rw [next]
        by_cases full : (pairs.length + 1) % bankPairs spec = 0
        · rw [if_pos full, Rounds.openRound_concat positive, if_pos full]
          exact iff_of_false Bool.false_ne_true List.not_mem_nil
        · rw [if_neg full, Rounds.mem_openRound_concat positive full, ← tracked.visited,
            Function.update_apply]
          split
          next new => exact iff_of_true rfl (Or.inr new)
          next other => exact (or_iff_left other).symm
    · rw [if_neg here, if_neg fun bucket => here (same.mpr bucket)]
      exact tracked
  | refab =>
    dsimp only
    rw [Function.update_apply]
    by_cases here : scopeIndex spec .rank place = scopeIndex spec .rank issued.decoded
    · rw [if_pos here, if_pos (same.mp here)]
      exact .fresh rfl rfl
    · rw [if_neg here, if_neg fun bucket => here (same.mpr bucket)]
      exact tracked
  | srefex =>
    dsimp only
    by_cases here : issued.decoded.channel = place.channel
    · rw [if_pos here, if_pos ((srefexRanks_place inside within).mpr here)]
      exact .fresh rfl rfl
    · rw [if_neg here, if_neg fun ranks => here ((srefexRanks_place inside within).mp ranks)]
      exact tracked
  | _ => exact tracked

/-- A refresh of a pair that the engine finds unvisited is new in its round. -/
theorem SweepTracked.once {pairs : List Nat} {engine : TimingEngine}
    (dual : spec.lpddrDualBankRefresh = true)
    (tracked : SweepTracked spec pairs (engine.refdbStates (scopeIndex spec .rank place)))
    (inside : issued.decoded.InBounds spec) (within : place.InBounds spec)
    (ready : engine.SweepReady spec issued.decoded issued.command issued.cycle)
    (once : Rounds.OncePerRound (bankPairs spec) pairs) :
    Rounds.OncePerRound (bankPairs spec) (sweepStep spec place pairs issued) := by
  unfold sweepStep
  split
  next isRefdb =>
    split
    next here =>
      obtain ⟨-, unvisited⟩ := ready ⟨dual, isRefdb⟩
      rw [(scopeIndex_eq_iff inside within .rank).mpr here] at unvisited
      refine once.concat fun listed => ?_
      exact Bool.false_ne_true (unvisited.symm.trans ((tracked.visited _).mpr listed))
    next => exact once
  · split
    · exact Rounds.oncePerRound_nil
    · exact once
  · split
    · exact Rounds.oncePerRound_nil
    · exact once
  · exact once

namespace Controller

section Sweeps

variable {β : Type} {c before after : Controller β} {request : Request} {candidate : Candidate}

/-- While the trace stays in the device, the sweeps of a rank follow it, and no prefix of it has
visited a pair twice in a round. -/
structure SweepsTracked (spec : DramSpec) (place : DecodedAddress) (commands : List IssuedCommand)
    (c : Controller β) : Prop where
  spec_eq : c.spec = spec
  sweep : (∀ issued ∈ commands, issued.decoded.InBounds spec) →
    SweepTracked spec (pairsVisited spec place commands)
      (c.timingEngine.refdbStates (scopeIndex spec .rank place))
  once : (∀ issued ∈ commands, issued.decoded.InBounds spec) → ∀ earlier, earlier <+: commands →
    Rounds.OncePerRound (bankPairs spec) (pairsVisited spec place earlier)

theorem SweepsTracked.quiet (tracked : SweepsTracked spec place commands before)
    (keeps : DeviceKept before after) : SweepsTracked spec place commands after := by
  refine ⟨keeps.spec.trans tracked.spec_eq, ?_, tracked.once⟩
  rcases keeps.timingEngine with same | pruned
  · rw [same]
    exact tracked.sweep
  · rw [pruned]
    exact tracked.sweep

theorem SweepsTracked.issue (dual : spec.lpddrDualBankRefresh = true)
    (positive : 0 < bankPairs spec) (within : place.InBounds spec)
    (tracked : SweepsTracked spec place commands c) (issuable : Issuable c candidate request)
    {memPhy : MemPhy} {memoryImage : MemoryImage β} :
    SweepsTracked spec place (commands ++ [c.issuedRecord request candidate])
      (c.issueEffects candidate request memPhy memoryImage) := by
  obtain ⟨spec_eq, sweep, once⟩ := tracked
  subst spec_eq
  have timing := issuable.timing
  unfold timingOk at timing
  have ready := (Bool.and_eq_true_iff.mp (Bool.and_eq_true_iff.mp timing).1).2
  have swept := ((TimingEngine.constraintReady_iff c.timingEngine).mp ready).1
  refine ⟨issueEffects_spec .., fun inside => ?_, fun inside earlier prefixes => ?_⟩
  · obtain ⟨insideBefore, insideNew⟩ := List.forall_mem_append.mp inside
    rw [List.forall_mem_singleton] at insideNew
    rw [issueEffects_timingEngine, issueTiming_refdbStates _ _ dual, pairsVisited_concat]
    exact (sweep insideBefore).step positive insideNew within
  · obtain ⟨insideBefore, insideNew⟩ := List.forall_mem_append.mp inside
    rw [List.forall_mem_singleton] at insideNew
    rcases List.prefix_concat_iff.mp prefixes with rfl | old
    · rw [pairsVisited_concat]
      exact (sweep insideBefore).once dual insideNew within swept
        (once insideBefore commands (List.prefix_refl _))
    · exact once insideBefore earlier old

/-- In every run of a device with dual-bank refresh, whoever asks for the refreshes and in whatever
order: at every moment every full sweep of a rank, counted from where the sweeps last began, has
visited each pair of its banks exactly once. -/
theorem sweeps_visit_once [MemoryBackend β] (dual : spec.lpddrDualBankRefresh = true)
    (within : place.InBounds spec) {options : ControllerOptions} {image : MemoryImage β}
    {start final : Controller β} {ops : List ControllerOp} {events : List ControllerEvent}
    (created : create spec options image = .ok start)
    (returns : start.run ops = .ok (events, final)) {earlier : List IssuedCommand}
    (moment : earlier <+: commandsOf events) {round : Nat}
    (full : (round + 1) * bankPairs spec ≤ (pairsVisited spec place earlier).length) :
    (((pairsVisited spec place earlier).drop (round * bankPairs spec)).take (bankPairs spec)).Perm
      (List.range (bankPairs spec)) := by
  obtain ⟨checked, accepted⟩ := (create_created created).accepted
  obtain ⟨two, even⟩ := validateSpec_bankGroups accepted dual
  have positive : 0 < bankPairs spec :=
    Nat.mul_pos (by omega) (validateSpec_positive accepted).banksPerGroup
  have kept : Kept (fun _ _ => True) (fun _ _ => True)
      fun events (c : Controller β) => SweepsTracked spec place (commandsOf events) c :=
    kept_of_commands (fun _ _ _ tracked keeps => tracked.quiet keeps)
      fun _ _ _ _ _ _ _ _ tracked _ _ _ issuable _ => tracked.issue dual positive within issuable
  have begins : SweepsTracked spec place (commandsOf []) start := by
    refine ⟨(create_created created).spec_eq, fun _ => ?_, fun _ earlier prefixes => ?_⟩
    · rw [(create_created created).timingEngine_eq]
      exact .fresh rfl rfl
    · rw [List.prefix_nil.mp prefixes]
      exact Rounds.oncePerRound_nil
  have tracked := kept.run begins
    (runMeets_of_forall (fun _ _ => trivial) (fun _ _ => trivial) start ops) returns
  have inside : ∀ issued ∈ commandsOf events, issued.decoded.InBounds spec := by
    intro issued member
    obtain ⟨errand, inside, same, -⟩ := (run_sentInside created returns).issued issued member
    exact same ▸ inside
  exact (tracked.once inside earlier moment).perm_range
    (mem_pairsVisited even fun issued member => inside issued (moment.subset member)) full

/-- Two pairs of banks in a rank. -/
def fourGroups : DramSpec :=
  { twoBanks with
    org := { twoBanks.org with bankGroups := 4, banksPerGroup := 1 }
    lpddrFamily := true
    lpddrDualBankRefresh := true }

def refreshPair (id bankGroup : Nat) : ControllerOp :=
  .enqueue { id, type := .maintenance, next := .refdb, decoded := { bankGroup } }

/-- Two sweeps, the second one the other way round. -/
def twoSweeps : List ControllerOp :=
  [refreshPair 1 0, refreshPair 2 3, refreshPair 3 2, refreshPair 4 1] ++ List.replicate 20 .tick

theorem sweeps_visit_once_twoSweeps : ∃ start events final,
    create fourGroups {} (imageOf fourGroups) = .ok start ∧
      start.run twoSweeps = .ok (events, final) ∧
      pairsVisited fourGroups {} (commandsOf events) = [0, 1, 1, 0] ∧
      (((pairsVisited fourGroups {} (commandsOf events)).drop 2).take 2).Perm
        (List.range 2) := by
  obtain ⟨start, events, final, created, returns, checks⟩ :=
    freshRun_of_passes fourGroups {} twoSweeps
      (fun result => decide (pairsVisited fourGroups {} (commandsOf result.1) = [0, 1, 1, 0]))
      (by decide +kernel)
  rw [decide_eq_true_eq] at checks
  have within : ({} : DecodedAddress).InBounds fourGroups := by constructor <;> decide
  have full : (1 + 1) * bankPairs fourGroups ≤
      (pairsVisited fourGroups {} (commandsOf events)).length := by
    rw [checks]
    decide
  exact ⟨start, events, final, created, returns, checks,
    sweeps_visit_once rfl within created returns (List.prefix_refl _) full⟩

end Sweeps

end Controller

end HbmSim
