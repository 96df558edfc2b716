/-
The books of the refresh manager. Each deadline that passes outside self refresh
puts one obligation on its rank, each batch takes one off, and a batch paid in
advance is owed by a later deadline: what passed is what was started plus what is
still owed.

The deadlines are counted from the cycles of the ticks, so none of them is left
out. The caller chooses these cycles, and they are words: near the last one a
deadline wraps around, and the loop over them need not end. Up to there a tick on
words is the tick with numbers.
-/

import HbmSim.Maintenance
import HbmSim.Lib.Transition

namespace HbmSim

/-! ### The deadlines of one rank -/

namespace RefreshManager

/-- Some deadlines have passed: each moves the next one on, and is owed unless the rank is in
self refresh. -/
structure Accrued (selfRefresh : Bool) (clk intervalTicks : Nat) (state : RankRefreshState)
    (passed : Nat) (after : RankRefreshState × Bool) : Prop where
  next : after.1.nextRefreshCycle = state.nextRefreshCycle + passed * intervalTicks
  credit : after.1.credit = state.credit + if selfRefresh then 0 else (passed : Int)
  newlyDue : after.2 = decide (0 < passed)
  last : 0 < passed → state.nextRefreshCycle + (passed - 1) * intervalTicks ≤ clk
  sidCursor : after.1.sidCursor = state.sidCursor
  flatBankCursor : after.1.flatBankCursor = state.flatBankCursor
  postponeCount : after.1.postponeCount = state.postponeCount

theorem Accrued.none (selfRefresh : Bool) (clk intervalTicks : Nat) (state : RankRefreshState) :
    Accrued selfRefresh clk intervalTicks state 0 (state, false) := by
  refine ⟨by rw [Nat.zero_mul]; rfl, ?_, rfl, nofun, rfl, rfl, rfl⟩
  cases selfRefresh <;> exact (Int.add_zero _).symm

/-- With the deadline not behind the clock, at most one passes. -/
theorem Accrued.passes_once {selfRefresh : Bool} {clk intervalTicks passed : Nat}
    {state : RankRefreshState} {after : RankRefreshState × Bool}
    (accrued : Accrued selfRefresh clk intervalTicks state passed after)
    (ahead : clk ≤ state.nextRefreshCycle) (positive : 0 < intervalTicks) : passed ≤ 1 := by
  by_contra many
  have last := accrued.last (by omega)
  have more : 1 * intervalTicks ≤ (passed - 1) * intervalTicks :=
    Nat.mul_le_mul_right _ (by omega)
  omega

theorem accrue_accrued (selfRefresh : Bool) (clk intervalTicks fuel : Nat)
    (state : RankRefreshState) :
    ∃ passed, Accrued selfRefresh clk intervalTicks state passed
      (accrue selfRefresh clk intervalTicks fuel state) := by
  induction fuel generalizing state with
  | zero => exact ⟨0, Accrued.none ..⟩
  | succ fuel inductionHypothesis =>
    unfold accrue
    split
    next due =>
      obtain ⟨passed, rest⟩ := inductionHypothesis { state with
        credit := if selfRefresh then state.credit else state.credit + 1
        nextRefreshCycle := state.nextRefreshCycle + intervalTicks }
      refine ⟨passed + 1, ?_, ?_, ?_, fun _ => ?_, rest.sidCursor, rest.flatBankCursor,
        rest.postponeCount⟩
      · refine rest.next.trans ?_
        dsimp only
        rw [Nat.succ_mul]
        omega
      · refine rest.credit.trans ?_
        cases selfRefresh
        · dsimp only
          rw [if_neg nofun, if_neg nofun, if_neg nofun]
          omega
        · rfl
      · exact (decide_eq_true (Nat.succ_pos passed)).symm
      · rw [Nat.add_sub_cancel]
        rcases Nat.eq_zero_or_pos passed with zero | positive
        · rwa [zero, Nat.zero_mul]
        · have earlier := rest.last positive
          obtain ⟨before, rfl⟩ := Nat.exists_eq_succ_of_ne_zero positive.ne'
          rw [Nat.succ_sub_one] at earlier
          rw [Nat.succ_mul]
          dsimp only at earlier
          omega
    next => exact ⟨0, Accrued.none ..⟩

/-- With a round for every cycle up to the clock, no passed deadline is left. -/
theorem accrue_late {selfRefresh : Bool} {clk intervalTicks fuel : Nat}
    {state : RankRefreshState} (positive : 0 < intervalTicks)
    (enough : clk < state.nextRefreshCycle + fuel) :
    clk < (accrue selfRefresh clk intervalTicks fuel state).1.nextRefreshCycle := by
  induction fuel generalizing state with
  | zero => exact enough
  | succ fuel inductionHypothesis =>
    unfold accrue
    split
    next => exact inductionHypothesis (by dsimp only; omega)
    next late => exact Nat.lt_of_not_le late

theorem accrueRank_eq (selfRefresh : Bool) (clk intervalTicks : Nat) (state : RankRefreshState) :
    ∃ pullinCount, accrueRank selfRefresh clk intervalTicks state =
      ({ (accrue selfRefresh clk intervalTicks (clk + 1 - state.nextRefreshCycle) state).1 with
          pullinCount := pullinCount },
        (accrue selfRefresh clk intervalTicks (clk + 1 - state.nextRefreshCycle) state).2) := by
  unfold accrueRank
  dsimp only
  split
  · exact ⟨0, rfl⟩
  · exact ⟨_, rfl⟩

theorem accrueRank_accrued (selfRefresh : Bool) (clk intervalTicks : Nat)
    (state : RankRefreshState) :
    ∃ passed, Accrued selfRefresh clk intervalTicks state passed
      (accrueRank selfRefresh clk intervalTicks state) := by
  obtain ⟨passed, accrued⟩ := accrue_accrued selfRefresh clk intervalTicks
    (clk + 1 - state.nextRefreshCycle) state
  obtain ⟨pullinCount, same⟩ := accrueRank_eq selfRefresh clk intervalTicks state
  rw [same]
  exact ⟨passed, accrued.next, accrued.credit, accrued.newlyDue, accrued.last, accrued.sidCursor,
    accrued.flatBankCursor, accrued.postponeCount⟩

theorem accrueRank_late {selfRefresh : Bool} {clk intervalTicks : Nat} (state : RankRefreshState)
    (positive : 0 < intervalTicks) :
    clk < (accrueRank selfRefresh clk intervalTicks state).1.nextRefreshCycle := by
  obtain ⟨pullinCount, same⟩ := accrueRank_eq selfRefresh clk intervalTicks state
  rw [same]
  exact accrue_late positive (by omega)

/-! ### One batch -/

/-- A list with a command for every pair below two positive bounds. -/
theorem batch_commands {outer inner rank : Nat} {command : Nat → Nat → MaintenanceCommand}
    (named : ∀ first second, (command first second).decoded.rank = rank) :
    ((List.range (max 1 outer)).flatMap fun first =>
        (List.range (max 1 inner)).map (command first)) ≠ [] ∧
      ∀ found ∈ (List.range (max 1 outer)).flatMap fun first =>
        (List.range (max 1 inner)).map (command first), found.decoded.rank = rank := by
  constructor
  · refine List.ne_nil_of_mem (List.mem_flatMap.mpr ⟨0, List.mem_range.mpr (by omega),
      List.mem_map.mpr ⟨0, List.mem_range.mpr (by omega), rfl⟩⟩)
  · intro found member
    obtain ⟨first, -, inside⟩ := List.mem_flatMap.mp member
    obtain ⟨second, -, rfl⟩ := List.mem_map.mp inside
    exact named first second

/-- A batch is not empty, and all its commands are for its rank. -/
theorem seedRefreshBatch_commands (spec : DramSpec) (rank : Nat) (state : RankRefreshState) :
    (seedRefreshBatch spec rank state).1 ≠ [] ∧
      ∀ command ∈ (seedRefreshBatch spec rank state).1, command.decoded.rank = rank := by
  unfold seedRefreshBatch
  split
  · exact batch_commands fun _ _ => rfl
  · dsimp only
    split <;> split <;> exact batch_commands fun _ _ => rfl

/-- A batch is started for its rank and no other. -/
theorem seedRefreshBatch_starts (spec : DramSpec) (rank : Nat) (state : RankRefreshState)
    (other : Nat) :
    ((seedRefreshBatch spec rank state).1.any fun command => command.decoded.rank == other) =
      decide (other = rank) := by
  obtain ⟨nonempty, named⟩ := seedRefreshBatch_commands spec rank state
  by_cases same : other = rank
  · obtain ⟨command, member⟩ := List.exists_mem_of_ne_nil _ nonempty
    rw [decide_eq_true same]
    exact List.any_eq_true.mpr
      ⟨command, member, beq_iff_eq.mpr ((named _ member).trans same.symm)⟩
  · rw [decide_eq_false same]
    refine List.any_eq_false.mpr fun command member => ?_
    rw [named _ member, beq_iff_eq]
    exact Ne.symm same

/-- A batch moves the cursors of its rank and nothing else. -/
theorem seedRefreshBatch_kept (spec : DramSpec) (rank : Nat) (state : RankRefreshState) :
    ∃ sidCursor flatBankCursor, (seedRefreshBatch spec rank state).2 =
      { state with sidCursor := sidCursor, flatBankCursor := flatBankCursor } := by
  unfold seedRefreshBatch
  split
  · exact ⟨_, _, rfl⟩
  · dsimp only
    split <;> split <;> exact ⟨_, _, rfl⟩

/-! ### One tick -/

/-- The state of a rank. -/
def rankState (manager : RefreshManager) (rank : Nat) : RankRefreshState :=
  manager.rankStates.getD rank {}

theorem timedAt_rankState {spec : DramSpec} {rank : Nat} (inside : rank < max 1 spec.org.ranks)
    (deadline : Nat) :
    (timedAt spec deadline).rankState rank = { nextRefreshCycle := deadline } := by
  unfold rankState timedAt
  rw [List.getD_eq_getElem _ _ (by rwa [List.length_replicate])]
  exact List.getElem_replicate ..

theorem timedAt_ranks (spec : DramSpec) (deadline : Nat) :
    (timedAt spec deadline).rankStates.length = max 1 spec.org.ranks :=
  List.length_replicate

/-- What the loop over the ranks does once their deadlines are counted: nothing, because every
rank waits, or one rank's refresh postponed, or one rank's batch, which was due or is paid in
advance. -/
inductive Handles (spec : DramSpec) (prefer : Bool) (newlyDue : List Bool)
    (accrued : List RankRefreshState) : RefreshTickResult → List RankRefreshState → Prop where
  | nothing {result : RefreshTickResult} (idle : result.startedBatch = false)
      (waits : ∀ rank < accrued.length,
        serviceOf spec prefer (newlyDue.getD rank false) (accrued.getD rank {}) = .wait) :
      Handles spec prefer newlyDue accrued result accrued
  | postponed {result : RefreshTickResult} (rank : Nat) (inside : rank < accrued.length)
      (idle : result.startedBatch = false)
      (serves : serviceOf spec prefer (newlyDue.getD rank false) (accrued.getD rank {}) =
        .postpone) :
      Handles spec prefer newlyDue accrued result (accrued.set rank
        { accrued.getD rank {} with postponeCount := (accrued.getD rank {}).postponeCount + 1 })
  | batch {result : RefreshTickResult} (rank : Nat) (inside : rank < accrued.length)
      (started : result.startedBatch = true)
      (commands : result.commands = (seedRefreshBatch spec rank (accrued.getD rank {})).1)
      (owes : 0 ≤ (accrued.getD rank {}).credit) (postponeCount pullinCount : Int)
      (counted : postponeCount = 0 ∧ (accrued.getD rank {}).credit ≤ 1 ∨
        postponeCount = (accrued.getD rank {}).postponeCount) :
      Handles spec prefer newlyDue accrued result (accrued.set rank
        { (seedRefreshBatch spec rank (accrued.getD rank {})).2 with
          credit := (accrued.getD rank {}).credit - 1
          postponeCount := postponeCount
          pullinCount := pullinCount })

theorem rotation_lt {manager : RefreshManager} {rank : Nat} (member : rank ∈ manager.rotation) :
    rank < manager.rankStates.length := by
  obtain ⟨offset, inside, rfl⟩ := List.mem_map.mp member
  exact Nat.mod_lt _ (Nat.lt_of_le_of_lt (Nat.zero_le offset) (List.mem_range.mp inside))

/-- Every rank is looked at. -/
theorem mem_rotation {manager : RefreshManager} {rank : Nat}
    (inside : rank < manager.rankStates.length) : rank ∈ manager.rotation := by
  have start := Nat.mod_lt manager.rankCursor (Nat.zero_lt_of_lt inside)
  refine List.mem_map.mpr ?_
  by_cases later : manager.rankCursor % manager.rankStates.length ≤ rank
  · refine ⟨rank - manager.rankCursor % manager.rankStates.length,
      List.mem_range.mpr (by omega), ?_⟩
    rw [← Nat.mod_add_mod, Nat.add_sub_cancel' later, Nat.mod_eq_of_lt inside]
  · refine ⟨rank + manager.rankStates.length - manager.rankCursor % manager.rankStates.length,
      List.mem_range.mpr (by omega), ?_⟩
    rw [← Nat.mod_add_mod, Nat.add_sub_cancel' (by omega), Nat.add_mod_right,
      Nat.mod_eq_of_lt inside]

variable {manager next : RefreshManager} {spec : DramSpec} {prefer pull : Bool} {clk : Nat}
variable {newlyDue : List Bool} {result : RefreshTickResult}

theorem serveDue_handles (serves : manager.serveDue spec prefer newlyDue = some (result, next)) :
    Handles spec prefer newlyDue manager.rankStates result next.rankStates := by
  obtain ⟨rank, member, serves⟩ := List.exists_of_findSome?_eq_some serves
  have inside := rotation_lt member
  dsimp only at serves
  split at serves
  · cases serves
  next service =>
    cases serves
    exact Handles.postponed rank inside rfl service
  next service =>
    have owes : 0 < (manager.rankStates.getD rank {}).credit := by
      unfold serviceOf at service
      dsimp only at service
      split at service
      · cases service
      next positive => exact Int.not_le.mp positive
    cases serves
    obtain ⟨sidCursor, flatBankCursor, kept⟩ :=
      seedRefreshBatch_kept spec rank (manager.rankStates.getD rank {})
    have credit : (seedRefreshBatch spec rank (manager.rankStates.getD rank {})).2.credit =
        (manager.rankStates.getD rank {}).credit := by rw [kept]
    have count : (seedRefreshBatch spec rank (manager.rankStates.getD rank {})).2.postponeCount =
        (manager.rankStates.getD rank {}).postponeCount := by rw [kept]
    dsimp only [settle]
    rw [credit, count]
    refine Handles.batch rank inside rfl rfl owes.le _ _ ?_
    split
    next paid => exact Or.inl ⟨rfl, by omega⟩
    next => exact Or.inr rfl

theorem serveDue_waits (waits : manager.serveDue spec prefer newlyDue = none) {rank : Nat}
    (inside : rank < manager.rankStates.length) :
    serviceOf spec prefer (newlyDue.getD rank false) (manager.rankStates.getD rank {}) = .wait := by
  have passed := List.findSome?_eq_none_iff.mp waits rank (mem_rotation inside)
  dsimp only at passed
  split at passed
  next service => exact service
  · cases passed
  · cases passed

theorem pullIn_handles {horizon : Nat}
    (pulls : manager.pullIn spec horizon = some (result, next)) :
    Handles spec prefer newlyDue manager.rankStates result next.rankStates := by
  obtain ⟨rank, member, pulls⟩ := List.exists_of_findSome?_eq_some pulls
  have inside := rotation_lt member
  dsimp only at pulls
  split at pulls
  next early =>
    obtain ⟨sidCursor, flatBankCursor, kept⟩ :=
      seedRefreshBatch_kept spec rank (manager.rankStates.getD rank {})
    have credit : (seedRefreshBatch spec rank (manager.rankStates.getD rank {})).2.credit =
        (manager.rankStates.getD rank {}).credit := by rw [kept]
    have count : (seedRefreshBatch spec rank (manager.rankStates.getD rank {})).2.postponeCount =
        (manager.rankStates.getD rank {}).postponeCount := by rw [kept]
    cases pulls
    dsimp only [settle]
    rw [credit, count]
    exact Handles.batch rank inside rfl rfl early.1.ge _ _ (Or.inr rfl)
  · cases pulls

/-- The deadlines of all ranks, counted by a tick. -/
def accrueAll (manager : RefreshManager) (spec : DramSpec) (clk : Nat) :
    List (RankRefreshState × Bool) :=
  manager.rankStates.map (accrueRank manager.selfRefreshActive clk
    (timingDelay spec (refreshInterval spec)))

/-- The spec asks for periodic refresh. -/
def Refreshes (spec : DramSpec) : Prop := spec.supportsRefresh = true ∧ 0 < refreshInterval spec

instance (spec : DramSpec) : Decidable (Refreshes spec) := inferInstanceAs (Decidable (_ ∧ _))

theorem not_refreshes_iff :
    ¬ Refreshes spec ↔ spec.supportsRefresh = false ∨ refreshInterval spec ≤ 0 := by
  unfold Refreshes
  rw [not_and_or, Bool.not_eq_true, not_lt]

/-- In self refresh nothing is served, and else at most one rank is handled. -/
theorem serve_handles (manager : RefreshManager) (spec : DramSpec) (horizon : Nat)
    (prefer pull : Bool) (newlyDue : List Bool) :
    (manager.selfRefreshActive = true ∧
        (manager.serve spec horizon prefer pull newlyDue).1.startedBatch = false ∧
        (manager.serve spec horizon prefer pull newlyDue).2 = manager) ∨
      (manager.selfRefreshActive = false ∧
        Handles spec prefer newlyDue manager.rankStates
          (manager.serve spec horizon prefer pull newlyDue).1
          (manager.serve spec horizon prefer pull newlyDue).2.rankStates) := by
  rcases manager.serve_cases spec horizon prefer pull newlyDue with
    ⟨waits, quiet⟩ | ⟨awake, serves | pulls⟩
  · rw [quiet]
    cases asleep : manager.selfRefreshActive with
    | true => exact Or.inl ⟨rfl, rfl, rfl⟩
    | false => exact Or.inr ⟨rfl, Handles.nothing rfl fun rank inside =>
        serveDue_waits (waits asleep) inside⟩
  · exact Or.inr ⟨awake, serveDue_handles serves⟩
  · exact Or.inr ⟨awake, pullIn_handles pulls⟩

/-- A tick with refresh counts the deadlines, and serves. -/
theorem tick_eq (on : Refreshes spec) (clk : Nat) (prefer pull : Bool)
    (ranks : manager.rankStates.length = max 1 spec.org.ranks) :
    manager.tick spec clk prefer pull =
      { manager with rankStates := (manager.accrueAll spec clk).map Prod.fst }.serve spec
        (clk + pullInWindow spec) prefer pull ((manager.accrueAll spec clk).map Prod.snd) := by
  unfold tick
  dsimp only
  rw [if_neg (not_refreshes_iff.not.mp (not_not.mpr on)), if_neg (not_not.mpr ranks)]
  rfl

/-- A tick does nothing without refresh; in self refresh it only counts the deadlines; and else
it counts them and handles at most one rank. -/
theorem tick_cases (clk : Nat) (prefer pull : Bool)
    (ranks : manager.rankStates.length = max 1 spec.org.ranks) :
    (¬ Refreshes spec ∧ manager.tick spec clk prefer pull = ({}, manager)) ∨
      (Refreshes spec ∧ manager.selfRefreshActive = true ∧
        (manager.tick spec clk prefer pull).1.startedBatch = false ∧
        (manager.tick spec clk prefer pull).2.rankStates =
          (manager.accrueAll spec clk).map Prod.fst) ∨
      (Refreshes spec ∧ manager.selfRefreshActive = false ∧
        Handles spec prefer ((manager.accrueAll spec clk).map Prod.snd)
          ((manager.accrueAll spec clk).map Prod.fst) (manager.tick spec clk prefer pull).1
          (manager.tick spec clk prefer pull).2.rankStates) := by
  by_cases on : Refreshes spec
  · rw [tick_eq on clk prefer pull ranks]
    rcases serve_handles { manager with rankStates := (manager.accrueAll spec clk).map Prod.fst }
      spec (clk + pullInWindow spec) prefer pull ((manager.accrueAll spec clk).map Prod.snd) with
      ⟨asleep, idle, same⟩ | ⟨awake, handles⟩
    · exact Or.inr (Or.inl ⟨on, asleep, idle, by rw [same]⟩)
    · exact Or.inr (Or.inr ⟨on, awake, handles⟩)
  · refine Or.inl ⟨on, ?_⟩
    unfold tick
    exact if_pos (not_refreshes_iff.mp on)

/-! ### What a tick does to one rank -/

theorem getD_set {Value : Type} (values : List Value) (place other : Nat) (value default : Value)
    (inside : place < values.length) :
    (values.set place value).getD other default =
      if other = place then value else values.getD other default := by
  rw [List.getD_eq_getElem?_getD, List.getD_eq_getElem?_getD, List.getElem?_set]
  by_cases same : other = place
  · rw [if_pos same, if_pos same.symm, if_pos inside]
    rfl
  · rw [if_neg same, if_neg (Ne.symm same)]

/-- What the loop over the ranks does to the book of one rank. -/
theorem Handles.entry {spec : DramSpec} {prefer : Bool} {newlyDue : List Bool}
    {accrued states : List RankRefreshState} {result : RefreshTickResult}
    (handles : Handles spec prefer newlyDue accrued result states) (rank : Nat) :
    (states.getD rank {}).nextRefreshCycle = (accrued.getD rank {}).nextRefreshCycle ∧
      ((states.getD rank {}).credit + ((result.startedBatch &&
          result.commands.any fun command => command.decoded.rank == rank).toNat : Nat) =
        (accrued.getD rank {}).credit) ∧
      (-1 ≤ (accrued.getD rank {}).credit → -1 ≤ (states.getD rank {}).credit) := by
  have idle (unstarted : result.startedBatch = false) : (result.startedBatch &&
      result.commands.any fun command => command.decoded.rank == rank) = false := by
    rw [unstarted, Bool.false_and]
  cases handles with
  | nothing unstarted waits =>
    rw [idle unstarted]
    exact ⟨rfl, Int.add_zero _, id⟩
  | postponed handled inside unstarted serves =>
    rw [idle unstarted, getD_set _ _ _ _ _ inside]
    split
    next same =>
      rw [same]
      exact ⟨rfl, Int.add_zero _, id⟩
    next => exact ⟨rfl, Int.add_zero _, id⟩
  | batch handled inside started commands owes postponeCount pullinCount counted =>
    have named := seedRefreshBatch_starts spec handled (accrued.getD handled {}) rank
    obtain ⟨sidCursor, flatBankCursor, kept⟩ :=
      seedRefreshBatch_kept spec handled (accrued.getD handled {})
    rw [started, commands, Bool.true_and, named, getD_set _ _ _ _ _ inside]
    by_cases same : rank = handled
    · rw [decide_eq_true same, if_pos same, same]
      refine ⟨?_, ?_, fun _ => ?_⟩
      · rw [kept]
      · exact Int.sub_add_cancel _ _
      · dsimp only
        omega
    · rw [decide_eq_false same, if_neg same]
      exact ⟨rfl, Int.add_zero _, id⟩

/-- The counted deadlines of one rank. -/
theorem accrueAll_rank (manager : RefreshManager) (spec : DramSpec) (clk rank : Nat) :
    ∃ passed, Accrued manager.selfRefreshActive clk (timingDelay spec (refreshInterval spec))
      (manager.rankState rank) passed
      (((manager.accrueAll spec clk).map Prod.fst).getD rank {},
        ((manager.accrueAll spec clk).map Prod.snd).getD rank false) := by
  unfold accrueAll rankState
  rw [List.map_map, List.map_map]
  by_cases inside : rank < manager.rankStates.length
  · obtain ⟨passed, accrued⟩ := accrueRank_accrued manager.selfRefreshActive clk
      (timingDelay spec (refreshInterval spec)) manager.rankStates[rank]
    refine ⟨passed, ?_⟩
    rw [List.getD_eq_getElem _ _ inside, List.getD_eq_getElem _ _ (by rwa [List.length_map]),
      List.getD_eq_getElem _ _ (by rwa [List.length_map]), List.getElem_map, List.getElem_map]
    exact accrued
  · have outside := Nat.le_of_not_lt inside
    rw [List.getD_eq_default _ _ outside, List.getD_eq_default _ _ (by rwa [List.length_map]),
      List.getD_eq_default _ _ (by rwa [List.length_map])]
    exact ⟨0, Accrued.none ..⟩

theorem accrueAll_late (manager : RefreshManager) (spec : DramSpec) (clk : Nat) {rank : Nat}
    (inside : rank < manager.rankStates.length) (positive : 0 < refreshInterval spec) :
    clk < (((manager.accrueAll spec clk).map Prod.fst).getD rank {}).nextRefreshCycle := by
  unfold accrueAll
  rw [List.map_map, List.getD_eq_getElem _ _ (by rwa [List.length_map]), List.getElem_map]
  exact accrueRank_late _ (timingDelay_pos positive)

/-- The ranks stay as many as they are. -/
theorem tick_ranks {manager : RefreshManager} {spec : DramSpec} (clk : Nat) (prefer pull : Bool)
    (ranks : manager.rankStates.length = max 1 spec.org.ranks) :
    (manager.tick spec clk prefer pull).2.rankStates.length = max 1 spec.org.ranks :=
  (tick_kept clk prefer pull ranks).1.trans ranks

end RefreshManager

/-- Whether a tick starts a batch for a rank. -/
def RefreshTickResult.starts (result : RefreshTickResult) (rank : Nat) : Bool :=
  result.startedBatch && result.commands.any fun command => command.decoded.rank == rank

namespace RefreshManager

/-- A tick takes the batch it starts for a rank off what the rank owes by then. -/
theorem tick_entry {manager : RefreshManager} {spec : DramSpec} (on : Refreshes spec) (clk : Nat)
    (prefer pull : Bool) (ranks : manager.rankStates.length = max 1 spec.org.ranks) (rank : Nat) :
    ((manager.tick spec clk prefer pull).2.rankState rank).nextRefreshCycle =
        (((manager.accrueAll spec clk).map Prod.fst).getD rank {}).nextRefreshCycle ∧
      ((manager.tick spec clk prefer pull).2.rankState rank).credit +
          (((manager.tick spec clk prefer pull).1.starts rank).toNat : Nat) =
        (((manager.accrueAll spec clk).map Prod.fst).getD rank {}).credit ∧
      (-1 ≤ (manager.rankState rank).credit →
        -1 ≤ ((manager.tick spec clk prefer pull).2.rankState rank).credit) := by
  obtain ⟨passed, accrued⟩ := accrueAll_rank manager spec clk rank
  have counted := accrued.credit
  dsimp only at counted
  rcases tick_cases clk prefer pull ranks with ⟨off, -⟩ | ⟨-, asleep, idle, states⟩ |
    ⟨-, awake, handles⟩
  · exact absurd on off
  · have same : (manager.tick spec clk prefer pull).2.rankState rank =
        ((manager.accrueAll spec clk).map Prod.fst).getD rank {} := by
      unfold rankState
      rw [states]
    unfold RefreshTickResult.starts
    rw [same, idle, counted, asleep, if_pos rfl]
    exact ⟨rfl, by simp, fun floor => floor.trans (by simp)⟩
  · obtain ⟨next, credit, floor⟩ := handles.entry rank
    refine ⟨next, credit, fun above => floor ?_⟩
    rw [counted, awake, if_neg Bool.false_ne_true]
    omega

/-! ### The tick on words -/

theorem accrue_early {selfRefresh : Bool} {clk intervalTicks : Nat} {state : RankRefreshState}
    (early : clk < state.nextRefreshCycle) (rounds : Nat) :
    accrue selfRefresh clk intervalTicks rounds state = (state, false) := by
  cases rounds with
  | zero => rfl
  | succ rounds => exact if_neg (Nat.not_le_of_lt early)

/-- With rounds enough, more of them change nothing. -/
theorem accrue_rounds {selfRefresh : Bool} {clk intervalTicks rounds others : Nat}
    {state : RankRefreshState} (positive : 0 < intervalTicks)
    (enough : clk < state.nextRefreshCycle + rounds)
    (enough' : clk < state.nextRefreshCycle + others) :
    accrue selfRefresh clk intervalTicks rounds state =
      accrue selfRefresh clk intervalTicks others state := by
  induction rounds generalizing state others with
  | zero => rw [accrue_early enough, accrue_early enough]
  | succ rounds inductionHypothesis =>
    cases others with
    | zero => rw [accrue_early enough', accrue_early enough']
    | succ others =>
      unfold accrue
      split
      next due =>
        dsimp only
        rw [@inductionHypothesis others _ (by dsimp only; omega) (by dsimp only; omega)]
      next => rfl

theorem sumInt_eq {first second : Int} (low : -(intMax : Int) - 1 ≤ first + second)
    (high : first + second ≤ intMax) : sumInt first second = some (first + second) :=
  if_pos ⟨low, high⟩

/-- Away from the ends of its types the loop counts as with numbers. -/
theorem accrueWord_eq {selfRefresh : Bool} {clk intervalTicks rounds : Nat}
    {state : RankRefreshState} (positive : 0 < intervalTicks)
    (enough : clk < state.nextRefreshCycle + rounds) (fits : clk + intervalTicks ≤ uint64Max)
    (floor : -1 ≤ state.credit)
    (owed : (accrue selfRefresh clk intervalTicks rounds state).1.credit ≤ intMax) :
    accrueWord selfRefresh clk intervalTicks (rounds + 1) state =
      some (accrue selfRefresh clk intervalTicks rounds state) := by
  induction rounds generalizing state with
  | zero => exact if_neg (Nat.not_le_of_lt enough)
  | succ rounds inductionHypothesis =>
    unfold accrueWord
    unfold accrue at owed ⊢
    split
    next due =>
      rw [if_pos due] at owed
      dsimp only at owed ⊢
      obtain ⟨passed, accrued⟩ := accrue_accrued selfRefresh clk intervalTicks rounds
        { state with
          credit := if selfRefresh then state.credit else state.credit + 1
          nextRefreshCycle := state.nextRefreshCycle + intervalTicks }
      have counted := accrued.credit
      have credit : (if selfRefresh = true then some state.credit else sumInt state.credit 1) =
          some (if selfRefresh = true then state.credit else state.credit + 1) := by
        cases selfRefresh with
        | true => rfl
        | false =>
          simp only [Bool.false_eq_true, if_false] at counted owed ⊢
          exact sumInt_eq (by unfold intMax; omega) (by omega)
      rw [laterCycle_eq (by omega), credit, Option.bind_eq_bind, Option.bind_some,
        inductionHypothesis (by dsimp only; omega) (by dsimp only; split <;> omega) owed]
      rfl
    next => rfl

theorem accrueRankWord_eq {selfRefresh : Bool} {clk intervalTicks : Nat}
    {state : RankRefreshState} (positive : 0 < intervalTicks)
    (fits : clk + intervalTicks ≤ uint64Max) (floor : -1 ≤ state.credit)
    (owed : (accrueRank selfRefresh clk intervalTicks state).1.credit ≤ intMax) :
    accrueRankWord selfRefresh clk intervalTicks state =
      some (accrueRank selfRefresh clk intervalTicks state) := by
  have enough : clk < state.nextRefreshCycle + (2 ^ 64 - 1) := by
    unfold uint64Max at fits
    omega
  have same := @accrue_rounds selfRefresh clk intervalTicks (2 ^ 64 - 1)
    (clk + 1 - state.nextRefreshCycle) state positive enough (by omega)
  obtain ⟨pullinCount, kept⟩ := accrueRank_eq selfRefresh clk intervalTicks state
  rw [kept] at owed
  unfold accrueRankWord accrueRank
  rw [show (2 ^ 64 : Nat) = 2 ^ 64 - 1 + 1 from rfl,
    accrueWord_eq positive enough fits floor (by rw [same]; exact owed), same]
  rfl

/-- Computations that all return can be done one after the other. -/
theorem mapM_some {Item Value : Type} {compute : Item → Option Value} {value : Item → Value}
    {items : List Item} (returns : ∀ item ∈ items, compute item = some (value item)) :
    items.mapM compute = some (items.map value) := by
  induction items with
  | nil => rfl
  | cons item rest inductionHypothesis =>
    rw [List.mapM_cons, returns item List.mem_cons_self,
      inductionHypothesis fun other member => returns other (List.mem_cons_of_mem _ member)]
    rfl

/-- The counting of all ranks, away from the ends of the types. -/
theorem accrueAll_words {manager : RefreshManager} {spec : DramSpec} {clk : Nat}
    (on : Refreshes spec) (fits : clk + timingDelay spec (refreshInterval spec) ≤ uint64Max)
    (floor : ∀ rank < manager.rankStates.length, -1 ≤ (manager.rankState rank).credit)
    (owed : ∀ rank < manager.rankStates.length,
      (((manager.accrueAll spec clk).map Prod.fst).getD rank {}).credit ≤ intMax) :
    manager.rankStates.mapM (accrueRankWord manager.selfRefreshActive clk
      (timingDelay spec (refreshInterval spec))) = some (manager.accrueAll spec clk) := by
  refine mapM_some fun state member => ?_
  obtain ⟨rank, inside, rfl⟩ := List.getElem_of_mem member
  refine accrueRankWord_eq (timingDelay_pos on.2) fits ?_ ?_
  · have above := floor rank inside
    unfold rankState at above
    rwa [List.getD_eq_getElem _ _ inside] at above
  · have below := owed rank inside
    unfold accrueAll at below
    rwa [List.map_map, List.getD_eq_getElem _ _ (by rwa [List.length_map]),
      List.getElem_map] at below

/-- Credits from `-1` to a bound sum up within their type. -/
theorem credits_fit {states : List RankRefreshState} {bound : Nat} {total : Int}
    (floor : ∀ state ∈ states, -1 ≤ state.credit) (owed : ∀ state ∈ states, state.credit ≤ bound)
    (low : -(intMax : Int) ≤ total - states.length)
    (high : total + (states.length * bound : Nat) ≤ intMax) :
    (states.foldlM (fun total state => sumInt total state.credit) total).isSome = true := by
  induction states generalizing total with
  | nil => rfl
  | cons state rest inductionHypothesis =>
    have least := floor state List.mem_cons_self
    have most := owed state List.mem_cons_self
    rw [List.length_cons, Nat.succ_mul] at high
    rw [List.length_cons] at low
    push_cast at low high
    have room : (0 : Int) ≤ rest.length * bound := by positivity
    rw [List.foldlM_cons, sumInt_eq (by omega) (by omega), Option.bind_eq_bind, Option.bind_some]
    refine inductionHypothesis (fun other member => floor other (List.mem_cons_of_mem _ member))
      (fun other member => owed other (List.mem_cons_of_mem _ member)) (by omega) ?_
    push_cast
    omega

/-- Where the controller can count the banks, it can count the ranks and the positions. -/
theorem counts_fit {spec : DramSpec} {banks : Nat} (accepted : validateSpec spec = .ok ())
    (counted : spec.totalBanks = .ok banks) :
    max 1 spec.org.ranks ≤ intMax ∧ positionsPerSid spec ≤ intMax := by
  obtain ⟨channels, pseudoChannels, sids, ranks, bankGroups, banksPerGroup, -⟩ :=
    validateSpec_positive accepted
  obtain ⟨rfl, fits⟩ := spec.totalBanks_eq counted
  have positive : 0 < spec.bankCount := by
    unfold DramSpec.bankCount
    positivity
  have rankwise : spec.org.ranks ∣ spec.bankCount :=
    ⟨spec.org.channels * spec.org.pseudoChannels * spec.org.sids *
      (spec.org.bankGroups * spec.org.banksPerGroup), by unfold DramSpec.bankCount; ring⟩
  have bankwise : spec.org.bankGroups * spec.org.banksPerGroup ∣ spec.bankCount :=
    Dvd.intro_left _ (Nat.mul_assoc ..).symm
  have positions : positionsPerSid spec ≤ spec.org.bankGroups * spec.org.banksPerGroup := by
    unfold positionsPerSid
    split
    · exact Nat.mul_le_mul (by omega) (by omega)
    · exact Nat.mul_le_mul (by omega) (by omega)
  refine ⟨?_, (positions.trans (Nat.le_of_dvd positive bankwise)).trans fits⟩
  rw [max_eq_right ranks]
  exact (Nat.le_of_dvd positive rankwise).trans fits

/-- The half of an interval is not longer than the interval. -/
theorem pullInWindow_le {spec : DramSpec} (on : Refreshes spec) :
    pullInWindow spec ≤ timingDelay spec (refreshInterval spec) := by
  have positive := on.2
  unfold pullInWindow timingDelay
  refine Nat.mul_le_mul_right _ (Int.toNat_le_toNat ?_)
  rw [Int.tdiv_eq_ediv_of_nonneg positive.le]
  omega

/-- Whichever rank is served, the cursor stays at a rank. -/
theorem serve_cursor {manager : RefreshManager} (spec : DramSpec) (horizon : Nat)
    (prefer pull : Bool) (newlyDue : List Bool)
    (cursor : manager.rankCursor < manager.rankStates.length) :
    (manager.serve spec horizon prefer pull newlyDue).2.rankCursor <
      manager.rankStates.length := by
  rcases manager.serve_settles spec horizon prefer pull newlyDue with same | ⟨rank, state, settles⟩
  · rwa [same]
  · rw [settles]
    exact Nat.mod_lt _ (Nat.zero_lt_of_lt cursor)

theorem tick_cursor {manager : RefreshManager} {spec : DramSpec} (clk : Nat) (prefer pull : Bool)
    (ranks : manager.rankStates.length = max 1 spec.org.ranks)
    (cursor : manager.rankCursor < max 1 spec.org.ranks) :
    (manager.tick spec clk prefer pull).2.rankCursor < max 1 spec.org.ranks := by
  unfold tick
  dsimp only
  split
  · exact cursor
  · rw [if_neg (not_not.mpr ranks)]
    refine (serve_cursor spec _ prefer pull _ ?_).trans_eq ?_
    · dsimp only
      rwa [List.length_map, List.length_map, ranks]
    · dsimp only
      rw [List.length_map, List.length_map, ranks]

/-- Where no credit goes beyond a bound that all the ranks together may reach, and the next
deadline is within the words, a tick on words is the tick with numbers. -/
theorem tickWord_eq {manager : RefreshManager} {spec : DramSpec} {clk banks bound : Nat}
    (prefer pull : Bool) (accepted : validateSpec spec = .ok ())
    (counted : spec.totalBanks = .ok banks)
    (ranks : manager.rankStates.length = max 1 spec.org.ranks)
    (cursor : manager.rankCursor < max 1 spec.org.ranks)
    (fits : clk + timingDelay spec (refreshInterval spec) ≤ uint64Max)
    (floor : ∀ rank < manager.rankStates.length, -1 ≤ (manager.rankState rank).credit)
    (owed : Refreshes spec → ∀ rank < manager.rankStates.length,
      (((manager.accrueAll spec clk).map Prod.fst).getD rank {}).credit ≤ bound)
    (turn : max 1 spec.org.ranks * 2 ≤ intMax) (room : max 1 spec.org.ranks * bound ≤ intMax) :
    manager.tickWord spec clk prefer pull = some (manager.tick spec clk prefer pull) := by
  obtain ⟨few, positions⟩ := counts_fit accepted counted
  have small : bound ≤ intMax := (Nat.le_mul_of_pos_left _ (by omega)).trans room
  by_cases on : Refreshes spec
  · have served := tick_ranks clk prefer pull ranks
    have window := pullInWindow_le on
    have sums : (manager.tick spec clk prefer pull).2.aggregateFits = true := by
      refine @credits_fit _ bound _ (fun state member => ?_) (fun state member => ?_) ?_ ?_
      · obtain ⟨rank, inside, rfl⟩ := List.getElem_of_mem member
        have kept := (tick_entry on clk prefer pull ranks rank).2.2
          (floor rank (by rwa [ranks, ← served]))
        unfold rankState at kept
        rwa [List.getD_eq_getElem _ _ inside] at kept
      · obtain ⟨rank, inside, rfl⟩ := List.getElem_of_mem member
        have paid := (tick_entry on clk prefer pull ranks rank).2.1
        have most := owed on rank (by rwa [ranks, ← served])
        unfold rankState at paid
        rw [List.getD_eq_getElem _ _ inside] at paid
        omega
      · rw [served]
        omega
      · rw [served]
        omega
    have around : rotationFits
        { manager with rankStates := (manager.accrueAll spec clk).map Prod.fst } spec prefer
        ((manager.accrueAll spec clk).map Prod.snd) = true := by
      have counts : ((manager.accrueAll spec clk).map Prod.fst).length = max 1 spec.org.ranks := by
        rw [List.length_map, accrueAll, List.length_map, ranks]
      unfold rotationFits
      rw [Bool.or_eq_true, Bool.or_eq_true]
      exact Or.inl (Or.inr (decide_eq_true (by dsimp only; omega)))
    unfold tickWord
    rw [if_neg (not_refreshes_iff.not.mp (not_not.mpr on)), if_neg (not_not.mpr ranks)]
    dsimp only
    rw [accrueAll_words on fits floor fun rank inside => (owed on rank inside).trans (by omega),
      Option.bind_eq_bind, Option.bind_some, laterCycle_eq (by omega),
      ← tick_eq on clk prefer pull ranks, if_pos ⟨around, sums, fun _ _ => positions⟩]
  · unfold tickWord tick
    dsimp only
    rw [if_pos (not_refreshes_iff.mp on), if_pos (not_refreshes_iff.mp on)]

end RefreshManager

/-! ### The ledger -/

/-- A call of the manager. -/
inductive RefreshCall where
  | setSelfRefresh (active : Bool)
  | tick (clk : Nat) (preferPostpone allowPullIn : Bool)
  deriving DecidableEq

namespace RefreshManager

/-- One call, on words, with what a tick returns. The error is the call that has no result. -/
def call (spec : DramSpec) (manager : RefreshManager) :
    RefreshCall → Except RefreshCall (List RefreshTickResult × RefreshManager)
  | .setSelfRefresh active => .ok ([], { manager with selfRefreshActive := active })
  | .tick clk preferPostpone allowPullIn =>
    match manager.tickWord spec clk preferPostpone allowPullIn with
    | some (result, next) => .ok ([result], next)
    | none => .error (.tick clk preferPostpone allowPullIn)

/-- The deadlines up to a cycle: one after every interval since the reset. -/
def dueBy (spec : DramSpec) (start clk : Nat) : Nat :=
  if Refreshes spec then (clk - start) / timingDelay spec (refreshInterval spec) else 0

/-- The deadlines whose first tick comes outside self refresh, of those not seen yet. -/
def deadlinesFrom (spec : DramSpec) (start : Nat) : Bool → Nat → List RefreshCall → Nat
  | _, _, [] => 0
  | _, seen, .setSelfRefresh active :: calls => deadlinesFrom spec start active seen calls
  | asleep, seen, .tick clk _ _ :: calls =>
    (if asleep then 0 else dueBy spec start clk - seen) +
      deadlinesFrom spec start asleep (max seen (dueBy spec start clk)) calls

/-- The deadlines that each rank of a fresh manager meets outside self refresh. -/
def deadlinesOf (spec : DramSpec) (start : Nat) (calls : List RefreshCall) : Nat :=
  deadlinesFrom spec start false 0 calls

/-- The batches started for a rank. -/
def batchesOf (results : List RefreshTickResult) (rank : Nat) : Nat :=
  results.countP fun result => result.starts rank

/-- Every tick comes an interval before the last cycle at the latest. -/
def InTime (spec : DramSpec) : RefreshCall → Prop
  | .setSelfRefresh _ => True
  | .tick clk _ _ => clk + timingDelay spec (refreshInterval spec) ≤ uint64Max

/-- The books balance: each rank has started a batch for every deadline it met or owes it, and its
next deadline is the first one not seen. -/
structure Book (spec : DramSpec) (start seen met : Nat) (results : List RefreshTickResult)
    (manager : RefreshManager) : Prop where
  ranks : manager.rankStates.length = max 1 spec.org.ranks
  cursor : manager.rankCursor < max 1 spec.org.ranks
  next (rank : Nat) : rank < manager.rankStates.length → Refreshes spec →
    (manager.rankState rank).nextRefreshCycle =
      start + (seen + 1) * timingDelay spec (refreshInterval spec)
  ledger (rank : Nat) : rank < manager.rankStates.length →
    (met : Int) = batchesOf results rank + (manager.rankState rank).credit
  floor (rank : Nat) : rank < manager.rankStates.length → -1 ≤ (manager.rankState rank).credit

/-- A rank counts exactly the deadlines up to the tick that it has not seen: none that has passed
is left out, and none that is to come is counted. -/
theorem Accrued.counts {spec : DramSpec} {selfRefresh : Bool} {clk start seen passed : Nat}
    {state : RankRefreshState} {after : RankRefreshState × Bool} (on : Refreshes spec)
    (accrued : Accrued selfRefresh clk (timingDelay spec (refreshInterval spec)) state passed after)
    (next : state.nextRefreshCycle =
      start + (seen + 1) * timingDelay spec (refreshInterval spec))
    (late : clk < after.1.nextRefreshCycle) : passed = dueBy spec start clk - seen := by
  have positive : 0 < timingDelay spec (refreshInterval spec) := timingDelay_pos on.2
  unfold dueBy
  rw [if_pos on]
  generalize timingDelay spec (refreshInterval spec) = interval at *
  have above := accrued.next
  rw [next] at above
  have beyond : clk - start < (seen + passed + 1) * interval := by
    have spread : (seen + passed + 1) * interval = (seen + 1) * interval + passed * interval := by
      ring
    have room : 0 < (seen + passed + 1) * interval := Nat.mul_pos (Nat.succ_pos _) positive
    omega
  have most := (Nat.div_lt_iff_lt_mul positive).mpr beyond
  rcases Nat.eq_zero_or_pos passed with none | some
  · omega
  · have last := accrued.last some
    rw [next] at last
    have reached : (seen + passed) * interval ≤ clk - start := by
      have spread : (seen + passed) * interval = (seen + 1) * interval + (passed - 1) * interval := by
        rw [← Nat.add_mul]
        congr 1
        omega
      omega
    have least := (Nat.le_div_iff_mul_le positive).mpr reached
    omega

theorem dueBy_off {spec : DramSpec} (off : ¬ Refreshes spec) (start clk : Nat) :
    dueBy spec start clk = 0 := if_neg off

theorem batchesOf_concat (results : List RefreshTickResult) (result : RefreshTickResult)
    (rank : Nat) :
    batchesOf (results ++ [result]) rank = batchesOf results rank + (result.starts rank).toNat := by
  unfold batchesOf
  rw [List.countP_append, List.countP_singleton]
  cases result.starts rank <;> rfl

/-- What the ranks owe before one of them is served. -/
theorem Book.accrued {spec : DramSpec} {start seen met : Nat} {results : List RefreshTickResult}
    {manager : RefreshManager} (book : Book spec start seen met results manager)
    (on : Refreshes spec) (clk : Nat) {rank : Nat} (inside : rank < manager.rankStates.length) :
    (((manager.accrueAll spec clk).map Prod.fst).getD rank {}).nextRefreshCycle =
        start + (max seen (dueBy spec start clk) + 1) * timingDelay spec (refreshInterval spec) ∧
      batchesOf results rank + (((manager.accrueAll spec clk).map Prod.fst).getD rank {}).credit =
        (met + (if manager.selfRefreshActive then 0 else dueBy spec start clk - seen) : Nat) := by
  obtain ⟨passed, accrued⟩ := accrueAll_rank manager spec clk rank
  have counts := accrued.counts on (book.next rank inside on)
    (accrueAll_late manager spec clk inside on.2)
  have ledger := book.ledger rank inside
  refine ⟨?_, ?_⟩
  · refine accrued.next.trans ?_
    have most : seen + passed = max seen (dueBy spec start clk) := by omega
    rw [book.next rank inside on, ← most]
    ring
  · have credit := accrued.credit
    dsimp only at credit
    rw [credit, counts]
    cases manager.selfRefreshActive
    · rw [if_neg Bool.false_ne_true, if_neg Bool.false_ne_true]
      omega
    · rw [if_pos rfl, if_pos rfl]
      omega

/-- A tick keeps the books, and on words it is the tick with numbers. -/
theorem Book.tick {spec : DramSpec} {start seen met banks : Nat}
    {results : List RefreshTickResult} {manager : RefreshManager} {clk : Nat}
    (book : Book spec start seen met results manager) (prefer pull : Bool)
    (accepted : validateSpec spec = .ok ()) (counted : spec.totalBanks = .ok banks)
    (fits : clk + timingDelay spec (refreshInterval spec) ≤ uint64Max)
    (turn : max 1 spec.org.ranks * 2 ≤ intMax)
    (room : max 1 spec.org.ranks *
      (met + if manager.selfRefreshActive then 0 else dueBy spec start clk - seen) ≤ intMax) :
    manager.tickWord spec clk prefer pull = some (manager.tick spec clk prefer pull) ∧
      Book spec start (max seen (dueBy spec start clk))
        (met + if manager.selfRefreshActive then 0 else dueBy spec start clk - seen)
        (results ++ [(manager.tick spec clk prefer pull).1])
        (manager.tick spec clk prefer pull).2 := by
  have stays := tick_ranks clk prefer pull book.ranks
  have same := stays.trans book.ranks.symm
  by_cases on : Refreshes spec
  · refine ⟨tickWord_eq prefer pull accepted counted book.ranks book.cursor fits book.floor
      (fun _ rank inside => ?_) turn room, stays,
      tick_cursor clk prefer pull book.ranks book.cursor, fun rank inside _ => ?_,
      fun rank inside => ?_, fun rank inside => ?_⟩
    · have owes := (book.accrued on clk inside).2
      omega
    all_goals
      rw [same] at inside
      obtain ⟨next, paid, floor⟩ := tick_entry on clk prefer pull book.ranks rank
      obtain ⟨due, owes⟩ := book.accrued on clk inside
    · exact next.trans due
    · rw [batchesOf_concat, ← owes, ← paid]
      push_cast
      ring
    · exact floor (book.floor rank inside)
  · have quiet : manager.tickWord spec clk prefer pull = some ({}, manager) := by
      unfold tickWord
      dsimp only
      rw [if_pos (not_refreshes_iff.mp on)]
    have idle : manager.tick spec clk prefer pull = ({}, manager) := by
      unfold RefreshManager.tick
      dsimp only
      rw [if_pos (not_refreshes_iff.mp on)]
    rw [quiet, idle, dueBy_off on, Nat.zero_sub, ite_self, Nat.add_zero, Nat.max_zero]
    refine ⟨rfl, book.ranks, book.cursor, fun _ _ refreshes => absurd refreshes on, fun rank inside => ?_,
      book.floor⟩
    rw [batchesOf_concat]
    exact book.ledger rank inside

/-- Every run within the range of the types returns, and keeps the books. -/
theorem Book.run {spec : DramSpec} {start seen met banks : Nat} {asleep : Bool}
    {results : List RefreshTickResult} {manager : RefreshManager} {calls : List RefreshCall}
    (book : Book spec start seen met results manager)
    (state : manager.selfRefreshActive = asleep) (accepted : validateSpec spec = .ok ())
    (counted : spec.totalBanks = .ok banks) (inTime : ∀ call ∈ calls, InTime spec call)
    (turn : max 1 spec.org.ranks * 2 ≤ intMax)
    (room : max 1 spec.org.ranks * (met + deadlinesFrom spec start asleep seen calls) ≤ intMax) :
    ∃ later after last, Transition.run (call spec) manager calls = .ok (later, after) ∧
      Book spec start last (met + deadlinesFrom spec start asleep seen calls) (results ++ later)
        after := by
  induction calls generalizing seen met asleep results manager with
  | nil => exact ⟨[], manager, seen, rfl, by rwa [List.append_nil]⟩
  | cons first calls inductionHypothesis =>
    have rest := fun call member => inTime call (List.mem_cons_of_mem first member)
    cases first with
    | setSelfRefresh active =>
      have switched : Book spec start seen met results { manager with selfRefreshActive := active } :=
        ⟨book.ranks, book.cursor, book.next, book.ledger, book.floor⟩
      obtain ⟨later, after, last, returns, kept⟩ := inductionHypothesis switched rfl rest room
      exact ⟨[] ++ later, after, last, Transition.run_step rfl returns, kept⟩
    | tick clk prefer pull =>
      unfold deadlinesFrom at room ⊢
      rw [← state] at room ⊢
      rw [← Nat.add_assoc] at room ⊢
      obtain ⟨words, kept⟩ := book.tick prefer pull accepted counted (inTime _ List.mem_cons_self)
        turn ((Nat.mul_le_mul_left _ (Nat.le_add_right ..)).trans room)
      obtain ⟨later, after, last, returns, final⟩ :=
        inductionHypothesis kept (tick_kept clk prefer pull book.ranks).2 rest room
      have called : manager.call spec (.tick clk prefer pull) =
          .ok ([(manager.tick spec clk prefer pull).1], (manager.tick spec clk prefer pull).2) := by
        unfold RefreshManager.call
        dsimp only
        rw [words]
      refine ⟨_, after, last, Transition.run_step called returns, ?_⟩
      rwa [← List.append_assoc]

theorem Book.start {spec : DramSpec} {start : Nat} {manager : RefreshManager}
    (created : resetWord spec start = .ok manager)
    (fits : start + timingDelay spec (refreshInterval spec) ≤ uint64Max) :
    Book spec start 0 0 [] manager ∧ manager.selfRefreshActive = false := by
  obtain ⟨_, -, returned⟩ := bind_eq_ok.mp created
  obtain rfl := Except.ok.inj returned
  rw [laterCycle_eq fits]
  refine ⟨⟨timedAt_ranks .., Nat.lt_of_lt_of_le Nat.zero_lt_one (Nat.le_max_left ..),
    fun rank inside _ => ?_, fun rank inside => ?_, fun rank inside => ?_⟩, rfl⟩
  all_goals rw [timedAt_ranks] at inside
  · rw [timedAt_rankState inside, Nat.zero_add, Nat.one_mul]
  · rw [timedAt_rankState inside]
    rfl
  · rw [timedAt_rankState inside]
    dsimp only
    omega

/-- Within the range of the types, and where the controller can count the banks, every run of calls
returns, and the deadlines that a rank met outside self refresh are its batches and its credit,
which is at least `-1`. -/
theorem ledger_balances {spec : DramSpec} {start banks rank : Nat} {manager : RefreshManager}
    {calls : List RefreshCall} (created : resetWord spec start = .ok manager)
    (counted : spec.totalBanks = .ok banks)
    (fits : start + timingDelay spec (refreshInterval spec) ≤ uint64Max)
    (inTime : ∀ call ∈ calls, InTime spec call)
    (room : max 1 spec.org.ranks * max 2 (deadlinesOf spec start calls) ≤ intMax)
    (inside : rank < max 1 spec.org.ranks) :
    ∃ results after, Transition.run (call spec) manager calls = .ok (results, after) ∧
      (deadlinesOf spec start calls : Int) =
        batchesOf results rank + (after.rankState rank).credit ∧
      -1 ≤ (after.rankState rank).credit := by
  obtain ⟨_, accepted, -⟩ := bind_eq_ok.mp created
  obtain ⟨book, awake⟩ := Book.start created fits
  obtain ⟨results, after, last, returns, kept⟩ :=
    book.run awake accepted counted inTime
      ((Nat.mul_le_mul_left _ (Nat.le_max_left ..)).trans room) (by
        rw [Nat.zero_add]
        exact (Nat.mul_le_mul_left _ (Nat.le_max_right ..)).trans room)
  rw [Nat.zero_add, List.nil_append] at kept
  rw [← kept.ranks] at inside
  exact ⟨results, after, returns, kept.ledger rank inside, kept.floor rank inside⟩

/-- Two ranks of one bank group with a deadline every ten cycles. -/
def twoRanks : DramSpec where
  org := { ranks := 2, bankGroups := 1, banksPerGroup := 2, rows := 4, columns := 4 }
  speedBinMbps := 6400
  stackHeight := 1
  supportsRefresh := true
  timing := { nREFIpb := 10 }
  refreshPostponeLimit := 3
  refreshPullinLimit := 1

/-- Two deadlines in one tick, one of them postponed, one passed in self refresh and one paid in
advance. -/
def ledgerCalls : List RefreshCall :=
  [.tick 20 true false, .tick 21 false false, .tick 22 false false, .setSelfRefresh true,
    .tick 30 false false, .setSelfRefresh false] ++
    (List.range 6).map fun index => .tick (31 + index) false true

instance (spec : DramSpec) (call : RefreshCall) : Decidable (InTime spec call) :=
  match call with
  | .setSelfRefresh _ => inferInstanceAs (Decidable True)
  | .tick clk _ _ =>
    inferInstanceAs (Decidable (clk + timingDelay spec (refreshInterval spec) ≤ uint64Max))

/-- Two of the three deadlines are met outside self refresh, and the third batch is paid in
advance. -/
theorem ledger_balances_ledgerCalls : ∃ manager results after,
    resetWord twoRanks 0 = .ok manager ∧
      Transition.run (call twoRanks) manager ledgerCalls = .ok (results, after) ∧
      deadlinesOf twoRanks 0 ledgerCalls = 2 ∧ batchesOf results 0 = 3 ∧
      (deadlinesOf twoRanks 0 ledgerCalls : Int) =
        batchesOf results 0 + (after.rankState 0).credit ∧
      -1 ≤ (after.rankState 0).credit := by
  obtain ⟨results, after, returns, balance⟩ := @ledger_balances twoRanks 0 4 0
    (timedAt twoRanks 10) ledgerCalls rfl (by decide) (by decide) (by decide +kernel)
    (by decide +kernel) (by decide)
  have batches : (Transition.run (call twoRanks) (timedAt twoRanks 10) ledgerCalls).map
      (fun ran => batchesOf ran.1 0) = .ok 3 := by decide +kernel
  have three : batchesOf results 0 = 3 := by
    rw [returns] at batches
    exact Except.ok.inj batches
  exact ⟨_, results, after, rfl, returns, by decide +kernel, three, balance⟩

/-- No deadline is beyond the last cycle, so the loop over them does not end. -/
theorem accrueWord_endless (selfRefresh : Bool) (intervalTicks rounds : Nat)
    {state : RankRefreshState} (word : state.nextRefreshCycle ≤ uint64Max) :
    accrueWord selfRefresh uint64Max intervalTicks rounds state = none := by
  induction rounds generalizing state with
  | zero => rfl
  | succ rounds inductionHypothesis =>
    unfold accrueWord
    rw [if_pos word]
    cases (if selfRefresh then some state.credit else sumInt state.credit 1) with
    | none => rfl
    | some credit =>
      rw [Option.bind_eq_bind, Option.bind_some, inductionHypothesis]
      · rfl
      · exact Nat.le_of_lt_succ (Nat.mod_lt _ (by decide))

theorem accrueRankWord_endless (selfRefresh : Bool) (intervalTicks : Nat)
    {state : RankRefreshState} (word : state.nextRefreshCycle ≤ uint64Max) :
    accrueRankWord selfRefresh uint64Max intervalTicks state = none := by
  unfold accrueRankWord
  rw [accrueWord_endless _ _ _ word]
  rfl

theorem call_fails {manager : RefreshManager} {spec : DramSpec} {clk : Nat} {prefer pull : Bool}
    (fails : manager.tickWord spec clk prefer pull = none) :
    manager.call spec (.tick clk prefer pull) = .error (.tick clk prefer pull) := by
  unfold call
  dsimp only
  rw [fails]

/-- At the last cycle a fresh manager counts deadlines until its `int` overflows. -/
theorem ledger_without_end : ∃ manager,
    resetWord twoRanks 0 = .ok manager ∧
      Transition.run (call twoRanks) manager [.tick uint64Max false false] =
        .error (.tick uint64Max false false) := by
  have endless : tickWord { rankStates := [{ nextRefreshCycle := 10 }, { nextRefreshCycle := 10 }] }
      twoRanks uint64Max false false = none := by
    unfold tickWord
    dsimp only
    rw [if_neg (by decide), if_neg (by decide), List.mapM_cons,
      accrueRankWord_endless _ _ (by decide)]
    rfl
  refine ⟨{ rankStates := [{ nextRefreshCycle := 10 }, { nextRefreshCycle := 10 }] }, rfl, ?_⟩
  exact Transition.run_fails (call_fails endless)

end RefreshManager

end HbmSim
