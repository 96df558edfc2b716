/-
How much a rank can owe. One tick handles one rank, and a rank whose deadline
passes in a tick that handles another one is neither refreshed nor counted as
postponed. Where that does not happen, no rank owes more than one refresh beyond
the limit.
-/

import HbmSim.RefreshLedger

namespace HbmSim

namespace RefreshManager

/-! ### How much a rank can owe -/

/-- Ticks at consecutive cycles, with what the caller prefers in each. -/
def tickOnce (spec : DramSpec) (state : RefreshManager × Nat) (wish : Bool × Bool) :
    Except Exception (List RefreshTickResult × RefreshManager × Nat) :=
  let ticked := state.1.tick spec state.2 wish.1 wish.2
  .ok ([ticked.1], ticked.2, state.2 + 1)

/-- A rank whose deadline passes now owes no more than was postponed: nothing that an earlier tick
left aside is still open. -/
def Settled (state : RefreshManager × Nat) (_ : Bool × Bool) : Prop :=
  ∀ rank < state.1.rankStates.length, (state.1.rankState rank).nextRefreshCycle ≤ state.2 →
    (state.1.rankState rank).credit ≤ (state.1.rankState rank).postponeCount

/-- The deadlines are ahead, and no rank owes or has postponed more than it may. -/
structure WithinLimit (spec : DramSpec) (state : RefreshManager × Nat) : Prop where
  ranks : state.1.rankStates.length = max 1 spec.org.ranks
  ahead (rank : Nat) : rank < state.1.rankStates.length → Refreshes spec →
    state.2 ≤ (state.1.rankState rank).nextRefreshCycle
  debt (rank : Nat) : rank < state.1.rankStates.length →
    (state.1.rankState rank).credit ≤ spec.refreshPostponeLimit + 1
  postponed (rank : Nat) : rank < state.1.rankStates.length →
    (state.1.rankState rank).postponeCount ≤ spec.refreshPostponeLimit
  floor (rank : Nat) : rank < state.1.rankStates.length → -1 ≤ (state.1.rankState rank).credit

/-- A postponed refresh is one below the limit. -/
theorem serviceOf_postpone {spec : DramSpec} {prefer newlyDue : Bool} {state : RankRefreshState}
    (postpones : serviceOf spec prefer newlyDue state = .postpone) :
    newlyDue = true ∧ state.postponeCount < spec.refreshPostponeLimit := by
  unfold serviceOf at postpones
  dsimp only at postpones
  split at postpones
  · cases postpones
  split at postpones
  next holds => exact ⟨holds.1, holds.2.2.2.1⟩
  · split at postpones <;> cases postpones

/-- The loop over the ranks postpones no rank beyond the limit. -/
theorem Handles.limits {spec : DramSpec} {prefer : Bool} {newlyDue : List Bool}
    {accrued states : List RankRefreshState} {result : RefreshTickResult}
    (handles : Handles spec prefer newlyDue accrued result states) (rank : Nat)
    (limit : 0 ≤ spec.refreshPostponeLimit)
    (counted : (accrued.getD rank {}).postponeCount ≤ spec.refreshPostponeLimit) :
    (states.getD rank {}).postponeCount ≤ spec.refreshPostponeLimit := by
  cases handles with
  | nothing => exact counted
  | postponed handled inside unstarted serves =>
    rw [getD_set _ _ _ _ _ inside]
    split
    next => exact (serviceOf_postpone serves).2
    next => exact counted
  | batch handled inside started commands owes postponeCount pullinCount kept =>
    rw [getD_set _ _ _ _ _ inside]
    split
    next same =>
      rw [same] at counted
      rcases kept with ⟨zero, -⟩ | same
      · dsimp only
        rw [zero]
        exact limit
      · dsimp only
        rwa [same]
    next => exact counted

/-- The deadlines that a settled tick counts leave every rank within the limits. -/
theorem WithinLimit.counted {spec : DramSpec} {manager : RefreshManager} {clk rank : Nat}
    {wish : Bool × Bool} (within : WithinLimit spec (manager, clk))
    (settled : Settled (manager, clk) wish) (inside : rank < manager.rankStates.length)
    (on : Refreshes spec) :
    clk + 1 ≤ (((manager.accrueAll spec clk).map Prod.fst).getD rank {}).nextRefreshCycle ∧
      (((manager.accrueAll spec clk).map Prod.fst).getD rank {}).credit ≤
        spec.refreshPostponeLimit + 1 ∧
      (((manager.accrueAll spec clk).map Prod.fst).getD rank {}).postponeCount ≤
        spec.refreshPostponeLimit := by
  obtain ⟨passed, accrued⟩ := accrueAll_rank manager spec clk rank
  have debt := within.debt rank inside
  have postponed := within.postponed rank inside
  have credit := accrued.credit
  refine ⟨accrueAll_late manager spec clk inside on.2, ?_, accrued.postponeCount.le.trans postponed⟩
  dsimp only at credit debt postponed
  rcases Nat.eq_zero_or_pos passed with zero | positive
  · rw [credit, zero]
    split <;> omega
  · have one := accrued.passes_once (within.ahead rank inside on) (timingDelay_pos on.2)
    have due := accrued.last positive
    have owed := settled rank inside (by dsimp only; omega)
    dsimp only at owed
    rw [credit]
    split <;> omega

/-- A tick at a deadline that is settled keeps the limits. -/
theorem WithinLimit.tick {spec : DramSpec} {manager : RefreshManager} {clk : Nat}
    (within : WithinLimit spec (manager, clk)) (limit : 0 ≤ spec.refreshPostponeLimit)
    (prefer pull : Bool) (settled : Settled (manager, clk) (prefer, pull)) :
    WithinLimit spec ((manager.tick spec clk prefer pull).2, clk + 1) := by
  have ranks : manager.rankStates.length = max 1 spec.org.ranks := within.ranks
  have stays := tick_ranks clk prefer pull ranks
  by_cases on : Refreshes spec
  · refine ⟨stays, fun rank inside _ => ?_, fun rank inside => ?_, fun rank inside => ?_,
      fun rank inside => ?_⟩
    all_goals
      dsimp only at inside
      rw [stays, ← ranks] at inside
      obtain ⟨next, paid, floor⟩ := tick_entry on clk prefer pull ranks rank
      obtain ⟨late, debt, postponed⟩ := within.counted settled inside on
    · exact late.trans next.ge
    · dsimp only
      omega
    · rcases tick_cases clk prefer pull ranks with ⟨off, -⟩ | ⟨-, -, -, states⟩ | ⟨-, -, handles⟩
      · exact absurd on off
      · unfold rankState
        dsimp only
        rw [states]
        exact postponed
      · exact handles.limits rank limit postponed
    · exact floor (within.floor rank inside)
  · rcases tick_cases clk prefer pull ranks with ⟨-, same⟩ | ⟨refreshes, -⟩ | ⟨refreshes, -⟩
    · rw [same]
      exact ⟨ranks, fun _ _ refreshes => absurd refreshes on, within.debt, within.postponed,
        within.floor⟩
    · exact absurd refreshes on
    · exact absurd refreshes on

theorem ticks_return (spec : DramSpec) (state : RefreshManager × Nat) (wishes : List (Bool × Bool)) :
    ∃ results final, Transition.run (tickOnce spec) state wishes = .ok (results, final) :=
  Transition.run_total (fun _ _ => ⟨_, _, rfl⟩) state wishes

theorem reset_limit {spec : DramSpec} {clk : Nat} {manager : RefreshManager}
    (created : reset spec clk = .ok manager) : 0 ≤ spec.refreshPostponeLimit := by
  obtain ⟨_, valid, -⟩ := bind_eq_ok.mp created
  have listed : ("refresh_postpone_limit", spec.refreshPostponeLimit) ∈ nonNegativeOptions spec := by
    simp only [nonNegativeOptions, List.mem_cons, true_or, or_true]
  exact validateSpec_nonNegative valid _ listed

theorem WithinLimit.start {spec : DramSpec} {clk start : Nat} {manager : RefreshManager}
    (created : reset spec clk = .ok manager) (begins : start ≤ clk + 1) :
    WithinLimit spec (manager, start) := by
  have limit := reset_limit created
  obtain ⟨_, -, returned⟩ := bind_eq_ok.mp created
  obtain rfl := Except.ok.inj returned
  have fresh {rank : Nat} (inside : rank < (timed spec clk).rankStates.length) :
      (timed spec clk).rankState rank =
        { nextRefreshCycle := clk + timingDelay spec (refreshInterval spec) } :=
    timedAt_rankState (inside.trans_eq (timedAt_ranks ..)) _
  refine ⟨timedAt_ranks .., fun rank inside on => ?_, fun rank inside => ?_,
    fun rank inside => ?_, fun rank inside => ?_⟩
  · have positive : 0 < timingDelay spec (refreshInterval spec) := timingDelay_pos on.2
    rw [fresh inside]
    dsimp only
    omega
  · rw [fresh inside]
    dsimp only
    omega
  · rw [fresh inside]
    exact limit
  · rw [fresh inside]
    dsimp only
    omega

/-- Along ticks at consecutive cycles, each settled, no rank ever owes more than one refresh beyond
the limit. -/
theorem postponement_bounded {spec : DramSpec} {clk start : Nat} {manager : RefreshManager}
    {wishes : List (Bool × Bool)} {results : List RefreshTickResult}
    {final : RefreshManager × Nat} (created : reset spec clk = .ok manager)
    (begins : start ≤ clk + 1)
    (settled : Transition.Meets (tickOnce spec) Settled (manager, start) wishes)
    (returns : Transition.run (tickOnce spec) (manager, start) wishes = .ok (results, final)) :
    ∀ state ∈ final.1.rankStates, state.credit ≤ spec.refreshPostponeLimit + 1 := by
  have limit := reset_limit created
  have within : WithinLimit spec final :=
    @Transition.run_invariant _ _ _ _ (tickOnce spec) Settled _ _ _ _ (fun _ => WithinLimit spec)
      (fun _ state wish _ _ within settled ticked => by
        obtain ⟨-, rfl⟩ := Prod.mk.inj (Except.ok.inj ticked)
        exact within.tick limit wish.1 wish.2 settled)
      [] (WithinLimit.start created begins) settled returns
  intro state member
  obtain ⟨rank, inside, rfl⟩ := List.getElem_of_mem member
  have debt := within.debt rank inside
  unfold rankState at debt
  rwa [List.getD_eq_getElem _ _ inside] at debt

/-- A tick of `tickOnce` on words. The error is the cycle of a tick without a result. -/
def tickOnceWord (spec : DramSpec) (state : RefreshManager × Nat) (wish : Bool × Bool) :
    Except Nat (List RefreshTickResult × RefreshManager × Nat) :=
  match state.1.tickWord spec state.2 wish.1 wish.2 with
  | some (result, next) => .ok ([result], next, laterCycle state.2 1)
  | none => .error state.2

theorem ticks_words {spec : DramSpec} {banks start : Nat} {manager : RefreshManager}
    {wishes : List (Bool × Bool)} {results : List RefreshTickResult}
    {final : RefreshManager × Nat} (within : WithinLimit spec (manager, start))
    (cursor : manager.rankCursor < max 1 spec.org.ranks)
    (limit : 0 ≤ spec.refreshPostponeLimit) (accepted : validateSpec spec = .ok ())
    (counted : spec.totalBanks = .ok banks)
    (room : max 1 spec.org.ranks * max 2 (spec.refreshPostponeLimit + 1).toNat ≤ intMax)
    (fits : start + wishes.length + timingDelay spec (refreshInterval spec) ≤ uint64Max)
    (settled : Transition.Meets (tickOnce spec) Settled (manager, start) wishes)
    (returns : Transition.run (tickOnce spec) (manager, start) wishes = .ok (results, final)) :
    Transition.run (tickOnceWord spec) (manager, start) wishes = .ok (results, final) := by
  induction wishes generalizing manager start results with
  | nil =>
    cases returns
    rfl
  | cons wish wishes inductionHypothesis =>
    obtain ⟨now, next, later, ticked, runs, rfl⟩ := Transition.run_cons returns
    obtain ⟨rfl, rfl⟩ := Prod.mk.inj (Except.ok.inj ticked)
    rw [List.length_cons] at fits
    have words := tickWord_eq wish.1 wish.2 accepted counted within.ranks cursor (by omega)
      within.floor (fun on rank inside => (within.counted settled.1 inside on).2.1.trans
        (Int.self_le_toNat _)) ((Nat.mul_le_mul_left _ (Nat.le_max_left ..)).trans room)
      ((Nat.mul_le_mul_left _ (Nat.le_max_right ..)).trans room)
    have steps : tickOnceWord spec (manager, start) wish =
        .ok ([(manager.tick spec start wish.1 wish.2).1],
          (manager.tick spec start wish.1 wish.2).2, start + 1) := by
      unfold tickOnceWord
      rw [words, laterCycle_eq (by omega)]
    exact Transition.run_step steps (inductionHypothesis
      (within.tick limit wish.1 wish.2 settled.1)
      (tick_cursor start wish.1 wish.2 within.ranks cursor) (by omega) (settled.2 _ _ rfl) runs)

/-- Within the range of the types, consecutive settled ticks on words are those with numbers. -/
theorem postponement_words {spec : DramSpec} {clk start banks : Nat} {manager : RefreshManager}
    {wishes : List (Bool × Bool)} {results : List RefreshTickResult}
    {final : RefreshManager × Nat} (created : reset spec clk = .ok manager)
    (counted : spec.totalBanks = .ok banks) (begins : start ≤ clk + 1)
    (room : max 1 spec.org.ranks * max 2 (spec.refreshPostponeLimit + 1).toNat ≤ intMax)
    (fits : max clk (start + wishes.length) + timingDelay spec (refreshInterval spec) ≤ uint64Max)
    (settled : Transition.Meets (tickOnce spec) Settled (manager, start) wishes)
    (returns : Transition.run (tickOnce spec) (manager, start) wishes = .ok (results, final)) :
    resetWord spec clk = .ok manager ∧
      Transition.run (tickOnceWord spec) (manager, start) wishes = .ok (results, final) := by
  obtain ⟨_, accepted, made⟩ := bind_eq_ok.mp created
  have cursor : manager.rankCursor < max 1 spec.org.ranks := by
    cases made
    exact Nat.lt_of_lt_of_le Nat.zero_lt_one (Nat.le_max_left ..)
  refine ⟨?_, ticks_words (WithinLimit.start created begins) cursor (reset_limit created) accepted
    counted room (by omega) settled returns⟩
  unfold resetWord
  rwa [laterCycle_eq (by omega)]

instance (state : RefreshManager × Nat) (wish : Bool × Bool) : Decidable (Settled state wish) :=
  inferInstanceAs (Decidable (∀ rank < state.1.rankStates.length,
    (state.1.rankState rank).nextRefreshCycle ≤ state.2 →
      (state.1.rankState rank).credit ≤ (state.1.rankState rank).postponeCount))

/-- Twenty-nine ticks with other work, two of them at a deadline, and one without. -/
def settledWishes : List (Bool × Bool) := List.replicate 29 (true, false) ++ [(false, false)]

theorem postponement_bounded_settledWishes : ∃ manager results final,
    reset twoRanks 0 = .ok manager ∧
      Transition.run (tickOnce twoRanks) (manager, 1) settledWishes = .ok (results, final) ∧
      ∀ state ∈ final.1.rankStates, state.credit ≤ 3 + 1 := by
  have settled : Transition.Meets (tickOnce twoRanks) Settled (timed twoRanks 0, 1) settledWishes :=
    Transition.meets_of_check _ _ (by decide +kernel)
  obtain ⟨results, final, returns⟩ := ticks_return twoRanks (timed twoRanks 0, 1) settledWishes
  exact ⟨_, results, final, rfl, returns, postponement_bounded rfl (le_refl _) settled returns⟩

/-- Seventy ticks with other work in all but two of them. -/
def droppingWishes : List (Bool × Bool) :=
  (List.range 70).map fun index => (decide (index ≠ 28 ∧ index ≠ 39), false)

/-- The second rank loses its newly due marker to the first one and waits with more debt than was
postponed, past the limit. -/
theorem postponement_exceeds : ∃ manager results final,
    reset twoRanks 0 = .ok manager ∧
      Transition.run (tickOnce twoRanks) (manager, 1) droppingWishes = .ok (results, final) ∧
      ∃ state ∈ final.1.rankStates, twoRanks.refreshPostponeLimit + 1 < state.credit := by
  obtain ⟨results, final, returns⟩ := ticks_return twoRanks (timed twoRanks 0, 1) droppingWishes
  have exceeds : ((Transition.run (tickOnce twoRanks) (timed twoRanks 0, 1) droppingWishes).map
      fun ran => ran.2.1.rankStates.any fun state =>
        decide (twoRanks.refreshPostponeLimit + 1 < state.credit)) = .ok true := by
    decide +kernel
  rw [returns] at exceeds
  obtain ⟨state, member, more⟩ := List.any_eq_true.mp (Except.ok.inj exceeds)
  exact ⟨_, results, final, rfl, returns, state, member, of_decide_eq_true more⟩

/-! ### One rank -/

/-- What a single rank owes was postponed. -/
structure Alone (spec : DramSpec) (state : RefreshManager × Nat) : Prop where
  ranks : state.1.rankStates.length = 1
  one : max 1 spec.org.ranks = 1
  ahead : Refreshes spec → state.2 ≤ (state.1.rankState 0).nextRefreshCycle
  counted : 0 ≤ (state.1.rankState 0).postponeCount
  debt : (state.1.rankState 0).credit ≤ (state.1.rankState 0).postponeCount

/-- The loop over one rank leaves it owing no more than it has postponed. -/
theorem Handles.alone {spec : DramSpec} {prefer : Bool} {newlyDue : List Bool}
    {accrued states : List RankRefreshState} {result : RefreshTickResult}
    (handles : Handles spec prefer newlyDue accrued result states) (single : accrued.length = 1)
    (counted : 0 ≤ (accrued.getD 0 {}).postponeCount)
    (quiet : newlyDue.getD 0 false = false →
      (accrued.getD 0 {}).credit ≤ (accrued.getD 0 {}).postponeCount)
    (due : (accrued.getD 0 {}).credit ≤ (accrued.getD 0 {}).postponeCount + 1) :
    0 ≤ (states.getD 0 {}).postponeCount ∧
      (states.getD 0 {}).credit ≤ (states.getD 0 {}).postponeCount := by
  cases handles with
  | nothing unstarted waits =>
    refine ⟨counted, ?_⟩
    have service := waits 0 (by omega)
    unfold serviceOf at service
    dsimp only at service
    split at service
    next paid => exact paid.trans counted
    split at service
    · cases service
    split at service
    next waiting => exact quiet waiting.2.1
    · cases service
  | postponed handled inside unstarted serves =>
    obtain rfl : handled = 0 := by omega
    rw [getD_set _ _ _ _ _ inside, if_pos rfl]
    exact ⟨Int.le_add_one counted, due⟩
  | batch handled inside started commands owes postponeCount pullinCount kept =>
    obtain rfl : handled = 0 := by omega
    rw [getD_set _ _ _ _ _ inside, if_pos rfl]
    dsimp only
    rcases kept with ⟨zero, little⟩ | same
    · rw [zero]
      exact ⟨le_refl _, by omega⟩
    · rw [same]
      exact ⟨counted, by omega⟩

theorem Alone.tick {spec : DramSpec} {manager : RefreshManager} {clk : Nat}
    (alone : Alone spec (manager, clk)) (prefer pull : Bool) :
    Alone spec ((manager.tick spec clk prefer pull).2, clk + 1) := by
  have ranks : manager.rankStates.length = max 1 spec.org.ranks := alone.ranks.trans alone.one.symm
  have stays := (tick_ranks clk prefer pull ranks).trans alone.one
  have inside : 0 < manager.rankStates.length := by
    rw [alone.ranks]
    exact Nat.one_pos
  obtain ⟨passed, accrued⟩ := accrueAll_rank manager spec clk 0
  have credit := accrued.credit
  have count := accrued.postponeCount
  have counted := alone.counted
  have debt := alone.debt
  dsimp only at credit count counted debt
  rcases tick_cases clk prefer pull ranks with ⟨off, same⟩ | ⟨on, asleep, -, states⟩ |
    ⟨on, awake, handles⟩
  · rw [same]
    exact ⟨alone.ranks, alone.one, fun on => absurd on off, alone.counted, alone.debt⟩
  · rw [asleep, if_pos rfl, Int.add_zero] at credit
    have late := accrueAll_late manager spec clk inside on.2
    refine ⟨stays, alone.one, fun _ => ?_, ?_, ?_⟩
    all_goals
      unfold rankState
      dsimp only
      rw [states]
    · exact late
    · rw [count]
      exact counted
    · rw [count, credit]
      exact debt
  · rw [awake, if_neg Bool.false_ne_true] at credit
    have once := accrued.passes_once (alone.ahead on) (timingDelay_pos on.2)
    have late := accrueAll_late manager spec clk inside on.2
    have single : ((manager.accrueAll spec clk).map Prod.fst).length = 1 := by
      unfold accrueAll
      rw [List.length_map, List.length_map]
      exact alone.ranks
    obtain ⟨nonnegative, owed⟩ := handles.alone single (by rw [count]; exact counted)
      (fun quiet => by
        have none := accrued.newlyDue
        dsimp only at none
        rw [quiet] at none
        have zero : passed = 0 := Nat.eq_zero_of_not_pos (of_decide_eq_false none.symm)
        rw [credit, count, zero]
        omega)
      (by rw [credit, count]; omega)
    exact ⟨stays, alone.one, fun _ => Nat.lt_of_lt_of_le late (handles.entry 0).1.ge, nonnegative,
      owed⟩

/-- With a single rank no marker is lost: it never owes more than it has postponed. -/
theorem settled_of_one_rank {spec : DramSpec} {clk start : Nat} {manager : RefreshManager}
    (created : reset spec clk = .ok manager) (one : spec.org.ranks ≤ 1) (begins : start ≤ clk + 1)
    (wishes : List (Bool × Bool)) :
    Transition.Meets (tickOnce spec) Settled (manager, start) wishes := by
  have within := WithinLimit.start created begins
  obtain ⟨_, -, returned⟩ := bind_eq_ok.mp created
  obtain rfl := Except.ok.inj returned
  have single : max 1 spec.org.ranks = 1 := max_eq_left one
  have ranks : (timed spec clk).rankStates.length = 1 := within.ranks.trans single
  refine @Transition.Meets.of_invariant _ _ _ _ (tickOnce spec) (fun _ _ => True) _ wishes
    (Alone spec) Settled (fun state wish _ _ alone _ ticked => ?_) (fun state _ alone _ => ?_) ?_
    (Transition.Meets.of_forall fun _ _ _ => trivial)
  · obtain ⟨-, rfl⟩ := Prod.mk.inj (Except.ok.inj ticked)
    exact alone.tick wish.1 wish.2
  · intro rank inside _
    rw [alone.ranks] at inside
    obtain rfl : rank = 0 := by omega
    exact alone.debt
  · refine ⟨ranks, single, within.ahead 0 (by rw [ranks]; exact Nat.one_pos), ?_, ?_⟩
    all_goals
      show _ ≤ _
      unfold rankState timed timedAt
      rw [single]
      exact le_refl _

end RefreshManager

end HbmSim
