/-
The rotation of the bank refreshes. The batches of one rank walk through the bank
positions of one stack id after the other, whatever the deadlines, the credits and
the other ranks do; so the place of a batch is its number in the rotation, and any
full turn of the rotation refreshes every bank of the rank once.
-/

import HbmSim.RefreshLedger

namespace HbmSim

/-! ### The places of the rotation -/

/-- The number of batches in a full turn. -/
def fullTurn (spec : DramSpec) : Nat := positionsPerSid spec * max 1 spec.org.sids

/-- The command of a batch for one channel and pseudo channel. -/
def refreshCommand (spec : DramSpec) (rank place channel pseudoChannel : Nat) :
    MaintenanceCommand where
  command := if spec.lpddrDualBankRefresh then .refdb else .refpb
  decoded := {
    channel, pseudoChannel, rank
    sid := place / positionsPerSid spec % max 1 spec.org.sids
    bankGroup :=
      if spec.lpddrDualBankRefresh then
        place % positionsPerSid spec / max 1 spec.org.banksPerGroup * 2
      else place % positionsPerSid spec / max 1 spec.org.banksPerGroup
    bank := place % positionsPerSid spec % max 1 spec.org.banksPerGroup }

/-- The batch at a place of the rotation. -/
def refreshBatch (spec : DramSpec) (rank place : Nat) : List MaintenanceCommand :=
  (List.range (max 1 spec.org.channels)).flatMap fun channel =>
    (List.range (max 1 spec.org.pseudoChannels)).map (refreshCommand spec rank place channel)

/-- The cursors of a rank stand at a place. -/
structure RankRefreshState.At (spec : DramSpec) (place : Nat) (state : RankRefreshState) :
    Prop where
  flatBankCursor : state.flatBankCursor = place % positionsPerSid spec
  sidCursor : state.sidCursor = place / positionsPerSid spec % max 1 spec.org.sids

namespace RefreshManager

theorem positionsPerSid_pos (spec : DramSpec) : 0 < positionsPerSid spec := by
  unfold positionsPerSid
  split <;> exact Nat.mul_pos (by omega) (by omega)

/-- A batch is the one at its rank's place, and moves the cursors to the next place. -/
theorem seedRefreshBatch_place {spec : DramSpec} {rank place : Nat} {state : RankRefreshState}
    (bankwise : spec.refreshPolicy ≠ .allBank) (here : state.At spec place) :
    (seedRefreshBatch spec rank state).1 = refreshBatch spec rank place ∧
      (seedRefreshBatch spec rank state).2.At spec (place + 1) := by
  have positive := positionsPerSid_pos spec
  have flat : state.flatBankCursor % positionsPerSid spec = place % positionsPerSid spec := by
    rw [here.flatBankCursor, Nat.mod_mod]
  have sid : state.sidCursor % max 1 spec.org.sids =
      place / positionsPerSid spec % max 1 spec.org.sids := by
    rw [here.sidCursor, Nat.mod_mod]
  have next := Nat.div_add_mod place (positionsPerSid spec)
  have small := Nat.mod_lt place positive
  unfold seedRefreshBatch
  rw [if_neg bankwise]
  dsimp only
  rw [flat, sid]
  split
  next wraps =>
    rw [here.flatBankCursor] at wraps
    have whole : place + 1 = positionsPerSid spec * (place / positionsPerSid spec + 1) := by
      rw [Nat.mul_succ]
      omega
    refine ⟨rfl, ?_, ?_⟩
    · rw [whole]
      exact (Nat.mul_mod_right ..).symm
    · rw [whole, Nat.mul_div_cancel_left _ positive]
      dsimp only
      rw [here.sidCursor, Nat.mod_add_mod]
  next stays =>
    rw [here.flatBankCursor] at stays
    have more : place + 1 = positionsPerSid spec * (place / positionsPerSid spec) +
        (place % positionsPerSid spec + 1) := by omega
    refine ⟨rfl, ?_, ?_⟩
    · rw [more, Nat.mul_add_mod, Nat.mod_eq_of_lt (Nat.lt_of_not_le stays)]
      exact congrArg (· + 1) here.flatBankCursor
    · rw [more, Nat.mul_add_div positive, Nat.div_eq_of_lt (Nat.lt_of_not_le stays)]
      exact here.sidCursor

/-! ### What a tick on words does to the cursors -/

theorem accrueWord_cursors {selfRefresh : Bool} {clk intervalTicks rounds : Nat}
    {state : RankRefreshState} {after : RankRefreshState × Bool}
    (returns : accrueWord selfRefresh clk intervalTicks rounds state = some after) :
    after.1.flatBankCursor = state.flatBankCursor ∧ after.1.sidCursor = state.sidCursor := by
  induction rounds generalizing state after with
  | zero => cases returns
  | succ rounds inductionHypothesis =>
    unfold accrueWord at returns
    split at returns
    next =>
      obtain ⟨credit, -, counts⟩ := Option.bind_eq_some_iff.mp returns
      obtain ⟨later, rest, same⟩ := Option.bind_eq_some_iff.mp counts
      obtain rfl := Option.some.inj same
      have kept := inductionHypothesis rest
      exact kept
    next =>
      obtain rfl := Option.some.inj returns
      exact ⟨rfl, rfl⟩

theorem accrueRankWord_cursors {selfRefresh : Bool} {clk intervalTicks : Nat}
    {state : RankRefreshState} {after : RankRefreshState × Bool}
    (returns : accrueRankWord selfRefresh clk intervalTicks state = some after) :
    after.1.flatBankCursor = state.flatBankCursor ∧ after.1.sidCursor = state.sidCursor := by
  obtain ⟨later, counts, same⟩ := Option.bind_eq_some_iff.mp returns
  obtain rfl := Option.some.inj same
  dsimp only
  split <;> exact accrueWord_cursors counts

/-- What computations that are done one after the other return. -/
theorem mapM_eq_some {Item Value : Type} {compute : Item → Option Value} {items : List Item}
    {values : List Value} (returns : items.mapM compute = some values) :
    List.Forall₂ (fun item value => compute item = some value) items values := by
  induction items generalizing values with
  | nil =>
    obtain rfl := Option.some.inj returns
    exact List.Forall₂.nil
  | cons item rest inductionHypothesis =>
    rw [List.mapM_cons] at returns
    obtain ⟨value, here, returns⟩ := Option.bind_eq_some_iff.mp returns
    obtain ⟨others, later, returns⟩ := Option.bind_eq_some_iff.mp returns
    obtain rfl := Option.some.inj returns
    exact List.Forall₂.cons here (inductionHypothesis later)

/-- A tick that returns starts no batch, or handles a rank; what it did to the ranks before left
their cursors alone. -/
theorem tickWord_cases {manager next : RefreshManager} {spec : DramSpec} {clk : Nat}
    {prefer pull : Bool} {result : RefreshTickResult}
    (ranks : manager.rankStates.length = max 1 spec.org.ranks)
    (returns : manager.tickWord spec clk prefer pull = some (result, next)) :
    ∃ accrued : List RankRefreshState, accrued.length = manager.rankStates.length ∧
      (∀ rank, (accrued.getD rank {}).flatBankCursor = (manager.rankState rank).flatBankCursor ∧
        (accrued.getD rank {}).sidCursor = (manager.rankState rank).sidCursor) ∧
      (result.startedBatch = false ∧ next.rankStates = accrued ∨
        ∃ newlyDue, Handles spec prefer newlyDue accrued result next.rankStates) := by
  unfold tickWord at returns
  dsimp only at returns
  split at returns
  next =>
    obtain ⟨rfl, rfl⟩ := Prod.mk.inj (Option.some.inj returns)
    exact ⟨manager.rankStates, rfl, fun _ => ⟨rfl, rfl⟩, Or.inl ⟨rfl, rfl⟩⟩
  rw [if_neg (not_not.mpr ranks)] at returns
  obtain ⟨accrued, counts, returns⟩ := Option.bind_eq_some_iff.mp returns
  have each := mapM_eq_some counts
  have length : (accrued.map Prod.fst).length = manager.rankStates.length := by
    rw [List.length_map, each.length_eq]
  refine ⟨accrued.map Prod.fst, length, fun rank => ?_, ?_⟩
  · unfold rankState
    by_cases inside : rank < manager.rankStates.length
    · have other : rank < accrued.length := by rwa [← each.length_eq]
      rw [List.getD_eq_getElem _ _ inside, List.getD_eq_getElem _ _ (by rwa [length]),
        List.getElem_map]
      exact accrueRankWord_cursors (each.get inside other)
    · have outside := Nat.le_of_not_lt inside
      rw [List.getD_eq_default _ _ outside, List.getD_eq_default _ _ (by rwa [length])]
      exact ⟨rfl, rfl⟩
  · split at returns
    next =>
      have served := Option.some.inj returns
      rcases serve_handles { manager with rankStates := accrued.map Prod.fst } spec
        (laterCycle clk (pullInWindow spec)) prefer pull (accrued.map Prod.snd) with
        ⟨-, idle, same⟩ | ⟨-, handles⟩
      · rw [served] at idle same
        exact Or.inl ⟨idle, congrArg RefreshManager.rankStates same⟩
      · rw [served] at handles
        exact Or.inr ⟨_, handles⟩
    next => cases returns

/-! ### The batches of a run -/

/-- The batches started for a rank, in order. -/
def batchesFor (results : List RefreshTickResult) (rank : Nat) : List (List MaintenanceCommand) :=
  (results.filter fun result => result.starts rank).map fun result => result.commands

/-- What the loop over the ranks does to the cursors of one rank: a batch for it, or nothing. -/
theorem Handles.cursors {spec : DramSpec} {prefer : Bool} {newlyDue : List Bool}
    {accrued states : List RankRefreshState} {result : RefreshTickResult}
    (handles : Handles spec prefer newlyDue accrued result states) (rank : Nat) :
    (result.starts rank = false ∧
        (states.getD rank {}).flatBankCursor = (accrued.getD rank {}).flatBankCursor ∧
        (states.getD rank {}).sidCursor = (accrued.getD rank {}).sidCursor) ∨
      (result.starts rank = true ∧
        result.commands = (seedRefreshBatch spec rank (accrued.getD rank {})).1 ∧
        (states.getD rank {}).flatBankCursor =
          (seedRefreshBatch spec rank (accrued.getD rank {})).2.flatBankCursor ∧
        (states.getD rank {}).sidCursor =
          (seedRefreshBatch spec rank (accrued.getD rank {})).2.sidCursor) := by
  have idle (unstarted : result.startedBatch = false) : result.starts rank = false := by
    unfold RefreshTickResult.starts
    rw [unstarted, Bool.false_and]
  cases handles with
  | nothing unstarted => exact Or.inl ⟨idle unstarted, rfl, rfl⟩
  | postponed handled inside unstarted =>
    refine Or.inl ⟨idle unstarted, ?_⟩
    rw [getD_set _ _ _ _ _ inside]
    split
    next same =>
      rw [same]
      exact ⟨rfl, rfl⟩
    next => exact ⟨rfl, rfl⟩
  | batch handled inside started commands owes postponeCount pullinCount counted =>
    have named := seedRefreshBatch_starts spec handled (accrued.getD handled {}) rank
    unfold RefreshTickResult.starts
    rw [started, commands, Bool.true_and, named, getD_set _ _ _ _ _ inside]
    by_cases same : rank = handled
    · rw [if_pos same, same]
      exact Or.inr ⟨decide_eq_true rfl, rfl, rfl, rfl⟩
    · rw [if_neg same]
      exact Or.inl ⟨decide_eq_false same, rfl, rfl⟩

/-- The batches of a rank are those at the places from the first on, and its cursors stand at the
next one. -/
structure Rotates (spec : DramSpec) (results : List RefreshTickResult) (manager : RefreshManager) :
    Prop where
  ranks : manager.rankStates.length = max 1 spec.org.ranks
  batches (rank : Nat) : batchesFor results rank =
    (List.range (batchesFor results rank).length).map (refreshBatch spec rank)
  cursors (rank : Nat) : (manager.rankState rank).At spec (batchesFor results rank).length

theorem batchesFor_concat (results : List RefreshTickResult) (result : RefreshTickResult)
    (rank : Nat) :
    batchesFor (results ++ [result]) rank =
      batchesFor results rank ++ if result.starts rank then [result.commands] else [] := by
  unfold batchesFor
  rw [List.filter_append, List.map_append, List.filter_singleton]
  cases result.starts rank <;> rfl

/-- A tick that starts the next batch of a rank, or leaves the rank's cursors alone, keeps the
rotation. -/
theorem Rotates.step {spec : DramSpec} {results : List RefreshTickResult}
    {manager next : RefreshManager} {result : RefreshTickResult}
    (rotates : Rotates spec results manager)
    (ranks : next.rankStates.length = max 1 spec.org.ranks)
    (step : ∀ rank,
      (result.starts rank = false ∧
        (next.rankState rank).At spec (batchesFor results rank).length) ∨
      (result.starts rank = true ∧
        result.commands = refreshBatch spec rank (batchesFor results rank).length ∧
        (next.rankState rank).At spec ((batchesFor results rank).length + 1))) :
    Rotates spec (results ++ [result]) next := by
  refine ⟨ranks, fun rank => ?_, fun rank => ?_⟩
  · rw [batchesFor_concat]
    rcases step rank with ⟨idle, -⟩ | ⟨started, commands, -⟩
    · rw [idle, if_neg Bool.false_ne_true, List.append_nil]
      exact rotates.batches rank
    · rw [started, if_pos rfl, List.length_append, List.length_singleton, List.range_succ,
        List.map_append, ← rotates.batches rank, commands]
      rfl
  · rw [batchesFor_concat]
    rcases step rank with ⟨idle, stays⟩ | ⟨started, -, moves⟩
    · rw [idle, if_neg Bool.false_ne_true, List.append_nil]
      exact stays
    · rw [started, if_pos rfl, List.length_append]
      exact moves

theorem Handles.length {spec : DramSpec} {prefer : Bool} {newlyDue : List Bool}
    {accrued states : List RankRefreshState} {result : RefreshTickResult}
    (handles : Handles spec prefer newlyDue accrued result states) :
    states.length = accrued.length := by
  cases handles with
  | nothing => rfl
  | postponed => exact List.length_set
  | batch => exact List.length_set

theorem Rotates.tick {spec : DramSpec} {results : List RefreshTickResult}
    {manager next : RefreshManager} {result : RefreshTickResult} {clk : Nat} {prefer pull : Bool}
    (bankwise : spec.refreshPolicy ≠ .allBank) (rotates : Rotates spec results manager)
    (returns : manager.tickWord spec clk prefer pull = some (result, next)) :
    Rotates spec (results ++ [result]) next := by
  obtain ⟨accrued, length, kept, handled⟩ := tickWord_cases rotates.ranks returns
  have counted (rank : Nat) : (accrued.getD rank {}).At spec (batchesFor results rank).length :=
    ⟨(kept rank).1.trans (rotates.cursors rank).flatBankCursor,
      (kept rank).2.trans (rotates.cursors rank).sidCursor⟩
  rcases handled with ⟨idle, states⟩ | ⟨newlyDue, handles⟩
  · refine rotates.step ((congrArg List.length states).trans (length.trans rotates.ranks))
      fun rank => Or.inl ⟨?_, ?_⟩
    · unfold RefreshTickResult.starts
      rw [idle, Bool.false_and]
    · unfold rankState
      rw [states]
      exact counted rank
  · refine rotates.step (handles.length.trans (length.trans rotates.ranks)) fun rank => ?_
    rcases handles.cursors rank with ⟨idle, flat, sid⟩ | ⟨started, commands, flat, sid⟩
    · exact Or.inl ⟨idle, flat.trans (counted rank).flatBankCursor,
        sid.trans (counted rank).sidCursor⟩
    · obtain ⟨batch, moves⟩ := @seedRefreshBatch_place spec rank _ _ bankwise (counted rank)
      exact Or.inr ⟨started, commands.trans batch, flat.trans moves.flatBankCursor,
        sid.trans moves.sidCursor⟩

theorem Rotates.start {spec : DramSpec} {manager : RefreshManager} {start : Nat}
    (created : resetWord spec start = .ok manager) : Rotates spec [] manager := by
  obtain ⟨_, -, returned⟩ := bind_eq_ok.mp created
  obtain rfl := Except.ok.inj returned
  refine ⟨timedAt_ranks .., fun rank => rfl, fun rank => ?_⟩
  have fresh (deadline : Nat) : ((timedAt spec deadline).rankState rank).flatBankCursor = 0 ∧
      ((timedAt spec deadline).rankState rank).sidCursor = 0 := by
    unfold rankState timedAt
    rw [List.getD_eq_getElem?_getD, List.getElem?_replicate]
    split <;> exact ⟨rfl, rfl⟩
  refine ⟨(fresh _).1.trans (Nat.zero_mod _).symm, (fresh _).2.trans ?_⟩
  rw [show (batchesFor [] rank).length = 0 from rfl, Nat.zero_div, Nat.zero_mod]

/-- The batches of every rank follow the rotation in every run that returns. -/
theorem run_rotates {spec : DramSpec} {start : Nat} {manager after : RefreshManager}
    {calls : List RefreshCall} {results : List RefreshTickResult}
    (bankwise : spec.refreshPolicy ≠ .allBank) (created : resetWord spec start = .ok manager)
    (returns : Transition.run (call spec) manager calls = .ok (results, after)) :
    Rotates spec results after := by
  refine @Transition.run_invariant _ _ _ _ (call spec) (fun _ _ => True) _ _ _ _ (Rotates spec)
    (fun results manager call now after rotates _ called => ?_) [] (Rotates.start created)
    (Transition.Meets.of_forall fun _ _ _ => trivial) returns
  cases call with
  | setSelfRefresh active =>
    obtain ⟨rfl, rfl⟩ := Prod.mk.inj (Except.ok.inj called)
    rw [List.append_nil]
    exact ⟨rotates.ranks, rotates.batches, rotates.cursors⟩
  | tick clk prefer pull =>
    unfold RefreshManager.call at called
    dsimp only at called
    split at called
    next result next ticked =>
      obtain ⟨rfl, rfl⟩ := Prod.mk.inj (Except.ok.inj called)
      exact rotates.tick bankwise ticked
    next => cases called

/-! ### What a full turn refreshes -/

/-- The banks a command refreshes: a dual-bank refresh takes the partner of its bank along. -/
def refreshTargets (spec : DramSpec) (command : MaintenanceCommand) : List DecodedAddress :=
  if command.command = .refdb then [command.decoded, lpddrRefdbPartner spec command.decoded]
  else [command.decoded]

/-- The bank position within its stack id. -/
def positionOf (spec : DramSpec) (target : DecodedAddress) : Nat :=
  (if spec.lpddrDualBankRefresh then target.bankGroup / 2 else target.bankGroup) *
    spec.org.banksPerGroup + target.bank

/-- The place of a bank in the rotation. -/
def placeOf (spec : DramSpec) (target : DecodedAddress) : Nat :=
  target.sid * positionsPerSid spec + positionOf spec target

/-- A bank of a rank. -/
structure BankOf (spec : DramSpec) (rank : Nat) (target : DecodedAddress) : Prop where
  channel : target.channel < spec.org.channels
  pseudoChannel : target.pseudoChannel < spec.org.pseudoChannels
  sid : target.sid < spec.org.sids
  rank : target.rank = rank
  bankGroup : target.bankGroup < spec.org.bankGroups
  bank : target.bank < spec.org.banksPerGroup
  row : target.row = 0
  column : target.column = 0

variable {spec : DramSpec} {rank place : Nat} {target : DecodedAddress}

/-- A quotient and a remainder determine a number. -/
theorem eq_iff_div_mod {value base quotient remainder : Nat} (small : remainder < base) :
    value = quotient * base + remainder ↔ value / base = quotient ∧ value % base = remainder := by
  have split := Nat.div_add_mod' value base
  constructor
  · rintro rfl
    exact ⟨by rw [Nat.mul_comm, Nat.mul_add_div (Nat.zero_lt_of_lt small), Nat.div_eq_of_lt small,
      Nat.add_zero], by rw [Nat.mul_comm, Nat.mul_add_mod, Nat.mod_eq_of_lt small]⟩
  · rintro ⟨rfl, rfl⟩
    exact split.symm

theorem positionOf_lt (even : spec.lpddrDualBankRefresh = true → spec.org.bankGroups % 2 = 0)
    (inside : BankOf spec rank target) : positionOf spec target < positionsPerSid spec := by
  have group := inside.bankGroup
  have place := inside.bank
  unfold positionOf positionsPerSid
  cases dual : spec.lpddrDualBankRefresh
  · rw [if_neg Bool.false_ne_true, if_neg Bool.false_ne_true]
    have room : (target.bankGroup + 1) * spec.org.banksPerGroup ≤
        spec.org.bankGroups * spec.org.banksPerGroup := Nat.mul_le_mul_right _ group
    rw [Nat.succ_mul] at room
    rw [max_eq_right (by omega), max_eq_right (by omega)]
    omega
  · have pairs := even dual
    rw [if_pos rfl, if_pos rfl]
    have room : (target.bankGroup / 2 + 1) * spec.org.banksPerGroup ≤
        spec.org.bankGroups / 2 * spec.org.banksPerGroup := Nat.mul_le_mul_right _ (by omega)
    rw [Nat.succ_mul] at room
    have groups : max 1 (max 1 spec.org.bankGroups / 2) = spec.org.bankGroups / 2 := by omega
    rw [groups, max_eq_right (by omega)]
    omega

/-- A place of the rotation is a bank's when the stack id and the position are. -/
theorem place_iff (even : spec.lpddrDualBankRefresh = true → spec.org.bankGroups % 2 = 0)
    (inside : BankOf spec rank target) :
    place % fullTurn spec = placeOf spec target ↔
      place / positionsPerSid spec % max 1 spec.org.sids = target.sid ∧
        place % positionsPerSid spec = positionOf spec target := by
  have below := positionOf_lt even inside
  have sid := inside.sid
  unfold fullTurn
  rw [Nat.mod_mul, Nat.add_comm, Nat.mul_comm (positionsPerSid spec)]
  constructor
  · intro same
    have positive := positionsPerSid_pos spec
    have read := (eq_iff_div_mod below).mp same
    rw [Nat.add_comm, Nat.add_mul_div_right _ _ positive, Nat.add_mul_mod_self_right, Nat.mod_mod,
      Nat.div_eq_of_lt (Nat.mod_lt _ positive), Nat.zero_add] at read
    exact read
  · rintro ⟨first, second⟩
    rw [first, second]
    rfl

/-- The partner of the even bank group of a pair is the odd one. -/
theorem partner_of_even {decoded : DecodedAddress} {half : Nat}
    (even : 2 ≤ spec.org.bankGroups ∧ spec.org.bankGroups % 2 = 0)
    (group : decoded.bankGroup = half * 2) (below : half < spec.org.bankGroups / 2) :
    lpddrRefdbPartner spec decoded = { decoded with bankGroup := half * 2 + 1 } := by
  have odd : half * 2 ^^^ 1 = half * 2 + 1 := Nat.xor_one_of_even ⟨half, Nat.mul_two half⟩
  unfold lpddrRefdbPartner
  dsimp only
  rw [if_neg (by omega), group, odd, if_neg (by omega)]

/-- The pairs of bank groups a dual-bank refresh walks through. -/
theorem pair_lt (dual : spec.lpddrDualBankRefresh = true)
    (even : 2 ≤ spec.org.bankGroups ∧ spec.org.bankGroups % 2 = 0) :
    place % positionsPerSid spec / max 1 spec.org.banksPerGroup < spec.org.bankGroups / 2 := by
  have small := Nat.mod_lt place (positionsPerSid_pos spec)
  have groups : max 1 (max 1 spec.org.bankGroups / 2) = spec.org.bankGroups / 2 := by omega
  refine (Nat.div_lt_iff_lt_mul (by omega)).mpr ?_
  unfold positionsPerSid at small ⊢
  rwa [if_pos dual, groups] at small ⊢

/-- A command refreshes a bank of its rank if it is for the bank's channels and stands at its
place. -/
theorem mem_refreshTargets
    (even : spec.lpddrDualBankRefresh = true →
      2 ≤ spec.org.bankGroups ∧ spec.org.bankGroups % 2 = 0)
    (inside : BankOf spec rank target) (channel pseudoChannel : Nat) :
    target ∈ refreshTargets spec (refreshCommand spec rank place channel pseudoChannel) ↔
      channel = target.channel ∧ pseudoChannel = target.pseudoChannel ∧
        place % fullTurn spec = placeOf spec target := by
  rw [place_iff (fun dual => (even dual).2) inside]
  have bounds := inside
  obtain ⟨c, p, s, r, g, b, row, column⟩ := target
  obtain ⟨-, -, -, rfl, group, bank, rfl, rfl⟩ := inside
  dsimp only at group bank
  have perGroup : max 1 spec.org.banksPerGroup = spec.org.banksPerGroup := max_eq_right (by omega)
  unfold positionOf refreshTargets refreshCommand
  cases dual : spec.lpddrDualBankRefresh
  · simp only [Bool.false_eq_true, if_false, List.mem_singleton, reduceCtorEq,
      DecodedAddress.mk.injEq, perGroup, true_and, and_true]
    rw [eq_iff_div_mod bank]
    tauto
  · have paired := even dual
    have pair := @pair_lt spec place dual paired
    simp only [if_true]
    rw [@partner_of_even spec _ (place % positionsPerSid spec / max 1 spec.org.banksPerGroup)
      paired rfl pair, eq_iff_div_mod bank]
    simp only [List.mem_cons, List.not_mem_nil, or_false, DecodedAddress.mk.injEq, perGroup,
      true_and, and_true]
    -- Either bank group of the pair has the pair's number for its half.
    have half : g = place % positionsPerSid spec / spec.org.banksPerGroup * 2 ∨
        g = place % positionsPerSid spec / spec.org.banksPerGroup * 2 + 1 ↔
          place % positionsPerSid spec / spec.org.banksPerGroup = g / 2 := by omega
    rw [← half]
    tauto

theorem refreshTargets_nodup
    (even : spec.lpddrDualBankRefresh = true →
      2 ≤ spec.org.bankGroups ∧ spec.org.bankGroups % 2 = 0) (channel pseudoChannel : Nat) :
    (refreshTargets spec (refreshCommand spec rank place channel pseudoChannel)).Nodup := by
  unfold refreshTargets
  split
  next refdb =>
    have dual : spec.lpddrDualBankRefresh = true := by
      by_contra single
      rw [refreshCommand, if_neg single] at refdb
      cases refdb
    have group : (refreshCommand spec rank place channel pseudoChannel).decoded.bankGroup =
        place % positionsPerSid spec / max 1 spec.org.banksPerGroup * 2 := if_pos dual
    rw [partner_of_even (even dual) group (pair_lt dual (even dual))]
    refine List.nodup_cons.mpr ⟨fun same => ?_, List.nodup_singleton _⟩
    have clash := group.symm.trans (congrArg DecodedAddress.bankGroup (List.mem_singleton.mp same))
    exact Nat.ne_of_lt (Nat.lt_succ_self _) clash
  next => exact List.nodup_singleton _

/-- A sum over a range with one value other than zero. -/
theorem sum_single {length index value : Nat} {term : Nat → Nat} (inside : index < length)
    (only : ∀ other, term other = if other = index then value else 0) :
    ((List.range length).map term).sum = value := by
  rw [funext only]
  show (Finset.range length).sum (fun other => if other = index then value else 0) = value
  exact (Finset.sum_ite_eq' ..).trans (if_pos (Finset.mem_range.mpr inside))

/-- A batch refreshes a bank of its rank once if it stands at the bank's place, and not at all
if it does not. -/
theorem count_refreshBatch (accepted : validateSpec spec = .ok ())
    (inside : BankOf spec rank target) :
    ((refreshBatch spec rank place).flatMap (refreshTargets spec)).count target =
      if place % fullTurn spec = placeOf spec target then 1 else 0 := by
  have even := fun dual => validateSpec_bankGroups accepted dual
  have channel : target.channel < max 1 spec.org.channels :=
    Nat.lt_of_lt_of_le inside.channel (Nat.le_max_right ..)
  have pseudoChannel : target.pseudoChannel < max 1 spec.org.pseudoChannels :=
    Nat.lt_of_lt_of_le inside.pseudoChannel (Nat.le_max_right ..)
  have once (c p : Nat) :
      (refreshTargets spec (refreshCommand spec rank place c p)).count target =
        if c = target.channel ∧ p = target.pseudoChannel ∧
          place % fullTurn spec = placeOf spec target then 1 else 0 := by
    rw [(refreshTargets_nodup even c p).count]
    exact if_congr (mem_refreshTargets even inside c p) rfl rfl
  unfold refreshBatch
  rw [List.flatMap_assoc, List.count_flatMap]
  refine sum_single channel fun c => ?_
  rw [Function.comp_apply, List.flatMap_map, List.count_flatMap]
  split
  next here =>
    refine sum_single pseudoChannel fun p => ?_
    rw [Function.comp_apply, once, if_congr (and_iff_right here) rfl rfl, ite_and]
  next elsewhere =>
    refine List.sum_eq_zero fun term member => ?_
    obtain ⟨p, -, rfl⟩ := List.mem_map.mp member
    rw [Function.comp_apply, once, if_neg fun both => elsewhere both.1]

theorem placeOf_lt (even : spec.lpddrDualBankRefresh = true → spec.org.bankGroups % 2 = 0)
    (inside : BankOf spec rank target) : placeOf spec target < fullTurn spec := by
  have below := positionOf_lt even inside
  have sid := inside.sid
  have room : (target.sid + 1) * positionsPerSid spec ≤ max 1 spec.org.sids * positionsPerSid spec :=
    Nat.mul_le_mul_right _ (by omega)
  unfold placeOf fullTurn
  rw [Nat.mul_comm (positionsPerSid spec)]
  rw [Nat.succ_mul] at room
  omega

/-- As many numbers in a row as the base have each remainder once. -/
theorem count_turn {base remainder : Nat} (small : remainder < base) (first : Nat) :
    ((List.range' first base).map fun place => if place % base = remainder then 1 else 0).sum =
      1 := by
  have periodic : Function.Periodic (fun place => place % base = remainder) base := fun place => by
    dsimp only
    rw [Nat.add_mod_right]
  have turn := Nat.filter_Ico_card_eq_of_periodic first base _ periodic
  rw [Nat.count_eq_card_filter_range, Finset.card_filter, Finset.card_filter] at turn
  have interval : Finset.Ico first (first + base) = ⟨List.range' first base, List.nodup_range'⟩ := by
    show (⟨List.range' first (first + base - first), _⟩ : Finset Nat) = _
    simp only [Nat.add_sub_cancel_left]
  have single : ∀ place ∈ Finset.range base, (if place % base = remainder then 1 else 0) =
      if place = remainder then 1 else 0 := fun place member => by
    rw [Nat.mod_eq_of_lt (Finset.mem_range.mp member)]
  rw [interval, Finset.sum_congr rfl single, Finset.sum_ite_eq',
    if_pos (Finset.mem_range.mpr small)] at turn
  exact turn

/-- Any full turn of the rotation, wherever it starts, refreshes every bank of the rank once. -/
theorem window_refreshes_once {start : Nat} {manager after : RefreshManager}
    {calls : List RefreshCall} {results : List RefreshTickResult}
    {before window later : List (List MaintenanceCommand)}
    (bankwise : spec.refreshPolicy ≠ .allBank) (created : resetWord spec start = .ok manager)
    (returns : Transition.run (call spec) manager calls = .ok (results, after))
    (consecutive : batchesFor results rank = before ++ window ++ later)
    (full : window.length = fullTurn spec) (inside : BankOf spec rank target) :
    (window.flatten.flatMap (refreshTargets spec)).count target = 1 := by
  obtain ⟨_, accepted, -⟩ := bind_eq_ok.mp created
  have even := fun dual => (validateSpec_bankGroups accepted dual).2
  have rotation := (run_rotates bankwise created returns).batches rank
  have batches : window =
      (List.range' before.length (fullTurn spec)).map (refreshBatch spec rank) := by
    rw [consecutive] at rotation
    have cut := congrArg (List.take window.length)
      (congrArg (List.drop before.length) rotation)
    rw [List.append_assoc, List.drop_append_length, List.take_append_length, ← List.map_drop,
      ← List.map_take, List.range_eq_range', List.drop_range', List.take_range'_of_length_ge
      (by simp only [List.length_append]; omega), Nat.zero_add, Nat.mul_one, full] at cut
    exact cut
  rw [batches, ← List.flatMap_def, List.flatMap_assoc, List.count_flatMap]
  simp only [Function.comp_def, count_refreshBatch accepted inside]
  exact count_turn (placeOf_lt even inside) before.length

/-- One rank of two stack ids with three banks in each of two bank groups, refreshed in pairs. -/
def pairedBanks : DramSpec where
  org := { sids := 2, bankGroups := 2, banksPerGroup := 3, rows := 4, columns := 4 }
  speedBinMbps := 6400
  stackHeight := 1
  supportsRefresh := true
  lpddrDualBankRefresh := true
  refreshPolicy := .perBank
  timing := { nREFIpb := 1 }

/-- A full turn after two batches: every tick starts the batch of the deadline it reaches. -/
def turnCalls : List RefreshCall := (List.range 8).map fun index => .tick (index + 1) false false

theorem window_refreshes_once_pairedBanks : ∃ manager results after,
    resetWord pairedBanks 0 = .ok manager ∧
      Transition.run (call pairedBanks) manager turnCalls = .ok (results, after) ∧
      (batchesFor results 0).length = 8 ∧
      (((batchesFor results 0).drop 2).flatten.flatMap (refreshTargets pairedBanks)).count
        { sid := 1, bankGroup := 1, bank := 2 } = 1 := by
  have created : resetWord pairedBanks 0 = .ok (timedAt pairedBanks 1) := rfl
  have counted : (Transition.run (call pairedBanks) (timedAt pairedBanks 1) turnCalls).map
      (fun ran => (batchesFor ran.1 0).length) = .ok 8 := by decide +kernel
  cases returns : Transition.run (call pairedBanks) (timedAt pairedBanks 1) turnCalls with
  | error failed =>
    rw [returns] at counted
    cases counted
  | ok ran =>
    obtain ⟨results, after⟩ := ran
    rw [returns] at counted
    have eight : (batchesFor results 0).length = 8 := Except.ok.inj counted
    have cut : batchesFor results 0 =
        (batchesFor results 0).take 2 ++ (batchesFor results 0).drop 2 ++ [] := by
      rw [List.append_nil, List.take_append_drop]
    have full : ((batchesFor results 0).drop 2).length = fullTurn pairedBanks := by
      rw [List.length_drop, eight]
      rfl
    exact ⟨timedAt pairedBanks 1, results, after, created, returns, eight,
      window_refreshes_once (by decide) created returns cut full (by constructor <;> decide)⟩

/-- An organization that is accepted, with more banks in a stack id than an `int` counts. -/
def vastStackId : DramSpec where
  org := { bankGroups := 65536, banksPerGroup := 65536, rows := 4, columns := 4 }
  speedBinMbps := 6400
  stackHeight := 1
  supportsRefresh := true
  refreshPolicy := .perBank
  timing := { nREFIpb := 1 }

/-- Its first batch overflows the product it counts the banks with. -/
theorem vast_batch_overflows : ∃ manager,
    resetWord vastStackId 0 = .ok manager ∧ vastStackId.totalBanks.toOption = none ∧
      Transition.run (call vastStackId) manager [.tick 1 false false] =
        .error (.tick 1 false false) := by
  have overflows : (timedAt vastStackId 1).tickWord vastStackId 1 false false = none := by
    decide +kernel
  exact ⟨timedAt vastStackId 1, rfl, by decide, Transition.run_fails (call_fails overflows)⟩

end RefreshManager

end HbmSim
