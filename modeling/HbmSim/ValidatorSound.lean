/-
What a trace without errors is known to respect: the constraint table pair by
pair, the activation window, and the rows of the data commands.

The replay folds the trace into ready times, recent activates and open rows.
Each of these says something about the whole prefix, and that is what the
invariant of this file states, part by part.
-/

import HbmSim.ActivationWindow
import HbmSim.Lib.History
import HbmSim.PrechargeGate
import HbmSim.TimingMeaning
import HbmSim.Validator

namespace HbmSim

/-! ### What a trace respects -/

/-- The later address is in a bucket that the constraint holds back after the earlier one. -/
def Matching (constraint : TimingConstraint) (earlier later : DecodedAddress) : Prop :=
  if constraint.sibling then parentOf constraint.scope earlier = parentOf constraint.scope later ∧
    bucketOf constraint.scope earlier ≠ bucketOf constraint.scope later
  else bucketOf constraint.scope earlier = bucketOf constraint.scope later

/-- Every two commands of a trace keep the distance of every constraint between them. -/
def TableRespected (spec : DramSpec) (trace : List IssuedCommand) : Prop :=
  trace.Pairwise fun earlier later => ∀ constraint ∈ spec.timingConstraints,
    constraint.window = 0 → earlier.command ∈ constraint.preceding →
    later.command ∈ constraint.following → Matching constraint earlier.decoded later.decoded →
    earlier.cycle + timingDelay spec constraint.latency ≤ later.cycle

/-- A completed activation of the bank. -/
def Activates (record : IssuedCommand) (decoded : DecodedAddress) : Prop :=
  (record.command = .act ∨ record.command = .act2) ∧
    bucketOf .bank record.decoded = bucketOf .bank decoded

def Closes (record : IssuedCommand) (decoded : DecodedAddress) : Prop :=
  ((record.command = .pre ∨ record.command = .prepb ∨ record.command = .rda ∨
      record.command = .wra) ∧ bucketOf .bank record.decoded = bucketOf .bank decoded) ∨
    (record.command = .preab ∧ bucketOf .rank record.decoded = bucketOf .rank decoded)

/-- The latest completed activation of the bank opened the row, and nothing has closed the bank
since. -/
def LatestActivation (earlier : List IssuedCommand) (decoded : DecodedAddress) (row : Nat) :
    Prop :=
  ∃ before activation between, earlier = before ++ activation :: between ∧
    Activates activation decoded ∧ activation.decoded.row = row ∧
    ∀ record ∈ between, ¬ Activates record decoded ∧ ¬ Closes record decoded

theorem LatestActivation.extend {issued : IssuedCommand} {earlier : List IssuedCommand}
    {decoded : DecodedAddress} {row : Nat} (latest : LatestActivation earlier decoded row)
    (apart : ¬ Activates issued decoded ∧ ¬ Closes issued decoded) :
    LatestActivation (earlier ++ [issued]) decoded row := by
  obtain ⟨before, activation, between, rfl, activates, isRow, quiet⟩ := latest
  refine ⟨before, activation, between ++ [issued], ?_, activates, isRow, ?_⟩
  · rw [List.append_assoc, List.cons_append]
  · exact List.forall_mem_append.mpr ⟨quiet, List.forall_mem_singleton.mpr apart⟩

/-- Every data command addresses the row that its bank has open. -/
def RowsOwned (trace : List IssuedCommand) : Prop :=
  History.Each (fun earlier access => (commandMeta access.command).data = true →
    LatestActivation earlier access.decoded access.decoded.row) trace

/-- Five successive activates of one scope span the activation window. -/
def ActivationsSpaced (spec : DramSpec) (trace : List IssuedCommand) : Prop :=
  ∀ scope, Window.Spaced 4 (activateWindow spec) (activatesIn spec scope trace)

namespace Validator

open Controller

variable {spec : DramSpec} {issued : IssuedCommand} {trace : List IssuedCommand}
variable {state : State}

/-! ### Clean commands -/

theorem failures_eq_nil {requirements : List (Bool × String)} :
    failures requirements = [] ↔ ∀ requirement ∈ requirements, requirement.1 = true := by
  unfold failures
  rw [List.map_eq_nil_iff, List.filter_eq_nil_iff]
  simp

theorem inBounds_of_inRange (inRange : decodedInRange spec issued = true) :
    issued.decoded.InBounds spec := by
  obtain ⟨-, channel, pseudoChannel, sid, rank, bankGroup, bank, row, column⟩ :=
    of_decide_eq_true inRange
  exact ⟨channel, pseudoChannel, sid, rank, bankGroup, bank, row, column⟩

theorem replay_concat (spec : DramSpec) (trace : List IssuedCommand) (issued : IssuedCommand) :
    replay spec (trace ++ [issued]) =
      (((replay spec trace).1 ++
          (step spec issued (replay spec trace).2).1.map (errorText issued)).take
        maxValidationErrors, (step spec issued (replay spec trace).2).2) := by
  unfold replay
  rw [List.foldl_append]
  rfl

/-- A clean trace ends with a clean command inside the geometry. -/
theorem replay_clean (clean : (replay spec (trace ++ [issued])).1 = []) :
    (replay spec trace).1 = [] ∧ decodedInRange spec issued = true ∧
      checkCommand spec issued (replay spec trace).2 = [] ∧
      (replay spec (trace ++ [issued])).2 = replayCommand spec issued (replay spec trace).2 := by
  rw [replay_concat] at clean ⊢
  have none : (replay spec trace).1 ++
      (step spec issued (replay spec trace).2).1.map (errorText issued) = [] := by
    rcases List.take_eq_nil_iff.mp clean with absurd | none
    · cases absurd
    · exact none
  obtain ⟨before, here⟩ := List.append_eq_nil_iff.mp none
  rw [List.map_eq_nil_iff] at here
  unfold step at here ⊢
  split at here
  next inRange =>
    rw [if_pos inRange]
    exact ⟨before, inRange, here, rfl⟩
  next => cases here

/-! ### The table -/

theorem le_updateScopes {scope : TimingScope} {select : Nat → Bool}
    {change : ScopeState → ScopeState} {command : Command}
    (raises : ∀ state, state.nextCommand command ≤ (change state).nextCommand command)
    (scopes : TimingScope → Nat → ScopeState) (other : TimingScope) (index : Nat) :
    (scopes other index).nextCommand command ≤
      (updateScopes scope select change scopes other index).nextCommand command := by
  unfold updateScopes
  rw [Function.update_apply]
  split
  next same =>
    subst same
    dsimp only
    split
    · exact raises _
    · exact Nat.le_refl _
  next => exact Nat.le_refl _

theorem le_holdBack (constraint : TimingConstraint) (ready : Nat) (command : Command)
    (state : ScopeState) :
    state.nextCommand command ≤ (holdBack constraint ready state).nextCommand command := by
  unfold holdBack
  dsimp only
  split
  · exact Nat.le_max_left ..
  · exact Nat.le_refl _

theorem le_updateScopes_holdBack {constraint : TimingConstraint} {ready : Nat} {command : Command}
    (follows : command ∈ constraint.following) {scope : TimingScope} {select : Nat → Bool}
    {index : Nat} (selected : select index = true) (scopes : TimingScope → Nat → ScopeState) :
    ready ≤ (updateScopes scope select (holdBack constraint ready) scopes scope index).nextCommand
      command := by
  unfold updateScopes holdBack
  rw [Function.update_self, if_pos selected]
  dsimp only
  rw [if_pos follows]
  exact Nat.le_max_right ..

theorem timingDelay_max (latency : Int) :
    timingDelay spec (max 0 latency) = timingDelay spec latency := by
  have same : (max 0 latency).toNat = latency.toNat := by omega
  unfold timingDelay
  rw [same]

theorem le_replayConstraint (scopes : TimingScope → Nat → ScopeState)
    (constraint : TimingConstraint) (scope : TimingScope) (index : Nat) (command : Command) :
    (scopes scope index).nextCommand command ≤
      (replayConstraint spec issued scopes constraint scope index).nextCommand command := by
  have raises := le_holdBack constraint
    (laterCycle issued.cycle (timingDelay spec (max 0 constraint.latency))) command
  unfold replayConstraint
  dsimp only
  split
  · exact Nat.le_refl _
  split
  · split
    · exact (le_updateScopes raises _ _ _).trans (le_updateScopes raises _ _ _)
    · exact le_updateScopes raises _ _ _
  · exact le_updateScopes raises _ _ _

/-- A constraint holds its commands back in every matching bucket. -/
theorem ready_le_replayConstraint (inside : issued.decoded.InBounds spec)
    {decoded : DecodedAddress} (inside' : decoded.InBounds spec) {constraint : TimingConstraint}
    (window : constraint.window = 0) (precedes : issued.command ∈ constraint.preceding)
    {command : Command} (follows : command ∈ constraint.following)
    (matching : Matching constraint issued.decoded decoded)
    (fits : issued.cycle + timingDelay spec constraint.latency ≤ uint64Max)
    (scopes : TimingScope → Nat → ScopeState) :
    issued.cycle + timingDelay spec constraint.latency ≤
      (scopeStateFor spec (replayConstraint spec issued scopes constraint) constraint.scope
        decoded).nextCommand command := by
  unfold replayConstraint scopeStateFor
  rw [if_neg (not_or.mpr ⟨by rw [window]; exact lt_irrefl _, not_not.mpr precedes⟩),
    timingDelay_max, laterCycle_eq fits]
  dsimp only
  unfold Matching at matching
  cases sibling : constraint.sibling with
  | false =>
    rw [sibling, if_neg nofun, ← scopeIndex_eq_iff inside inside'] at matching
    rw [if_pos rfl, ← matching]
    have reached := @le_updateScopes_holdBack constraint
      (issued.cycle + timingDelay spec constraint.latency) command follows constraint.scope
      (fun index => decide (index = scopeIndex spec constraint.scope issued.decoded)) _
      (decide_eq_true rfl) scopes
    split
    · exact reached.trans (le_updateScopes (le_holdBack _ _ _) _ _ _)
    · exact reached
  | true =>
    rw [sibling, if_pos rfl, ← siblingRange_iff inside inside', ne_eq,
      ← scopeIndex_eq_iff inside inside'] at matching
    rw [if_neg nofun]
    exact le_updateScopes_holdBack follows
      (decide_eq_true ⟨matching.1.1, matching.1.2, fun same => matching.2 same.symm⟩) scopes

/-- What every earlier record asks of the ready times. -/
def TableReady (spec : DramSpec) (trace : List IssuedCommand)
    (scopes : TimingScope → Nat → ScopeState) : Prop :=
  ∀ earlier ∈ trace, ∀ constraint ∈ spec.timingConstraints, constraint.window = 0 →
    earlier.command ∈ constraint.preceding → ∀ command ∈ constraint.following,
    ∀ decoded : DecodedAddress, decoded.InBounds spec → Matching constraint earlier.decoded decoded →
    earlier.cycle + timingDelay spec constraint.latency ≤
      (scopeStateFor spec scopes constraint.scope decoded).nextCommand command

theorem TableReady.replay {scopes : TimingScope → Nat → ScopeState}
    (ready : TableReady spec trace scopes) (inside : issued.decoded.InBounds spec)
    (fits : ∀ constraint ∈ spec.timingConstraints, constraint.window = 0 →
      issued.command ∈ constraint.preceding →
      issued.cycle + timingDelay spec constraint.latency ≤ uint64Max) :
    TableReady spec (trace ++ [issued]) (replayTable spec issued scopes) := by
  intro earlier member constraint listed window precedes command follows decoded inside' matching
  let mark := fun scopes : TimingScope → Nat → ScopeState =>
    (scopeStateFor spec scopes constraint.scope decoded).nextCommand command
  have raises : ∀ scopes other, mark scopes ≤ mark (replayConstraint spec issued scopes other) :=
    fun scopes other => le_replayConstraint scopes other _ _ command
  rcases List.mem_append.mp member with old | new
  · exact (ready earlier old constraint listed window precedes command follows decoded inside'
      matching).trans (Watermark.le_foldl raises _ scopes)
  · obtain rfl := List.mem_singleton.mp new
    exact Watermark.le_foldl_of_mem raises listed
      (ready_le_replayConstraint inside inside' window precedes follows matching
        (fits constraint listed window precedes)) scopes

/-- A command without table errors waits for all its ready times. -/
theorem nextCommand_le_of_clean {scopes : TimingScope → Nat → ScopeState}
    (clean : checkTable spec issued scopes = []) {constraint : TimingConstraint}
    (listed : constraint ∈ spec.timingConstraints) (window : constraint.window = 0)
    (follows : issued.command ∈ constraint.following) :
    (scopeStateFor spec scopes constraint.scope issued.decoded).nextCommand issued.command ≤
      issued.cycle := by
  have one := List.flatMap_eq_nil_iff.mp clean constraint listed
  rw [if_neg (not_or.mpr ⟨by rw [window]; exact lt_irrefl _, not_not.mpr follows⟩)] at one
  have waits := of_decide_eq_true (failures_eq_nil.mp one _ List.mem_cons_self)
  refine Nat.le_trans ?_ waits
  split
  · exact Nat.le_max_left ..
  · exact Nat.le_refl _

/-! ### The rows -/

/-- The banks of a rank, in the replay and by their coordinates. -/
theorem rankBankRange_iff {first second : DecodedAddress} (inside : first.InBounds spec)
    (inside' : second.InBounds spec) :
    ((rankBankRange spec first).1 ≤ scopeIndex spec .bank second ∧
      scopeIndex spec .bank second < (rankBankRange spec first).2) ↔
      bucketOf .rank first = bucketOf .rank second := by
  have below := scopeIndex_lt_scopeCount inside' .bank
  unfold rankBankRange
  dsimp only
  rw [lt_min_iff, and_iff_right below]
  exact rankInterval_iff inside inside'

/-- An open row of the replay was opened by the latest activation of its bank. -/
def BanksOpened (spec : DramSpec) (trace : List IssuedCommand) (banks : Nat → BankState) : Prop :=
  ∀ decoded : DecodedAddress, decoded.InBounds spec → ∀ row,
    (banks (scopeIndex spec .bank decoded)).openRow = some row → LatestActivation trace decoded row

theorem BanksOpened.replay {banks : Nat → BankState} (opened : BanksOpened spec trace banks)
    (inside : issued.decoded.InBounds spec) :
    BanksOpened spec (trace ++ [issued]) (replayBanks spec issued banks) := by
  intro decoded inside' row isOpen
  have sameBank := scopeIndex_eq_iff inside inside' .bank
  unfold replayBanks at isOpen
  split at isOpen
  next preab =>
    dsimp only at isOpen
    split at isOpen
    · cases isOpen
    next outside =>
      refine (opened decoded inside' row isOpen).extend ⟨?_, ?_⟩
      · rintro ⟨activate, -⟩
        rw [preab] at activate
        rcases activate with absurd | absurd <;> cases absurd
      · rintro (⟨closes, -⟩ | ⟨-, rank⟩)
        · rw [preab] at closes
          rcases closes with absurd | absurd | absurd | absurd <;> cases absurd
        · exact outside ((rankBankRange_iff inside inside').mpr rank)
  next notPreab =>
    dsimp only at isOpen
    rw [Function.update_apply] at isOpen
    split at isOpen
    next here =>
      rw [← here] at isOpen
      have same : bucketOf .bank issued.decoded = bucketOf .bank decoded := sameBank.mp here.symm
      have was := opened decoded inside' row
      unfold replayTarget at isOpen
      cases command : issued.command with
      | act | act2 =>
        rw [command] at isOpen
        exact ⟨trace, issued, [], rfl, ⟨by simp [command], same⟩, Option.some.inj isOpen,
          fun _ member => absurd member List.not_mem_nil⟩
      | act1 | pre | prepb | rda | wra =>
        rw [command] at isOpen
        cases isOpen
      | preab => exact absurd command notPreab
      | _ =>
        rw [command] at isOpen
        refine (was isOpen).extend ⟨?_, ?_⟩
        · rintro ⟨activate, -⟩
          simp [command] at activate
        · rintro (⟨closes, -⟩ | ⟨preab, -⟩)
          · simp [command] at closes
          · exact notPreab preab
    next elsewhere =>
      refine (opened decoded inside' row isOpen).extend ⟨fun activates => ?_, ?_⟩
      · exact elsewhere (sameBank.mpr activates.2).symm
      · rintro (⟨-, bank⟩ | ⟨preab, -⟩)
        · exact elsewhere (sameBank.mpr bank).symm
        · exact notPreab preab

/-- A clean data command finds its row open. -/
theorem openRow_of_clean {banks : Nat → BankState} {channel : ScopeState}
    (clean : checkState spec issued banks channel = [])
    (data : (commandMeta issued.command).data = true) :
    (banks (scopeIndex spec .bank issued.decoded)).openRow = some issued.decoded.row := by
  have opened : (banks (scopeIndex spec .bank issued.decoded)).openedRow issued.decoded.row =
      true := by
    have met := (List.forall_mem_cons.mp (failures_eq_nil.mp clean)).2
    unfold stateRequirements at met
    rcases (commandMeta_data_iff issued.command).mp data with is | is | is | is <;>
      · rw [is] at met
        exact met _ List.mem_cons_self
  unfold BankState.openedRow at opened
  rw [Bool.and_eq_true, decide_eq_true_eq] at opened
  exact opened.2

/-! ### The activation window -/

/-- The recent activates of every scope follow the trace, at every later time. -/
def WindowsFollowed (spec : DramSpec) (trace : List IssuedCommand) (scopes : Nat → ScopeState) :
    Prop :=
  ∀ now, (∀ record ∈ trace, record.cycle ≤ now) → ∀ scope,
    Window.Tracks 4 (activateWindow spec) now (activatesIn spec scope trace)
      (scopes scope).recentActs

theorem WindowsFollowed.replay {scopes : Nat → ScopeState}
    (followed : WindowsFollowed spec trace scopes)
    (ordered : ∀ record ∈ trace, record.cycle ≤ issued.cycle)
    (clean : checkFaw spec issued (scopes (scopeIndex spec spec.activationScope issued.decoded)) =
      []) : WindowsFollowed spec (trace ++ [issued]) (replayFaw spec issued scopes) := by
  intro now past scope
  obtain ⟨pastTrace, pastIssued⟩ := List.forall_mem_append.mp past
  have later : issued.cycle ≤ now := pastIssued issued List.mem_cons_self
  rw [activatesIn_concat]
  unfold replayFaw
  unfold checkFaw at clean
  cases counts : countsAsActivate issued.command with
  | false =>
    have quiet : isFawEvent issued.command = false := counts
    rw [if_neg fun both => (nomatch both.1), quiet, if_neg nofun]
    exact followed now pastTrace scope
  | true =>
    have event : isFawEvent issued.command = true := counts
    rw [event, if_pos rfl] at clean
    rw [event, if_pos rfl]
    dsimp only
    by_cases here : scopeIndex spec spec.activationScope issued.decoded = scope
    · subst here
      rw [if_pos ⟨rfl, rfl⟩, Function.update_self]
      have few := of_decide_eq_true (failures_eq_nil.mp clean _ List.mem_cons_self)
      refine (Window.Tracks.record (Window.Tracks.prune (followed issued.cycle ordered _) ?_)
        few).later later
      intro time expired
      rw [decide_eq_true_eq] at expired
      unfold activateWindow
      omega
    · rw [if_neg fun both => here both.2, Function.update_of_ne (Ne.symm here)]
      exact followed now pastTrace scope

/-! ### The whole trace -/

/-- Everything the replay of a clean trace knows. -/
structure Sound (spec : DramSpec) (trace : List IssuedCommand) (state : State) : Prop where
  table : TableRespected spec trace
  rows : RowsOwned trace
  ready : TableReady spec trace state.constraintScopes
  opened : BanksOpened spec trace state.bankStates
  windows : WindowsFollowed spec trace state.activationScopes

/-- A trace in cycle order whose ready times fit a word. -/
structure Replayable (spec : DramSpec) (trace : List IssuedCommand) : Prop where
  ordered : trace.Pairwise fun earlier later => earlier.cycle ≤ later.cycle
  fits : ∀ issued ∈ trace, ∀ constraint ∈ spec.timingConstraints, constraint.window = 0 →
    issued.command ∈ constraint.preceding →
    issued.cycle + timingDelay spec constraint.latency ≤ uint64Max

theorem Sound.replay (sound : Sound spec trace state)
    (replayable : Replayable spec (trace ++ [issued]))
    (inRange : decodedInRange spec issued = true)
    (clean : checkCommand spec issued state = []) :
    Sound spec (trace ++ [issued]) (replayCommand spec issued state) := by
  have inside := inBounds_of_inRange inRange
  have ordered := (List.pairwise_append.mp replayable.ordered).2.2
  unfold checkCommand at clean
  simp only [List.append_eq_nil_iff] at clean
  obtain ⟨⟨⟨⟨-, stateClean⟩, tableClean⟩, fawClean⟩, -⟩ := clean
  refine ⟨?_, ?_, sound.ready.replay inside (replayable.fits issued (by simp)),
    sound.opened.replay inside, sound.windows.replay (fun record member =>
      ordered record member issued List.mem_cons_self) fawClean⟩
  · refine List.pairwise_append.mpr ⟨sound.table, List.pairwise_singleton _ _, ?_⟩
    intro earlier member later isLater constraint listed window precedes follows matching
    obtain rfl := List.mem_singleton.mp isLater
    exact (sound.ready earlier member constraint listed window precedes _ follows _ inside
      matching).trans (nextCommand_le_of_clean tableClean listed window follows)
  · exact History.each_concat.mpr ⟨sound.rows, fun data =>
      sound.opened _ inside _ (openRow_of_clean stateClean data)⟩

theorem replay_sound (replayable : Replayable spec trace)
    (clean : (replay spec trace).1 = []) : Sound spec trace (replay spec trace).2 := by
  induction trace using List.reverseRecOn with
  | nil =>
    exact ⟨List.Pairwise.nil, History.Each.nil, fun _ member => absurd member List.not_mem_nil,
      fun _ _ _ isOpen => (nomatch isOpen), fun _ _ _ => Window.Tracks.start⟩
  | append_singleton trace issued inductionHypothesis =>
    obtain ⟨before, inRange, here, after⟩ := replay_clean clean
    have earlier : Replayable spec trace :=
      ⟨(List.pairwise_append.mp replayable.ordered).1,
        fun record member => replayable.fits record (List.mem_append_left _ member)⟩
    rw [after]
    exact (inductionHypothesis earlier before).replay replayable inRange here

theorem replay_clean_of_validates (clean : validateSingleStackTrace spec trace = []) :
    (replay spec trace).1 = [] := by
  unfold validateSingleStackTrace at clean
  dsimp only at clean
  generalize (replay spec trace).1 = errors at clean ⊢
  split at clean <;> split at clean
  · exact (List.append_eq_nil_iff.mp (List.append_eq_nil_iff.mp clean).1).1
  · exact (List.append_eq_nil_iff.mp clean).1
  · exact (List.append_eq_nil_iff.mp clean).1
  · exact clean

/-- A trace of one stack without errors keeps every distance of the constraint table, spaces its
activates by the activation window, and accesses open rows only. -/
theorem validateCommandTrace_sound {stack : Int}
    (validates : validateCommandTrace spec trace = .ok [])
    (single : ∀ issued ∈ trace, issued.stackId = stack) (replayable : Replayable spec trace) :
    TableRespected spec trace ∧ ActivationsSpaced spec trace ∧ RowsOwned trace := by
  have clean : (replay spec trace).1 = [] := by
    cases trace with
    | nil => rfl
    | cons first rest =>
      obtain ⟨_, -, returned⟩ := bind_eq_ok.mp validates
      have isStack : first.stackId = stack := single first List.mem_cons_self
      have listed : stack ∈ ((first :: rest).map (·.stackId)).eraseDups := by
        rw [List.mem_eraseDups, List.map_cons, isStack]
        exact List.mem_cons_self
      dsimp only at returned
      rw [if_neg (List.ne_nil_of_mem listed)] at returned
      have none := List.flatMap_eq_nil_iff.mp (Except.ok.inj returned) stack listed
      rw [List.map_eq_nil_iff, List.filter_eq_self.mpr fun issued member =>
        decide_eq_true (single issued member)] at none
      exact replay_clean_of_validates none
  have sound := replay_sound replayable clean
  refine ⟨sound.table, fun scope => ?_, sound.rows⟩
  obtain ⟨now, past⟩ : ∃ now, ∀ record ∈ trace, record.cycle ≤ now :=
    ⟨_, fun record member => List.le_sum_of_mem (List.mem_map_of_mem member)⟩
  exact (sound.windows now past scope).spaced

/-- An activate and a read of its row. -/
def actThenRead : List IssuedCommand :=
  [{ cycle := 1, command := .act }, { cycle := 21, command := .rd }]

theorem validateCommandTrace_sound_actThenRead :
    validateCommandTrace finalTwoBanks actThenRead = .ok [] ∧
      TableRespected finalTwoBanks actThenRead ∧ ActivationsSpaced finalTwoBanks actThenRead ∧
      RowsOwned actThenRead := by
  have validates : validateCommandTrace finalTwoBanks actThenRead = .ok [] := by decide +kernel
  have single : ∀ issued ∈ actThenRead, issued.stackId = 0 := by decide
  exact ⟨validates, validateCommandTrace_sound validates single ⟨by decide, by decide +kernel⟩⟩

/-- Two activates of two banks at the last cycle of a 64-bit word. -/
def actsAtLastCycle : List IssuedCommand :=
  [{ cycle := uint64Max, command := .act },
    { cycle := uint64Max, command := .act, decoded := { bank := 1 } }]

/-- The ready time that the first activate sets has wrapped around, so the second is let through
without any distance. -/
theorem validateCommandTrace_accepts_wrapped : finalizeSpec twoBanks = .ok finalTwoBanks ∧
    validateCommandTrace finalTwoBanks actsAtLastCycle = .ok [] ∧
    (∀ issued ∈ actsAtLastCycle, issued.stackId = 0) ∧
    (actsAtLastCycle.Pairwise fun earlier later => earlier.cycle ≤ later.cycle) ∧
    ¬ TableRespected finalTwoBanks actsAtLastCycle := by
  refine ⟨rfl, by decide +kernel, by decide, by decide, fun respected => ?_⟩
  have apart := (List.pairwise_cons.mp respected).1 _ List.mem_cons_self
    (tc .pseudoChannel [.act] [.act] 4) (by decide +kernel) rfl List.mem_cons_self
    List.mem_cons_self rfl
  exact absurd apart (by decide)

end Validator

end HbmSim
