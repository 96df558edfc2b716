/-
What the timing engine means. The engine keeps one ready time for each bucket
and following command; this file proves that these folded maxima say the same as
the pairs of the history, constraint by constraint.

Buckets are first given their meaning by coordinates: two addresses share a
bucket of a scope when they agree on the coordinates down to it, and the buckets
of one parent are siblings.
-/

import HbmSim.Timing
import HbmSim.TimingTable
import HbmSim.Lib.Watermark

namespace HbmSim

/-! ### Buckets by coordinates -/

/-- The coordinates of a bucket, outermost first. -/
def bucketOf (scope : TimingScope) (decoded : DecodedAddress) : List Nat :=
  let { channel, pseudoChannel, sid, rank, bankGroup, bank, .. } := decoded
  match scope with
  | .channel => [channel]
  | .pseudoChannel => [channel, pseudoChannel]
  | .sid => [channel, pseudoChannel, sid]
  | .rank => [channel, pseudoChannel, sid, rank]
  | .bankGroup => [channel, pseudoChannel, sid, rank, bankGroup]
  | .bank => [channel, pseudoChannel, sid, rank, bankGroup, bank]

/-- The coordinates of a bucket's parent. -/
def parentOf (scope : TimingScope) (decoded : DecodedAddress) : List Nat :=
  (bucketOf scope decoded).dropLast

section Buckets

variable {spec : DramSpec} {first second : DecodedAddress}

theorem clampCoordinate_of_lt {value count : Nat} (inside : value < count) :
    clampCoordinate value count = value := by
  unfold clampCoordinate
  omega

/-- A place and the number above it are determined by their numeral. -/
theorem place_injective {radix high low high' low' : Nat} (small : low < radix)
    (small' : low' < radix) :
    high * radix + low = high' * radix + low' ↔ high = high' ∧ low = low' := by
  refine ⟨fun same => ?_, fun ⟨highs, lows⟩ => by rw [highs, lows]⟩
  have quotients := congrArg (· / radix) same
  have positive : 0 < radix := Nat.zero_lt_of_lt small
  simp only [Nat.mul_comm _ radix, Nat.mul_add_div positive, Nat.div_eq_of_lt small,
    Nat.div_eq_of_lt small', Nat.add_zero] at quotients
  subst quotients
  exact ⟨rfl, Nat.add_left_cancel same⟩

/-- The numerals of one high part are an interval. -/
theorem place_range {radix high low high' : Nat} (small : low < radix) :
    (high' * radix ≤ high * radix + low ∧ high * radix + low < high' * radix + radix) ↔
      high' = high := by
  refine ⟨fun ⟨above, below⟩ => ?_, fun same => by rw [same]; omega⟩
  have positive : 0 < radix := Nat.zero_lt_of_lt small
  have first : high' ≤ high := by
    have quotient := Nat.div_le_div_right (c := radix) above
    simpa only [Nat.mul_comm _ radix, Nat.mul_add_div positive, Nat.div_eq_of_lt small,
      Nat.add_zero, Nat.mul_div_cancel_left _ positive] using quotient
  have second : high < high' + 1 := by
    by_contra beyond
    have product := Nat.mul_le_mul_right radix (Nat.le_of_not_lt beyond)
    rw [Nat.add_mul, Nat.one_mul] at product
    omega
  omega

theorem scopeIndex_eq_iff (inside : first.InBounds spec) (inside' : second.InBounds spec)
    (scope : TimingScope) :
    scopeIndex spec scope first = scopeIndex spec scope second ↔
      bucketOf scope first = bucketOf scope second := by
  obtain ⟨channel, pseudoChannel, sid, rank, bankGroup, bank, -, -⟩ := inside
  obtain ⟨channel', pseudoChannel', sid', rank', bankGroup', bank', -, -⟩ := inside'
  unfold scopeIndex bucketOf
  simp only [clampCoordinate_of_lt, *]
  have radix : ∀ {value count : Nat}, value < count → value < max 1 count := by omega
  cases scope <;>
    simp only [place_injective (radix pseudoChannel) (radix pseudoChannel'),
      place_injective (radix sid) (radix sid'), place_injective (radix rank) (radix rank'),
      place_injective (radix bankGroup) (radix bankGroup'),
      place_injective (radix bank) (radix bank'), List.cons.injEq, and_true, and_assoc]

theorem place_lt {radix count high low : Nat} (small : low < radix) (inside : high < count) :
    high * radix + low < count * radix :=
  calc high * radix + low < high * radix + radix := Nat.add_lt_add_left small _
    _ = (high + 1) * radix := (Nat.succ_mul high radix).symm
    _ ≤ count * radix := Nat.mul_le_mul_right radix inside

theorem scopeIndex_lt_scopeCount (inside : first.InBounds spec) (scope : TimingScope) :
    scopeIndex spec scope first < scopeCount spec scope := by
  obtain ⟨channel, pseudoChannel, sid, rank, bankGroup, bank, -, -⟩ := inside
  have radix : ∀ {value count : Nat}, value < count → value < max 1 count := by omega
  unfold scopeIndex scopeCount
  simp only [clampCoordinate_of_lt, *]
  have inChannel := radix channel
  have inPseudoChannel := place_lt (radix pseudoChannel) inChannel
  have inSid := place_lt (radix sid) inPseudoChannel
  have inRank := place_lt (radix rank) inSid
  have inBankGroup := place_lt (radix bankGroup) inRank
  have inBank := place_lt (radix bank) inBankGroup
  cases scope
  · exact inChannel
  · exact inPseudoChannel
  · exact inSid
  · exact inRank
  · exact inBankGroup
  · exact inBank

/-- The sibling range of an address holds the buckets with its parent. -/
theorem siblingRange_iff (inside : first.InBounds spec) (inside' : second.InBounds spec)
    (scope : TimingScope) :
    ((siblingRange spec scope first).1 ≤ scopeIndex spec scope second ∧
      scopeIndex spec scope second < (siblingRange spec scope first).2) ↔
      parentOf scope first = parentOf scope second := by
  have below := scopeIndex_lt_scopeCount inside' scope
  have radix : ∀ {value count : Nat}, value < count → value < max 1 count := by omega
  have clamp : ∀ {start count : Nat},
      (min start (scopeCount spec scope) ≤ scopeIndex spec scope second ∧
        scopeIndex spec scope second < min (start + count) (scopeCount spec scope)) ↔
      (start ≤ scopeIndex spec scope second ∧ scopeIndex spec scope second < start + count) := by
    omega
  have parents := fun parent => scopeIndex_eq_iff inside inside' parent
  cases scope with
  | channel =>
    refine ⟨fun _ => rfl, fun _ => ⟨Nat.le_trans (Nat.min_le_left _ _) (Nat.zero_le _), ?_⟩⟩
    exact Nat.lt_min.mpr ⟨by rw [Nat.zero_add]; exact below, below⟩
  | pseudoChannel =>
    have low := (clampCoordinate_of_lt inside'.pseudoChannel).symm ▸ radix inside'.pseudoChannel
    exact (clamp.trans (place_range low)).trans (parents .channel)
  | sid =>
    have low := (clampCoordinate_of_lt inside'.sid).symm ▸ radix inside'.sid
    exact (clamp.trans (place_range low)).trans (parents .pseudoChannel)
  | rank =>
    have low := (clampCoordinate_of_lt inside'.rank).symm ▸ radix inside'.rank
    exact (clamp.trans (place_range low)).trans (parents .sid)
  | bankGroup =>
    have low := (clampCoordinate_of_lt inside'.bankGroup).symm ▸ radix inside'.bankGroup
    exact (clamp.trans (place_range low)).trans (parents .rank)
  | bank =>
    have low := (clampCoordinate_of_lt inside'.bank).symm ▸ radix inside'.bank
    exact (clamp.trans (place_range low)).trans (parents .bankGroup)

theorem scopeIndex_bank (inside : first.InBounds spec) :
    scopeIndex spec .bank first = first.flatBank spec := by
  obtain ⟨channel, pseudoChannel, sid, rank, bankGroup, bank, -, -⟩ := inside
  have radix : ∀ {value count : Nat}, value < count → max 1 count = count := by omega
  unfold scopeIndex DecodedAddress.flatBank
  simp only [clampCoordinate_of_lt, radix pseudoChannel, radix sid, radix rank, radix bankGroup,
    radix bank, *]

theorem scopeCount_bank (inside : first.InBounds spec) :
    scopeCount spec .bank = spec.bankCount := by
  obtain ⟨channel, pseudoChannel, sid, rank, bankGroup, bank, -, -⟩ := inside
  have radix : ∀ {value count : Nat}, value < count → max 1 count = count := by omega
  unfold scopeCount DramSpec.bankCount
  simp only [radix channel, radix pseudoChannel, radix sid, radix rank, radix bankGroup,
    radix bank]

/-- A bank lies in the interval of a rank exactly when it is a bank of that rank. -/
theorem rankInterval_iff (inside : first.InBounds spec) (inside' : second.InBounds spec) :
    (scopeIndex spec .rank first * max 1 (spec.org.bankGroups * spec.org.banksPerGroup) ≤
        scopeIndex spec .bank second ∧
      scopeIndex spec .bank second <
        scopeIndex spec .rank first * max 1 (spec.org.bankGroups * spec.org.banksPerGroup) +
          max 1 (spec.org.bankGroups * spec.org.banksPerGroup)) ↔
      bucketOf .rank first = bucketOf .rank second := by
  have groups := inside'.bankGroup
  have banks := inside'.bank
  have small := place_lt banks groups
  have split : scopeIndex spec .bank second =
      scopeIndex spec .rank second * (spec.org.bankGroups * spec.org.banksPerGroup) +
        (second.bankGroup * spec.org.banksPerGroup + second.bank) := by
    unfold scopeIndex
    dsimp only
    rw [clampCoordinate_of_lt groups, clampCoordinate_of_lt banks,
      max_eq_right (Nat.one_le_of_lt groups), max_eq_right (Nat.one_le_of_lt banks)]
    ring
  have positive : 1 ≤ spec.org.bankGroups * spec.org.banksPerGroup := Nat.one_le_of_lt small
  rw [max_eq_right positive, ← scopeIndex_eq_iff inside inside', split]
  exact place_range small

end Buckets

/-! ### The pairwise meaning -/

/-- A command at an address and a cycle. -/
structure TimedCommand where
  command : Command
  decoded : DecodedAddress
  cycle : Nat
  deriving DecidableEq, Repr

/-- The addresses a command stands for in a scope: a dual-bank refresh stands for both banks of its
pair. -/
def standsFor (spec : DramSpec) (scope : TimingScope) (command : Command)
    (decoded : DecodedAddress) : List DecodedAddress :=
  if spec.lpddrDualBankRefresh = true ∧ command = .refdb ∧ scope = .bank then
    [decoded, lpddrRefdbPartner spec decoded]
  else [decoded]

/-- The addresses of two commands are ones a constraint relates. -/
def Related (spec : DramSpec) (constraint : TimingConstraint) (earlier later : Command)
    (before after : DecodedAddress) : Prop :=
  if constraint.sibling then
    parentOf constraint.scope before = parentOf constraint.scope after ∧
      bucketOf constraint.scope before ≠ bucketOf constraint.scope after
  else
    ∃ one ∈ standsFor spec constraint.scope earlier before,
      ∃ other ∈ standsFor spec constraint.scope later after,
        bucketOf constraint.scope one = bucketOf constraint.scope other

/-- A command keeps its distance from every command of the history, constraint by constraint. -/
def PairwiseReady (spec : DramSpec) (history : List TimedCommand) (decoded : DecodedAddress)
    (command : Command) (clk : Nat) : Prop :=
  ∀ issued ∈ history, ∀ constraint ∈ spec.timingConstraints, constraint.window = 0 →
    issued.command ∈ constraint.preceding → command ∈ constraint.following →
    Related spec constraint issued.command command issued.decoded decoded →
    issued.cycle + constraint.latency.toNat * spec.tickMultiplier ≤ clk

/-! ### The engine's marks -/

namespace TimingEngine

/-- A bucket of a scope, and a command that may have to wait in it. -/
abbrev MarkKey := TimingScope × Nat × Command

def marks (engine : TimingEngine) : MarkKey → Nat := fun key =>
  (engine.scopes key.1 key.2.1).nextCommand key.2.2

/-- The buckets a command reaches through a constraint. -/
def Reaches (spec : DramSpec) (issued : TimedCommand) (constraint : TimingConstraint)
    (index : Nat) : Prop :=
  if constraint.sibling = false then
    index = scopeIndex spec constraint.scope issued.decoded ∨
      ((issued.command = .refdb ∧ spec.lpddrDualBankRefresh = true ∧ constraint.scope = .bank) ∧
        index = scopeIndex spec .bank (lpddrRefdbPartner spec issued.decoded))
  else
    ((siblingRange spec constraint.scope issued.decoded).1 ≤ index ∧
      index < (siblingRange spec constraint.scope issued.decoded).2) ∧
      index ≠ scopeIndex spec constraint.scope issued.decoded

/-- A constraint that a command of the history imposes. -/
structure Imposed where
  issued : TimedCommand
  constraint : TimingConstraint

def Imposed.Touches (spec : DramSpec) (imposed : Imposed) (key : MarkKey) : Prop :=
  imposed.constraint.window ≤ 0 ∧ imposed.issued.command ∈ imposed.constraint.preceding ∧
    key.1 = imposed.constraint.scope ∧ key.2.2 ∈ imposed.constraint.following ∧
    Reaches spec imposed.issued imposed.constraint key.2.1

instance (spec : DramSpec) (issued : TimedCommand) (constraint : TimingConstraint)
    (index : Nat) : Decidable (Reaches spec issued constraint index) :=
  inferInstanceAs (Decidable (ite _ _ _))

instance (spec : DramSpec) (imposed : Imposed) (key : MarkKey) :
    Decidable (imposed.Touches spec key) :=
  inferInstanceAs (Decidable (_ ∧ _ ∧ _ ∧ _ ∧ _))

/-- The ready time a constraint imposes, with the addition the engine adds cycles by. -/
def Imposed.readyBy (sum : Nat → Nat → Nat) (spec : DramSpec) (imposed : Imposed) : Nat :=
  sum imposed.issued.cycle (timingDelay spec (max 0 imposed.constraint.latency))

def Imposed.ready (spec : DramSpec) (imposed : Imposed) : Nat :=
  imposed.issued.cycle + timingDelay spec (max 0 imposed.constraint.latency)

variable {spec : DramSpec} {sum : Nat → Nat → Nat}

theorem modifyScope_scopes (engine : TimingEngine) (scope other : TimingScope)
    (index place : Nat) (change : TimingScopeState → TimingScopeState) :
    (engine.modifyScope scope index change).scopes other place =
      if other = scope ∧ place = index then change (engine.scopes other place)
      else engine.scopes other place := by
  unfold modifyScope modifyAt
  dsimp only
  by_cases same : other = scope
  · subst same
    rw [Function.update_self]
    by_cases here : place = index
    · subst here
      rw [Function.update_self, if_pos ⟨rfl, rfl⟩]
    · rw [Function.update_of_ne here, if_neg fun both => here both.2]
  · rw [Function.update_of_ne same, if_neg fun both => same both.1]

theorem holdBack_nextCommand (constraint : TimingConstraint) (ready : Nat)
    (scope : TimingScopeState) (command : Command) :
    (holdBack constraint ready scope).nextCommand command =
      if command ∈ constraint.following then max (scope.nextCommand command) ready
      else scope.nextCommand command := rfl

/-- Holding a bucket back twice is holding it back once. -/
theorem holdBack_holdBack (constraint : TimingConstraint) (ready : Nat)
    (scope : TimingScopeState) :
    holdBack constraint ready (holdBack constraint ready scope) =
      holdBack constraint ready scope := by
  unfold holdBack
  congr 1
  funext command
  dsimp only
  split
  · rw [max_assoc, max_self]
  · rfl

/-- An idempotent change under one condition and then under another. -/
theorem ite_twice {α : Type} {change : α → α} {value : α} {first second : Prop} [Decidable first]
    [Decidable second] (idempotent : change (change value) = change value) :
    (if second then change (if first then change value else value)
      else if first then change value else value) =
      if first ∨ second then change value else value := by
  by_cases one : first <;> by_cases two : second <;> simp [one, two, idempotent]

/-- The buckets after a constraint, all at once. -/
theorem imposeConstraint_scopes (issued : TimedCommand) (engine : TimingEngine)
    (constraint : TimingConstraint) (scope : TimingScope) (index : Nat) :
    (imposeConstraint spec issued.decoded issued.command (sum issued.cycle) engine
        constraint).scopes scope index =
      if (constraint.window ≤ 0 ∧ issued.command ∈ constraint.preceding) ∧
          scope = constraint.scope ∧ Reaches spec issued constraint index then
        holdBack constraint (Imposed.readyBy sum spec ⟨issued, constraint⟩)
          (engine.scopes scope index)
      else engine.scopes scope index := by
  unfold imposeConstraint Reaches Imposed.readyBy
  by_cases applies : constraint.window ≤ 0 ∧ issued.command ∈ constraint.preceding
  · rw [if_neg (by rw [not_or, not_lt, not_not]; exact applies)]
    dsimp only
    by_cases single : constraint.sibling = false
    · simp only [single, if_true, applies, and_self, true_and]
      split
      next pair =>
        rw [modifyScope_scopes, modifyScope_scopes, pair.2.2]
        rw [ite_twice (holdBack_holdBack ..)]
        by_cases same : scope = .bank
        · simp only [same, pair, true_and, and_true]
        · simp only [same, false_and, or_self, if_false]
      next alone =>
        rw [modifyScope_scopes]
        simp only [alone, false_and, or_false]
    · rw [if_neg single]
      simp only [if_neg single, applies, and_self, true_and]
      by_cases same : scope = constraint.scope
      · subst same
        rw [Function.update_self]
        simp only [true_and, and_assoc]
      · rw [Function.update_of_ne same, if_neg fun both => same both.1]
  · rw [if_pos (by rwa [not_and_or, not_le] at applies), if_neg fun both => applies both.1]

theorem imposeConstraint_marks (issued : TimedCommand) (engine : TimingEngine)
    (constraint : TimingConstraint) :
    (imposeConstraint spec issued.decoded issued.command (sum issued.cycle) engine
        constraint).marks =
      Watermark.raise (Imposed.Touches spec) (Imposed.readyBy sum spec) engine.marks
        ⟨issued, constraint⟩ := by
  funext key
  unfold marks Watermark.raise
  rw [imposeConstraint_scopes]
  by_cases reached : (constraint.window ≤ 0 ∧ issued.command ∈ constraint.preceding) ∧
      key.1 = constraint.scope ∧ Reaches spec issued constraint key.2.1
  · rw [if_pos reached, holdBack_nextCommand]
    obtain ⟨⟨window, preceding⟩, scope, reaches⟩ := reached
    by_cases follows : key.2.2 ∈ constraint.following
    · rw [if_pos follows, if_pos ⟨window, preceding, scope, follows, reaches⟩]
    · rw [if_neg follows, if_neg fun touches => follows touches.2.2.2.1]
  · rw [if_neg reached, if_neg fun touches =>
      reached ⟨⟨touches.1, touches.2.1⟩, touches.2.2.1, touches.2.2.2.2⟩]

theorem imposeConstraints_marks (issued : TimedCommand) (engine : TimingEngine) :
    (engine.imposeConstraints spec issued.decoded issued.command (sum issued.cycle)).marks =
      (spec.timingConstraints.map (Imposed.mk issued)).foldl
        (Watermark.raise (Imposed.Touches spec) (Imposed.readyBy sum spec)) engine.marks := by
  have table : ∀ (constraints : List TimingConstraint) (engine : TimingEngine),
      (constraints.foldl (imposeConstraint spec issued.decoded issued.command (sum issued.cycle))
        engine).marks =
      (constraints.map (Imposed.mk issued)).foldl
        (Watermark.raise (Imposed.Touches spec) (Imposed.readyBy sum spec)) engine.marks := by
    intro constraints
    induction constraints with
    | nil => exact fun _ => rfl
    | cons constraint rest inductionHypothesis =>
      intro engine
      rw [List.foldl_cons, inductionHypothesis, imposeConstraint_marks]
      rfl
  unfold imposeConstraints
  dsimp only
  rw [table]
  split <;> rfl

theorem applyConstraints_marks (issued : TimedCommand) (engine : TimingEngine) :
    (engine.applyConstraints spec issued.decoded issued.command issued.cycle).marks =
      (spec.timingConstraints.map (Imposed.mk issued)).foldl
        (Watermark.raise (Imposed.Touches spec) (Imposed.ready spec)) engine.marks :=
  imposeConstraints_marks issued engine

/-- A mark is due exactly when it was at the start and every constraint the history imposed on its
key is. -/
theorem foldl_marks_le (history : List TimedCommand) (key : MarkKey) (clk : Nat)
    (start : TimingEngine) :
    (history.foldl (fun engine issued => engine.imposeConstraints spec issued.decoded
        issued.command (sum issued.cycle)) start).marks key ≤ clk ↔
      start.marks key ≤ clk ∧ ∀ issued ∈ history, ∀ constraint ∈ spec.timingConstraints,
        Imposed.Touches spec ⟨issued, constraint⟩ key →
        Imposed.readyBy sum spec ⟨issued, constraint⟩ ≤ clk := by
  induction history generalizing start with
  | nil => simp
  | cons issued rest inductionHypothesis =>
    rw [List.foldl_cons, inductionHypothesis, imposeConstraints_marks,
      Watermark.foldl_raise_le, List.forall_mem_cons, List.forall_mem_map, and_assoc]

/-- The controller's engine after a history. -/
def after (spec : DramSpec) (history : List TimedCommand) : TimingEngine :=
  history.foldl
    (fun engine issued => engine.applyConstraints spec issued.decoded issued.command issued.cycle)
    {}

/-- An engine after a history of commands at any cycles. -/
def afterWords (start : TimingEngine) (spec : DramSpec) (history : List TimedCommand) :
    TimingEngine :=
  history.foldl (fun engine issued =>
    engine.applyConstraintsWord spec issued.decoded issued.command issued.cycle) start

theorem after_marks_le (history : List TimedCommand) (key : MarkKey) (clk : Nat) :
    (after spec history).marks key ≤ clk ↔
      ∀ issued ∈ history, ∀ constraint ∈ spec.timingConstraints,
        Imposed.Touches spec ⟨issued, constraint⟩ key →
        Imposed.ready spec ⟨issued, constraint⟩ ≤ clk :=
  (foldl_marks_le history key clk {}).trans
    ⟨fun both => both.2, fun bounds => ⟨Nat.zero_le clk, bounds⟩⟩

/-- The ready times a history leaves in front of a command do not pass the end of the word. -/
def ReadyTimesFit (spec : DramSpec) (history : List TimedCommand) : Prop :=
  ∀ issued ∈ history, ∀ constraint ∈ spec.timingConstraints, constraint.window = 0 →
    issued.command ∈ constraint.preceding →
    issued.cycle + constraint.latency.toNat * spec.tickMultiplier ≤ uint64Max

/-! ### Readiness is the pairwise condition -/

/-- The counter of the dual-bank sweep lets a refresh through. -/
def SweepReady (engine : TimingEngine) (spec : DramSpec) (decoded : DecodedAddress)
    (command : Command) (clk : Nat) : Prop :=
  spec.lpddrDualBankRefresh = true ∧ command = .refdb →
    (engine.refdbStates (scopeIndex spec .rank decoded)).ready ≤ clk ∧
      (engine.refdbStates (scopeIndex spec .rank decoded)).visitedPairs
        (refdbPair spec decoded) = false

variable {decoded : DecodedAddress} {command : Command} {clk : Nat}

/-- The check looks at the marks of every address the command stands for. -/
theorem constraintReady_iff (engine : TimingEngine) :
    engine.constraintReady spec decoded command clk = true ↔
      engine.SweepReady spec decoded command clk ∧
      ∀ constraint ∈ spec.timingConstraints, constraint.window ≤ 0 →
        command ∈ constraint.following →
        ∀ other ∈ standsFor spec constraint.scope command decoded,
          engine.marks (constraint.scope, scopeIndex spec constraint.scope other, command) ≤
            clk := by
  unfold constraintReady
  dsimp only
  split
  next blocked =>
    refine ⟨nofun, fun ready => ?_⟩
    obtain ⟨due, unvisited⟩ := ready.1 blocked.1
    rcases blocked.2 with early | visited
    · exact absurd due (Nat.not_le_of_lt early)
    · exact nomatch visited.symm.trans unvisited
  next swept =>
    have sweep : engine.SweepReady spec decoded command clk := by
      intro dual
      refine ⟨Nat.le_of_not_lt fun early => swept ⟨dual, Or.inl early⟩, ?_⟩
      exact Bool.eq_false_iff.mpr fun visited => swept ⟨dual, Or.inr visited⟩
    rw [List.all_eq_true]
    refine Iff.trans (forall₂_congr fun constraint member => ?_) (and_iff_right sweep).symm
    unfold bindsOn
    by_cases binds : constraint.window ≤ 0 ∧ command ∈ constraint.following
    · rw [decide_eq_true binds, if_pos rfl]
      simp only [Bool.and_eq_true, decide_eq_true_eq, Bool.not_eq_true', decide_eq_false_iff_not,
        binds, forall_const]
      unfold standsFor
      by_cases dual : spec.lpddrDualBankRefresh = true ∧ command = .refdb ∧
          constraint.scope = .bank
      · rw [if_pos dual, List.forall_mem_cons, List.forall_mem_singleton]
        refine and_congr Iff.rfl ⟨fun unblocked => ?_, fun due early => ?_⟩
        · rw [dual.2.2]
          exact Nat.le_of_not_lt fun early => unblocked ⟨⟨dual.1, dual.2.1⟩, dual.2.2, early⟩
        · rw [dual.2.2] at due
          exact absurd due (Nat.not_le_of_lt early.2.2)
      · rw [if_neg dual, List.forall_mem_singleton]
        exact ⟨fun both => both.1, fun due => ⟨due, fun early =>
          dual ⟨early.1.1, early.1.2, early.2.1⟩⟩⟩
    · rw [decide_eq_false binds, if_neg Bool.false_ne_true]
      exact ⟨fun _ window follows => absurd ⟨window, follows⟩ binds, fun _ => rfl⟩

/-! ### The wake-up time -/

/-- A fold of maxima is at most a bound when its start and each item are. -/
theorem foldl_le_iff {Item : Type} {step : Nat → Item → Nat} {due : Item → Prop} {bound : Nat}
    (steps : ∀ ready item, step ready item ≤ bound ↔ ready ≤ bound ∧ due item)
    (items : List Item) (start : Nat) :
    items.foldl step start ≤ bound ↔ start ≤ bound ∧ ∀ item ∈ items, due item := by
  induction items generalizing start with
  | nil => simp
  | cons item rest inductionHypothesis =>
    rw [List.foldl_cons, inductionHypothesis, steps, List.forall_mem_cons, and_assoc]

/-- The wake-up time looks at the same marks as the check. -/
theorem constraintReadyAt_le_iff (engine : TimingEngine) (below : clk < uint64Max) :
    engine.constraintReadyAt spec decoded command ≤ clk ↔
      engine.SweepReady spec decoded command clk ∧
      ∀ constraint ∈ spec.timingConstraints, constraint.window ≤ 0 →
        command ∈ constraint.following →
        ∀ other ∈ standsFor spec constraint.scope command decoded,
          engine.marks (constraint.scope, scopeIndex spec constraint.scope other, command) ≤
            clk := by
  unfold constraintReadyAt
  dsimp only
  split
  next visited =>
    refine ⟨fun due => absurd due (Nat.not_le_of_lt below), fun ready => ?_⟩
    exact nomatch visited.2.symm.trans (ready.1 visited.1).2
  next swept =>
    refine (@foldl_le_iff TimingConstraint _ (fun constraint => constraint.window ≤ 0 →
      command ∈ constraint.following →
      ∀ other ∈ standsFor spec constraint.scope command decoded,
        engine.marks (constraint.scope, scopeIndex spec constraint.scope other, command) ≤ clk)
      clk (fun ready constraint => ?_) _ _).trans (and_congr_left fun _ => ?_)
    · unfold bindsOn
      by_cases binds : constraint.window ≤ 0 ∧ command ∈ constraint.following
      · rw [decide_eq_true binds, if_pos rfl]
        simp only [binds, forall_const]
        unfold standsFor
        by_cases dual : (spec.lpddrDualBankRefresh = true ∧ command = .refdb) ∧
            constraint.scope = .bank
        · rw [if_pos dual, if_pos ⟨dual.1.1, dual.1.2, dual.2⟩, List.forall_mem_cons,
            List.forall_mem_singleton, max_le_iff, max_le_iff, and_assoc, dual.2]
          exact Iff.rfl
        · rw [if_neg dual, if_neg fun all => dual ⟨⟨all.1, all.2.1⟩, all.2.2⟩,
            List.forall_mem_singleton, max_le_iff]
          exact Iff.rfl
      · rw [decide_eq_false binds, if_neg Bool.false_ne_true]
        exact ⟨fun due => ⟨due, fun window follows => absurd ⟨window, follows⟩ binds⟩,
          fun both => both.1⟩
    · unfold SweepReady
      by_cases dual : spec.lpddrDualBankRefresh = true ∧ command = .refdb
      · rw [if_pos dual]
        refine ⟨fun due _ => ⟨due, ?_⟩, fun ready => (ready dual).1⟩
        exact Bool.eq_false_iff.mpr fun visited => swept ⟨dual, visited⟩
      · rw [if_neg dual]
        exact ⟨fun _ is => absurd is dual, fun _ => Nat.zero_le clk⟩

/-- The check and the wake-up time agree in every state of the engine, also where a dual-bank
refresh finds its pair visited and both mean never. -/
theorem constraintReady_iff_wakeUp (engine : TimingEngine) (spec : DramSpec)
    (decoded : DecodedAddress) (command : Command) {clk : Nat} (below : clk < uint64Max) :
    (engine.constraintReady spec decoded command clk = true ↔
      engine.constraintReadyAt spec decoded command ≤ clk) ∧
    (spec.lpddrDualBankRefresh = true → command = .refdb →
      (engine.refdbStates (scopeIndex spec .rank decoded)).visitedPairs
        (refdbPair spec decoded) = true →
      engine.constraintReady spec decoded command clk = false ∧
        engine.constraintReadyAt spec decoded command = uint64Max) := by
  refine ⟨(constraintReady_iff engine).trans (constraintReadyAt_le_iff engine below).symm,
    fun dual isRefdb visited => ⟨?_, ?_⟩⟩
  · unfold constraintReady
    exact if_pos ⟨⟨dual, isRefdb⟩, Or.inr visited⟩
  · unfold constraintReadyAt
    exact if_pos ⟨⟨dual, isRefdb⟩, visited⟩

/-- Two pairs of bank groups with dual-bank refresh. -/
def twoPairs : DramSpec where
  org := { bankGroups := 4, banksPerGroup := 1, rows := 2, columns := 2, lineSize := 4 }
  lpddrFamily := true
  lpddrDualBankRefresh := true
  timingConstraints := makeLpddrConstraints {}

theorem constraintReady_iff_wakeUp_twoPairs :
    (after twoPairs [⟨.refdb, {}, 0⟩]).constraintReady twoPairs {} .refdb 1000 = false ∧
      (after twoPairs [⟨.refdb, {}, 0⟩]).constraintReadyAt twoPairs {} .refdb = uint64Max :=
  (constraintReady_iff_wakeUp (after twoPairs [⟨.refdb, {}, 0⟩]) twoPairs {} .refdb
    (by decide : 1000 < uint64Max)).2 rfl rfl (by decide +kernel)

/-! ### Reaching a bucket -/

variable {issued : TimedCommand} {constraint : TimingConstraint}

theorem inBounds_partner (inside : decoded.InBounds spec) :
    (lpddrRefdbPartner spec decoded).InBounds spec := by
  unfold lpddrRefdbPartner
  dsimp only
  have groups := inside.bankGroup
  split
  · exact inside
  · refine ⟨inside.channel, inside.pseudoChannel, inside.sid, inside.rank, ?_, inside.bank,
      inside.row, inside.column⟩
    dsimp only
    split <;> omega

/-- The addresses a command stands for are in range with it. -/
theorem standsFor_inBounds (inside : decoded.InBounds spec) (scope : TimingScope) :
    ∀ other ∈ standsFor spec scope command decoded, other.InBounds spec := by
  unfold standsFor
  split
  · rw [List.forall_mem_cons, List.forall_mem_singleton]
    exact ⟨inside, inBounds_partner inside⟩
  · rw [List.forall_mem_singleton]
    exact inside

/-- A command reaches the buckets of the addresses it is related to. -/
theorem related_iff_reaches (wellFormed : constraint.WellFormed)
    (inside : issued.decoded.InBounds spec) (inside' : decoded.InBounds spec) :
    Related spec constraint issued.command command issued.decoded decoded ↔
      ∃ other ∈ standsFor spec constraint.scope command decoded,
        Reaches spec issued constraint (scopeIndex spec constraint.scope other) := by
  unfold Related Reaches
  by_cases sibling : constraint.sibling = true
  · have scope := wellFormed.2 sibling
    have alone : standsFor spec constraint.scope command decoded = [decoded] := by
      unfold standsFor
      refine if_neg fun dual => ?_
      rw [scope] at dual
      cases dual.2.2
    rw [if_pos sibling, alone]
    simp only [List.mem_singleton, exists_eq_left]
    rw [if_neg (by rw [sibling]; nofun), siblingRange_iff inside inside', ne_eq, ne_eq,
      ← scopeIndex_eq_iff inside inside', eq_comm (a := scopeIndex spec constraint.scope decoded)]
  · rw [if_neg sibling]
    rw [Bool.not_eq_true] at sibling
    simp only [sibling, if_true]
    have inner : ∀ other ∈ standsFor spec constraint.scope command decoded,
        ((∃ one ∈ standsFor spec constraint.scope issued.command issued.decoded,
          bucketOf constraint.scope one = bucketOf constraint.scope other) ↔
        (scopeIndex spec constraint.scope other =
            scopeIndex spec constraint.scope issued.decoded ∨
          ((issued.command = .refdb ∧ spec.lpddrDualBankRefresh = true ∧
              constraint.scope = .bank) ∧
            scopeIndex spec constraint.scope other =
              scopeIndex spec .bank (lpddrRefdbPartner spec issued.decoded)))) := by
      intro other member
      have insideOther := standsFor_inBounds inside' constraint.scope other member
      unfold standsFor
      by_cases dual : spec.lpddrDualBankRefresh = true ∧ issued.command = .refdb ∧
          constraint.scope = .bank
      · rw [if_pos dual]
        simp only [List.mem_cons, List.not_mem_nil, or_false, exists_eq_or_imp, exists_eq_left]
        rw [← scopeIndex_eq_iff inside insideOther,
          ← scopeIndex_eq_iff (inBounds_partner inside) insideOther]
        simp only [dual, and_self, true_and]
        rw [eq_comm, eq_comm (b := scopeIndex spec .bank other)]
      · rw [if_neg dual]
        simp only [List.mem_singleton, exists_eq_left]
        rw [← scopeIndex_eq_iff inside insideOther, eq_comm]
        exact ⟨Or.inl, fun either => either.resolve_right fun pair =>
          dual ⟨pair.1.2.1, pair.1.1, pair.1.2.2⟩⟩
    constructor
    · rintro ⟨one, stands, other, member, same⟩
      exact ⟨other, member, (inner other member).mp ⟨one, stands, same⟩⟩
    · rintro ⟨other, member, reaches⟩
      obtain ⟨one, stands, same⟩ := (inner other member).mpr reaches
      exact ⟨one, stands, other, member, same⟩

theorem ready_eq {draft : DramSpec} (finalized : finalizeSpec draft = .ok spec) :
    Imposed.ready spec ⟨issued, constraint⟩ =
      issued.cycle + constraint.latency.toNat * spec.tickMultiplier := by
  obtain ⟨⟨_, accepted⟩, rfl⟩ := finalizeSpec_eq finalized
  have positive : 1 ≤ draft.tickMultiplier :=
    Nat.one_le_iff_ne_zero.mpr (validateSpec_tickMultiplier accepted)
  unfold Imposed.ready timingDelay
  dsimp only
  rw [max_eq_right positive]
  congr 2
  omega

/-- As words the ready times are the sums, where these fit. -/
theorem afterWords_marks_le {draft : DramSpec} {start : TimingEngine} {history : List TimedCommand}
    (finalized : finalizeSpec draft = .ok spec) (resets : reset spec = some start)
    (fits : ReadyTimesFit spec history) (key : MarkKey) (clk : Nat) :
    (start.afterWords spec history).marks key ≤ clk ↔
      ∀ issued ∈ history, ∀ constraint ∈ spec.timingConstraints,
        Imposed.Touches spec ⟨issued, constraint⟩ key →
        Imposed.ready spec ⟨issued, constraint⟩ ≤ clk := by
  have empty : start = {} := by
    unfold reset at resets
    split at resets
    · exact (Option.some.inj resets).symm
    · cases resets
  refine (foldl_marks_le history key clk start).trans ?_
  rw [empty]
  refine (and_iff_right (Nat.zero_le clk)).trans ?_
  refine forall₂_congr fun issued applied => forall₂_congr fun constraint member =>
    forall_congr' fun touches => ?_
  have window := le_antisymm touches.1 (finalizeSpec_wellFormed finalized constraint member).1
  have room := fits issued applied constraint member window touches.2.1
  rw [← ready_eq finalized] at room
  show laterCycle _ _ ≤ clk ↔ _
  rw [laterCycle_eq room]
  exact Iff.rfl

/-- In a finalized spec whose buckets can be counted, and with ready times that fit their word, the
engine's folded maxima and the pairs of the history say the same, the sweep of the dual-bank
refresh aside. -/
theorem constraintReady_iff_pairwise {draft : DramSpec} {start : TimingEngine}
    {history : List TimedCommand} (finalized : finalizeSpec draft = .ok spec)
    (resets : reset spec = some start) (fits : ReadyTimesFit spec history)
    (insideHistory : ∀ issued ∈ history, issued.decoded.InBounds spec)
    (inside : decoded.InBounds spec) :
    (start.afterWords spec history).constraintReady spec decoded command clk = true ↔
      (start.afterWords spec history).SweepReady spec decoded command clk ∧
        PairwiseReady spec history decoded command clk := by
  have wellFormed := finalizeSpec_wellFormed finalized
  rw [constraintReady_iff]
  refine and_congr_right fun _ => ⟨?_, ?_⟩
  · intro due issued applied constraint member window precedes follows related
    obtain ⟨other, stands, reaches⟩ :=
      (related_iff_reaches (wellFormed constraint member) (insideHistory issued applied)
        inside).mp related
    have marks := due constraint member (le_of_eq window) follows other stands
    rw [afterWords_marks_le finalized resets fits] at marks
    rw [← ready_eq finalized]
    exact marks issued applied constraint member
      ⟨le_of_eq window, precedes, rfl, follows, reaches⟩
  · intro pairwise constraint member window follows other stands
    rw [afterWords_marks_le finalized resets fits]
    rintro issued applied imposed listed ⟨windowed, precedes, scope, following, reaches⟩
    dsimp only at windowed precedes scope following reaches
    rw [scope] at reaches stands
    rw [ready_eq finalized]
    exact pairwise issued applied imposed listed
      (le_antisymm windowed (wellFormed imposed listed).1) precedes following
      ((related_iff_reaches (wellFormed imposed listed) (insideHistory issued applied)
        inside).mpr ⟨other, stands, reaches⟩)

/-- Two banks in a pair of bank groups. The device has no dual-bank refresh. -/
def pairDraft : DramSpec where
  org := { bankGroups := 2, banksPerGroup := 1, rows := 2, columns := 2, lineSize := 4 }
  timing := { nRFCpb := 100 }
  speedBinMbps := 6400
  lpddrFamily := true

def pairSpec : DramSpec :=
  { pairDraft with timingConstraints := makeLpddrConstraints pairDraft.timing }

theorem constraintReady_iff_pairwise_pairSpec :
    PairwiseReady pairSpec [⟨.act1, {}, 3⟩, ⟨.act2, {}, 4⟩] {} .rd 23 ∧
      ¬ PairwiseReady pairSpec [⟨.act1, {}, 3⟩, ⟨.act2, {}, 4⟩] {} .rd 22 := by
  have finalized : finalizeSpec pairDraft = .ok pairSpec := rfl
  have resets : reset pairSpec = some {} := if_pos (by decide)
  have fits : ReadyTimesFit pairSpec [⟨.act1, {}, 3⟩, ⟨.act2, {}, 4⟩] := by
    unfold ReadyTimesFit
    decide +kernel
  have inside : ({} : DecodedAddress).InBounds pairSpec := by constructor <;> decide
  have insideHistory : ∀ issued ∈ [⟨.act1, {}, 3⟩, (⟨.act2, {}, 4⟩ : TimedCommand)],
      issued.decoded.InBounds pairSpec := by
    rw [List.forall_mem_cons, List.forall_mem_singleton]
    exact ⟨inside, inside⟩
  refine ⟨((constraintReady_iff_pairwise finalized resets fits insideHistory inside).mp ?_).2,
    fun pairwise => ?_⟩
  · decide +kernel
  · have ready := (constraintReady_iff_pairwise finalized resets fits insideHistory inside).mpr
      ⟨nofun, pairwise⟩
    exact absurd ready (by decide +kernel)

/-- An accepted device of more banks than an `int` counts. -/
def vastDraft : DramSpec :=
  { pairDraft with
    org := { pairDraft.org with channels := 65536, banksPerGroup := 65536, rows := 1, columns := 1 } }

/-- Without dual-bank refresh a REFdb stands for one bank here, although the executor recovers both
banks of its pair: the partner may activate before its refresh time is over. A ready time past the
end of the word starts over at zero, and the buckets of a vast device cannot be counted. -/
theorem constraintReady_before_partner_recovers :
    finalizeSpec pairDraft = .ok pairSpec ∧ reset pairSpec = some {} ∧
      ((afterWords {} pairSpec [⟨.refdb, {}, 0⟩]).constraintReady pairSpec
          (lpddrRefdbPartner pairSpec {}) .act1 16 = true ∧
        ¬ PairwiseReady { pairSpec with lpddrDualBankRefresh := true } [⟨.refdb, {}, 0⟩]
          (lpddrRefdbPartner pairSpec {}) .act1 16) ∧
      ((afterWords {} pairSpec [⟨.act1, {}, uint64Max⟩]).constraintReady pairSpec {} .rd
          uint64Max = true ∧
        ¬ PairwiseReady pairSpec [⟨.act1, {}, uint64Max⟩] {} .rd uint64Max) ∧
      ∃ vast, finalizeSpec vastDraft = .ok vast ∧ reset vast = none := by
  refine ⟨rfl, if_pos (by decide), ⟨by decide +kernel, fun pairwise => ?_⟩,
    ⟨by decide +kernel, fun pairwise => ?_⟩,
    { vastDraft with timingConstraints := makeLpddrConstraints vastDraft.timing }, rfl,
    if_neg fun both => absurd (both.2 .bank (by decide)) (by decide)⟩
  · have late := pairwise ⟨.refdb, {}, 0⟩ List.mem_cons_self (tc .bank [.refdb] [.act1] 100)
      (by decide +kernel) rfl List.mem_cons_self List.mem_cons_self
      ⟨lpddrRefdbPartner pairSpec {}, by decide +kernel, lpddrRefdbPartner pairSpec {},
        by decide +kernel, rfl⟩
    exact absurd late (by decide +kernel)
  · have late := pairwise ⟨.act1, {}, uint64Max⟩ List.mem_cons_self
      (tc .bank [.act1] [.rd, .rda] pairSpec.timing.nRCDRD) (by decide +kernel) rfl
      List.mem_cons_self List.mem_cons_self ⟨{}, by decide +kernel, {}, by decide +kernel, rfl⟩
    exact absurd late (by decide +kernel)

end TimingEngine

end HbmSim
