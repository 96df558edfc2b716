/-
The record of a run grows with the clock, with one command a cycle on each bus: the
row bus takes the row commands, the column bus has its turn first and takes none of
them. So no two commands of a run look alike to the DFI check, and the DFI trace
built from a run passes it.
-/

import HbmSim.DfiTrace
import HbmSim.ReplayRun

namespace HbmSim

/-! ### The order of a record -/

/-- A record goes from cycle to cycle, and within one from the column bus to the row bus. -/
def BusOrder (earlier later : IssuedCommand) : Prop :=
  earlier.cycle < later.cycle ∨
    (earlier.cycle = later.cycle ∧ earlier.bus = .column ∧ later.bus = .row)

/-- The row bus has row commands on it, and the column bus has none. -/
structure FitsBus (issued : IssuedCommand) : Prop where
  row : issued.bus = .row → (commandMeta issued.command).rowCommand = true
  column : issued.bus = .column → (commandMeta issued.command).rowCommand = false

/-- In such an order two commands of one cycle are different ones. -/
theorem BusOrder.ne {earlier later : IssuedCommand} (order : BusOrder earlier later)
    (fits : FitsBus earlier) (fits' : FitsBus later) :
    earlier.command ≠ later.command ∨ earlier.cycle ≠ later.cycle := by
  rcases order with before | ⟨-, column, row⟩
  · exact Or.inr (Nat.ne_of_lt before)
  · refine Or.inl fun same => ?_
    have other := fits.column column
    rw [same, fits'.row row] at other
    cases other

namespace Controller

variable {β : Type} {c after : Controller β} {request : Request} {candidate : Candidate}

theorem Issuable.fitsBus (issuable : Issuable c candidate request) :
    FitsBus (c.issuedRecord request candidate) := by
  have fits : c.busMatches request candidate.command candidate.bus = true :=
    (candidateEligible_iff.mp issuable.eligible).2.2.1
  unfold busMatches at fits
  constructor
  · intro row
    have onRow : candidate.bus = .row := row
    rw [onRow, if_neg nofun] at fits
    show (commandMeta candidate.command).rowCommand = true
    split at fits
    · rw [if_neg nofun] at fits
      split at fits
      · cases fits
      next precharge =>
        rcases not_and_or.mp precharge with is | is <;> rw [not_not.mp is] <;> rfl
    · split at fits
      next isRow => exact isRow
      · split at fits <;> cases fits
  · intro column
    have onColumn : candidate.bus = .column := column
    rw [onColumn, if_neg nofun] at fits
    show (commandMeta candidate.command).rowCommand = false
    split at fits
    · rw [if_pos rfl] at fits
      cases fits
    · split at fits
      · cases fits
      next other => exact Bool.not_eq_true _ ▸ other

theorem busesOf_ordered (c : Controller β) :
    c.busesOf.Pairwise fun earlier later => earlier = .column ∧ later = .row := by
  unfold busesOf
  split
  · exact List.pairwise_singleton ..
  split
  · exact List.pairwise_pair.mpr ⟨rfl, rfl⟩
  · exact List.pairwise_singleton ..

/-! ### A tick -/

variable [MemoryBackend β] {bus : BusClass} {issued : List IssuedCommand}

/-- A turn issues one command at most, now and on its own bus. -/
theorem turn_issued (returns : c.turn bus = .ok (issued, after)) :
    (issued.map (·.bus)).Sublist [bus] ∧
      (∀ record ∈ issued, record.cycle = c.clk ∧ FitsBus record) ∧ after.clk = c.clk := by
  have onBus := turn_bus returns
  refine ⟨?_, ?_, (turn_cases returns).turnFrame.clk⟩
  · rcases turn_parts returns with ⟨rfl, -⟩ | ⟨chosen, candidate, request, rfl, -⟩
    · exact List.nil_sublist _
    · rw [List.map_singleton, onBus _ (List.mem_singleton_self _)]
  · cases turn_cases returns with
    | idle => exact fun _ member => absurd member List.not_mem_nil
    | issue choosing picks issuing =>
      rw [List.forall_mem_singleton]
      exact ⟨choosing.housekeeping.clk, issuing.issuable.fitsBus⟩

theorem runTurns_issued {buses : List BusClass}
    (returns : Controller.runTurns buses c = .ok (issued, after)) :
    (issued.map (·.bus)).Sublist buses ∧
      (∀ record ∈ issued, record.cycle = c.clk ∧ FitsBus record) ∧ after.clk = c.clk := by
  induction buses generalizing c issued with
  | nil =>
    cases returns
    exact ⟨List.Sublist.refl _, fun _ member => absurd member List.not_mem_nil, rfl⟩
  | cons bus rest inductionHypothesis =>
    obtain ⟨⟨now, middle⟩, turn, returns⟩ := bind_eq_ok.mp returns
    obtain ⟨⟨later, final⟩, others, returns⟩ := bind_eq_ok.mp returns
    cases returns
    obtain ⟨here, fits, clk⟩ := turn_issued turn
    obtain ⟨there, fits', clk'⟩ := inductionHypothesis others
    rw [clk] at fits' clk'
    refine ⟨?_, List.forall_mem_append.mpr ⟨fits, fits'⟩, clk'⟩
    rw [List.map_append]
    exact here.append there

/-! ### Every run -/

/-- The record so far is in order, and none of it lies ahead. -/
structure InOrder (commands : List IssuedCommand) (c : Controller β) : Prop where
  past : ∀ issued ∈ commands, issued.cycle ≤ c.clk
  fits : ∀ issued ∈ commands, FitsBus issued
  ordered : commands.Pairwise BusOrder

variable {commands : List IssuedCommand}

omit [MemoryBackend β] in
theorem InOrder.later (inOrder : InOrder commands c) (clk : c.clk ≤ after.clk) :
    InOrder commands after :=
  ⟨fun issued member => (inOrder.past issued member).trans clk, inOrder.fits, inOrder.ordered⟩

theorem InOrder.tick (inOrder : InOrder commands c) (returns : c.tick = .ok (issued, after)) :
    InOrder (commands ++ issued) after := by
  obtain ⟨begun, begins, ⟨-, rfl, rfl⟩ | ⟨-, turned, turns, rfl⟩⟩ := tick_cases returns
  · rw [List.append_nil]
    exact inOrder.later (beginTick_deviceKept begins).clk
  · obtain ⟨buses, now, clk⟩ := runTurns_issued turns
    have begun_clk : begun.clk = c.clk + 1 := by rw [(beginTick_eq begins).2]
    rw [(upkeep_housekeeping begun).clk, begun_clk] at now clk
    have final : turned.idleLowPower.clk = c.clk + 1 :=
      (idleLowPower_housekeeping turned).clk.trans clk
    have together : issued.Pairwise BusOrder := by
      have onBuses := List.pairwise_map.mp ((busesOf_ordered begun.upkeep).sublist buses)
      refine onBuses.imp_of_mem fun first second order => Or.inr ⟨?_, order⟩
      rw [(now _ first).1, (now _ second).1]
    refine ⟨List.forall_mem_append.mpr ⟨fun record member => ?_, fun record member => ?_⟩,
      List.forall_mem_append.mpr ⟨inOrder.fits, fun record member => (now record member).2⟩,
      List.pairwise_append.mpr ⟨inOrder.ordered, together,
        fun record member record' member' => Or.inl ?_⟩⟩
    · rw [final]
      exact Nat.le_succ_of_le (inOrder.past record member)
    · rw [final, (now record member).1]
    · rw [(now record' member').1]
      exact Nat.lt_succ_of_le (inOrder.past record member)

theorem InOrder.apply {history events : List ControllerEvent} {op : ControllerOp}
    (inOrder : InOrder (commandsOf history) c) (returns : c.apply op = .ok (events, after)) :
    InOrder (commandsOf (history ++ events)) after := by
  cases op with
  | enqueue request =>
    obtain ⟨⟨accepted, next⟩, enqueues, returns⟩ := bind_eq_ok.mp returns
    cases returns
    show InOrder (commandsOf (history ++ c.acceptance accepted request)) after
    rw [commandsOf_acceptance]
    refine inOrder.later ?_
    rw [← (prepareAccept_housekeeping c request).clk]
    exact (enqueue_cases enqueues).2.deviceKept.clk
  | tick =>
    obtain ⟨⟨issued, next⟩, ticks, returns⟩ := bind_eq_ok.mp returns
    cases returns
    rw [commandsOf_issued]
    exact inOrder.tick ticks
  | popResponse =>
    obtain ⟨⟨response, next⟩, pops, returns⟩ := bind_eq_ok.mp returns
    cases returns
    rw [commandsOf_responded]
    unfold popResponse at pops
    split at pops
    · cases pops
    · cases pops
      exact inOrder.later (Nat.le_refl _)
  | flushStorage =>
    obtain ⟨next, flushes, returns⟩ := bind_eq_ok.mp returns
    cases returns
    rw [List.append_nil]
    obtain ⟨image, -, returned⟩ := bind_eq_ok.mp flushes
    cases returned
    exact inOrder.later (Nat.le_refl _)

section Runs

variable {spec : DramSpec} {options : ControllerOptions} {image : MemoryImage β}
variable {start final : Controller β} {ops : List ControllerOp} {events : List ControllerEvent}

theorem run_inOrder (returns : start.run ops = .ok (events, final)) :
    InOrder (commandsOf events) final := by
  have keeps : ∀ (history : List ControllerEvent) (c : Controller β) op events next,
      InOrder (commandsOf history) c → True → c.apply op = .ok (events, next) →
      InOrder (commandsOf (history ++ events)) next :=
    fun _ _ _ _ _ inOrder _ returns => inOrder.apply returns
  have begins : InOrder (commandsOf []) start :=
    ⟨fun _ member => absurd member List.not_mem_nil, fun _ member => absurd member List.not_mem_nil,
      List.Pairwise.nil⟩
  exact Transition.run_invariant keeps begins (Transition.Meets.of_forall fun _ _ _ => trivial)
    returns

/-- The commands of every run follow each other in time, with one at most in a cycle on each bus.
With whatever data the commands of the record are shown, as long as an expected payload is the one
given, the DFI trace built from them passes the DFI check. -/
theorem dfi_accepts_run (returns : start.run ops = .ok (events, final))
    (commands : List Dfi.TraceCommand)
    (recorded : commands.map Dfi.TraceCommand.toIssuedCommand = commandsOf events)
    (expects : ∀ issued ∈ commands, issued.Expects) :
    (commandsOf events).Pairwise BusOrder ∧
      Dfi.validateDfiTrace spec commands (Dfi.buildDfiTrace spec commands) = [] := by
  obtain ⟨-, fits, ordered⟩ := run_inOrder returns
  refine ⟨ordered, Dfi.buildDfiTrace_accepted ?_ expects⟩
  rw [← recorded] at fits ordered
  refine List.pairwise_map.mpr ((List.pairwise_map.mp ordered).imp_of_mem
    fun {earlier later} first second order same => ?_)
  have fitsFirst := fits _ (List.mem_map_of_mem first)
  have fitsSecond := fits _ (List.mem_map_of_mem second)
  simp only [Dfi.TraceCommand.key, Prod.mk.injEq] at same
  rcases order.ne fitsFirst fitsSecond with other | other
  · exact other same.2.2.2.1
  · exact other same.2.2.2.2

end Runs

/-- The second read is activated in the cycle in which the first moves its data. -/
def dualBus : DramSpec := { twoBanks with dualCommandBus := true }

def overlappedReads : List ControllerOp :=
  .enqueue (readAt dualBus 1 0 4) :: List.replicate 20 .tick ++
    .enqueue (readAt dualBus 2 8 4) :: List.replicate 20 .tick

/-- A command shown with four bytes, and with the same ones expected of a read. -/
def shown (issued : IssuedCommand) : Dfi.TraceCommand where
  toIssuedCommand := issued
  payload := [1, 2, 3, 4]
  hasPayload := true
  expectedPayload := [1, 2, 3, 4]
  hasExpectedPayload := Dfi.isReadDataCommand issued.command

theorem dfi_accepts_run_overlappedReads : ∃ start events final,
    create dualBus {} (imageOf dualBus) = .ok start ∧
      start.run overlappedReads = .ok (events, final) ∧
      (commandsOf events).map (fun issued => (issued.cycle, issued.command, issued.bus)) =
        [(1, .act, .row), (21, .rd, .column), (21, .act, .row)] ∧
      (commandsOf events).Pairwise BusOrder ∧
      Dfi.validateDfiTrace dualBus ((commandsOf events).map shown)
        (Dfi.buildDfiTrace dualBus ((commandsOf events).map shown)) = [] := by
  obtain ⟨start, events, final, created, returns, checks⟩ :=
    freshRun_of_passes dualBus {} overlappedReads
      (fun result => (commandsOf result.1).map
          (fun issued => (issued.cycle, issued.command, issued.bus)) =
        [(1, .act, .row), (21, .rd, .column), (21, .act, .row)]) (by decide +kernel)
  have same : ((commandsOf events).map shown).map Dfi.TraceCommand.toIssuedCommand =
      commandsOf events := by
    rw [List.map_map]
    exact List.map_id _
  refine ⟨start, events, final, created, returns, of_decide_eq_true checks,
    dfi_accepts_run returns _ same fun issued member => ?_⟩
  obtain ⟨record, -, rfl⟩ := List.mem_map.mp member
  exact fun _ => ⟨rfl, rfl, List.cons_ne_nil _ _⟩

end Controller

end HbmSim
