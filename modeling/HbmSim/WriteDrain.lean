/-
The mode that decides between reads and writes. Drain mode sets in above the high
watermark or when no read waits, and ends below the low one once a read does. An
empty write queue is below every low watermark except zero, which the constructor
accepts. The watermarks are doubles, and so are their products with the queue's
size.
-/

import HbmSim.WakeUp

namespace HbmSim.Controller

variable {β : Type} {c : Controller β}

/-! ### The constructor's watermarks -/

/-- The watermarks are numbers in order, and there is a write queue. -/
structure AcceptedWatermarks (options : ControllerOptions) : Prop where
  lowFinite : options.writeLowWatermark.isFinite = true
  highFinite : options.writeHighWatermark.isFinite = true
  nonneg : ¬ options.writeLowWatermark < 0
  ordered : ¬ options.writeHighWatermark ≤ options.writeLowWatermark
  size : 0 < options.writeBufferSize

theorem create_watermarks {spec : DramSpec} {options : ControllerOptions} {image : MemoryImage β}
    {start : Controller β} (created : create spec options image = .ok start) :
    AcceptedWatermarks options := by
  unfold create at created
  obtain ⟨banks, -, created⟩ := bind_eq_ok.mp created
  obtain ⟨queues, makes, created⟩ := bind_eq_ok.mp created
  obtain ⟨checked, -, created⟩ := bind_eq_ok.mp created
  obtain ⟨_, watermarks, -⟩ := bind_eq_ok.mp created
  obtain ⟨_, positive, -⟩ := bind_eq_ok.mp makes
  rw [throwIf_eq_ok] at watermarks positive
  simp only [not_or, Bool.not_eq_false] at watermarks positive
  obtain ⟨lowFinite, highFinite, nonneg, -, ordered⟩ := watermarks
  exact ⟨lowFinite, highFinite, nonneg, ordered, Nat.pos_of_ne_zero positive.2.2.2⟩

/-! ### Serving reads -/

/-- Drain mode has writes to drain or no read to hold up, and reads that wait alone are the ones
picked from. -/
structure ServesReads (c : Controller β) : Prop where
  drains : c.writeMode = true →
    c.requestQueues.queue .write ≠ [] ∨ c.requestQueues.queue .read = []
  picks : c.requestQueues.queue .write = [] → c.requestQueues.queue .read ≠ [] →
    ∀ bus, c.pickReadWrite bus = c.pickBestReadyFrom .read bus true

theorem servesReads_iff : c.ServesReads ↔ (c.writeMode = true →
    c.requestQueues.queue .write ≠ [] ∨ c.requestQueues.queue .read = []) := by
  refine ⟨ServesReads.drains, fun drains => ⟨drains, fun noWrites reads bus => ?_⟩⟩
  have off : ¬ c.writeMode = true := fun on => (drains on).elim (· noWrites) reads
  unfold pickReadWrite
  rw [if_neg off]

/-- Reads wait alone in drain mode, and zero writes are not below the low watermark. -/
def Stuck (c : Controller β) : Prop :=
  ¬ 0 < c.options.writeLowWatermark ∧ c.writeMode = true ∧
    c.requestQueues.queue .write = [] ∧ c.requestQueues.queue .read ≠ []

/-- With reads alone, the mode stays on where the low watermark is zero and is off otherwise. -/
theorem setWriteMode_of_reads (accepted : AcceptedWatermarks c.options)
    (noWrites : c.requestQueues.queue .write = []) (reads : c.requestQueues.queue .read ≠ []) :
    c.setWriteMode.writeMode = true ↔
      ¬ 0 < c.options.writeLowWatermark ∧ c.writeMode = true := by
  have nonneg : ¬ c.options.writeHighWatermark < 0 :=
    Binary64.nonneg_of_not_le accepted.lowFinite accepted.nonneg accepted.ordered
  have none : Binary64.ofCount 0 = 0 := by rfl
  have notAbove : ¬ (c.options.writeHighWatermark * Binary64.ofCount c.options.writeBufferSize < 0 ∨
      c.requestQueues.queue .read = []) := by
    rintro (above | empty)
    · exact (Binary64.mul_ofCount accepted.highFinite nonneg accepted.size).2 above
    · exact reads empty
  have below : (0 < c.options.writeLowWatermark * Binary64.ofCount c.options.writeBufferSize ∧
      ¬ c.requestQueues.queue .read = []) ↔ 0 < c.options.writeLowWatermark :=
    (and_iff_left reads).trans
      (Binary64.mul_ofCount accepted.lowFinite accepted.nonneg accepted.size).1
  unfold setWriteMode
  dsimp only
  rw [noWrites, List.length_nil, none]
  cases mode : c.writeMode with
  | false =>
    rw [if_pos rfl, if_neg notAbove, mode]
    exact ⟨nofun, fun both => nomatch both.2⟩
  | true =>
    rw [if_neg nofun]
    by_cases positive : 0 < c.options.writeLowWatermark
    · rw [if_pos (below.mpr positive)]
      exact ⟨nofun, fun both => absurd positive both.1⟩
    · rw [if_neg (below.not.mpr positive), mode]
      exact ⟨fun _ => ⟨positive, rfl⟩, fun _ => rfl⟩

/-- Setting the mode serves the reads in every state but a stuck one. -/
theorem setWriteMode_serves_iff (accepted : AcceptedWatermarks c.options) :
    c.setWriteMode.ServesReads ↔ ¬ c.Stuck := by
  rw [servesReads_iff, setWriteMode_requestQueues]
  by_cases alone : c.requestQueues.queue .write = [] ∧ c.requestQueues.queue .read ≠ []
  · rw [setWriteMode_of_reads accepted alone.1 alone.2]
    constructor
    · rintro serves ⟨zero, mode, -, -⟩
      exact (serves ⟨zero, mode⟩).elim (· alone.1) alone.2
    · rintro free ⟨zero, mode⟩
      exact absurd ⟨zero, mode, alone⟩ free
  · refine ⟨fun _ stuck => alone stuck.2.2, fun _ _ => ?_⟩
    by_contra neither
    rw [not_or, not_not] at neither
    exact alone neither

/-- In a stuck state no request is picked from the queues, whatever the bus. -/
theorem Stuck.picks_nothing (stuck : c.Stuck) (bus : BusClass) : c.pickReadWrite bus = none := by
  obtain ⟨-, mode, noWrites, -⟩ := stuck
  unfold pickReadWrite pickBestReadyFrom
  rw [if_pos mode, noWrites]
  cases c.options.scheduler <;> rfl

/-- What the satisfied precharges leave is stuck when it was. -/
theorem retireSatisfied_stuck (c : Controller β) : c.retireSatisfied.Stuck ↔ c.Stuck := by
  have read : c.retireSatisfied.requestQueues.queue .read = c.requestQueues.queue .read :=
    put_queue_of_ne nofun
  have write : c.retireSatisfied.requestQueues.queue .write = c.requestQueues.queue .write :=
    put_queue_of_ne nofun
  unfold Stuck
  rw [read, write]
  exact Iff.rfl

section Runs

variable [MemoryBackend β]

/-- In front of every turn of every run: once the mode is set, it serves the reads exactly when
the state was not stuck, and above a low watermark of zero no state is. -/
theorem drain_serves_reads {spec : DramSpec} {options : ControllerOptions} {image : MemoryImage β}
    {start : Controller β} (created : create spec options image = .ok start)
    (ops : List ControllerOp) :
    start.RunMeets (fun _ _ => True) (fun c _ =>
      (c.retireSatisfied.setWriteMode.ServesReads ↔ ¬ c.Stuck) ∧
      (0 < options.writeLowWatermark → ¬ c.Stuck)) ops := by
  refine (configuration_kept spec options start.requestQueues.limit).runMeets
    (fun history c bus configuration _ => ?_) []
    ⟨(create_created created).spec_eq, (create_created created).options_eq, rfl⟩
    (runMeets_of_forall (fun _ _ => trivial) (fun _ _ => trivial) start ops)
  have same : c.options = options := configuration.2.1
  have kept : c.retireSatisfied.options = c.options := rfl
  have accepted := create_watermarks created
  rw [← same] at accepted ⊢
  refine ⟨?_, fun positive stuck => stuck.1 positive⟩
  rw [← retireSatisfied_stuck]
  exact setWriteMode_serves_iff (kept ▸ accepted)

/-- A tick in front of a read: nothing waits, and drain mode sets in. -/
def tickThenRead : List ControllerOp := [.tick, .enqueue (readAt twoBanks 1 0 4), .tick]

theorem drain_serves_reads_tickThenRead : ∃ start,
    create twoBanks {} (imageOf twoBanks) = .ok start ∧
      start.RunMeets (fun _ _ => True) (fun c _ =>
        (c.retireSatisfied.setWriteMode.ServesReads ↔ ¬ c.Stuck) ∧
        ((0 : Float) < 0.20 → ¬ c.Stuck)) tickThenRead := by
  obtain ⟨start, events, final, created, -⟩ :=
    freshRun_of_passes twoBanks {} [] (fun _ => true) (by decide +kernel)
  exact ⟨start, created, drain_serves_reads created tickThenRead⟩

/-- With zero as the low watermark, twenty ticks later the read still waits alone. -/
theorem drain_starves_reads : ∃ start events final,
    create twoBanks { writeLowWatermark := 0 } (imageOf twoBanks) = .ok start ∧
      start.run (tickThenRead ++ List.replicate 20 .tick) = .ok (events, final) ∧
      final.requestQueues.queue .write = [] ∧ final.requestQueues.queue .read ≠ [] ∧
      final.setWriteMode.writeMode = true ∧ ¬ final.setWriteMode.ServesReads := by
  obtain ⟨start, events, final, created, returns, checks⟩ :=
    freshRun_of_passes twoBanks { writeLowWatermark := 0 }
      (tickThenRead ++ List.replicate 20 .tick)
      (fun result => decide (result.2.requestQueues.queue .write = []) &&
        decide (result.2.requestQueues.queue .read ≠ []) &&
        result.2.setWriteMode.writeMode) (by decide +kernel)
  simp only [Bool.and_eq_true, decide_eq_true_eq] at checks
  obtain ⟨⟨noWrites, reads⟩, mode⟩ := checks
  refine ⟨start, events, final, created, returns, noWrites, reads, mode, fun serves => ?_⟩
  have drains := serves.drains mode
  rw [setWriteMode_requestQueues] at drains
  exact drains.elim (· noWrites) reads

end Runs

end HbmSim.Controller
