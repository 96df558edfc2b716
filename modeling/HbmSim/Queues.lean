/-
The request queues and the scheduler that picks from one of them.

A queue is a list in arrival order. The counts of the active queue per bank are
kept beside it, as in the source, and an erase that finds its count at zero
throws.
-/

import HbmSim.Request

namespace HbmSim

/-! ### Queues -/

inductive RequestQueueKind
  | active
  | priority
  | read
  | write
  deriving DecidableEq, Repr

structure RequestQueues where
  queue : RequestQueueKind → List Request := fun _ => []
  limit : RequestQueueKind → Nat
  activeCounts : Nat → Nat := fun _ => 0

namespace RequestQueues

/-- The constructor: the active queue has one place a bank. -/
def create (banks priority reads writes : Nat) : Except Exception RequestQueues := do
  throwIf (banks = 0 ∨ priority = 0 ∨ reads = 0 ∨ writes = 0)
    (invalidArgument "request queue capacity must be positive")
  return { limit := fun
    | .active => banks
    | .priority => priority
    | .read => reads
    | .write => writes }

def hasSpace (queues : RequestQueues) (kind : RequestQueueKind) : Bool :=
  decide ((queues.queue kind).length < queues.limit kind)

def put (queues : RequestQueues) (kind : RequestQueueKind) (requests : List Request) :
    RequestQueues :=
  { queues with queue := Function.update queues.queue kind requests }

def pushBack (queues : RequestQueues) (kind : RequestQueueKind) (request : Request) :
    RequestQueues :=
  queues.put kind (queues.queue kind ++ [request])

def pushFront (queues : RequestQueues) (kind : RequestQueueKind) (request : Request) :
    RequestQueues :=
  queues.put kind (request :: queues.queue kind)

def erase (queues : RequestQueues) (kind : RequestQueueKind) (index : Nat) (spec : DramSpec) :
    Except Exception RequestQueues :=
  match (queues.queue kind)[index]? with
  | none => .ok queues
  | some request => do
    let remaining := queues.put kind ((queues.queue kind).eraseIdx index)
    match kind with
    | .active => do
      let bank := request.decoded.flatBank spec
      throwIf (queues.activeCounts bank = 0) (logicError "active queue ownership underflow")
      return { remaining with
        activeCounts := Function.update queues.activeCounts bank (queues.activeCounts bank - 1) }
    | _ => return remaining

/-- `promote`: move a request to the active queue, when that has space. -/
def promote (queues : RequestQueues) (kind : RequestQueueKind) (index : Nat) (spec : DramSpec) :
    RequestQueues :=
  match (queues.queue kind)[index]? with
  | none => queues
  | some request =>
    if kind = .active ∨ queues.hasSpace .active = false then queues
    else
      let bank := request.decoded.flatBank spec
      { (queues.pushBack .active request).put kind ((queues.queue kind).eraseIdx index) with
        activeCounts := Function.update queues.activeCounts bank (queues.activeCounts bank + 1) }

end RequestQueues

/-! ### The scheduler -/

/-- What the scheduler sees of a request. -/
structure SchedulerCandidateView where
  requestIndex : Nat
  arrival : Nat
  command : Command
  eligible : Bool
  timingReady : Bool
  deriving DecidableEq, Repr

/-- Keep the earlier arrival; the first one found wins a tie. -/
def keepEarliest (best : Option SchedulerCandidateView) (candidate : SchedulerCandidateView) :
    Option SchedulerCandidateView :=
  match best with
  | none => some candidate
  | some earliest => if candidate.arrival < earliest.arrival then some candidate else best

/-- One candidate of the pass: the earliest eligible one and the earliest ready one so far. -/
def scanCandidate (first : Option SchedulerCandidateView × Option SchedulerCandidateView)
    (candidate : SchedulerCandidateView) :
    Option SchedulerCandidateView × Option SchedulerCandidateView :=
  if candidate.eligible then
    (keepEarliest first.1 candidate,
      if candidate.timingReady then keepEarliest first.2 candidate else first.2)
  else first

/-- `select_scheduled_request`. In-order service waits for its oldest eligible request; first-ready
service takes the oldest one that is ready. -/
def selectScheduledRequest (kind : SchedulerKind) (candidates : List SchedulerCandidateView) :
    Option SchedulerCandidateView :=
  let first := candidates.foldl scanCandidate (none, none)
  match kind with
  | .fcfs =>
    match first.1 with
    | some eligible => if eligible.timingReady then some eligible else none
    | none => none
  | .frfcfs => first.2

/-- The pass finds the earliest among the eligible candidates, and among the ready ones of them. -/
theorem foldl_scanCandidate (candidates : List SchedulerCandidateView)
    (eligible ready : Option SchedulerCandidateView) :
    candidates.foldl scanCandidate (eligible, ready) =
      ((candidates.filter (·.eligible)).foldl keepEarliest eligible,
        ((candidates.filter (·.eligible)).filter (·.timingReady)).foldl keepEarliest ready) := by
  induction candidates generalizing eligible ready with
  | nil => rfl
  | cons candidate rest inductionHypothesis =>
    rw [List.foldl_cons]
    unfold scanCandidate
    by_cases isEligible : candidate.eligible = true
    · rw [if_pos isEligible, List.filter_cons_of_pos isEligible]
      by_cases isReady : candidate.timingReady = true
      · rw [if_pos isReady, List.filter_cons_of_pos isReady]
        exact inductionHypothesis _ _
      · rw [if_neg isReady, List.filter_cons_of_neg isReady]
        exact inductionHypothesis _ _
    · rw [if_neg isEligible, List.filter_cons_of_neg isEligible]
      exact inductionHypothesis _ _

theorem selectScheduledRequest_frfcfs (candidates : List SchedulerCandidateView) :
    selectScheduledRequest .frfcfs candidates =
      ((candidates.filter (·.eligible)).filter (·.timingReady)).foldl keepEarliest none :=
  congrArg Prod.snd (foldl_scanCandidate candidates none none)

/-- In-order service looks at the earliest eligible candidate only. -/
theorem selectScheduledRequest_fcfs_iff {candidates : List SchedulerCandidateView}
    {selected : SchedulerCandidateView} :
    selectScheduledRequest .fcfs candidates = some selected ↔
      (candidates.filter (·.eligible)).foldl keepEarliest none = some selected ∧
        selected.timingReady = true := by
  have first := congrArg Prod.fst (foldl_scanCandidate candidates none none)
  unfold selectScheduledRequest
  dsimp only at first ⊢
  rw [first]
  cases (candidates.filter (·.eligible)).foldl keepEarliest none with
  | none => exact ⟨nofun, fun both => nomatch both.1⟩
  | some eligible =>
    dsimp only
    by_cases ready : eligible.timingReady = true
    · rw [if_pos ready]
      refine ⟨fun same => ⟨same, ?_⟩, fun both => both.1⟩
      rw [← Option.some.inj same]
      exact ready
    · rw [if_neg ready]
      refine ⟨nofun, fun both => absurd ?_ ready⟩
      rw [Option.some.inj both.1]
      exact both.2

theorem foldl_keepEarliest_mem {candidates : List SchedulerCandidateView}
    {best : Option SchedulerCandidateView} {selected : SchedulerCandidateView}
    (result : candidates.foldl keepEarliest best = some selected) :
    best = some selected ∨ selected ∈ candidates := by
  induction candidates generalizing best with
  | nil => exact Or.inl result
  | cons candidate rest inductionHypothesis =>
    rcases inductionHypothesis result with kept | member
    · unfold keepEarliest at kept
      split at kept
      · exact Or.inr (List.mem_cons.mpr (Or.inl (Option.some.inj kept).symm))
      · split at kept
        · exact Or.inr (List.mem_cons.mpr (Or.inl (Option.some.inj kept).symm))
        · exact Or.inl kept
    · exact Or.inr (List.mem_cons_of_mem _ member)

/-- The scheduler answers with one of its candidates, and that one is eligible and ready. -/
theorem selectScheduledRequest_spec {kind : SchedulerKind}
    {candidates : List SchedulerCandidateView} {selected : SchedulerCandidateView}
    (result : selectScheduledRequest kind candidates = some selected) :
    selected ∈ candidates ∧ selected.eligible = true ∧ selected.timingReady = true := by
  cases kind with
  | fcfs =>
    obtain ⟨found, ready⟩ := selectScheduledRequest_fcfs_iff.mp result
    have member := (foldl_keepEarliest_mem found).resolve_left nofun
    exact ⟨List.mem_of_mem_filter member, (List.mem_filter.mp member).2, ready⟩
  | frfcfs =>
    rw [selectScheduledRequest_frfcfs] at result
    have member := (foldl_keepEarliest_mem result).resolve_left nofun
    obtain ⟨eligible, ready⟩ := List.mem_filter.mp member
    exact ⟨List.mem_of_mem_filter eligible, (List.mem_filter.mp eligible).2, ready⟩

/-! ### What the queue operations change -/

section Lemmas

variable {queues after : RequestQueues} {kind : RequestQueueKind} {index : Nat}
variable {spec : DramSpec} {request : Request} {requests : List Request}

@[simp] theorem put_queue_self : (queues.put kind requests).queue kind = requests :=
  Function.update_self ..

theorem put_queue_of_ne {other : RequestQueueKind} (differs : other ≠ kind) :
    (queues.put kind requests).queue other = queues.queue other :=
  Function.update_of_ne differs ..

@[simp] theorem put_limit : (queues.put kind requests).limit = queues.limit := rfl

theorem erase_limit (returns : queues.erase kind index spec = .ok after) :
    after.limit = queues.limit := by
  unfold RequestQueues.erase at returns
  split at returns
  · cases returns
    rfl
  · dsimp only at returns
    split at returns
    · obtain ⟨_, -, returned⟩ := bind_eq_ok.mp returns
      cases returned
      rfl
    · cases returns
      rfl

theorem promote_limit : (queues.promote kind index spec).limit = queues.limit := by
  unfold RequestQueues.promote
  split
  · rfl
  · split <;> rfl

/-- Erasing a request from another queue than the active one only shortens that queue. -/
theorem erase_of_ne_active (differs : kind ≠ .active)
    (found : (queues.queue kind)[index]? = some request) :
    queues.erase kind index spec =
      .ok (queues.put kind ((queues.queue kind).eraseIdx index)) := by
  unfold RequestQueues.erase
  rw [found]
  cases kind with
  | active => exact absurd rfl differs
  | _ => rfl

/-- Erasing an active request lowers the count of its bank, which was positive. -/
theorem erase_active (found : (queues.queue .active)[index]? = some request)
    (returns : queues.erase .active index spec = .ok after) :
    queues.activeCounts (request.decoded.flatBank spec) ≠ 0 ∧
      after = { queues.put .active ((queues.queue .active).eraseIdx index) with
        activeCounts := Function.update queues.activeCounts (request.decoded.flatBank spec)
          (queues.activeCounts (request.decoded.flatBank spec) - 1) } := by
  unfold RequestQueues.erase at returns
  rw [found] at returns
  dsimp only at returns
  obtain ⟨_, positive, returned⟩ := bind_eq_ok.mp returns
  rw [throwIf_eq_ok] at positive
  cases returned
  exact ⟨positive, rfl⟩

/-- A promotion into a queue with space. -/
theorem promote_of_hasSpace (differs : kind ≠ .active)
    (found : (queues.queue kind)[index]? = some request)
    (space : queues.hasSpace .active = true) :
    queues.promote kind index spec =
      { (queues.pushBack .active request).put kind ((queues.queue kind).eraseIdx index) with
        activeCounts := Function.update queues.activeCounts (request.decoded.flatBank spec)
          (queues.activeCounts (request.decoded.flatBank spec) + 1) } := by
  unfold RequestQueues.promote
  rw [found]
  dsimp only
  rw [if_neg (by simp [differs, space])]

end Lemmas

end HbmSim
