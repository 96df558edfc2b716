/-
The scheduler against its references. One pass with two running minima finds what
a declaration asks for: the earliest arrival among the requests in question, and
the one further in front where two arrived together. The same command is issued by
a reference that keeps a single request at hand and replaces it by a better one.
-/

import HbmSim.Queues

namespace HbmSim

/-! ### The first of the earliest -/

/-- `argmin` names the place of its answer: all in front of it are greater. -/
theorem argmin_eq_some_iff_split {α : Type} {f : α → Nat} {list : List α} {least : α} :
    list.argmin f = some least ↔ ∃ before after, list = before ++ least :: after ∧
      (∀ item ∈ before, f least < f item) ∧ ∀ item ∈ after, f least ≤ f item := by
  constructor
  · intro answer
    induction list with
    | nil => exact nomatch answer
    | cons first rest inductionHypothesis =>
      rw [List.argmin_cons] at answer
      cases best : rest.argmin f with
      | none =>
        rw [best] at answer
        obtain rfl := List.argmin_eq_none.mp best
        obtain rfl := Option.some.inj answer
        exact ⟨[], [], rfl, nofun, nofun⟩
      | some smallest =>
        rw [best] at answer
        dsimp only at answer
        split at answer
        next smaller =>
          obtain rfl := Option.some.inj answer
          obtain ⟨before, after, rfl, front, behind⟩ := inductionHypothesis best
          exact ⟨first :: before, after, rfl, List.forall_mem_cons.mpr ⟨smaller, front⟩, behind⟩
        next smaller =>
          obtain rfl := Option.some.inj answer
          refine ⟨[], rest, rfl, nofun, fun item member => ?_⟩
          exact (Nat.not_lt.mp smaller).trans (List.le_of_mem_argmin member best)
  · rintro ⟨before, after, rfl, front, behind⟩
    induction before with
    | nil =>
      rw [List.nil_append, List.argmin_cons]
      cases best : after.argmin f with
      | none => rfl
      | some smallest => exact if_neg (Nat.not_lt.mpr (behind smallest (List.argmin_mem best)))
    | cons first rest inductionHypothesis =>
      rw [List.cons_append, List.argmin_cons,
        inductionHypothesis fun item member => front item (List.mem_cons_of_mem _ member)]
      exact if_pos (front first List.mem_cons_self)

/-- Among the candidates in question none arrived before the selected one, and those that arrived
with it stand behind it. -/
def FirstEarliest (candidates : List SchedulerCandidateView)
    (among : SchedulerCandidateView → Prop) (selected : SchedulerCandidateView) : Prop :=
  ∃ before after, candidates = before ++ selected :: after ∧ among selected ∧
    (∀ other ∈ before, among other → selected.arrival < other.arrival) ∧
    ∀ other ∈ after, among other → selected.arrival ≤ other.arrival

theorem foldl_keepEarliest (candidates : List SchedulerCandidateView) :
    candidates.foldl keepEarliest none = candidates.argmin SchedulerCandidateView.arrival := by
  have steps : keepEarliest =
      List.argAux fun first second : SchedulerCandidateView => first.arrival < second.arrival := by
    funext best candidate
    cases best <;> rfl
  rw [steps]
  rfl

theorem filter_argmin_iff {candidates : List SchedulerCandidateView}
    {among : SchedulerCandidateView → Bool} {selected : SchedulerCandidateView} :
    (candidates.filter among).argmin SchedulerCandidateView.arrival = some selected ↔
      FirstEarliest candidates (fun other => among other = true) selected := by
  rw [argmin_eq_some_iff_split]
  constructor
  · rintro ⟨before, after, parts, front, behind⟩
    obtain ⟨left, right, rfl, rfl, tail⟩ := List.filter_eq_append_iff.mp parts
    obtain ⟨skipped, rest, rfl, none, isAmong, rfl⟩ := List.filter_eq_cons_iff.mp tail
    refine ⟨left ++ skipped, rest, (List.append_assoc ..).symm, isAmong, ?_, ?_⟩
    · intro other member otherAmong
      rcases List.mem_append.mp member with inLeft | inSkipped
      · exact front other (List.mem_filter.mpr ⟨inLeft, otherAmong⟩)
      · exact absurd otherAmong (none other inSkipped)
    · exact fun other member otherAmong =>
        behind other (List.mem_filter.mpr ⟨member, otherAmong⟩)
  · rintro ⟨before, after, rfl, isAmong, front, behind⟩
    refine ⟨before.filter among, after.filter among, ?_, ?_, ?_⟩
    · rw [List.filter_append, List.filter_cons_of_pos isAmong]
    · intro other member
      obtain ⟨inside, otherAmong⟩ := List.mem_filter.mp member
      exact front other inside otherAmong
    · intro other member
      obtain ⟨inside, otherAmong⟩ := List.mem_filter.mp member
      exact behind other inside otherAmong

/-! ### The reference -/

/-- One candidate in the reference: a ready one replaces one that is not, and of two alike the
earlier stays. -/
def replaceIncumbent (incumbent : Option SchedulerCandidateView)
    (request : SchedulerCandidateView) : Option SchedulerCandidateView :=
  if request.eligible = false then incumbent
  else match incumbent with
    | none => some request
    | some held =>
      if (request.timingReady = true ∧ held.timingReady = false) ∨
          (request.timingReady = held.timingReady ∧ request.arrival < held.arrival) then
        some request
      else incumbent

/-- `reference_issue` of the scheduler's contract test: the request at hand at the end issues, when
it is ready. -/
def referenceIssue (candidates : List SchedulerCandidateView) : Option SchedulerCandidateView :=
  match candidates.foldl replaceIncumbent none with
  | none => none
  | some incumbent => if incumbent.timingReady = false then none else some incumbent

/-- The request at hand is the earliest ready one, or the earliest one while none is ready. -/
structure Mirrors (incumbent : Option SchedulerCandidateView)
    (first : Option SchedulerCandidateView × Option SchedulerCandidateView) : Prop where
  atHand : incumbent = first.2.or first.1
  ready : ∀ selected, first.2 = some selected → selected.timingReady = true
  waiting : first.2 = none → ∀ held, first.1 = some held → held.timingReady = false

theorem Mirrors.step {incumbent : Option SchedulerCandidateView}
    {first : Option SchedulerCandidateView × Option SchedulerCandidateView}
    (mirrors : Mirrors incumbent first) (request : SchedulerCandidateView) :
    Mirrors (replaceIncumbent incumbent request) (scanCandidate first request) := by
  obtain ⟨eligible, found⟩ := first
  obtain ⟨rfl, ready, waiting⟩ := mirrors
  unfold replaceIncumbent scanCandidate
  cases isEligible : request.eligible with
  | false => exact ⟨rfl, ready, waiting⟩
  | true =>
    rw [if_neg Bool.noConfusion, if_pos rfl]
    cases found with
    | some selected =>
      have held : selected.timingReady = true := ready selected rfl
      -- a ready request is at hand: only a ready one that is earlier replaces it
      cases isReady : request.timingReady with
      | false =>
        refine ⟨if_neg ?_, ready, nofun⟩
        rintro (⟨never, -⟩ | ⟨same, -⟩)
        · exact Bool.false_ne_true never
        · exact Bool.false_ne_true (same.trans held)
      | true =>
        rw [if_pos rfl]
        unfold keepEarliest
        dsimp only [Option.or]
        by_cases earlier : request.arrival < selected.arrival
        · rw [if_pos earlier, if_pos (Or.inr ⟨held.symm, earlier⟩)]
          exact ⟨rfl, fun other same => Option.some.inj same ▸ isReady, nofun⟩
        · rw [if_neg earlier, if_neg ?_]
          · exact ⟨rfl, ready, nofun⟩
          · rintro (⟨-, unready⟩ | ⟨-, sooner⟩)
            · exact Bool.false_ne_true (unready.symm.trans held)
            · exact earlier sooner
    | none =>
      -- none is ready so far: a ready request replaces whatever is at hand
      cases isReady : request.timingReady with
      | true =>
        rw [if_pos rfl]
        have becomes : ∀ other, some request = some other → other.timingReady = true :=
          fun other same => Option.some.inj same ▸ isReady
        cases eligible with
        | none => exact ⟨rfl, becomes, nofun⟩
        | some held =>
          refine ⟨if_pos (Or.inl ⟨rfl, waiting rfl held rfl⟩), becomes, nofun⟩
      | false =>
        rw [if_neg Bool.false_ne_true]
        cases eligible with
        | none => exact ⟨rfl, nofun, fun _ other same => Option.some.inj same ▸ isReady⟩
        | some held =>
          have unready : held.timingReady = false := waiting rfl held rfl
          unfold keepEarliest
          dsimp only [Option.or]
          by_cases earlier : request.arrival < held.arrival
          · rw [if_pos earlier, if_pos (Or.inr ⟨unready.symm, earlier⟩)]
            exact ⟨rfl, nofun, fun _ other same => Option.some.inj same ▸ isReady⟩
          · rw [if_neg earlier, if_neg ?_]
            · exact ⟨rfl, nofun, waiting⟩
            · rintro (⟨never, -⟩ | ⟨-, sooner⟩)
              · exact Bool.false_ne_true never
              · exact earlier sooner

theorem Mirrors.foldl {candidates : List SchedulerCandidateView}
    {incumbent : Option SchedulerCandidateView}
    {first : Option SchedulerCandidateView × Option SchedulerCandidateView}
    (mirrors : Mirrors incumbent first) :
    Mirrors (candidates.foldl replaceIncumbent incumbent)
      (candidates.foldl scanCandidate first) := by
  induction candidates generalizing incumbent first with
  | nil => exact mirrors
  | cons candidate rest inductionHypothesis => exact inductionHypothesis (mirrors.step candidate)

theorem selectScheduledRequest_reference (candidates : List SchedulerCandidateView) :
    selectScheduledRequest .frfcfs candidates = referenceIssue candidates := by
  have mirrors : Mirrors (candidates.foldl replaceIncumbent none)
      (candidates.foldl scanCandidate (none, none)) := Mirrors.foldl ⟨rfl, nofun, nofun⟩
  unfold selectScheduledRequest referenceIssue
  generalize candidates.foldl scanCandidate (none, none) = first at mirrors ⊢
  obtain ⟨eligible, found⟩ := first
  obtain ⟨atHand, ready, waiting⟩ := mirrors
  rw [atHand]
  cases found with
  | some selected =>
    have isReady : selected.timingReady = true := ready selected rfl
    dsimp only [Option.or]
    rw [isReady]
    rfl
  | none =>
    cases eligible with
    | none => rfl
    | some held => exact (if_pos (waiting rfl held rfl)).symm

/-! ### What is selected -/

theorem frfcfs_iff {candidates : List SchedulerCandidateView} {selected : SchedulerCandidateView} :
    selectScheduledRequest .frfcfs candidates = some selected ↔
      FirstEarliest candidates (fun other => other.eligible = true ∧ other.timingReady = true)
        selected := by
  rw [selectScheduledRequest_frfcfs, List.filter_filter, foldl_keepEarliest, filter_argmin_iff]
  simp only [Bool.and_eq_true, and_comm]

theorem frfcfs_none_iff {candidates : List SchedulerCandidateView} :
    selectScheduledRequest .frfcfs candidates = none ↔
      ∀ other ∈ candidates, ¬ (other.eligible = true ∧ other.timingReady = true) := by
  rw [selectScheduledRequest_frfcfs, List.filter_filter, foldl_keepEarliest, List.argmin_eq_none,
    List.filter_eq_nil_iff]
  simp only [Bool.and_eq_true, and_comm]

/-- The scheduler and its references agree on every list of candidates. -/
theorem selects_as_reference (candidates : List SchedulerCandidateView) :
    selectScheduledRequest .frfcfs candidates = referenceIssue candidates ∧
      (∀ selected, selectScheduledRequest .frfcfs candidates = some selected ↔
        FirstEarliest candidates (fun other => other.eligible = true ∧ other.timingReady = true)
          selected) ∧
      (selectScheduledRequest .frfcfs candidates = none ↔
        ∀ other ∈ candidates, ¬ (other.eligible = true ∧ other.timingReady = true)) ∧
      ∀ selected, selectScheduledRequest .fcfs candidates = some selected ↔
        FirstEarliest candidates (fun other => other.eligible = true) selected ∧
          selected.timingReady = true := by
  refine ⟨selectScheduledRequest_reference candidates, fun _ => frfcfs_iff, frfcfs_none_iff,
    fun _ => ?_⟩
  rw [selectScheduledRequest_fcfs_iff, foldl_keepEarliest, filter_argmin_iff]

end HbmSim
