/-
The replay of a log. A state takes each event of the log in turn, and an event is looked up
together with the state in front of it. A longer log finds what a shorter one found.
-/

import Mathlib

namespace Replay

variable {State Event : Type} (step : State → Event → State) (wanted : Event → Bool)
variable {state found : State} {event : Event} {events more : List Event}

/-- The first wanted event of a log, and the state it meets. -/
def meets (state : State) : List Event → Option (Event × State)
  | [] => none
  | event :: rest => if wanted event then some (event, state) else meets (step state event) rest

variable {step wanted}

/-- What a log finds, a longer one finds. -/
theorem meets_append (finds : meets step wanted state events = some (event, found)) :
    meets step wanted state (events ++ more) = some (event, found) := by
  induction events generalizing state with
  | nil => cases finds
  | cons first rest inductionHypothesis =>
    unfold meets at finds
    rw [List.cons_append]
    unfold meets
    split at finds
    next isWanted =>
      rw [if_pos isWanted]
      exact finds
    next other =>
      rw [if_neg other]
      exact inductionHypothesis finds

/-- A log that finds nothing finds the event behind it, with the state of its own replay. -/
theorem meets_concat (nothing : ∀ earlier ∈ events, wanted earlier = false)
    (isWanted : wanted event = true) :
    meets step wanted state (events ++ [event]) = some (event, events.foldl step state) := by
  induction events generalizing state with
  | nil => exact if_pos isWanted
  | cons first rest inductionHypothesis =>
    rw [List.cons_append]
    unfold meets
    rw [if_neg (by rw [nothing first List.mem_cons_self]; exact Bool.false_ne_true)]
    exact inductionHypothesis fun earlier member => nothing earlier (List.mem_cons_of_mem _ member)

/-- What is found stands in the log, behind what led to the state. -/
theorem meets_splits (finds : meets step wanted state events = some (event, found)) :
    ∃ earlier later, events = earlier ++ event :: later ∧ wanted event = true ∧
      found = earlier.foldl step state := by
  induction events generalizing state with
  | nil => cases finds
  | cons first rest inductionHypothesis =>
    unfold meets at finds
    split at finds
    next isWanted =>
      cases finds
      exact ⟨[], rest, rfl, isWanted, rfl⟩
    next =>
      obtain ⟨earlier, later, rfl, isWanted, reached⟩ := inductionHypothesis finds
      exact ⟨first :: earlier, later, rfl, isWanted, reached⟩

end Replay
