/-
Spans of a sequence: one kind of event opens a span, another closes it, and a
third kind must not happen inside. Whether a sequence ends inside a span is a
fold, so the rule can be kept event by event.
-/

import Mathlib

namespace Span

variable {Event : Type} (opens closes : Event → Bool)

/-- Whether an event leaves a span open. -/
def step (inside : Bool) (event : Event) : Bool := opens event || (inside && !closes event)

/-- Whether a span is open at the end of a sequence. -/
def inside (events : List Event) : Bool := events.foldl (step opens closes) false

@[simp] theorem inside_concat (events : List Event) (event : Event) :
    inside opens closes (events ++ [event]) =
      step opens closes (inside opens closes events) event := by
  unfold inside
  rw [List.foldl_append]
  rfl

/-- A span stays open while nothing closes it. -/
theorem foldl_step_true {between : List Event} (open_ : ∀ event ∈ between, closes event = false) :
    between.foldl (step opens closes) true = true := by
  induction between with
  | nil => rfl
  | cons event rest inductionHypothesis =>
    obtain ⟨stays, later⟩ := List.forall_mem_cons.mp open_
    have next : step opens closes true event = true := by simp [step, stays]
    rw [List.foldl_cons, next]
    exact inductionHypothesis later

theorem inside_of_open {before between : List Event} {entry : Event} (entered : opens entry = true)
    (stays : ∀ event ∈ between, closes event = false) :
    inside opens closes (before ++ entry :: between) = true := by
  unfold inside
  rw [List.foldl_append, List.foldl_cons, show step opens closes _ entry = true by simp [step, entered]]
  exact foldl_step_true opens closes stays

/-- No bad event lies between an opening one and the next closing one. -/
def Excludes (bad : Event → Bool) (events : List Event) : Prop :=
  ∀ before entry between later after,
    events = before ++ entry :: (between ++ later :: after) → opens entry = true →
    (∀ event ∈ between, closes event = false) → bad later = false

variable {opens closes} {bad : Event → Bool}

theorem Excludes.nil : Excludes opens closes bad [] :=
  fun _ _ _ _ _ split => absurd split.symm (by simp)

/-- One more event keeps the rule unless it is a bad one inside a span. -/
theorem Excludes.concat {events : List Event} {event : Event}
    (excludes : Excludes opens closes bad events)
    (allowed : inside opens closes events = true → bad event = false) :
    Excludes opens closes bad (events ++ [event]) := by
  intro before entry between later after split entered stays
  rcases List.eq_nil_or_concat after with rfl | ⟨rest, last, rfl⟩
  · have ends : events ++ [event] = (before ++ entry :: between) ++ [later] := by
      rw [split, List.append_assoc, List.cons_append]
    obtain ⟨rfl, last⟩ := List.append_inj' ends rfl
    cases last
    exact allowed (inside_of_open opens closes entered stays)
  · have ends : events ++ [event] =
        (before ++ entry :: (between ++ later :: rest)) ++ [last] := by
      rw [split]
      simp
    exact excludes before entry between later rest (List.append_inj_left' ends rfl) entered stays

end Span
