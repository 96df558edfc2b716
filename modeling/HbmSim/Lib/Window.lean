/-
A sliding window over a sequence of times: of all events only the recent ones
are kept, and a new event is let in only while few of them are recent. Then
events that many places apart are a whole window apart.
-/

import Mathlib

namespace Window

variable {limit span now : Nat} {events recent : List Nat}

/-- Events `limit` places apart are at least `span` apart. -/
def Spaced (limit span : Nat) (events : List Nat) : Prop :=
  ∀ position first later, events[position]? = some first →
    events[position + limit]? = some later → first + span ≤ later

/-- The recent events are what is left of all events once some old ones are forgotten. -/
structure Tracks (limit span now : Nat) (events recent : List Nat) : Prop where
  spaced : Spaced limit span events
  forgotten : ∃ old, events = old ++ recent ∧ ∀ time ∈ old, time + span ≤ now

theorem Tracks.start : Tracks limit span now [] [] :=
  ⟨fun _ _ _ opens _ => (nomatch opens), [], rfl, fun _ member => absurd member List.not_mem_nil⟩

theorem Tracks.later {next : Nat} (tracks : Tracks limit span now events recent)
    (passes : now ≤ next) : Tracks limit span next events recent := by
  obtain ⟨old, split, left⟩ := tracks.forgotten
  exact ⟨tracks.spaced, old, split, fun time member => (left time member).trans passes⟩

/-- Events that have left the window may be forgotten, oldest first. -/
theorem Tracks.prune {expired : Nat → Bool} (tracks : Tracks limit span now events recent)
    (leaves : ∀ time, expired time = true → time + span ≤ now) :
    Tracks limit span now events (recent.dropWhile expired) := by
  obtain ⟨old, split, left⟩ := tracks.forgotten
  refine ⟨tracks.spaced, old ++ recent.takeWhile expired, ?_, fun time member => ?_⟩
  · rw [List.append_assoc, List.takeWhile_append_dropWhile, split]
  · rcases List.mem_append.mp member with past | dropped
    · exact left time past
    · exact leaves time (List.mem_takeWhile_imp dropped)

/-- A new event, while fewer than `limit` are recent. -/
theorem Tracks.record (tracks : Tracks limit span now events recent)
    (few : recent.length < limit) :
    Tracks limit span now (events ++ [now]) (recent ++ [now]) := by
  obtain ⟨old, split, left⟩ := tracks.forgotten
  refine ⟨fun position first later opens closes => ?_, old,
    by rw [split, List.append_assoc], left⟩
  obtain ⟨inside, _⟩ := List.getElem?_eq_some_iff.mp closes
  rw [List.length_append, List.length_singleton] at inside
  rcases Nat.lt_or_eq_of_le (Nat.le_of_lt_succ inside) with before | last
  · rw [List.getElem?_append_left (by omega)] at opens
    rw [List.getElem?_append_left before] at closes
    exact tracks.spaced position first later opens closes
  · -- The new event is the later one, and the first one has been forgotten already.
    rw [last, List.getElem?_concat_length] at closes
    obtain rfl := Option.some.inj closes
    have total : events.length = old.length + recent.length := by
      rw [split, List.length_append]
    rw [split, List.append_assoc, List.getElem?_append_left (by omega)] at opens
    exact left first (List.mem_of_getElem? opens)

/-- No list that starts inside the window and ends with the last event is longer than the recent
events. -/
theorem Tracks.length_le {old kept : List Nat} (tracks : Tracks limit span now events recent)
    (split : events = old ++ kept) (fresh : ∀ first ∈ kept.head?, now < first + span) :
    kept.length ≤ recent.length := by
  obtain ⟨forgotten, split', left⟩ := tracks.forgotten
  by_contra longer
  have total : old.length + kept.length = forgotten.length + recent.length := by
    rw [← List.length_append, ← List.length_append, ← split, ← split']
  cases kept with
  | nil => exact longer (Nat.zero_le _)
  | cons first rest =>
    have head : events[old.length]? = some first := by
      rw [split, List.getElem?_append_right (Nat.le_refl _), Nat.sub_self]
      rfl
    rw [split', List.getElem?_append_left (by omega)] at head
    exact absurd (left first (List.mem_of_getElem? head)) (Nat.not_le_of_lt (fresh first rfl))

end Window
