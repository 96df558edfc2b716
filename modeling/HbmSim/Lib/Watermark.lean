/-
Watermarks: one value a key, which events only raise. A mark is at most a bound
exactly when every event that touches its key is, so a fold of maxima says the
same as the list of its events.
-/

import Mathlib

namespace Watermark

variable {Key Event Height : Type} [LinearOrder Height]
variable (touches : Event → Key → Prop) [∀ event key, Decidable (touches event key)]
variable (height : Event → Height)

/-- An event raises the marks of the keys it touches. -/
def raise (marks : Key → Height) (event : Event) : Key → Height := fun key =>
  if touches event key then max (marks key) (height event) else marks key

theorem raise_le {marks : Key → Height} {event : Event} {key : Key} {bound : Height} :
    raise touches height marks event key ≤ bound ↔
      marks key ≤ bound ∧ (touches event key → height event ≤ bound) := by
  unfold raise
  split
  next touched => simp [touched]
  next untouched => simp [untouched]

/-- The fold of a history is below a bound exactly when the start and all touching events are. -/
theorem foldl_raise_le {marks : Key → Height} {key : Key} {bound : Height}
    (events : List Event) :
    events.foldl (raise touches height) marks key ≤ bound ↔
      marks key ≤ bound ∧ ∀ event ∈ events, touches event key → height event ≤ bound := by
  induction events generalizing marks with
  | nil => simp
  | cons event rest inductionHypothesis =>
    rw [List.foldl_cons, inductionHypothesis, raise_le, List.forall_mem_cons, and_assoc]

/-! ### Folds that only raise a mark -/

section Folds

variable {State Item : Type} {step : State → Item → State} {mark : State → Height}

theorem le_foldl (raises : ∀ state item, mark state ≤ mark (step state item)) (items : List Item)
    (state : State) : mark state ≤ mark (items.foldl step state) := by
  induction items generalizing state with
  | nil => exact le_refl _
  | cons item rest inductionHypothesis =>
    exact (raises state item).trans (inductionHypothesis (step state item))

/-- What one item raises the mark to stays below the final mark. -/
theorem le_foldl_of_mem (raises : ∀ state item, mark state ≤ mark (step state item))
    {items : List Item} {item : Item} (member : item ∈ items) {bound : Height}
    (reaches : ∀ state, bound ≤ mark (step state item)) (state : State) :
    bound ≤ mark (items.foldl step state) := by
  obtain ⟨before, after, rfl⟩ := List.append_of_mem member
  rw [List.foldl_append, List.foldl_cons]
  exact (reaches _).trans (le_foldl raises after _)

end Folds

end Watermark
