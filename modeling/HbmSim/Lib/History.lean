/-
A rule for the events of a history, each against the events before it. Such a
rule is kept event by event: only the new one has to be checked.
-/

import Mathlib

namespace History

variable {Event : Type} {rule : List Event → Event → Prop} {events : List Event} {event : Event}

/-- Every event meets the rule with the events before it. -/
def Each (rule : List Event → Event → Prop) (events : List Event) : Prop :=
  ∀ before event after, events = before ++ event :: after → rule before event

theorem Each.nil : Each rule [] := fun _ _ _ split => absurd split.symm (by simp)

theorem each_concat : Each rule (events ++ [event]) ↔ Each rule events ∧ rule events event := by
  constructor
  · intro each
    refine ⟨fun before earlier after split => ?_, each events event [] rfl⟩
    refine each before earlier (after ++ [event]) ?_
    rw [split, List.append_assoc, List.cons_append]
  · rintro ⟨each, last⟩ before earlier after split
    rcases List.eq_nil_or_concat after with rfl | ⟨rest, final, rfl⟩
    · obtain ⟨rfl, same⟩ := List.append_inj' split rfl
      cases same
      exact last
    · refine each before earlier rest ?_
      have ends : events ++ [event] = (before ++ earlier :: rest) ++ [final] := by
        rw [split, List.append_assoc, List.cons_append, List.concat_eq_append]
      exact List.append_inj_left' ends rfl

/-- Events that meet the rule after anything leave it kept. -/
theorem Each.append {more : List Event} (each : Each rule events)
    (always : ∀ event ∈ more, ∀ before, rule before event) : Each rule (events ++ more) := by
  induction more generalizing events with
  | nil =>
    rw [List.append_nil]
    exact each
  | cons event rest inductionHypothesis =>
    obtain ⟨here, later⟩ := List.forall_mem_cons.mp always
    rw [List.append_cons]
    exact inductionHypothesis (each_concat.mpr ⟨each, here events⟩) later

end History
