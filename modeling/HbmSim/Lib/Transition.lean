/-
Runs of a transition system whose steps may fail and emit events. A guard is a
condition on the state a step starts from; a run meets it when each of its steps
does. An invariant may speak of the events so far.
-/

import Mathlib

namespace Transition

variable {S O V E : Type}

/-- Take the operations in order, and collect their events. -/
def run (step : S → O → Except E (List V × S)) : S → List O → Except E (List V × S)
  | state, [] => .ok ([], state)
  | state, op :: rest =>
    match step state op with
    | .error error => .error error
    | .ok (events, next) =>
      match run step next rest with
      | .error error => .error error
      | .ok (others, final) => .ok (events ++ others, final)

/-- Every step of the run starts in a state that meets the guard. -/
def Meets (step : S → O → Except E (List V × S)) (guard : S → O → Prop) : S → List O → Prop
  | _, [] => True
  | state, op :: rest =>
    guard state op ∧ ∀ events next, step state op = .ok (events, next) → Meets step guard next rest

variable {step : S → O → Except E (List V × S)} {guard : S → O → Prop}
variable {state next final : S} {op : O} {rest ops : List O} {events : List V}

theorem run_step {now later : List V} (steps : step state op = .ok (now, next))
    (returns : run step next rest = .ok (later, final)) :
    run step state (op :: rest) = .ok (now ++ later, final) := by
  unfold run
  rw [steps]
  dsimp only
  rw [returns]

theorem run_fails {error : E} (fails : step state op = .error error) :
    run step state (op :: rest) = .error error := by
  unfold run
  rw [fails]

theorem run_cons (returns : run step state (op :: rest) = .ok (events, final)) :
    ∃ now next later, step state op = .ok (now, next) ∧ run step next rest = .ok (later, final) ∧
      events = now ++ later := by
  unfold run at returns
  split at returns
  next => cases returns
  next now next steps =>
    split at returns
    next => cases returns
    next later last runs =>
      cases returns
      exact ⟨now, next, later, steps, runs, rfl⟩

/-- An invariant that every guarded step keeps holds after every guarded run. -/
theorem run_invariant {Inv : List V → S → Prop}
    (keeps : ∀ history state op events next, Inv history state → guard state op →
      step state op = .ok (events, next) → Inv (history ++ events) next)
    {history : List V} (start : Inv history state) (meets : Meets step guard state ops)
    (returns : run step state ops = .ok (events, final)) : Inv (history ++ events) final := by
  induction ops generalizing state history events with
  | nil =>
    cases returns
    rw [List.append_nil]
    exact start
  | cons op rest inductionHypothesis =>
    obtain ⟨now, next, later, steps, runs, rfl⟩ := run_cons returns
    rw [← List.append_assoc]
    exact inductionHypothesis (keeps _ _ _ _ _ start meets.1 steps) (meets.2 _ _ steps) runs

/-- What holds of every guarded step that starts in an invariant state is met by the run. -/
theorem Meets.of_invariant {Inv : S → Prop} {met : S → O → Prop}
    (keeps : ∀ state op events next, Inv state → guard state op →
      step state op = .ok (events, next) → Inv next)
    (here : ∀ state op, Inv state → guard state op → met state op)
    (start : Inv state) (meets : Meets step guard state ops) : Meets step met state ops := by
  induction ops generalizing state with
  | nil => trivial
  | cons op rest inductionHypothesis =>
    exact ⟨here _ _ start meets.1, fun events next steps =>
      inductionHypothesis (keeps _ _ _ _ start meets.1 steps) (meets.2 _ _ steps)⟩

/-- A guard that every listed operation meets in every state is met by the run. -/
theorem Meets.of_forall (listed : ∀ op ∈ ops, ∀ state, guard state op) :
    Meets step guard state ops := by
  induction ops generalizing state with
  | nil => trivial
  | cons op rest inductionHypothesis =>
    exact ⟨listed op List.mem_cons_self state, fun _ _ _ =>
      inductionHypothesis fun other member => listed other (List.mem_cons_of_mem _ member)⟩

/-- Steps that never fail make runs that never fail. -/
theorem run_total (total : ∀ state op, ∃ events next, step state op = .ok (events, next)) (state : S)
    (ops : List O) : ∃ events final, run step state ops = .ok (events, final) := by
  induction ops generalizing state with
  | nil => exact ⟨_, _, rfl⟩
  | cons op rest inductionHypothesis =>
    obtain ⟨now, next, steps⟩ := total state op
    obtain ⟨later, final, runs⟩ := inductionHypothesis next
    exact ⟨now ++ later, final, run_step steps runs⟩

/-! ### Checked runs -/

section Checks

variable (step) (guard)
variable [∀ state op, Decidable (guard state op)]

/-- Whether every step of the run starts in a state that meets the guard. -/
def meetsCheck : S → List O → Bool
  | _, [] => true
  | state, op :: rest => decide (guard state op) && match step state op with
    | .error _ => true
    | .ok (_, next) => meetsCheck next rest

theorem meets_of_check (checked : meetsCheck step guard state ops = true) :
    Meets step guard state ops := by
  induction ops generalizing state with
  | nil => trivial
  | cons op rest inductionHypothesis =>
    unfold meetsCheck at checked
    obtain ⟨here, later⟩ := Bool.and_eq_true_iff.mp checked
    refine ⟨of_decide_eq_true here, fun events next steps => ?_⟩
    rw [steps] at later
    exact inductionHypothesis later

end Checks

end Transition
