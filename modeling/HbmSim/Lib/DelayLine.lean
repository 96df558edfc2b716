/-
A line whose items become ready at a time of their own and leave it from the front
at the ticks of a clock. When the items enter in the order of their times, nothing
waits behind another: every item leaves at the first tick not before its time.
-/

import Mathlib

namespace DelayLine

variable {Item : Type}

inductive Event (Item : Type)
  | put (item : Item)
  | tick (cycle : Nat)

variable (ready : Item → Nat)

/-- Whether an item is ready. -/
def due (cycle : Nat) (item : Item) : Bool := decide (ready item ≤ cycle)

/-- One event: an item enters at the back, or those at the front that are ready leave. -/
def step (line : List Item) : Event Item → List (Item × Nat) × List Item
  | .put item => ([], line ++ [item])
  | .tick cycle =>
    ((line.takeWhile (due ready cycle)).map (·, cycle), line.dropWhile (due ready cycle))

/-- The items that leave, each with the cycle it leaves at, and the line that stays. -/
def run : List Item → List (Event Item) → List (Item × Nat) × List Item
  | line, [] => ([], line)
  | line, event :: rest =>
    let stepped := step ready line event
    let later := run stepped.2 rest
    (stepped.1 ++ later.1, later.2)

/-! ### What should leave, and when -/

/-- The first tick not before an item's time. -/
def dueAt (item : Item) : List (Event Item) → Option Nat
  | [] => none
  | .put _ :: rest => dueAt item rest
  | .tick cycle :: rest => if ready item ≤ cycle then some cycle else dueAt item rest

/-- The items with a tick that is due after they entered, in the order they entered. -/
def settled : List (Event Item) → List (Item × Nat)
  | [] => []
  | .put item :: rest => (dueAt ready item rest).toList.map (item, ·) ++ settled rest
  | .tick _ :: rest => settled rest

/-- The items without one. -/
def waiting : List (Event Item) → List Item
  | [] => []
  | .put item :: rest => (if (dueAt ready item rest).isNone then [item] else []) ++ waiting rest
  | .tick _ :: rest => waiting rest

/-- The items that entered. -/
def puts : List (Event Item) → List Item
  | [] => []
  | .put item :: rest => item :: puts rest
  | .tick _ :: rest => puts rest

variable {ready}

theorem run_cons (line : List Item) (event : Event Item) (rest : List (Event Item)) :
    run ready line (event :: rest) =
      ((step ready line event).1 ++ (run ready (step ready line event).2 rest).1,
        (run ready (step ready line event).2 rest).2) := rfl

theorem settled_put (item : Item) (rest : List (Event Item)) :
    settled ready (.put item :: rest) =
      (dueAt ready item rest).toList.map (item, ·) ++ settled ready rest := rfl

theorem waiting_put (item : Item) (rest : List (Event Item)) :
    waiting ready (.put item :: rest) =
      (if (dueAt ready item rest).isNone then [item] else []) ++ waiting ready rest := rfl

theorem run_append (line : List Item) (events others : List (Event Item)) :
    run ready line (events ++ others) =
      ((run ready line events).1 ++ (run ready (run ready line events).2 others).1,
        (run ready (run ready line events).2 others).2) := by
  induction events generalizing line with
  | nil => rfl
  | cons event rest inductionHypothesis =>
    rw [List.cons_append, run_cons, inductionHypothesis, ← List.append_assoc, run_cons]

theorem dueAt_puts (item : Item) (line : List Item) (events : List (Event Item)) :
    dueAt ready item (line.map Event.put ++ events) = dueAt ready item events := by
  induction line with
  | nil => rfl
  | cons other rest inductionHypothesis => exact inductionHypothesis

/-- Before the first tick everything waits. -/
theorem settled_puts (line : List Item) : settled ready (line.map Event.put) = [] := by
  induction line with
  | nil => rfl
  | cons item rest inductionHypothesis =>
    have never : dueAt ready item (rest.map Event.put) = none := by
      rw [← List.append_nil (rest.map Event.put), dueAt_puts]
      rfl
    rw [List.map_cons, settled_put, never, inductionHypothesis]
    rfl

theorem waiting_puts (line : List Item) : waiting ready (line.map Event.put) = line := by
  induction line with
  | nil => rfl
  | cons item rest inductionHypothesis =>
    have never : dueAt ready item (rest.map Event.put) = none := by
      rw [← List.append_nil (rest.map Event.put), dueAt_puts]
      rfl
    rw [List.map_cons, waiting_put, never, inductionHypothesis]
    rfl

/-- A tick settles the ready items of a line in order, which are those at the front. -/
theorem tick_settles {line : List Item} (sorted : line.Pairwise fun item other =>
    ready item ≤ ready other) (cycle : Nat) (rest : List (Event Item)) :
    settled ready (line.map Event.put ++ .tick cycle :: rest) =
        (step ready line (.tick cycle)).1 ++
          settled ready ((step ready line (.tick cycle)).2.map Event.put ++ rest) ∧
      waiting ready (line.map Event.put ++ .tick cycle :: rest) =
        waiting ready ((step ready line (.tick cycle)).2.map Event.put ++ rest) := by
  induction line with
  | nil => exact ⟨rfl, rfl⟩
  | cons item line inductionHypothesis =>
    obtain ⟨first, others⟩ := List.pairwise_cons.mp sorted
    obtain ⟨settles, waits⟩ := inductionHypothesis others
    have leaves : dueAt ready item (line.map Event.put ++ .tick cycle :: rest) =
        if ready item ≤ cycle then some cycle else dueAt ready item rest :=
      dueAt_puts item line (.tick cycle :: rest)
    rw [List.map_cons, List.cons_append, settled_put, waiting_put, leaves, settles, waits]
    dsimp only [step]
    by_cases now : ready item ≤ cycle
    · have leaves : due ready cycle item = true := decide_eq_true now
      rw [List.takeWhile_cons_of_pos leaves, List.dropWhile_cons_of_pos leaves, if_pos now]
      exact ⟨rfl, rfl⟩
    · -- Nothing behind the item is ready either.
      have later : ¬ due ready cycle item = true := fun is => now (of_decide_eq_true is)
      have none : line.takeWhile (due ready cycle) = [] ∧
          line.dropWhile (due ready cycle) = line := by
        cases line with
        | nil => exact ⟨rfl, rfl⟩
        | cons other line =>
          have behind := first other List.mem_cons_self
          have waits : ¬ due ready cycle other = true := fun is =>
            now (behind.trans (of_decide_eq_true is))
          exact ⟨List.takeWhile_cons_of_neg waits, List.dropWhile_cons_of_neg waits⟩
      rw [List.takeWhile_cons_of_neg later, List.dropWhile_cons_of_neg later, if_neg now, none.1,
        none.2, List.map_cons, List.cons_append, settled_put, waiting_put, dueAt_puts]
      exact ⟨rfl, rfl⟩

/-- Items that enter in the order of their times leave at the first tick that is due, and no
others leave. -/
theorem run_settles {line : List Item} {events : List (Event Item)}
    (sorted : (line ++ puts events).Pairwise fun item other => ready item ≤ ready other) :
    run ready line events = (settled ready (line.map Event.put ++ events),
      waiting ready (line.map Event.put ++ events)) := by
  induction events generalizing line with
  | nil =>
    rw [List.append_nil, settled_puts, waiting_puts]
    rfl
  | cons event rest inductionHypothesis =>
    cases event with
    | put item =>
      have more : (line ++ [item] ++ puts rest).Pairwise fun item other =>
          ready item ≤ ready other := by
        rw [List.append_assoc]
        exact sorted
      rw [run_cons, step, inductionHypothesis more, List.map_append, List.append_assoc]
      rfl
    | tick cycle =>
      obtain ⟨settles, waits⟩ := tick_settles (List.pairwise_append.mp sorted).1 cycle rest
      have fewer : ((step ready line (.tick cycle)).2 ++ puts rest).Pairwise fun item other =>
          ready item ≤ ready other :=
        sorted.sublist ((List.dropWhile_sublist _).append (List.Sublist.refl _))
      rw [run_cons, settles, waits, inductionHypothesis fewer]

end DelayLine
