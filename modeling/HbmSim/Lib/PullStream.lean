/-
Streams that are pulled item by item until they end. A stream may fail, and it may
be wrapped: with items in front of it and a change of its own, or with every item
expanded into several that are numbered as they leave.

What a wrapped stream drains to is said in terms of what the stream itself drains
to, so two ways of wrapping can be compared as lists.
-/

import Mathlib

namespace PullStream

variable {State Item Piece Error : Type}
variable {next : State → Except Error (Option Item × State)}

/-- Pulled to its end, the stream gives the items, in order, and does not fail. -/
inductive Drains (next : State → Except Error (Option Item × State)) : State → List Item → Prop
  | done {state final : State} (ends : next state = .ok (none, final)) : Drains next state []
  | more {state later : State} {item : Item} {rest : List Item}
      (gives : next state = .ok (some item, later)) (drains : Drains next later rest) :
      Drains next state (item :: rest)

/-- A stream drains to one list at most. -/
theorem Drains.unique {state : State} {items others : List Item}
    (drains : Drains next state items) (drains' : Drains next state others) : items = others := by
  induction drains generalizing others with
  | done ends =>
    cases drains' with
    | done => rfl
    | more gives => cases ends.symm.trans gives
  | more gives _ inductionHypothesis =>
    cases drains' with
    | done ends => cases ends.symm.trans gives
    | more gives' drains' =>
      cases gives.symm.trans gives'
      rw [inductionHypothesis drains']

/-! ### Items in front -/

/-- Items that leave before those of a stream, and a change to each of its own. -/
def prefixed (next : State → Except Error (Option Item × State)) (change : Item → Item) :
    List Item × State → Except Error (Option Item × (List Item × State))
  | (item :: rest, state) => .ok (some item, (rest, state))
  | ([], state) =>
    match next state with
    | .error error => .error error
    | .ok (item, state) => .ok (item.map change, ([], state))

theorem prefixed_nil_eq_ok {change : Item → Item} {state : State} {item : Option Item}
    {final : List Item × State} :
    prefixed next change ([], state) = .ok (item, final) ↔
      ∃ own later, next state = .ok (own, later) ∧ item = own.map change ∧ final = ([], later) := by
  constructor
  · intro gives
    unfold prefixed at gives
    dsimp only at gives
    split at gives
    next => cases gives
    next own later pulled =>
      cases gives
      exact ⟨own, later, pulled, rfl, rfl⟩
  · rintro ⟨own, later, pulled, rfl, rfl⟩
    unfold prefixed
    dsimp only
    rw [pulled]

theorem Drains.changed {change : Item → Item} {state : State} {items : List Item}
    (drains : Drains next state items) :
    Drains (prefixed next change) ([], state) (items.map change) := by
  induction drains with
  | done ends => exact Drains.done (prefixed_nil_eq_ok.mpr ⟨_, _, ends, rfl, rfl⟩)
  | more gives _ inductionHypothesis =>
    exact Drains.more (prefixed_nil_eq_ok.mpr ⟨_, _, gives, rfl, rfl⟩) inductionHypothesis

/-- A stream with items in front drains to these and then to its own items, changed. -/
theorem drains_prefixed {change : Item → Item} {front : List Item} {state : State}
    {items : List Item} :
    Drains (prefixed next change) (front, state) items ↔
      ∃ own, Drains next state own ∧ items = front ++ own.map change := by
  constructor
  · intro drains
    generalize whole : (front, state) = start at drains
    induction drains generalizing front state with
    | done ends =>
      subst whole
      cases front with
      | cons => cases ends
      | nil =>
        obtain ⟨own, later, pulled, none, -⟩ := prefixed_nil_eq_ok.mp ends
        obtain rfl := Option.map_eq_none_iff.mp none.symm
        exact ⟨[], Drains.done pulled, rfl⟩
    | more gives _ inductionHypothesis =>
      subst whole
      cases front with
      | cons item rest =>
        cases gives
        obtain ⟨own, drains, rfl⟩ := inductionHypothesis rfl
        exact ⟨own, drains, rfl⟩
      | nil =>
        obtain ⟨own, later, pulled, some, rfl⟩ := prefixed_nil_eq_ok.mp gives
        obtain ⟨item, rfl, rfl⟩ := Option.map_eq_some_iff.mp some.symm
        obtain ⟨rest, drains, rfl⟩ := inductionHypothesis rfl
        exact ⟨item :: rest, Drains.more pulled drains, rfl⟩
  · rintro ⟨own, drains, rfl⟩
    induction front with
    | nil => exact drains.changed
    | cons item rest inductionHypothesis => exact Drains.more rfl inductionHypothesis

/-! ### Expanded items -/

/-- The pieces that every item of a stream is expanded into, numbered as they leave. An item that is
expanded into nothing ends the stream. -/
def expanded (next : State → Except Error (Option Item × State))
    (expand : Item → Except Error (List Piece)) (number : Nat → Piece → Piece) :
    State × List Piece × Nat → Except Error (Option Piece × (State × List Piece × Nat))
  | (state, piece :: rest, count) => .ok (some (number count piece), (state, rest, count + 1))
  | (state, [], count) =>
    match next state with
    | .error error => .error error
    | .ok (none, state) => .ok (none, (state, [], count))
    | .ok (some item, state) =>
      match expand item with
      | .error error => .error error
      | .ok [] => .ok (none, (state, [], count))
      | .ok (piece :: rest) => .ok (some (number count piece), (state, rest, count + 1))

/-- Pieces with their numbers. -/
def numbered (number : Nat → Piece → Piece) (count : Nat) (pieces : List Piece) : List Piece :=
  (pieces.zipIdx count).map fun placed => number placed.2 placed.1

theorem numbered_cons (number : Nat → Piece → Piece) (count : Nat) (piece : Piece)
    (pieces : List Piece) : numbered number count (piece :: pieces) =
      number count piece :: numbered number (count + 1) pieces := rfl

theorem numbered_append (number : Nat → Piece → Piece) (count : Nat) (front back : List Piece) :
    numbered number count (front ++ back) =
      numbered number count front ++ numbered number (count + front.length) back := by
  unfold numbered
  rw [List.zipIdx_append, List.map_append]

variable {expand : Item → Except Error (List Piece)} {number : Nat → Piece → Piece}

theorem drains_pending {state : State} {pending pieces : List Piece} {count : Nat}
    (drains : Drains (expanded next expand number) (state, [], count + pending.length) pieces) :
    Drains (expanded next expand number) (state, pending, count)
      (numbered number count pending ++ pieces) := by
  induction pending generalizing count with
  | nil => exact drains
  | cons piece rest inductionHypothesis =>
    refine Drains.more rfl (inductionHypothesis ?_)
    rwa [List.length_cons, Nat.add_comm rest.length, ← Nat.add_assoc] at drains

/-- What an expanded stream with nothing pending does. -/
theorem expanded_nil_eq_ok (some : ∀ item pieces, expand item = .ok pieces → pieces ≠ [])
    {state : State} {count : Nat} {piece : Option Piece} {final : State × List Piece × Nat} :
    expanded next expand number (state, [], count) = .ok (piece, final) ↔
      (∃ later, next state = .ok (none, later) ∧ piece = none ∧ final = (later, [], count)) ∨
        ∃ item later first rest, next state = .ok (.some item, later) ∧
          expand item = .ok (first :: rest) ∧ piece = .some (number count first) ∧
          final = (later, rest, count + 1) := by
  constructor
  · intro gives
    unfold expanded at gives
    dsimp only at gives
    split at gives
    next => cases gives
    next later pulled =>
      cases gives
      exact Or.inl ⟨later, pulled, rfl, rfl⟩
    next item later pulled =>
      split at gives
      next => cases gives
      next empty => exact absurd rfl (some item [] empty)
      next first rest parts =>
        cases gives
        exact Or.inr ⟨item, later, first, rest, pulled, parts, rfl, rfl⟩
  · rintro (⟨later, pulled, rfl, rfl⟩ | ⟨item, later, first, rest, pulled, parts, rfl, rfl⟩)
    · unfold expanded
      dsimp only
      rw [pulled]
    · unfold expanded
      dsimp only
      rw [pulled]
      dsimp only
      rw [parts]

/-- A stream whose items are expanded drains to all the pieces of all its items, in order. -/
theorem drains_expanded (some : ∀ item pieces, expand item = .ok pieces → pieces ≠ [])
    {state : State} {pending pieces : List Piece} {count : Nat} :
    Drains (expanded next expand number) (state, pending, count) pieces ↔
      ∃ items parts, Drains next state items ∧
        List.Forall₂ (fun item part => expand item = .ok part) items parts ∧
        pieces = numbered number count (pending ++ parts.flatten) := by
  constructor
  · intro drains
    generalize whole : (state, pending, count) = start at drains
    induction drains generalizing state pending count with
    | done ends =>
      subst whole
      cases pending with
      | cons => cases ends
      | nil =>
        rcases (expanded_nil_eq_ok some).mp ends with
          ⟨later, pulled, -⟩ | ⟨_, _, _, _, _, _, absurd, _⟩
        · exact ⟨[], [], Drains.done pulled, List.Forall₂.nil, rfl⟩
        · cases absurd
    | more gives _ inductionHypothesis =>
      subst whole
      cases pending with
      | cons piece rest =>
        cases gives
        obtain ⟨items, parts, drains, expands, rfl⟩ := inductionHypothesis rfl
        exact ⟨items, parts, drains, expands, rfl⟩
      | nil =>
        rcases (expanded_nil_eq_ok some).mp gives with
          ⟨_, _, absurd, _⟩ | ⟨item, later, first, rest, pulled, parts, same, rfl⟩
        · cases absurd
        · cases same
          obtain ⟨items, others, drains, expands, rfl⟩ := inductionHypothesis rfl
          exact ⟨item :: items, (first :: rest) :: others, Drains.more pulled drains,
            List.Forall₂.cons parts expands, rfl⟩
  · rintro ⟨items, parts, drains, expands, rfl⟩
    have settled : ∀ count, Drains (expanded next expand number) (state, [], count)
        (numbered number count parts.flatten) := by
      induction drains generalizing parts with
      | done ends =>
        cases expands
        exact fun count =>
          Drains.done ((expanded_nil_eq_ok some).mpr (Or.inl ⟨_, ends, rfl, rfl⟩))
      | @more state later item items gives _ inductionHypothesis =>
        obtain ⟨part, others, here, remaining, rfl⟩ := List.forall₂_cons_left_iff.mp expands
        intro count
        obtain ⟨first, rest, rfl⟩ := List.exists_cons_of_ne_nil (some item part here)
        refine Drains.more ((expanded_nil_eq_ok some).mpr
          (Or.inr ⟨item, later, first, rest, gives, here, rfl, rfl⟩)) ?_
        have waiting := drains_pending
          (inductionHypothesis others remaining (count + 1 + rest.length))
        rwa [← numbered_append] at waiting
    have waiting := drains_pending (settled (count + pending.length))
    rwa [← numbered_append] at waiting

end PullStream
