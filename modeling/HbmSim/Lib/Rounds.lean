/-
Visits in rounds of one size: no place is visited twice in a round. It is enough
to keep the visits of the open round, and to let in none that is among them; then
every full round visits each place once.
-/

import Mathlib

namespace Rounds

variable {Place : Type} {size : Nat} {visits : List Place} {visit : Place}

/-- Two equal visits are of different rounds. -/
def OncePerRound (size : Nat) (visits : List Place) : Prop :=
  ∀ first later visit, first < later → visits[first]? = some visit →
    visits[later]? = some visit → first / size ≠ later / size

/-- The visits of the round that is not full yet. -/
def openRound (size : Nat) (visits : List Place) : List Place :=
  visits.drop (visits.length / size * size)

theorem oncePerRound_nil : OncePerRound size ([] : List Place) :=
  fun _ _ _ _ opens => (nomatch opens)

theorem openRound_nil : openRound size ([] : List Place) = [] := List.drop_nil

/-- A visit that is new in the open round keeps the rounds. -/
theorem OncePerRound.concat (once : OncePerRound size visits)
    (fresh : visit ∉ openRound size visits) : OncePerRound size (visits ++ [visit]) := by
  intro first later other before opens closes same
  obtain ⟨inside, _⟩ := List.getElem?_eq_some_iff.mp closes
  rw [List.length_append, List.length_singleton] at inside
  rw [List.getElem?_append_left (by omega)] at opens
  rcases Nat.lt_or_eq_of_le (Nat.le_of_lt_succ inside) with old | last
  · rw [List.getElem?_append_left old] at closes
    exact once first later other before opens closes same
  · -- The new visit is the later one, and the first one is of the open round.
    rw [last, List.getElem?_concat_length] at closes
    obtain rfl := Option.some.inj closes
    have within : visits.length / size * size ≤ first := by
      rw [← last, ← same]
      exact Nat.div_mul_le_self first size
    refine fresh (List.mem_of_getElem? (i := first - visits.length / size * size) ?_)
    unfold openRound
    rw [List.getElem?_drop, Nat.add_sub_cancel' within]
    exact opens

/-- A visit joins the open round, which ends when it is full. -/
theorem openRound_concat (positive : 0 < size) :
    openRound size (visits ++ [visit]) =
      if (visits.length + 1) % size = 0 then [] else openRound size visits ++ [visit] := by
  unfold openRound
  rw [List.length_append, List.length_singleton, Nat.succ_div]
  by_cases full : size ∣ visits.length + 1
  · rw [if_pos full, if_pos (Nat.mod_eq_zero_of_dvd full), List.drop_eq_nil_iff,
      List.length_append, List.length_singleton, Nat.add_mul, Nat.one_mul]
    have below := Nat.lt_div_mul_add positive (a := visits.length)
    exact below
  · rw [if_neg full, if_neg fun none => full (Nat.dvd_of_mod_eq_zero none), Nat.add_zero,
      List.drop_append_of_le_length (Nat.div_mul_le_self _ _)]

theorem mem_openRound_concat (positive : 0 < size) (filling : (visits.length + 1) % size ≠ 0)
    {other : Place} : other ∈ openRound size (visits ++ [visit]) ↔
      other ∈ openRound size visits ∨ other = visit := by
  rw [openRound_concat positive, if_neg filling, List.mem_append, List.mem_singleton]

/-- A full round visits every place once. -/
theorem OncePerRound.perm_range {visits : List Nat} (once : OncePerRound size visits)
    (inside : ∀ visit ∈ visits, visit < size) {round : Nat}
    (full : (round + 1) * size ≤ visits.length) :
    ((visits.drop (round * size)).take size).Perm (List.range size) := by
  have length : ((visits.drop (round * size)).take size).length = size := by
    rw [List.length_take, List.length_drop, min_eq_left]
    rw [Nat.add_mul, Nat.one_mul] at full
    omega
  have entry : ∀ {place : Nat}, place < size →
      ((visits.drop (round * size)).take size)[place]? = visits[round * size + place]? :=
    fun small => by rw [List.getElem?_take_of_lt small, List.getElem?_drop]
  have quotient : ∀ {place : Nat}, place < size → (round * size + place) / size = round := by
    intro place small
    rw [Nat.mul_comm, Nat.mul_add_div (Nat.zero_lt_of_lt small), Nat.div_eq_of_lt small,
      Nat.add_zero]
  have distinct : ((visits.drop (round * size)).take size).Nodup := by
    rw [List.nodup_iff_getElem?_ne_getElem?]
    intro first later before small same
    rw [length] at small
    have early := before.trans small
    rw [entry early, entry small] at same
    have there : round * size + later < visits.length := by
      rw [Nat.add_mul, Nat.one_mul] at full
      omega
    have found := List.getElem?_eq_getElem there
    exact once _ _ _ (Nat.add_lt_add_left before _) (same.trans found) found
      ((quotient early).trans (quotient small).symm)
  refine (distinct.subperm fun visit member => ?_).perm_of_length_le ?_
  · exact List.mem_range.mpr (inside visit (List.mem_of_mem_drop (List.mem_of_mem_take member)))
  · rw [length, List.length_range]

end Rounds
