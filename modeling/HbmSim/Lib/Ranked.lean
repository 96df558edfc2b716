/-
Items brought into the order of a rank. Items of one rank keep the order of their
places, so of the items with a property the last one is the last of the highest
rank.
-/

import Mathlib

namespace Ranked

variable {Item : Type} {rank : Item → Nat}

/-- An item comes no later than another: its rank is lower, or its place in the same rank. -/
def inOrder (rank : Item → Nat) (lhs rhs : Nat × Item) : Bool :=
  decide (rank lhs.2 < rank rhs.2 ∨ (rank lhs.2 = rank rhs.2 ∧ lhs.1 ≤ rhs.1))

/-- Sort items with their places by rank, then by place. -/
def sort (rank : Item → Nat) (placed : List (Nat × Item)) : List (Nat × Item) :=
  placed.insertionSort fun lhs rhs => inOrder rank lhs rhs = true

theorem sort_perm (placed : List (Nat × Item)) : (sort rank placed).Perm placed :=
  List.perm_insertionSort _ _

theorem pairwise_sort (placed : List (Nat × Item)) :
    (sort rank placed).Pairwise fun lhs rhs => inOrder rank lhs rhs = true := by
  have total : Std.Total fun lhs rhs : Nat × Item => inOrder rank lhs rhs = true := by
    refine ⟨fun first second => ?_⟩
    simp only [inOrder, decide_eq_true_eq]
    omega
  have transitive : IsTrans (Nat × Item) fun lhs rhs => inOrder rank lhs rhs = true := by
    refine ⟨fun first second third => ?_⟩
    simp only [inOrder, decide_eq_true_eq]
    omega
  exact List.pairwise_insertionSort _ placed

/-- The sorted items are in the order of their ranks. -/
theorem pairwise_rank (placed : List (Nat × Item)) :
    ((sort rank placed).map Prod.snd).Pairwise fun lhs rhs => rank lhs ≤ rank rhs := by
  refine List.pairwise_map.mpr ((pairwise_sort placed).imp ?_)
  intro lhs rhs ordered
  rcases of_decide_eq_true ordered with below | ⟨same, -⟩
  · exact Nat.le_of_lt below
  · exact Nat.le_of_eq same

/-- Sorting leaves the items of one rank in their order. -/
theorem filter_sort {placed : List (Nat × Item)}
    (inPlace : placed.Pairwise fun lhs rhs => lhs.1 < rhs.1) (level : Nat) :
    ((sort rank placed).map Prod.snd).filter (fun item => decide (rank item = level)) =
      (placed.map Prod.snd).filter fun item => decide (rank item = level) := by
  rw [List.filter_map, List.filter_map]
  refine congrArg (List.map Prod.snd) ?_
  have distinct : (placed.map Prod.fst).Nodup :=
    List.pairwise_map.mpr (inPlace.imp fun below => Nat.ne_of_lt below)
  refine @List.Perm.eq_of_pairwise _ (fun lhs rhs => lhs.1 ≤ rhs.1) _ _
    (fun lhs rhs member member' below above => ?_) ?_ ?_ ((sort_perm placed).filter _)
  · exact List.inj_on_of_nodup_map distinct
      ((sort_perm placed).subset (List.mem_of_mem_filter member))
      (List.mem_of_mem_filter member') (Nat.le_antisymm below above)
  · have sorted := (@pairwise_sort _ rank placed).filter
      ((fun item => decide (rank item = level)) ∘ Prod.snd)
    refine sorted.imp_of_mem fun {lhs rhs} member member' ordered => ?_
    have here : rank lhs.2 = level := of_decide_eq_true (List.mem_filter.mp member).2
    have here' : rank rhs.2 = level := of_decide_eq_true (List.mem_filter.mp member').2
    have ordered := of_decide_eq_true ordered
    show lhs.1 ≤ rhs.1
    omega
  · exact (inPlace.imp fun below => Nat.le_of_lt below).filter _

/-- The items of a list with their places. -/
def placed (items : List Item) : List (Nat × Item) := items.zipIdx.map Prod.swap

theorem map_snd_placed (items : List Item) : (placed items).map Prod.snd = items := by
  unfold placed
  rw [List.map_map]
  exact List.zipIdx_map_fst 0 items

theorem pairwise_placed (items : List Item) :
    (placed items).Pairwise fun lhs rhs => lhs.1 < rhs.1 := by
  have general : ∀ start, (items.zipIdx start).Pairwise fun lhs rhs => lhs.2 < rhs.2 := by
    induction items with
    | nil => exact fun _ => List.Pairwise.nil
    | cons item rest inductionHypothesis =>
      intro start
      rw [List.zipIdx_cons]
      refine List.pairwise_cons.mpr ⟨fun later member => ?_, inductionHypothesis (start + 1)⟩
      exact List.le_snd_of_mem_zipIdx member
  exact List.pairwise_map.mpr (general 0)

/-- In the order of the ranks, the last item is the last of its rank, the highest there is. -/
theorem getLast?_eq_some_iff {items : List Item}
    (ordered : items.Pairwise fun lhs rhs => rank lhs ≤ rank rhs) (item : Item) :
    items.getLast? = some item ↔
      (items.filter fun other => decide (rank other = rank item)).getLast? = some item ∧
        ∀ other ∈ items, rank other ≤ rank item := by
  rcases List.eq_nil_or_concat items with rfl | ⟨front, last, rfl⟩
  · exact ⟨fun absurd => (nomatch absurd), fun absurd => (nomatch absurd.1)⟩
  rw [List.concat_eq_append] at ordered ⊢
  have highest : ∀ other ∈ front ++ [last], rank other ≤ rank last := by
    intro other member
    rcases List.mem_append.mp member with before | here
    · exact (List.pairwise_append.mp ordered).2.2 other before last (List.mem_singleton_self last)
    · exact Nat.le_of_eq (congrArg rank (List.mem_singleton.mp here))
  have kept : rank last = rank item →
      (front ++ [last]).filter (fun other => decide (rank other = rank item)) =
        front.filter (fun other => decide (rank other = rank item)) ++ [last] := by
    intro same
    rw [List.filter_append, List.filter_singleton, decide_eq_true same]
    rfl
  rw [List.getLast?_concat, Option.some_inj]
  constructor
  · rintro rfl
    rw [kept rfl, List.getLast?_concat]
    exact ⟨rfl, highest⟩
  · rintro ⟨found, bound⟩
    have member := List.mem_of_mem_filter (List.mem_of_getLast? found)
    have same := Nat.le_antisymm (bound last (List.mem_append_right _ (List.mem_singleton_self _)))
      (highest item member)
    rw [kept same, List.getLast?_concat] at found
    exact Option.some.inj found

/-- The last item with a property, in the order of the ranks. -/
theorem getLast?_filter_eq_some_iff {items : List Item}
    (ordered : items.Pairwise fun lhs rhs => rank lhs ≤ rank rhs) (select : Item → Bool)
    (item : Item) :
    (items.filter select).getLast? = some item ↔
      ((items.filter fun other => decide (rank other = rank item)).filter select).getLast? =
          some item ∧
        ∀ other ∈ items, select other = true → rank other ≤ rank item := by
  rw [getLast?_eq_some_iff (ordered.filter select), List.filter_filter, List.filter_filter]
  refine and_congr ?_ ?_
  · simp only [Bool.and_comm]
  · simp only [List.mem_filter, and_imp]

end Ranked
