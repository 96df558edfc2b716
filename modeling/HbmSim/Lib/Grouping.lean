/-
Lists put together from groups. Every group has a name and contributes the items
that carry it, and no two groups share a name; then a list is a rearrangement of
all the groups exactly when each of its items carries the name of a group and,
name by name, it has the items of that group.
-/

import Mathlib

namespace Grouping

variable {Item Group Key : Type} [DecidableEq Key]
variable {key : Item → Key} {name : Group → Key} {members : Group → List Item}
variable {groups : List Group} {items : List Item}

/-- The items of a list that carry a name. -/
def named (key : Item → Key) (items : List Item) (wanted : Key) : List Item :=
  items.filter fun item => decide (key item = wanted)

theorem mem_named {item : Item} {wanted : Key} :
    item ∈ named key items wanted ↔ item ∈ items ∧ key item = wanted := by
  unfold named
  rw [List.mem_filter, decide_eq_true_eq]

theorem named_eq_self {wanted : Key} (all : ∀ item ∈ items, key item = wanted) :
    named key items wanted = items :=
  List.filter_eq_self.mpr fun item member => decide_eq_true (all item member)

theorem named_eq_nil {wanted : Key} (none : ∀ item ∈ items, key item ≠ wanted) :
    named key items wanted = [] :=
  List.filter_eq_nil_iff.mpr fun item member carried =>
    none item member (of_decide_eq_true carried)

/-- A group is what carries its name among all the groups. -/
theorem named_flatMap (distinct : (groups.map name).Nodup)
    (carries : ∀ group ∈ groups, ∀ item ∈ members group, key item = name group)
    {group : Group} (member : group ∈ groups) :
    named key (groups.flatMap members) (name group) = members group := by
  induction groups with
  | nil => exact absurd member List.not_mem_nil
  | cons first rest inductionHypothesis =>
    obtain ⟨fresh, distinct⟩ := List.nodup_cons.mp distinct
    have carriesRest : ∀ group ∈ rest, ∀ item ∈ members group, key item = name group :=
      fun group member => carries group (List.mem_cons_of_mem _ member)
    have split : named key ((first :: rest).flatMap members) (name group) =
        named key (members first) (name group) ++
          named key (rest.flatMap members) (name group) := by
      rw [List.flatMap_cons]
      exact List.filter_append _ _
    rw [split]
    rcases List.mem_cons.mp member with rfl | later
    · rw [named_eq_self (carries group List.mem_cons_self), named_eq_nil, List.append_nil]
      intro item found same
      obtain ⟨other, inRest, found⟩ := List.mem_flatMap.mp found
      refine fresh (List.mem_map.mpr ⟨other, inRest, ?_⟩)
      rw [← carriesRest other inRest item found, same]
    · rw [inductionHypothesis distinct carriesRest later, named_eq_nil, List.nil_append]
      intro item found same
      refine fresh (List.mem_map.mpr ⟨group, later, ?_⟩)
      rw [← carries first List.mem_cons_self item found, same]

/-- A list is rearranged by going through the names it carries. -/
theorem perm_flatMap_named (distinct : (groups.map name).Nodup)
    (known : ∀ item ∈ items, key item ∈ groups.map name) :
    items.Perm (groups.flatMap fun group => named key items (name group)) := by
  induction groups generalizing items with
  | nil =>
    have empty : items = [] :=
      List.eq_nil_iff_forall_not_mem.mpr fun item member =>
        absurd (known item member) List.not_mem_nil
    rw [empty]
    exact List.Perm.refl _
  | cons first rest inductionHypothesis =>
    obtain ⟨fresh, distinct⟩ := List.nodup_cons.mp distinct
    have others : (items.filter fun item => !decide (key item = name first)).Perm
        (rest.flatMap fun group =>
          named key (items.filter fun item => !decide (key item = name first)) (name group)) := by
      refine inductionHypothesis distinct fun item member => ?_
      obtain ⟨member, differs⟩ := List.mem_filter.mp member
      rcases List.mem_cons.mp (known item member) with same | later
      · rw [decide_eq_true same] at differs
        exact absurd differs Bool.false_ne_true
      · exact later
    have same : (rest.flatMap fun group =>
          named key (items.filter fun item => !decide (key item = name first)) (name group)) =
        rest.flatMap fun group => named key items (name group) := by
      refine List.flatMap_congr fun group member => ?_
      unfold named
      rw [List.filter_filter]
      refine List.filter_congr fun item _ => ?_
      by_cases carried : key item = name group
      · have differs : key item ≠ name first := fun same =>
          fresh (List.mem_map.mpr ⟨group, member, by rw [← carried, same]⟩)
        rw [decide_eq_true carried, decide_eq_false differs]
        rfl
      · rw [decide_eq_false carried]
        rfl
    rw [List.flatMap_cons]
    rw [same] at others
    exact (List.filter_append_perm (fun item => decide (key item = name first)) items).symm.trans
      (others.append_left _)

/-- A list is a rearrangement of the groups when it has, name by name, their items. -/
theorem perm_flatMap_iff (distinct : (groups.map name).Nodup)
    (carries : ∀ group ∈ groups, ∀ item ∈ members group, key item = name group) :
    items.Perm (groups.flatMap members) ↔
      (∀ item ∈ items, key item ∈ groups.map name) ∧
        ∀ group ∈ groups, (named key items (name group)).Perm (members group) := by
  constructor
  · intro rearranged
    refine ⟨fun item member => ?_, fun group member => ?_⟩
    · obtain ⟨group, inGroups, found⟩ := List.mem_flatMap.mp (rearranged.subset member)
      exact List.mem_map.mpr ⟨group, inGroups, (carries group inGroups item found).symm⟩
    · rw [← named_flatMap distinct carries member]
      exact rearranged.filter _
  · rintro ⟨known, groupwise⟩
    exact (perm_flatMap_named distinct known).trans (List.Perm.flatMap_left groups groupwise)

/-- A list is rearranged when the items with a property are and so are the others. -/
theorem perm_iff_filter (select : Item → Bool) {others : List Item} :
    items.Perm others ↔
      (items.filter select).Perm (others.filter select) ∧
        (items.filter fun item => !select item).Perm (others.filter fun item => !select item) := by
  constructor
  · exact fun rearranged => ⟨rearranged.filter _, rearranged.filter _⟩
  · rintro ⟨selected, rest⟩
    exact ((List.filter_append_perm select items).symm.trans (selected.append rest)).trans
      (List.filter_append_perm select others)

/-- Sorting gives a list that is strictly in order exactly when it is a rearrangement of it. -/
theorem insertionSort_eq_iff {rank : Item → ℤ} {target : List Item}
    (ordered : target.Pairwise fun lhs rhs => rank lhs < rank rhs) :
    items.insertionSort (fun lhs rhs => rank lhs ≤ rank rhs) = target ↔ items.Perm target := by
  constructor
  · rintro rfl
    exact (List.perm_insertionSort _ items).symm
  · intro rearranged
    have distinct : (target.map rank).Nodup :=
      List.pairwise_map.mpr (ordered.imp fun below => ne_of_lt below)
    have sorted : (items.insertionSort fun lhs rhs => rank lhs ≤ rank rhs).Pairwise
        fun lhs rhs => rank lhs ≤ rank rhs :=
      @List.pairwise_insertionSort _ (fun lhs rhs => rank lhs ≤ rank rhs) _
        ⟨fun lhs rhs => le_total (rank lhs) (rank rhs)⟩ ⟨fun _ _ _ => le_trans⟩ items
    refine @List.Perm.eq_of_pairwise _ (fun lhs rhs => rank lhs ≤ rank rhs) _ _
      (fun lhs rhs member member' below above => ?_) sorted
      (ordered.imp fun below => le_of_lt below)
      ((List.perm_insertionSort _ items).trans rearranged)
    exact List.inj_on_of_nodup_map distinct
      (rearranged.subset ((List.mem_insertionSort _).mp member)) member' (le_antisymm below above)

end Grouping
