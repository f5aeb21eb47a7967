/-
Sorting by a key, with a comparison that may break its ties in any way.

Whatever the comparison does with equal keys, an insertion sort puts the keys in order, and where the
keys differ there is only one list in order.
-/

import Mathlib

namespace Reflection

section Sorting

variable {Item Key : Type} [LinearOrder Key] {key : Item → Key}

/-- The items of a list in strict order are told apart by their keys. -/
theorem eq_of_key_eq {items : List Item} (inOrder : items.Pairwise fun one other => key one < key other)
    {one other : Item} (inside : one ∈ items) (alsoInside : other ∈ items) (same : key one = key other) :
    one = other := by
  have distinct : (items.map key).Nodup := by
    rw [List.Nodup, List.pairwise_map]
    exact inOrder.imp fun less => less.ne
  exact List.inj_on_of_nodup_map distinct inside alsoInside same

theorem eq_of_perm_of_inOrder {items ordered : List Item}
    (sorted : items.Pairwise fun one other => key one ≤ key other)
    (inOrder : ordered.Pairwise fun one other => key one < key other) (perm : items.Perm ordered) :
    items = ordered := by
  have antisymm : ∀ one other : Item, one ∈ items → other ∈ ordered → key one ≤ key other →
      key other ≤ key one → one = other := by
    intro one other inside inOrdered before after
    exact eq_of_key_eq inOrder (perm.subset inside) inOrdered (le_antisymm before after)
  exact List.Perm.eq_of_pairwise antisymm sorted (inOrder.imp fun less => less.le) perm

/-- Lists in strict order with the same members are one. -/
theorem eq_of_mem_iff {items others : List Item} (inOrder : items.Pairwise fun one other => key one < key other)
    (othersInOrder : others.Pairwise fun one other => key one < key other)
    (same : ∀ item, item ∈ items ↔ item ∈ others) : items = others := by
  have nodup : ∀ {list : List Item}, (list.Pairwise fun one other => key one < key other) → list.Nodup :=
    fun ordered => ordered.imp fun less equal => absurd (congrArg key equal) less.ne
  have perm := (List.perm_ext_iff_of_nodup (nodup inOrder) (nodup othersInOrder)).mpr same
  exact eq_of_perm_of_inOrder (inOrder.imp fun less => less.le) othersInOrder perm

variable {compare : Item → Item → Prop} [DecidableRel compare]

theorem orderedInsert_sorted (toKey : ∀ one other, compare one other → key one ≤ key other)
    (ofKey : ∀ one other, ¬compare one other → key other ≤ key one) (item : Item) {items : List Item}
    (sorted : items.Pairwise fun one other => key one ≤ key other) :
    (items.orderedInsert compare item).Pairwise fun one other => key one ≤ key other := by
  induction items with
  | nil => exact List.pairwise_singleton _ _
  | cons head rest ih =>
      obtain ⟨below, later⟩ := List.pairwise_cons.mp sorted
      by_cases first : compare item head
      · rw [List.orderedInsert_cons_of_le compare rest first]
        refine List.pairwise_cons.mpr ⟨?_, sorted⟩
        intro other inside
        rcases List.mem_cons.mp inside with same | behind
        · rw [same]
          exact toKey item head first
        · exact (toKey item head first).trans (below other behind)
      · rw [List.orderedInsert_of_not_le compare rest first]
        refine List.pairwise_cons.mpr ⟨?_, ih later⟩
        intro other inside
        rw [List.mem_orderedInsert] at inside
        rcases inside with same | behind
        · rw [same]
          exact ofKey item head first
        · exact below other behind

theorem insertionSort_sorted (toKey : ∀ one other, compare one other → key one ≤ key other)
    (ofKey : ∀ one other, ¬compare one other → key other ≤ key one) (items : List Item) :
    (items.insertionSort compare).Pairwise fun one other => key one ≤ key other := by
  induction items with
  | nil => exact List.Pairwise.nil
  | cons head rest ih =>
      rw [List.insertionSort_cons]
      exact orderedInsert_sorted toKey ofKey head ih

theorem insertionSort_eq (toKey : ∀ one other, compare one other → key one ≤ key other)
    (ofKey : ∀ one other, ¬compare one other → key other ≤ key one) {items ordered : List Item}
    (inOrder : ordered.Pairwise fun one other => key one < key other) (perm : items.Perm ordered) :
    items.insertionSort compare = ordered :=
  eq_of_perm_of_inOrder (insertionSort_sorted toKey ofKey items) inOrder
    ((List.perm_insertionSort compare items).trans perm)

end Sorting

end Reflection
