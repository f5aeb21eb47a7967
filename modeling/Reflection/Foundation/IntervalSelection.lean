/-
Choosing disjoint intervals of the highest total score.

The intervals are sorted by their end. A best selection of a prefix either leaves out the last
interval or adds it to a best selection of the intervals that end before it starts.
-/

import Mathlib

namespace Reflection.IntervalSelection

section Intervals

variable {Item Position : Type} [LinearOrder Position] (start finish : Item → Position)

def Before (one other : Item) : Prop := finish one < start other

def Apart (one other : Item) : Prop := Before start finish one other ∨ Before start finish other one

/-- How many of the intervals end before one starts, as a scan from the back finds. -/
def compatible (done : List Item) (item : Item) : Nat :=
  (done.reverse.dropWhile fun earlier => decide (start item ≤ finish earlier)).length

variable {start finish} {done : List Item} {item : Item}

theorem compatible_le : compatible start finish done item ≤ done.length := by
  unfold compatible
  have dropped := (List.dropWhile_sublist (fun earlier => decide (start item ≤ finish earlier))
    (l := done.reverse)).length_le
  rw [List.length_reverse] at dropped
  exact dropped

/-- The scan sees the last interval first. -/
theorem compatible_snoc (last : Item) : compatible start finish (done ++ [last]) item =
    if start item ≤ finish last then compatible start finish done item else done.length + 1 := by
  unfold compatible
  rw [List.reverse_append, List.reverse_singleton, List.singleton_append]
  rw [List.dropWhile_cons]
  by_cases late : start item ≤ finish last
  · rw [if_pos (decide_eq_true late), if_pos late]
  · rw [if_neg (by simpa using late), if_neg late, List.length_cons, List.length_reverse]

private theorem reversed_parts (start finish : Item → Position) (done : List Item) (item : Item) :
    done =
    (done.reverse.dropWhile fun earlier => decide (start item ≤ finish earlier)).reverse ++
      (done.reverse.takeWhile fun earlier => decide (start item ≤ finish earlier)).reverse := by
  rw [← List.reverse_append, List.takeWhile_append_dropWhile, List.reverse_reverse]

private theorem compatible_eq_length : compatible start finish done item =
    (done.reverse.dropWhile fun earlier => decide (start item ≤ finish earlier)).reverse.length := by
  rw [List.length_reverse]
  rfl

theorem take_compatible : done.take (compatible start finish done item) =
    (done.reverse.dropWhile fun earlier => decide (start item ≤ finish earlier)).reverse := by
  rw [compatible_eq_length]
  conv_lhs =>
    arg 2
    rw [reversed_parts start finish done item]
  exact List.take_left

private theorem drop_compatible_eq : done.drop (compatible start finish done item) =
    (done.reverse.takeWhile fun earlier => decide (start item ≤ finish earlier)).reverse := by
  rw [compatible_eq_length]
  conv_lhs =>
    arg 2
    rw [reversed_parts start finish done item]
  exact List.drop_left

/-- The scan passed over what does not end before the item. -/
theorem drop_compatible : ∀ earlier ∈ done.drop (compatible start finish done item),
    start item ≤ finish earlier := by
  intro earlier inside
  rw [drop_compatible_eq, List.mem_reverse] at inside
  have passed := List.mem_takeWhile_imp inside
  exact of_decide_eq_true passed

/-- Where the intervals are sorted by their end, all before that place end before the item. -/
theorem before_of_compatible (sorted : done.Pairwise fun one other => finish one ≤ finish other) :
    ∀ earlier ∈ done.take (compatible start finish done item), Before start finish earlier item := by
  intro earlier inside
  have sortedPart := sorted.sublist (List.take_sublist (compatible start finish done item) done)
  rw [take_compatible] at inside sortedPart
  rw [List.pairwise_reverse] at sortedPart
  rw [List.mem_reverse] at inside
  have stops := List.head?_dropWhile_not (fun earlier => decide (start item ≤ finish earlier)) done.reverse
  cases remaining : done.reverse.dropWhile fun earlier => decide (start item ≤ finish earlier) with
  | nil =>
      rw [remaining] at inside
      cases inside
  | cons last rest =>
      rw [remaining] at inside sortedPart stops
      have lastBefore : finish last < start item := by
        simpa using stops
      rcases List.mem_cons.mp inside with same | behind
      · rw [same]
        exact lastBefore
      · exact lt_of_le_of_lt ((List.pairwise_cons.mp sortedPart).1 earlier behind) lastBefore

/-- The scan reads nothing but the ends. -/
theorem compatible_congr {others : List Item} {other : Item} (sameStart : start item = start other)
    (sameEnds : done.map finish = others.map finish) :
    compatible start finish done item = compatible start finish others other := by
  have scan : ∀ (list : List Item) (one : Item), compatible start finish list one =
      ((list.map finish).reverse.dropWhile fun last => decide (start one ≤ last)).length := by
    intro list one
    unfold compatible
    rw [← List.map_reverse, List.dropWhile_map, List.length_map]
    rfl
  rw [scan, scan, sameEnds, sameStart]

/-- The scan does not stop between two intervals with one end. -/
theorem compatible_ne_between (sorted : done.Pairwise fun one other => finish one ≤ finish other) {place : Nat}
    {one other : Item} (first : done[place]? = some one) (second : done[place + 1]? = some other)
    (sameEnd : finish one = finish other) : compatible start finish done item ≠ place + 1 := by
  intro stopped
  have within := (List.getElem?_eq_some_iff.mp second).1
  have taken : one ∈ done.take (compatible start finish done item) := by
    rw [stopped]
    refine List.mem_of_getElem? (i := place) ?_
    rw [List.getElem?_take_of_lt (Nat.lt_succ_self place), first]
  have dropped : other ∈ done.drop (compatible start finish done item) := by
    rw [stopped]
    refine List.mem_of_getElem? (i := 0) ?_
    rw [List.getElem?_drop, Nat.add_zero, second]
  have ends := before_of_compatible sorted one taken
  have starts := drop_compatible other dropped
  rw [← sameEnd] at starts
  exact absurd (lt_of_lt_of_le ends starts) (lt_irrefl _)

end Intervals

section Selection

variable {Item Position Score : Type} [LinearOrder Position]
variable [AddCommMonoid Score] [LinearOrder Score] [IsOrderedAddMonoid Score]
variable (start finish : Item → Position) (score : Item → Score)

def total (items : List Item) : Score := (items.map score).sum

/-- A disjoint selection that no other disjoint selection beats. -/
structure Best (items selection : List Item) : Prop where
  sublist : selection.Sublist items
  apart : selection.Pairwise (Before start finish)
  optimal : ∀ other : List Item, other.Sublist items → other.Pairwise (Apart start finish) →
    total score other ≤ total score selection

variable {start finish score} {done skipped earlier chosen : List Item} {item : Item}

omit [LinearOrder Score] [IsOrderedAddMonoid Score] in
theorem total_snoc (items : List Item) (item : Item) :
    total score (items ++ [item]) = total score items + score item := by
  simp [total]

omit [IsOrderedAddMonoid Score] in
theorem best_nil : Best start finish score [] [] := by
  refine ⟨List.Sublist.refl _, List.Pairwise.nil, ?_⟩
  intro other sublist _
  rw [List.sublist_nil.mp sublist]

/-- The better of leaving the item out and of adding it is best. -/
theorem Best.extend (sorted : (done ++ [item]).Pairwise fun one other => finish one ≤ finish other)
    (proper : ∀ one ∈ done ++ [item], start one ≤ finish one)
    (leaves : Best start finish score done skipped)
    (adds : Best start finish score (done.take (compatible start finish done item)) earlier)
    (either : chosen = skipped ∨ chosen = earlier ++ [item])
    (overSkipped : total score skipped ≤ total score chosen)
    (overAdded : total score (earlier ++ [item]) ≤ total score chosen) :
    Best start finish score (done ++ [item]) chosen := by
  rcases List.pairwise_append.mp sorted with ⟨sortedDone, _, endsBefore⟩
  have addedSublist : (earlier ++ [item]).Sublist (done ++ [item]) :=
    (adds.sublist.trans (List.take_sublist _ _)).append (List.Sublist.refl _)
  have addedApart : (earlier ++ [item]).Pairwise (Before start finish) := by
    refine List.pairwise_append.mpr ⟨adds.apart, List.pairwise_singleton _ _, ?_⟩
    intro one inside last isLast
    rw [List.mem_singleton.mp isLast]
    exact before_of_compatible sortedDone one (adds.sublist.subset inside)
  refine ⟨?_, ?_, ?_⟩
  · rcases either with same | same
    · rw [same]
      exact leaves.sublist.trans (List.sublist_append_left _ _)
    · rw [same]
      exact addedSublist
  · rcases either with same | same
    · rw [same]
      exact leaves.apart
    · rw [same]
      exact addedApart
  · intro other sublist apart
    rcases List.sublist_append_iff.mp sublist with ⟨front, back, split, inDone, inItem⟩
    rcases List.sublist_singleton.mp inItem with none | whole
    · rw [split, none, List.append_nil] at apart ⊢
      exact (leaves.optimal front inDone apart).trans overSkipped
    · rw [split, whole] at apart ⊢
      rcases List.pairwise_append.mp apart with ⟨frontApart, _, withItem⟩
      -- What is disjoint from the last interval ends before it starts.
      have ahead : ∀ one ∈ front, Before start finish one item := by
        intro one inside
        have member := inDone.subset inside
        rcases withItem one inside item List.mem_cons_self with before | behind
        · exact before
        · have ends := endsBefore one member item List.mem_cons_self
          have itself := proper one (List.mem_append_left _ member)
          exact absurd (lt_of_lt_of_le behind (itself.trans ends)) (lt_irrefl _)
      have inPrefix : front.Sublist (done.take (compatible start finish done item)) := by
        rw [← List.take_append_drop (compatible start finish done item) done] at inDone
        rcases List.sublist_append_iff.mp inDone with ⟨taken, dropped, parts, inTaken, inDropped⟩
        have nothing : dropped = [] := by
          apply List.eq_nil_iff_forall_not_mem.mpr
          intro one inside
          have late := drop_compatible one (inDropped.subset inside)
          have early := ahead one (parts ▸ List.mem_append_right _ inside)
          exact absurd (lt_of_le_of_lt late early) (lt_irrefl _)
        rw [parts, nothing, List.append_nil]
        exact inTaken
      rw [total_snoc] at overAdded ⊢
      exact (add_le_add_left (adds.optimal front inPrefix frontApart) _).trans overAdded

end Selection

section Positive

variable {Item Position Score : Type} [LinearOrder Position]
variable [AddCommMonoid Score] [LinearOrder Score] [IsOrderedCancelAddMonoid Score]
variable {start finish : Item → Position} {score : Item → Score} {items selection : List Item}

theorem apart_symm {one other : Item} (apart : Apart start finish one other) :
    Apart start finish other one := Or.symm apart

theorem apart_of_ordered {ordered : List Item} (inOrder : ordered.Pairwise (Before start finish))
    {one other : Item} (inside : one ∈ ordered) (alsoInside : other ∈ ordered) (different : one ≠ other) :
    Apart start finish one other := by
  have symm : Std.Symm (Apart start finish) := ⟨fun _ _ => apart_symm⟩
  have apart : ordered.Pairwise (Apart start finish) := inOrder.imp Or.inl
  exact apart.forall inside alsoInside different

/-- An interval that is worth something and meets nothing that was selected is selected itself. -/
theorem Best.mem_of_apart (best : Best start finish score items selection) {item : Item}
    (inside : item ∈ items) (worth : 0 < score item)
    (apart : ∀ one ∈ selection, one ≠ item → Apart start finish item one) : item ∈ selection := by
  by_contra missing
  obtain ⟨larger, perm, sublist⟩ := List.cons_subperm_of_not_mem_of_mem missing inside best.sublist.subperm
  have disjoint : (item :: selection).Pairwise (Apart start finish) := by
    refine List.pairwise_cons.mpr ⟨?_, best.apart.imp Or.inl⟩
    intro one selected
    exact apart one selected fun same => missing (same ▸ selected)
  have largerApart := (perm.pairwise_iff (fun {_ _} => apart_symm)).mpr disjoint
  have beaten := best.optimal larger sublist largerApart
  have sums : total score larger = score item + total score selection := (perm.map score).sum_eq
  rw [sums] at beaten
  exact absurd (lt_add_of_pos_left _ worth) (not_lt_of_ge beaten)

end Positive

end Reflection.IntervalSelection
