/-
Facts about lists related element by element, maps that may fail, the last element with a
property, and stable sorting of a part.
-/

import Mathlib

namespace Reflection

/-- Every element on the left of related lists has a partner on the right. -/
theorem exists_right_of_forall₂ {α β : Type} {related : α → β → Prop} {left : List α}
    {right : List β} (all : List.Forall₂ related left right) {one : α} (member : one ∈ left) :
    ∃ other ∈ right, related one other := by
  induction all with
  | nil => cases member
  | cons here rest ih =>
      rcases List.mem_cons.mp member with rfl | later
      · exact ⟨_, List.mem_cons_self, here⟩
      · obtain ⟨other, otherIn, found⟩ := ih later
        exact ⟨other, List.mem_cons_of_mem _ otherIn, found⟩

theorem exists_left_of_forall₂ {α β : Type} {related : α → β → Prop} {left : List α}
    {right : List β} (all : List.Forall₂ related left right) {other : β} (member : other ∈ right) :
    ∃ one ∈ left, related one other :=
  exists_right_of_forall₂ all.flip member

/-- Lists with the same images have the same further images, where these depend on the first. -/
theorem map_eq_of_map_eq {α β γ : Type} {f : α → β} {g : α → γ} {left right : List α}
    (same : left.map f = right.map f)
    (determined : ∀ one ∈ left, ∀ other ∈ right, f one = f other → g one = g other) :
    left.map g = right.map g := by
  induction left generalizing right with
  | nil =>
      rw [List.map_nil, eq_comm, List.map_eq_nil_iff] at same
      rw [same]
  | cons one rest ih =>
      cases right with
      | nil => cases same
      | cons other more =>
          rw [List.map_cons, List.map_cons, List.cons.injEq] at same
          rw [List.map_cons, List.map_cons, determined one List.mem_cons_self other List.mem_cons_self same.1,
            ih same.2 fun first inside second alsoInside =>
              determined first (List.mem_cons_of_mem _ inside) second (List.mem_cons_of_mem _ alsoInside)]

/-- What stands in a list with a new last element. -/
theorem getElem?_snoc_cases {Item : Type} {items : List Item} {last item : Item} {place : Nat}
    (found : (items ++ [last])[place]? = some item) :
    items[place]? = some item ∨ (place = items.length ∧ item = last) := by
  rcases Nat.lt_or_ge place items.length with before | after
  · rw [List.getElem?_append_left before] at found
    exact Or.inl found
  · rw [List.getElem?_append_right after] at found
    rcases Nat.eq_or_lt_of_le after with same | beyond
    · rw [← same, Nat.sub_self] at found
      exact Or.inr ⟨same.symm, (Option.some.inj found).symm⟩
    · rw [List.getElem?_eq_none (by rw [List.length_singleton]; omega)] at found
      cases found

section OptionMaps

variable {α β γ : Type} {f : α → Option β}

/-- Elements with one image are one, where the images are distinct. -/
theorem eq_of_nodup_filterMap {items : List α} (distinct : (items.filterMap f).Nodup) {one other : α}
    (inside : one ∈ items) (alsoInside : other ∈ items) {image : β} (isImage : f one = some image)
    (sameImage : f other = some image) : one = other := by
  induction items with
  | nil => cases inside
  | cons first rest ih =>
      have behind : ∀ {item : α}, item ∈ rest → f item = some image → f first ≠ some image := by
        intro item inRest isItem isFirst
        rw [List.filterMap_cons_some isFirst] at distinct
        exact (List.nodup_cons.mp distinct).1 (List.mem_filterMap.mpr ⟨item, inRest, isItem⟩)
      have tail : (rest.filterMap f).Nodup :=
        distinct.sublist ((List.sublist_cons_self first rest).filterMap f)
      rcases List.mem_cons.mp inside with same | inRest
      · rcases List.mem_cons.mp alsoInside with alsoSame | alsoInRest
        · rw [same, alsoSame]
        · exact absurd (same ▸ isImage) (behind alsoInRest sameImage)
      · rcases List.mem_cons.mp alsoInside with alsoSame | alsoInRest
        · exact absurd (alsoSame ▸ sameImage) (behind inRest isImage)
        · exact ih tail inRest alsoInRest

theorem mapM_cons_some {item : α} {rest : List α} {mapped : List β}
    (succeeded : (item :: rest).mapM f = some mapped) :
    ∃ first others, f item = some first ∧ rest.mapM f = some others ∧ mapped = first :: others := by
  rw [List.mapM_cons] at succeeded
  obtain ⟨first, isFirst, afterFirst⟩ := Option.bind_eq_some_iff.mp succeeded
  obtain ⟨others, isOthers, same⟩ := Option.bind_eq_some_iff.mp afterFirst
  exact ⟨first, others, isFirst, isOthers, (Option.some.inj same).symm⟩

theorem mapM_take {items : List α} {mapped : List β} (succeeded : items.mapM f = some mapped)
    (count : Nat) : (items.take count).mapM f = some (mapped.take count) := by
  induction items generalizing mapped count with
  | nil =>
      cases succeeded
      rw [List.take_nil]
      exact congrArg some (List.take_nil (i := count)).symm
  | cons item rest ih =>
      obtain ⟨first, others, isFirst, isOthers, same⟩ := mapM_cons_some succeeded
      subst same
      cases count with
      | zero => rfl
      | succ count =>
          rw [List.take_succ_cons, List.take_succ_cons, List.mapM_cons, isFirst, ih isOthers]
          rfl

/-- What every element keeps, the list keeps. -/
theorem map_of_mapM {g : β → γ} {h : α → γ} (kept : ∀ item image, f item = some image → g image = h item)
    {items : List α} {mapped : List β} (succeeded : items.mapM f = some mapped) :
    mapped.map g = items.map h := by
  induction items generalizing mapped with
  | nil =>
      cases succeeded
      rfl
  | cons item rest ih =>
      obtain ⟨first, others, isFirst, isOthers, same⟩ := mapM_cons_some succeeded
      rw [same, List.map_cons, List.map_cons, kept item first isFirst, ih isOthers]

end OptionMaps

section LastIndex

variable {α : Type} {holds : α → Bool}

/-- The index of the last element with a property, as a scan from the end finds it. -/
def lastIndex (holds : α → Bool) (items : List α) : Option Nat :=
  (items.zipIdx.reverse.find? fun entry => holds entry.1).map (·.2)

theorem lastIndex_snoc (items : List α) (item : α) :
    lastIndex holds (items ++ [item]) =
      if holds item then some items.length else lastIndex holds items := by
  unfold lastIndex
  rw [List.zipIdx_append, List.zipIdx_singleton, List.reverse_append, List.reverse_singleton,
    List.singleton_append, List.find?_cons, Nat.zero_add]
  cases holds item <;> rfl

theorem lastIndex_append (items more : List α) :
    lastIndex holds (items ++ more) =
      ((lastIndex holds more).map (items.length + ·)).or (lastIndex holds items) := by
  induction more using List.reverseRecOn with
  | nil => rw [List.append_nil]; rfl
  | append_singleton more item ih =>
      rw [← List.append_assoc, lastIndex_snoc, lastIndex_snoc, ih, List.length_append]
      split <;> rfl

theorem lastIndex_eq_none_iff {items : List α} :
    lastIndex holds items = none ↔ ∀ item ∈ items, holds item = false := by
  induction items using List.reverseRecOn with
  | nil => exact ⟨fun _ _ member => absurd member (List.not_mem_nil), fun _ => rfl⟩
  | append_singleton items item ih =>
      rw [lastIndex_snoc, List.forall_mem_append, List.forall_mem_singleton, ← ih]
      cases holds item with
      | true => simp
      | false => simp

theorem lastIndex_eq_some_iff {items : List α} {index : Nat} :
    lastIndex holds items = some index ↔
      (∃ item, items[index]? = some item ∧ holds item = true) ∧
        ∀ later item, index < later → items[later]? = some item → holds item = false := by
  induction items using List.reverseRecOn with
  | nil =>
      constructor
      · intro found
        cases found
      · rintro ⟨⟨item, present, _⟩, _⟩
        cases present
  | append_singleton items item ih =>
      have before {position : Nat} (inside : position < items.length) :
          (items ++ [item])[position]? = items[position]? := List.getElem?_append_left inside
      have atEnd : (items ++ [item])[items.length]? = some item := List.getElem?_concat_length
      have beyond {position : Nat} (outside : items.length < position) :
          (items ++ [item])[position]? = none := by
        rw [List.getElem?_eq_none_iff, List.length_append, List.length_singleton]
        omega
      rw [lastIndex_snoc]
      cases isItem : holds item with
      | true =>
          rw [if_pos rfl, Option.some.injEq]
          constructor
          · rintro rfl
            refine ⟨⟨item, atEnd, isItem⟩, fun later other behind present => ?_⟩
            rw [beyond behind] at present
            cases present
          · rintro ⟨⟨other, present, _⟩, last⟩
            by_contra different
            rcases Nat.lt_or_gt_of_ne different with outside | inside
            · rw [beyond outside] at present
              cases present
            · have wrong := last items.length item inside atEnd
              rw [isItem] at wrong
              cases wrong
      | false =>
          rw [if_neg Bool.false_ne_true, ih]
          constructor
          · rintro ⟨⟨other, present, isOther⟩, last⟩
            have inside := (List.getElem?_eq_some_iff.mp present).1
            refine ⟨⟨other, by rw [before inside]; exact present, isOther⟩, ?_⟩
            intro later another behind found
            rcases Nat.lt_trichotomy later items.length with within | same | outside
            · rw [before within] at found
              exact last later another behind found
            · rw [same, atEnd] at found
              cases found
              exact isItem
            · rw [beyond outside] at found
              cases found
          · rintro ⟨⟨other, present, isOther⟩, last⟩
            rcases Nat.lt_trichotomy index items.length with within | same | outside
            · rw [before within] at present
              refine ⟨⟨other, present, isOther⟩, fun later another behind found => ?_⟩
              have inside := (List.getElem?_eq_some_iff.mp found).1
              exact last later another behind (by rw [before inside]; exact found)
            · rw [same, atEnd] at present
              cases present
              rw [isItem] at isOther
              cases isOther
            · rw [beyond outside] at present
              cases present

end LastIndex

section Sorting

variable {α : Type} {le : α → α → Prop} [DecidableRel le]

private theorem filter_orderedInsert [IsTrans α le] (holds : α → Bool) (item : α) {sorted : List α}
    (ordered : sorted.Pairwise le) :
    (sorted.orderedInsert le item).filter holds =
      if holds item then (sorted.filter holds).orderedInsert le item else sorted.filter holds := by
  induction sorted with
  | nil =>
      rw [List.orderedInsert_nil, List.filter_singleton]
      cases holds item <;> rfl
  | cons first rest ih =>
      have later := List.pairwise_cons.mp ordered
      by_cases before : le item first
      · rw [List.orderedInsert_cons_of_le _ _ before, List.filter_cons]
        split
        · -- Whatever is left of the list, its first element is not before the item.
          cases kept : (first :: rest).filter holds with
          | nil => rfl
          | cons one others =>
              have member : one ∈ first :: rest :=
                List.mem_of_mem_filter (by rw [kept]; exact List.mem_cons_self)
              have behind : le item one := by
                rcases List.mem_cons.mp member with same | inRest
                · rw [same]
                  exact before
                · exact IsTrans.trans _ _ _ before (later.1 one inRest)
              rw [List.orderedInsert_cons_of_le _ _ behind]
        · rfl
      · rw [List.orderedInsert_of_not_le _ _ before, List.filter_cons, List.filter_cons, ih later.2]
        cases holds first with
        | false => rfl
        | true =>
            cases holds item with
            | false => rfl
            | true => exact (List.orderedInsert_of_not_le _ _ before).symm

/-- Sorting is stable, so the part of a sorted list is the sorted part. -/
theorem filter_insertionSort [IsTrans α le] [Std.Total le] (holds : α → Bool) (items : List α) :
    (items.insertionSort le).filter holds = (items.filter holds).insertionSort le := by
  induction items with
  | nil => rfl
  | cons item rest ih =>
      rw [List.insertionSort_cons, filter_orderedInsert holds item (List.pairwise_insertionSort le rest),
        ih, List.filter_cons]
      cases holds item <;> rfl

end Sorting

end Reflection
