/-
The best item of each group, and the top of the groups.

Items are read one by one. The first item of a group opens it, and a later one takes its place only
where it scores higher, so that groups stay in the order in which they were opened. What is kept
depends on the order of the items, but the scores that are kept do not.
-/

import Mathlib

namespace Reflection

section BestOfGroups

variable {Item Key Score : Type} [DecidableEq Key] [LinearOrder Score]
  (key : Item → Key) (score : Item → Score)

/-- `map.set(key, item)` where there is no current item or the new one scores higher. -/
def keepBetter (item : Item) : List Item → List Item
  | [] => [item]
  | kept :: rest =>
      if key kept = key item then
        if score kept < score item then item :: rest else kept :: rest
      else kept :: keepBetter item rest

def bestOfGroups (items : List Item) : List Item :=
  items.foldl (fun kept item => keepBetter key score item kept) []

def topGroups (limit : Nat) (items : List Item) : List Item :=
  ((bestOfGroups key score items).insertionSort fun left right => score right ≤ score left).take limit

/-- What is kept of some items: one item a group, which no item of the group beats. -/
structure KeptBest (items kept : List Item) : Prop where
  distinct : (kept.map key).Nodup
  inside : ∀ item ∈ kept, item ∈ items
  covered : ∀ item ∈ items, ∃ best ∈ kept, key best = key item ∧ score item ≤ score best

variable {key score} {item : Item} {kept items : List Item}

/-! ### One item -/

theorem keys_keepBetter : (keepBetter key score item kept).map key =
    if key item ∈ kept.map key then kept.map key else kept.map key ++ [key item] := by
  induction kept with
  | nil => rfl
  | cons first rest ih =>
      unfold keepBetter
      rw [List.map_cons]
      by_cases same : key first = key item
      · rw [if_pos same, if_pos (List.mem_cons.mpr (.inl same.symm))]
        split
        · rw [List.map_cons, same]
        · rfl
      · rw [if_neg same, List.map_cons, ih]
        by_cases later : key item ∈ rest.map key
        · rw [if_pos later, if_pos (List.mem_cons_of_mem _ later)]
        · rw [if_neg later, if_neg]
          · rfl
          · intro inside
            rcases List.mem_cons.mp inside with isFirst | isLater
            · exact same isFirst.symm
            · exact later isLater

theorem mem_keepBetter {best : Item} (inside : best ∈ keepBetter key score item kept) :
    best = item ∨ best ∈ kept := by
  induction kept with
  | nil => exact .inl (List.mem_singleton.mp inside)
  | cons first rest ih =>
      unfold keepBetter at inside
      split at inside
      · split at inside
        · rcases List.mem_cons.mp inside with new | later
          · exact .inl new
          · exact .inr (List.mem_cons_of_mem _ later)
        · exact .inr inside
      · rcases List.mem_cons.mp inside with old | later
        · exact .inr (List.mem_cons.mpr (.inl old))
        · rcases ih later with new | kept
          · exact .inl new
          · exact .inr (List.mem_cons_of_mem _ kept)

/-- The group of the new item is covered. -/
theorem keepBetter_covers_new :
    ∃ best ∈ keepBetter key score item kept, key best = key item ∧ score item ≤ score best := by
  induction kept with
  | nil => exact ⟨item, List.mem_singleton.mpr rfl, rfl, le_rfl⟩
  | cons first rest ih =>
      unfold keepBetter
      split
      · rename_i same
        split
        · exact ⟨item, List.mem_cons_self, rfl, le_rfl⟩
        · rename_i notHigher
          exact ⟨first, List.mem_cons_self, same, not_lt.mp notHigher⟩
      · obtain ⟨best, inside, covers⟩ := ih
        exact ⟨best, List.mem_cons_of_mem _ inside, covers⟩

/-- A group that was covered stays covered. -/
theorem keepBetter_covers_old {old : Item} (inside : old ∈ kept) :
    ∃ best ∈ keepBetter key score item kept, key best = key old ∧ score old ≤ score best := by
  induction kept with
  | nil => cases inside
  | cons first rest ih =>
      unfold keepBetter
      rcases List.mem_cons.mp inside with rfl | later
      · split
        · rename_i same
          split
          · rename_i higher
            exact ⟨item, List.mem_cons_self, same.symm, le_of_lt higher⟩
          · exact ⟨old, List.mem_cons_self, rfl, le_rfl⟩
        · exact ⟨old, List.mem_cons_self, rfl, le_rfl⟩
      · split
        · refine ⟨old, ?_, rfl, le_rfl⟩
          split
          · exact List.mem_cons_of_mem _ later
          · exact List.mem_cons_of_mem _ later
        · obtain ⟨best, inRest, covers⟩ := ih later
          exact ⟨best, List.mem_cons_of_mem _ inRest, covers⟩

theorem KeptBest.keep (best : KeptBest key score items kept) :
    KeptBest key score (items ++ [item]) (keepBetter key score item kept) := by
  refine
    { distinct := ?_
      inside := fun old inside => ?_
      covered := fun old inside => ?_ }
  · rw [keys_keepBetter]
    split
    · exact best.distinct
    · rename_i new
      exact List.Nodup.append best.distinct (List.nodup_singleton _)
        (List.disjoint_singleton.mpr new)
  · rcases mem_keepBetter inside with rfl | isKept
    · exact List.mem_append_right _ (List.mem_singleton.mpr rfl)
    · exact List.mem_append_left _ (best.inside old isKept)
  · rcases List.mem_append.mp inside with earlier | isItem
    · obtain ⟨current, isKept, sameKey, atLeast⟩ := best.covered old earlier
      obtain ⟨later, isLater, laterKey, laterScore⟩ : ∃ later ∈ keepBetter key score item kept,
          key later = key current ∧ score current ≤ score later := keepBetter_covers_old isKept
      exact ⟨later, isLater, laterKey.trans sameKey, atLeast.trans laterScore⟩
    · rw [List.mem_singleton.mp isItem]
      exact keepBetter_covers_new

/-! ### All items -/

variable (key score) in
theorem bestOfGroups_best (items : List Item) : KeptBest key score items (bestOfGroups key score items) := by
  induction items using List.reverseRecOn with
  | nil =>
      exact
        { distinct := List.nodup_nil
          inside := fun _ inside => inside
          covered := fun _ inside => (nomatch inside) }
  | append_singleton items item ih =>
      have step : bestOfGroups key score (items ++ [item]) =
          keepBetter key score item (bestOfGroups key score items) := by
        rw [bestOfGroups, List.foldl_append]
        rfl
      rw [step]
      exact ih.keep

namespace KeptBest

variable (best : KeptBest key score items kept)

include best

omit [DecidableEq Key] in
theorem maximal {item other : Item} (isKept : item ∈ kept) (inside : other ∈ items)
    (sameKey : key other = key item) : score other ≤ score item := by
  obtain ⟨top, isTop, topKey, atLeast⟩ := best.covered other inside
  have same : top = item := List.inj_on_of_nodup_map best.distinct isTop isKept (topKey.trans sameKey)
  rwa [same] at atLeast

theorem perm_keys : (kept.map key).Perm (items.map key).dedup := by
  refine (List.perm_ext_iff_of_nodup best.distinct (List.nodup_dedup _)).mpr fun group => ?_
  rw [List.mem_dedup]
  constructor
  · intro isKept
    obtain ⟨item, inside, rfl⟩ := List.mem_map.mp isKept
    exact List.mem_map_of_mem (best.inside item inside)
  · intro isGroup
    obtain ⟨item, inside, rfl⟩ := List.mem_map.mp isGroup
    obtain ⟨top, isTop, sameKey, _⟩ := best.covered item inside
    exact List.mem_map.mpr ⟨top, isTop, sameKey⟩

omit [DecidableEq Key] in
/-- Two lists of the same items keep the same scores for the same groups. -/
theorem perm_scores {others keptOthers : List Item} (otherBest : KeptBest key score others keptOthers)
    (same : ∀ item, item ∈ items ↔ item ∈ others) :
    (kept.map score).Perm (keptOthers.map score) := by
  have carried : ∀ {items others kept keptOthers : List Item}, KeptBest key score items kept →
      KeptBest key score others keptOthers → (∀ item, item ∈ items ↔ item ∈ others) →
        ∀ pair ∈ kept.map (fun item => (key item, score item)),
          pair ∈ keptOthers.map fun item => (key item, score item) := by
    intro items others kept keptOthers one other same pair inside
    obtain ⟨item, isKept, rfl⟩ := List.mem_map.mp inside
    obtain ⟨top, isTop, topKey, atLeast⟩ := other.covered item ((same item).mp (one.inside item isKept))
    have atMost := one.maximal isKept ((same top).mpr (other.inside top isTop)) topKey
    exact List.mem_map.mpr ⟨top, isTop, Prod.ext topKey (le_antisymm atMost atLeast)⟩
  have distinctPairs : ∀ {items kept : List Item}, KeptBest key score items kept →
      (kept.map fun item => (key item, score item)).Nodup := by
    intro items kept one
    refine List.Nodup.of_map Prod.fst ?_
    rw [List.map_map]
    exact one.distinct
  have pairs : (kept.map fun item => (key item, score item)).Perm
      (keptOthers.map fun item => (key item, score item)) := by
    refine (List.perm_ext_iff_of_nodup (distinctPairs best) (distinctPairs otherBest)).mpr ?_
    exact fun pair => ⟨carried best otherBest same pair,
      carried otherBest best (fun item => (same item).symm) pair⟩
  have scores := pairs.map Prod.snd
  rwa [List.map_map, List.map_map] at scores

end KeptBest

/-! ### The top -/

section Top

variable {limit : Nat}

theorem sorted_bestOfGroups (items : List Item) :
    ((bestOfGroups key score items).insertionSort fun left right => score right ≤ score left).Pairwise
      fun left right => score right ≤ score left := by
  have total : Std.Total fun left right : Item => score right ≤ score left :=
    ⟨fun left right => le_total (score right) (score left)⟩
  have transitive : IsTrans Item fun left right => score right ≤ score left :=
    ⟨fun _ _ _ first second => second.trans first⟩
  exact List.pairwise_insertionSort _ _

theorem topGroups_sorted : (topGroups key score limit items).Pairwise
    fun left right => score right ≤ score left :=
  (sorted_bestOfGroups items).sublist (List.take_sublist _ _)

theorem mem_topGroups (inside : item ∈ topGroups key score limit items) :
    item ∈ bestOfGroups key score items :=
  (List.mem_insertionSort _).mp (List.mem_of_mem_take inside)

theorem topGroups_distinct : ((topGroups key score limit items).map key).Nodup := by
  have sorted := (List.perm_insertionSort (fun left right => score right ≤ score left)
    (bestOfGroups key score items)).map key
  have all := sorted.nodup_iff.mpr (bestOfGroups_best key score items).distinct
  exact all.sublist ((List.take_sublist _ _).map key)

theorem topGroups_length :
    (topGroups key score limit items).length = min limit (items.map key).dedup.length := by
  have groups := (bestOfGroups_best key score items).perm_keys.length_eq
  rw [List.length_map] at groups
  rw [topGroups, List.length_take, List.length_insertionSort, groups]

/-- A group that is left out scores no higher than one that is returned. -/
theorem topGroups_best {other : Item} (inside : item ∈ topGroups key score limit items)
    (isItem : other ∈ items) (leftOut : key other ∉ (topGroups key score limit items).map key) :
    score other ≤ score item := by
  obtain ⟨best, isBest, sameKey, atLeast⟩ :=
    (bestOfGroups_best key score items).covered other isItem
  let sorted := (bestOfGroups key score items).insertionSort fun left right => score right ≤ score left
  have split : sorted.take limit ++ sorted.drop limit = sorted := List.take_append_drop limit sorted
  have isSorted : best ∈ sorted.take limit ++ sorted.drop limit := by
    rw [split]
    exact (List.mem_insertionSort _).mpr isBest
  have ordered : (sorted.take limit ++ sorted.drop limit).Pairwise
      fun left right => score right ≤ score left := by
    rw [split]
    exact sorted_bestOfGroups items
  rcases List.mem_append.mp isSorted with isTop | isRest
  · exact absurd (List.mem_map.mpr ⟨best, isTop, sameKey⟩) leftOut
  · exact atLeast.trans ((List.pairwise_append.mp ordered).2.2 item inside best isRest)

/-- The scores do not depend on the order of the items. -/
theorem topGroups_scores {others : List Item} (same : ∀ item, item ∈ items ↔ item ∈ others) :
    (topGroups key score limit items).map score = (topGroups key score limit others).map score := by
  have kept := (bestOfGroups_best key score items).perm_scores
    (bestOfGroups_best key score others) same
  have sortedScores : ∀ list : List Item,
      (((bestOfGroups key score list).insertionSort fun left right => score right ≤ score left).map
        score).Pairwise fun left right => right ≤ left :=
    fun list => List.pairwise_map.mpr (sorted_bestOfGroups list)
  have sortedPerm : ∀ list : List Item,
      (((bestOfGroups key score list).insertionSort fun left right => score right ≤ score left).map
        score).Perm ((bestOfGroups key score list).map score) :=
    fun list => (List.perm_insertionSort _ _).map score
  have equal := List.Perm.eq_of_pairwise (fun _ _ _ _ below above => le_antisymm above below)
    (sortedScores items) (sortedScores others)
    ((sortedPerm items).trans (kept.trans (sortedPerm others).symm))
  rw [topGroups, topGroups, List.map_take, List.map_take, equal]

end Top

end BestOfGroups

end Reflection
