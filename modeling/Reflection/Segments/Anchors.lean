/-
What committed boundaries are in a history, and which of them are selected.

A boundary of whole turns is found by its two users, an exact one by its turn and its two cursors.
Whatever the comparison of ids does, the candidates are sorted by their ends, so the selection is the
best one.
-/

import Reflection.Foundation.SortedLists
import Reflection.Segments.Planning
import Reflection.Segments.Turns

namespace Reflection.Segments

open IntervalSelection

variable {numbers : Numbers}

/-! ### Users -/

theorem userIndexes_lookup_mem {turns : List (CompleteTurn numbers)} {id : JsString} {place : Nat}
    (found : (userIndexes turns).lookup id = some place) :
    ∃ turn, turns[place]? = some turn ∧ turn.userMessageId = id := by
  have entry := lookup_ofEntries_mem found
  simp only [List.mem_map, Prod.mk.injEq] at entry
  obtain ⟨⟨turn, index⟩, inside, sameId, rfl⟩ := entry
  exact ⟨turn, List.mk_mem_zipIdx_iff_getElem?.mp inside, sameId⟩

theorem userIndexes_keys (turns : List (CompleteTurn numbers)) :
    (turns.zipIdx.map fun (turn, index) => (turn.userMessageId, index)).map Prod.fst =
      turns.map CompleteTurn.userMessageId := by
  conv_rhs => rw [← List.zipIdx_map_fst 0 turns, List.map_map]
  rw [List.map_map]
  rfl

theorem userIndexes_lookup {turns : List (CompleteTurn numbers)}
    (users : (turns.map CompleteTurn.userMessageId).Nodup) {place : Nat} {turn : CompleteTurn numbers}
    (found : turns[place]? = some turn) : (userIndexes turns).lookup turn.userMessageId = some place := by
  apply lookup_ofEntries
  · rw [userIndexes_keys]
    exact users
  · exact List.mem_map.mpr ⟨(turn, place), List.mk_mem_zipIdx_iff_getElem?.mpr found, rfl⟩

/-! ### Candidates -/

section Candidates

variable (localeCompare : JsString → JsString → Ordering) {Item : Type} {interval : Item → BoundaryInterval}
  {boundary : Item → CommittedSegmentBoundary}

theorem candidates_sorted (items : List Item) :
    (items.insertionSort (candidateLe localeCompare interval boundary)).Pairwise fun one other =>
      endOf interval one ≤ endOf interval other := by
  apply insertionSort_sorted
  · rintro one other (before | ⟨same, _⟩)
    · exact Nat.le_of_lt before
    · exact same.le
  · intro one other behind
    by_contra before
    exact behind (Or.inl (Nat.lt_of_not_le before))

/-- The selection from sorted candidates is the best one of the same items in that order. -/
theorem selected_best {items : List Item}
    (proper : ∀ item ∈ items, startOf interval item ≤ endOf interval item) :
    Best (startOf interval) (endOf interval) (intervalTriple interval)
      (items.insertionSort (candidateLe localeCompare interval boundary))
      (selectBoundaryIntervals interval
        (items.insertionSort (candidateLe localeCompare interval boundary))) := by
  apply selectBoundaryIntervals_best (candidates_sorted localeCompare items)
  intro item inside
  exact proper item ((List.mem_insertionSort _).mp inside)

end Candidates

/-! ### Boundaries of whole turns -/

/-- The range of turns that a boundary names. -/
structure NamesTurns (turns : List (CompleteTurn numbers)) (indexed : IndexedV1Boundary) : Prop where
  version : boundaryVersion indexed.boundary = .ok .v1
  start : (userIndexes turns).lookup indexed.boundary.startUserMessageId = some indexed.startIndex
  finish : (userIndexes turns).lookup indexed.boundary.endUserMessageId = some indexed.endIndex
  ordered : indexed.startIndex ≤ indexed.endIndex

theorem indexV1Boundary_names {turns : List (CompleteTurn numbers)} {boundary : CommittedSegmentBoundary}
    {indexed : IndexedV1Boundary} (found : indexV1Boundary (userIndexes turns) boundary = .ok (some indexed)) :
    indexed.boundary = boundary ∧ NamesTurns turns indexed := by
  unfold indexV1Boundary at found
  obtain ⟨version, isVersion, found⟩ := except_bind_ok found
  cases version with
  | v2 => cases found
  | v1 =>
      dsimp only at found
      split at found
      · rename_i startIndex endIndex isStart isEnd
        split at found
        · cases found
        · rename_i ordered
          cases found
          exact ⟨rfl, isVersion, isStart, isEnd, Nat.le_of_not_lt ordered⟩
      · cases found

theorem NamesTurns.within {turns : List (CompleteTurn numbers)} {indexed : IndexedV1Boundary}
    (names : NamesTurns turns indexed) : indexed.endIndex < turns.length := by
  obtain ⟨turn, found, _⟩ := userIndexes_lookup_mem names.finish
  exact (List.getElem?_eq_some_iff.mp found).1

/-- What a list of computations found, by what found it. -/
theorem mem_reduceOption_mapM {ε α β : Type} {f : α → Except ε (Option β)} {items : List α}
    {results : List (Option β)} (returned : items.mapM f = .ok results) {result : β} :
    result ∈ results.reduceOption ↔ ∃ item ∈ items, f item = .ok (some result) := by
  have all := mapM_ok_iff.mp returned
  rw [List.reduceOption_mem_iff]
  constructor
  · intro inside
    exact exists_left_of_forall₂ all inside
  · rintro ⟨item, inside, found⟩
    obtain ⟨other, isOther, same⟩ := exists_right_of_forall₂ all inside
    rw [found] at same
    rw [Except.ok.inj same]
    exact isOther

theorem reconcileV1Boundaries_best {localeCompare : JsString → JsString → Ordering}
    {turns : List (CompleteTurn numbers)} {boundaries : List CommittedSegmentBoundary}
    {selected : List IndexedV1Boundary}
    (reconciled : reconcileV1Boundaries localeCompare turns boundaries = .ok selected) :
    ∃ candidates : List IndexedV1Boundary,
      (∀ indexed, indexed ∈ candidates ↔
        ∃ boundary ∈ boundaries, indexV1Boundary (userIndexes turns) boundary = .ok (some indexed)) ∧
        Best (startOf IndexedV1Boundary.interval) (endOf IndexedV1Boundary.interval)
          (intervalTriple IndexedV1Boundary.interval) candidates selected := by
  unfold reconcileV1Boundaries at reconciled
  obtain ⟨found, isFound, same⟩ := except_bind_ok reconciled
  cases same
  refine ⟨_, fun indexed => ?_, selected_best localeCompare fun indexed inside => ?_⟩
  · rw [List.mem_insertionSort]
    exact mem_reduceOption_mapM isFound
  · obtain ⟨boundary, _, isIndexed⟩ := (mem_reduceOption_mapM isFound).mp inside
    exact (indexV1Boundary_names isIndexed).2.ordered

/-! ### Exact boundaries -/

/-- The turn that an exact boundary lies in, and its cursors there. -/
structure Anchored (history : CanonicalHistory numbers) (turn : CompleteTurn numbers)
    (indexed : IndexedV2Boundary) : Prop where
  version : boundaryVersion indexed.boundary = .ok .v2
  isTurn : turn ∈ history.turns
  user : turn.userMessageId = indexed.boundary.startUserMessageId
  number : indexed.turnIndex = turn.index
  start : (uniqueSourceIndexes history.messages).lookup (indexed.boundary.startSourceMessageId.getD []) =
    some (some indexed.startIndex)
  finish : (uniqueSourceIndexes history.messages).lookup (indexed.boundary.endSourceMessageId.getD []) =
    some (some indexed.endIndex)
  ordered : indexed.startIndex ≤ indexed.endIndex
  inTurn : ∀ source ∈ history.messages.extract indexed.startIndex (indexed.endIndex + 1),
    source.turnIndex = turn.index
  startAt : turn.messages.findIdx? (fun source => source.sourceIndex == indexed.startIndex) =
    some indexed.startOffset
  endAt : turn.messages.findIdx? (fun source => source.sourceIndex == indexed.endIndex) =
    some indexed.endOffset
  offsets : indexed.startOffset ≤ indexed.endOffset

theorem resolveV2Boundary_anchored {history : CanonicalHistory numbers}
    {boundary : CommittedSegmentBoundary} {indexed : IndexedV2Boundary}
    (found : resolveV2Boundary history boundary = .ok (some indexed)) :
    indexed.boundary = boundary ∧ ∃ turn, Anchored history turn indexed := by
  unfold resolveV2Boundary at found
  obtain ⟨version, isVersion, found⟩ := except_bind_ok found
  cases version with
  | v1 => cases found
  | v2 =>
      dsimp only at found
      split at found
      · rename_i turn start finish isTurn isStart isFinish
        split at found
        · split at found
          · cases found
          · rename_i startIndex endIndex ordered
            split at found
            · cases found
            · rename_i inTurn
              split at found
              · rename_i startOffset endOffset isStartAt isEndAt
                split at found
                · cases found
                · rename_i offsets
                  cases found
                  have entry := lookup_ofEntries_mem isTurn
                  simp only [List.mem_map, Prod.mk.injEq] at entry
                  obtain ⟨_, inside, user, rfl⟩ := entry
                  simp only [Bool.or_eq_true, not_or, List.any_eq_true, not_exists, not_and,
                    bne_iff_ne, ne_eq, not_not] at inTurn
                  exact ⟨rfl, _, isVersion, inside, user, rfl, isStart, isFinish, Nat.le_of_not_lt ordered,
                    inTurn.2, isStartAt, isEndAt, Nat.le_of_not_lt offsets⟩
              · cases found
        · cases found
      · cases found

theorem mem_resolveV2Boundaries {history : CanonicalHistory numbers}
    {boundaries : List CommittedSegmentBoundary} {resolved : List IndexedV2Boundary}
    (found : resolveV2Boundaries history boundaries = .ok resolved) {indexed : IndexedV2Boundary} :
    indexed ∈ resolved ↔ ∃ boundary ∈ boundaries, resolveV2Boundary history boundary = .ok (some indexed) := by
  unfold resolveV2Boundaries at found
  obtain ⟨results, areResults, same⟩ := except_bind_ok found
  cases same
  exact mem_reduceOption_mapM areResults

theorem resolveV2Boundaries_anchored {history : CanonicalHistory numbers}
    {boundaries : List CommittedSegmentBoundary} {resolved : List IndexedV2Boundary}
    (found : resolveV2Boundaries history boundaries = .ok resolved) :
    ∀ indexed ∈ resolved, indexed.boundary ∈ boundaries ∧ ∃ turn, Anchored history turn indexed := by
  intro indexed inside
  obtain ⟨boundary, isBoundary, isIndexed⟩ := (mem_resolveV2Boundaries found).mp inside
  obtain ⟨same, anchored⟩ := resolveV2Boundary_anchored isIndexed
  rw [same]
  exact ⟨isBoundary, anchored⟩

/-- The selection among the exact boundaries of turns that are not frozen. -/
theorem reconcileV2Boundaries_best (localeCompare : JsString → JsString → Ordering)
    {history : CanonicalHistory numbers} {resolved : List IndexedV2Boundary} (frozen : Nat → Bool)
    (anchored : ∀ indexed ∈ resolved, ∃ turn, Anchored history turn indexed) :
    ∃ candidates : List IndexedV2Boundary,
      candidates.Perm (resolved.filter fun indexed => !frozen indexed.turnIndex) ∧
        Best (startOf IndexedV2Boundary.interval) (endOf IndexedV2Boundary.interval)
          (intervalTriple IndexedV2Boundary.interval) candidates
          (reconcileV2Boundaries localeCompare resolved frozen) := by
  refine ⟨_, List.perm_insertionSort _ _, selected_best localeCompare fun indexed inside => ?_⟩
  obtain ⟨turn, isAnchored⟩ := anchored indexed (List.mem_of_mem_filter inside)
  exact isAnchored.ordered

theorem mem_reconcileV2Boundaries {localeCompare : JsString → JsString → Ordering}
    {history : CanonicalHistory numbers} {resolved : List IndexedV2Boundary} {frozen : Nat → Bool}
    (anchored : ∀ indexed ∈ resolved, ∃ turn, Anchored history turn indexed) {indexed : IndexedV2Boundary}
    (inside : indexed ∈ reconcileV2Boundaries localeCompare resolved frozen) :
    indexed ∈ resolved ∧ frozen indexed.turnIndex = false := by
  obtain ⟨candidates, perm, best⟩ := reconcileV2Boundaries_best localeCompare frozen anchored
  have kept := List.mem_filter.mp (perm.subset (best.sublist.subset inside))
  exact ⟨kept.1, by simpa using kept.2⟩

end Reflection.Segments
