/-
What a segmentation consists of.

Read from the start, the turns are covered by segments that take whole turns, each the ones that come
next, and by runs of segments that cut one contiguous turn into consecutive ranges. Packs, frozen
boundaries, anchors and the gaps between anchors are all of this shape, whatever was committed.
-/

import Reflection.Foundation.IndexedLists
import Reflection.Segments.Anchors

namespace Reflection.Segments

variable {numbers : Numbers}

/-! ### Source order -/

def InOrder (sources : List (IndexedMessage numbers)) : Prop :=
  sources.Pairwise fun one other => one.sourceIndex < other.sourceIndex

theorem orderedSourceMessages_perm (sources : List (IndexedMessage numbers)) :
    (orderedSourceMessages sources).Perm sources :=
  List.perm_insertionSort _ sources

theorem orderedSourceMessages_sorted (sources : List (IndexedMessage numbers)) :
    (orderedSourceMessages sources).Pairwise fun one other => one.sourceIndex ≤ other.sourceIndex :=
  insertionSort_sorted (fun _ _ before => before) (fun _ _ behind => (Nat.lt_of_not_le behind).le) sources

theorem orderedSourceMessages_eq {sources ordered : List (IndexedMessage numbers)} (inOrder : InOrder ordered)
    (perm : sources.Perm ordered) : orderedSourceMessages sources = ordered :=
  insertionSort_eq (fun _ _ before => before) (fun _ _ behind => (Nat.lt_of_not_le behind).le) inOrder perm

theorem Canonical.inOrder {history : CanonicalHistory numbers} (canonical : Canonical history) :
    InOrder history.messages := by
  apply List.pairwise_iff_getElem.mpr
  intro one other before behind less
  rw [canonical.placed one _ (List.getElem?_eq_getElem before),
    canonical.placed other _ (List.getElem?_eq_getElem behind)]
  exact less

theorem Canonical.turn_sublist {history : CanonicalHistory numbers} (canonical : Canonical history)
    {turn : CompleteTurn numbers} (inside : turn ∈ history.turns) :
    turn.messages.Sublist history.messages := by
  rw [canonical.owned turn inside]
  exact List.filter_sublist

/-! ### Segments of a range of turns -/

/-- The messages of the turn stand one behind the other among all source messages. -/
def Contiguous (turn : CompleteTurn numbers) : Prop :=
  ∃ first, ∀ (place : Nat) (source : IndexedMessage numbers), turn.messages[place]? = some source →
    source.sourceIndex = first + place

/-- An exact segment with the messages of a range, in whatever state and version. -/
def CutsOut (turn : CompleteTurn numbers) (range : List (IndexedMessage numbers))
    (segment : ReflectionSegment) : Prop :=
  ∃ closed projectionVersion, makeV2Segment turn range closed projectionVersion = .ok segment

/-- Exact segments whose ranges make up the sources. -/
def CutsUp (turn : CompleteTurn numbers) (sources : List (IndexedMessage numbers))
    (segments : List ReflectionSegment) : Prop :=
  ∃ ranges : List (List (IndexedMessage numbers)),
    ranges.flatten = sources ∧ List.Forall₂ (CutsOut turn) ranges segments

inductive CutInto : List (CompleteTurn numbers) → List ReflectionSegment → Prop
  | done : CutInto [] []
  | whole {covered rest : List (CompleteTurn numbers)} {segment : ReflectionSegment}
      {segments : List ReflectionSegment} {closed : Bool} {projectionVersion : Option Int} :
      makeV1Segment covered closed projectionVersion = .ok segment → CutInto rest segments →
        CutInto (covered ++ rest) (segment :: segments)
  | exact {turn : CompleteTurn numbers} {rest : List (CompleteTurn numbers)}
      {fragments segments : List ReflectionSegment} :
      Contiguous turn → CutsUp turn turn.messages fragments → CutInto rest segments →
        CutInto (turn :: rest) (fragments ++ segments)

theorem CutInto.append {turns others : List (CompleteTurn numbers)} {segments more : List ReflectionSegment}
    (cut : CutInto turns segments) (next : CutInto others more) :
    CutInto (turns ++ others) (segments ++ more) := by
  induction cut with
  | done => exact next
  | whole made _ ih =>
      rw [List.append_assoc]
      exact .whole made ih
  | exact contiguous cuts _ ih =>
      rw [List.append_assoc]
      exact .exact contiguous cuts ih

theorem CutInto.one {covered : List (CompleteTurn numbers)} {segment : ReflectionSegment} {closed : Bool}
    {projectionVersion : Option Int} (made : makeV1Segment covered closed projectionVersion = .ok segment) :
    CutInto covered [segment] := by
  have cut := CutInto.whole made CutInto.done
  rw [List.append_nil] at cut
  exact cut

/-! ### Packs -/

theorem packFrom_cut {maxChars : Nat} {forceClosed : Bool} {turns current : List (CompleteTurn numbers)}
    {currentChars : ℕ∞} {segments : List ReflectionSegment}
    (packed : packFrom maxChars forceClosed current currentChars turns = .ok segments) :
    CutInto (current ++ turns) segments := by
  induction turns generalizing current currentChars segments with
  | nil =>
      unfold packFrom at packed
      rw [List.append_nil]
      split at packed
      · rename_i empty
        cases packed
        rw [List.isEmpty_iff.mp empty]
        exact .done
      · obtain ⟨segment, made, same⟩ := except_bind_ok packed
        cases same
        exact .one made
  | cons turn rest ih =>
      -- What is kept is packed on behind what was finished.
      have pushed : ∀ {kept : List (CompleteTurn numbers)} {keptChars : ℕ∞} {more : List ReflectionSegment},
          (if keptChars = maxChars then do
              let segment ← makeV1Segment kept true none
              let others ← packFrom maxChars forceClosed [] 0 rest
              .ok (segment :: others)
            else packFrom maxChars forceClosed kept keptChars rest) = .ok more →
          CutInto (kept ++ rest) more := by
        intro kept keptChars more pushing
        split at pushing
        · obtain ⟨segment, made, packing⟩ := except_bind_ok pushing
          obtain ⟨others, areOthers, same⟩ := except_bind_ok packing
          cases same
          exact .whole made (ih areOthers)
        · exact ih pushing
      unfold packFrom at packed
      dsimp only at packed
      split at packed
      · cases packed
      · split at packed
        · obtain ⟨segment, made, packing⟩ := except_bind_ok packed
          obtain ⟨others, areOthers, same⟩ := except_bind_ok packing
          cases same
          exact .whole made (pushed areOthers)
        · have cut := pushed packed
          rw [List.append_assoc] at cut
          exact cut

theorem packTurns_cut {turns : List (CompleteTurn numbers)} {maxChars : Nat} {forceClosed : Bool}
    {segments : List ReflectionSegment} (packed : packTurns turns maxChars forceClosed = .ok segments) :
    CutInto turns segments :=
  packFrom_cut packed

/-! ### Fragments -/

theorem CutsUp.append {turn : CompleteTurn numbers} {sources others : List (IndexedMessage numbers)}
    {segments more : List ReflectionSegment} (cuts : CutsUp turn sources segments)
    (next : CutsUp turn others more) : CutsUp turn (sources ++ others) (segments ++ more) := by
  obtain ⟨ranges, covers, made⟩ := cuts
  obtain ⟨behind, alsoCovers, alsoMade⟩ := next
  refine ⟨ranges ++ behind, ?_, List.rel_append made alsoMade⟩
  rw [List.flatten_append, covers, alsoCovers]

theorem CutsUp.cons {turn : CompleteTurn numbers} {range others : List (IndexedMessage numbers)}
    {segment : ReflectionSegment} {more : List ReflectionSegment} (made : CutsOut turn range segment)
    (next : CutsUp turn others more) : CutsUp turn (range ++ others) (segment :: more) := by
  obtain ⟨behind, covers, alsoMade⟩ := next
  exact ⟨range :: behind, by rw [List.flatten_cons, covers], .cons made alsoMade⟩

theorem fragmentSourceRange_cutsUp {turn : CompleteTurn numbers} {sources : List (IndexedMessage numbers)}
    {maxChars : Nat} {forceClosed : Bool} {segments : List ReflectionSegment}
    (fragmented : fragmentSourceRange turn sources maxChars forceClosed = .ok segments) :
    CutsUp turn sources segments := by
  have law : Fragments.CutLaw isLegalActiveTurnCut sourceWeight maxChars sources _ :=
    Fragments.fragmentSourceRange_cutLaw sources maxChars forceClosed
  refine ⟨_, law.flatten_eq, ?_⟩
  rw [List.forall₂_map_left_iff]
  refine (mapM_ok_iff.mp fragmented).imp fun range segment made => ?_
  exact ⟨_, _, made⟩

/-- The loop over anchors, each of which ends inside the turn. -/
theorem fragmentBoundaries_cutsUp {turn : CompleteTurn numbers} {maxChars cursor : Nat}
    {boundaries : List IndexedV2Boundary} {segments : List ReflectionSegment}
    (inside : ∀ boundary ∈ boundaries, boundary.startOffset ≤ boundary.endOffset)
    (behind : ∀ boundary ∈ boundaries.head?, cursor ≤ boundary.startOffset)
    (fragmented : fragmentBoundaries turn maxChars cursor boundaries = .ok segments) :
    CutsUp turn (turn.messages.drop cursor) segments := by
  induction boundaries generalizing cursor segments with
  | nil => exact fragmentSourceRange_cutsUp fragmented
  | cons boundary rest ih =>
      have ordered := inside boundary List.mem_cons_self
      have starts := behind boundary rfl
      unfold fragmentBoundaries at fragmented
      obtain ⟨gap, isGap, fragmented⟩ := except_bind_ok fragmented
      obtain ⟨segment, made, fragmented⟩ := except_bind_ok fragmented
      split at fragmented
      · cases fragmented
      · rename_i apart
        obtain ⟨others, areOthers, same⟩ := except_bind_ok fragmented
        cases same
        have next : ∀ other ∈ rest.head?, boundary.endOffset + 1 ≤ other.startOffset := by
          intro other isNext
          rw [Option.mem_def.mp isNext] at apart
          simpa using apart
        have later := ih (fun other member => inside other (List.mem_cons_of_mem _ member)) next areOthers
        rw [← extract_append_drop starts,
          ← extract_append_drop (show boundary.startOffset ≤ boundary.endOffset + 1 by omega)]
        exact (fragmentSourceRange_cutsUp isGap).append (.cons ⟨_, _, made⟩ later)

theorem contiguous_of_isContiguous {turn : CompleteTurn numbers} {first : Nat}
    (holds : isContiguous turn first = true) : Contiguous turn := by
  refine ⟨first, fun place source found => ?_⟩
  have inside : (source, place) ∈ turn.messages.zipIdx := List.mk_mem_zipIdx_iff_getElem?.mpr found
  simpa using List.all_eq_true.mp holds (source, place) inside

/-- A turn that is cut up, or one that is not contiguous and is kept whole. -/
theorem fragmentTurn_cut {turn : CompleteTurn numbers} {boundaries : List IndexedV2Boundary} {maxChars : Nat}
    {segments : List ReflectionSegment}
    (inside : ∀ boundary ∈ boundaries, boundary.startOffset ≤ boundary.endOffset)
    (fragmented : fragmentTurn turn boundaries maxChars = .ok segments) : CutInto [turn] segments := by
  unfold fragmentTurn at fragmented
  split at fragmented
  · cases fragmented
  · split at fragmented
    · split at fragmented
      · obtain ⟨segment, made, same⟩ := except_bind_ok fragmented
        cases same
        exact .one made
      · cases fragmented
    · rename_i contiguous
      rw [Bool.not_eq_true', Bool.not_eq_false] at contiguous
      have cuts := fragmentBoundaries_cutsUp inside (fun _ _ => Nat.zero_le _) fragmented
      have cut := CutInto.exact (contiguous_of_isContiguous contiguous) cuts .done
      rw [List.append_nil] at cut
      exact cut

/-! ### The loop over the turns -/

/-- What the plan was reconciled to lies in the history, and nothing that is selected overlaps. -/
structure Sound (history : CanonicalHistory numbers) (plan : TurnPlan) : Prop where
  v1 : ∀ indexed ∈ plan.selectedV1, NamesTurns history.turns indexed
  v2 : ∀ indexed ∈ plan.selectedV2, ∃ turn, Anchored history turn indexed
  resolved : ∀ indexed ∈ plan.selectedV2, indexed ∈ plan.resolvedV2
  apartV1 : plan.selectedV1.Pairwise fun one other => one.endIndex < other.startIndex
  apartV2 : plan.selectedV2.Pairwise fun one other => one.endIndex < other.startIndex

theorem turnPlan_ok {localeCompare : JsString → JsString → Ordering} {history : CanonicalHistory numbers}
    {boundaries : List CommittedSegmentBoundary} {plan : TurnPlan}
    (planned : turnPlan localeCompare history boundaries = .ok plan) :
    reconcileV1Boundaries localeCompare history.turns boundaries = .ok plan.selectedV1 ∧
      resolveV2Boundaries history boundaries = .ok plan.resolvedV2 ∧
        plan.selectedV2 = reconcileV2Boundaries localeCompare plan.resolvedV2 (isFrozen plan.selectedV1) := by
  unfold turnPlan at planned
  obtain ⟨selectedV1, isSelected, planned⟩ := except_bind_ok planned
  obtain ⟨resolvedV2, isResolved, same⟩ := except_bind_ok planned
  cases same
  exact ⟨isSelected, isResolved, rfl⟩

theorem turnPlan_sound {localeCompare : JsString → JsString → Ordering} {history : CanonicalHistory numbers}
    {boundaries : List CommittedSegmentBoundary} {plan : TurnPlan}
    (planned : turnPlan localeCompare history boundaries = .ok plan) : Sound history plan := by
  obtain ⟨isSelected, isResolved, selectedV2⟩ := turnPlan_ok planned
  obtain ⟨candidates, mem, best⟩ := reconcileV1Boundaries_best isSelected
  have names : ∀ indexed ∈ plan.selectedV1, NamesTurns history.turns indexed := by
    intro indexed inside
    obtain ⟨boundary, _, isIndexed⟩ := (mem indexed).mp (best.sublist.subset inside)
    exact (indexV1Boundary_names isIndexed).2
  have anchored := resolveV2Boundaries_anchored isResolved
  have inTurn : ∀ indexed ∈ plan.resolvedV2, ∃ turn, Anchored history turn indexed := fun indexed inside =>
    (anchored indexed inside).2
  obtain ⟨_, _, bestV2⟩ := reconcileV2Boundaries_best localeCompare (isFrozen plan.selectedV1) inTurn
  rw [← selectedV2] at bestV2
  have kept : ∀ indexed ∈ plan.selectedV2, indexed ∈ plan.resolvedV2 := by
    intro indexed inside
    rw [selectedV2] at inside
    exact (mem_reconcileV2Boundaries inTurn inside).1
  exact ⟨names, fun indexed inside => inTurn indexed (kept indexed inside), kept, best.apart, bestV2.apart⟩

theorem v1At_mem {plan : TurnPlan} {turnIndex : Nat} {v1 : IndexedV1Boundary}
    (found : plan.v1At turnIndex = some v1) : v1 ∈ plan.selectedV1 ∧ v1.startIndex = turnIndex := by
  have entry := lookup_ofEntries_mem found
  simp only [List.mem_map, Prod.mk.injEq] at entry
  obtain ⟨indexed, inside, same, rfl⟩ := entry
  exact ⟨inside, same⟩

theorem v2At_mem {plan : TurnPlan} {turnIndex : Nat} {indexed : IndexedV2Boundary}
    (inside : indexed ∈ plan.v2At turnIndex) :
    indexed ∈ plan.selectedV2 ∧ indexed.turnIndex = turnIndex := by
  unfold TurnPlan.v2At at inside
  rw [List.mem_filter, beq_iff_eq] at inside
  exact inside

theorem segmentTurns_cut {history : CanonicalHistory numbers} {plan : TurnPlan} (sound : Sound history plan)
    {maxChars rounds turnIndex : Nat} {ordinaryTurns : List (CompleteTurn numbers)}
    {segments : List ReflectionSegment} (enough : history.turns.length ≤ turnIndex + rounds)
    (segmented : segmentTurns history.turns plan maxChars rounds turnIndex ordinaryTurns = .ok segments) :
    CutInto (ordinaryTurns ++ history.turns.drop turnIndex) segments := by
  induction rounds generalizing turnIndex ordinaryTurns segments with
  | zero =>
      have atEnd : history.turns.drop turnIndex = [] := List.drop_eq_nil_of_le enough
      rw [atEnd, List.append_nil]
      exact packTurns_cut segmented
  | succ rounds ih =>
      unfold segmentTurns at segmented
      split at segmented
      · rename_i missing
        have atEnd : history.turns.drop turnIndex = [] :=
          List.drop_eq_nil_of_le (List.getElem?_eq_none_iff.mp missing)
        rw [atEnd, List.append_nil]
        exact packTurns_cut segmented
      · rename_i turn v1 found isV1
        obtain ⟨packed, isPacked, segmented⟩ := except_bind_ok segmented
        obtain ⟨segment, made, segmented⟩ := except_bind_ok segmented
        obtain ⟨others, areOthers, same⟩ := except_bind_ok segmented
        cases same
        obtain ⟨selected, rfl⟩ := v1At_mem isV1
        have ordered := (sound.v1 v1 selected).ordered
        have rest := ih (by omega) areOthers
        rw [List.nil_append] at rest
        rw [← extract_append_drop (show v1.startIndex ≤ v1.endIndex + 1 by omega)]
        exact (packTurns_cut isPacked).append (.whole made rest)
      · rename_i turn found noV1
        have next : history.turns.drop turnIndex = turn :: history.turns.drop (turnIndex + 1) := by
          obtain ⟨inside, same⟩ := List.getElem?_eq_some_iff.mp found
          rw [← same]
          exact List.drop_eq_getElem_cons inside
        rw [next]
        split at segmented
        · obtain ⟨packed, isPacked, segmented⟩ := except_bind_ok segmented
          obtain ⟨fragments, areFragments, segmented⟩ := except_bind_ok segmented
          obtain ⟨others, areOthers, same⟩ := except_bind_ok segmented
          cases same
          have offsets : ∀ indexed ∈ plan.v2At turnIndex, indexed.startOffset ≤ indexed.endOffset := by
            intro indexed inside
            obtain ⟨_, anchored⟩ := sound.v2 indexed (v2At_mem inside).1
            exact anchored.offsets
          have rest := ih (by omega) areOthers
          rw [List.nil_append] at rest
          rw [List.append_assoc]
          exact (packTurns_cut isPacked).append ((fragmentTurn_cut offsets areFragments).append rest)
        · have rest := ih (by omega) segmented
          rw [List.append_assoc] at rest
          exact rest

/-- Whatever a segmentation returns covers the turns of the history. -/
theorem segmentMessages_cut {localeCompare : JsString → JsString → Ordering}
    {messages : List (OpenCodeMessage numbers)} {maxChars : Nat}
    {boundaries : List CommittedSegmentBoundary} {segments : List ReflectionSegment}
    (segmented : segmentMessages localeCompare messages maxChars boundaries = .ok segments) :
    CutInto (canonicalHistory messages).turns segments := by
  unfold segmentMessages at segmented
  split at segmented
  · cases segmented
  · obtain ⟨plan, planned, segmented⟩ := except_bind_ok segmented
    exact segmentTurns_cut (turnPlan_sound planned) (by omega) segmented

/-! ### Nothing committed -/

def uncommittedPlan : TurnPlan :=
  { selectedV1 := []
    selectedV2 := []
    resolvedV2 := [] }

theorem turnPlan_uncommitted (localeCompare : JsString → JsString → Ordering)
    (history : CanonicalHistory numbers) : turnPlan localeCompare history [] = .ok uncommittedPlan := by
  simp [turnPlan, reconcileV1Boundaries, resolveV2Boundaries, reconcileV2Boundaries, uncommittedPlan,
    selectBoundaryIntervals]

theorem segmentMessages_uncommitted (localeCompare : JsString → JsString → Ordering)
    (messages : List (OpenCodeMessage numbers)) {maxChars : Nat} (positive : maxChars ≠ 0) :
    segmentMessages localeCompare messages maxChars [] =
      segmentTurns (canonicalHistory messages).turns uncommittedPlan maxChars
        (canonicalHistory messages).turns.length 0 [] := by
  unfold segmentMessages
  rw [if_neg positive]
  dsimp only
  rw [turnPlan_uncommitted, except_ok_bind]

end Reflection.Segments
