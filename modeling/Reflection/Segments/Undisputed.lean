/-
Which committed boundaries are sure to be kept.

A boundary of whole turns is only kept out by another one that meets its turns, an exact one also by a
boundary of whole turns around it and by an exact one that meets its source messages. Where nothing
keeps a boundary out, some segment has its span.
-/

import Reflection.Segments.CommittedOrder

namespace Reflection.Segments

open IntervalSelection

variable {numbers : Numbers}

/-! ### Places in a history -/

inductive Place
  | turns (start finish : Nat)
  | sources (turnIndex start finish : Nat)
deriving DecidableEq

def IndexedV1Boundary.place (indexed : IndexedV1Boundary) : Place := .turns indexed.startIndex indexed.endIndex

def IndexedV2Boundary.place (indexed : IndexedV2Boundary) : Place :=
  .sources indexed.turnIndex indexed.startIndex indexed.endIndex

/-- Where a boundary lies; one of whole turns is not looked for among the exact ones. -/
def placeOf (history : CanonicalHistory numbers) (boundary : CommittedSegmentBoundary) : Option Place :=
  match indexV1Boundary (userIndexes history.turns) boundary, resolveV2Boundary history boundary with
  | .ok (some indexed), _ => some indexed.place
  | _, .ok (some indexed) => some indexed.place
  | _, _ => none

/-- A place that keeps another one out of the selection. -/
def Place.KeepsOut : Place → Place → Prop
  | .turns start finish, .turns otherStart otherFinish => start ≤ otherFinish ∧ otherStart ≤ finish
  | .turns start finish, .sources turnIndex _ _ => start ≤ turnIndex ∧ turnIndex ≤ finish
  | .sources _ _ _, .turns _ _ => False
  | .sources _ start finish, .sources _ otherStart otherFinish => start ≤ otherFinish ∧ otherStart ≤ finish

instance (one other : Place) : Decidable (one.KeepsOut other) := by
  cases one <;> cases other <;> unfold Place.KeepsOut <;> infer_instance

/-- Nothing at another place keeps the boundary out. -/
def Undisputed (history : CanonicalHistory numbers) (boundaries : List CommittedSegmentBoundary) (place : Place) :
    Prop :=
  ∀ other ∈ boundaries, ∀ otherPlace, placeOf history other = some otherPlace → otherPlace ≠ place →
    ¬otherPlace.KeepsOut place

/-- The segment has the version, the users and the cursors of the boundary. -/
structure SameSpan (segment : ReflectionSegment) (boundary : CommittedSegmentBoundary) : Prop where
  version : boundaryVersion boundary = .ok segment.sourceBoundaryVersion
  startUser : segment.startUserMessageId = boundary.startUserMessageId
  endUser : segment.endUserMessageId = boundary.endUserMessageId
  startSource : segment.startSourceMessageId = boundary.startSourceMessageId
  endSource : segment.endSourceMessageId = boundary.endSourceMessageId

theorem placeOf_turns {history : CanonicalHistory numbers} {boundary : CommittedSegmentBoundary}
    {indexed : IndexedV1Boundary}
    (found : indexV1Boundary (userIndexes history.turns) boundary = .ok (some indexed)) :
    placeOf history boundary = some indexed.place := by
  unfold placeOf
  rw [found]

theorem placeOf_sources {history : CanonicalHistory numbers} {boundary : CommittedSegmentBoundary}
    {indexed : IndexedV2Boundary} (found : resolveV2Boundary history boundary = .ok (some indexed)) :
    placeOf history boundary = some indexed.place := by
  obtain ⟨same, turn, anchored⟩ := resolveV2Boundary_anchored found
  have version := anchored.version
  rw [same] at version
  unfold placeOf indexV1Boundary
  rw [version, found]
  rfl

theorem placeOf_eq_some {history : CanonicalHistory numbers} {boundary : CommittedSegmentBoundary} {place : Place}
    (found : placeOf history boundary = some place) :
    (∃ indexed : IndexedV1Boundary,
      indexV1Boundary (userIndexes history.turns) boundary = .ok (some indexed) ∧ indexed.place = place) ∨
    ∃ indexed : IndexedV2Boundary, resolveV2Boundary history boundary = .ok (some indexed) ∧ indexed.place = place := by
  unfold placeOf at found
  split at found
  · rename_i indexed isIndexed
    exact Or.inl ⟨indexed, isIndexed, Option.some.inj found⟩
  · rename_i indexed isIndexed _
    exact Or.inr ⟨indexed, isIndexed, Option.some.inj found⟩
  · cases found

/-! ### What the loop makes of a selected boundary -/

theorem segmentTurns_keepsV1 {history : CanonicalHistory numbers} {plan : TurnPlan} (sound : Sound history plan)
    {maxChars rounds turnIndex : Nat} {ordinaryTurns : List (CompleteTurn numbers)}
    {segments : List ReflectionSegment} (enough : history.turns.length ≤ turnIndex + rounds)
    (segmented : segmentTurns history.turns plan maxChars rounds turnIndex ordinaryTurns = .ok segments)
    {v1 : IndexedV1Boundary} (selected : v1 ∈ plan.selectedV1) (ahead : turnIndex ≤ v1.startIndex) :
    ∃ segment ∈ segments, ∃ closed projectionVersion,
      makeV1Segment (history.turns.extract v1.startIndex (v1.endIndex + 1)) closed projectionVersion = .ok segment := by
  have names := sound.v1 v1 selected
  have within := names.within
  have ordered := names.ordered
  induction rounds generalizing turnIndex ordinaryTurns segments with
  | zero => omega
  | succ rounds ih =>
      unfold segmentTurns at segmented
      split at segmented
      · rename_i missing
        have past := List.getElem?_eq_none_iff.mp missing
        omega
      · rename_i turn chosen found isV1
        obtain ⟨packed, _, segmented⟩ := except_bind_ok segmented
        obtain ⟨segment, made, segmented⟩ := except_bind_ok segmented
        obtain ⟨others, areOthers, same⟩ := except_bind_ok segmented
        cases same
        obtain ⟨isSelected, start⟩ := v1At_mem isV1
        have chosenOrdered := (sound.v1 chosen isSelected).ordered
        by_cases one : v1 = chosen
        · rw [one]
          exact ⟨segment, List.mem_append_right _ List.mem_cons_self, _, _, made⟩
        · have disjoint : v1.endIndex < chosen.startIndex ∨ chosen.endIndex < v1.startIndex :=
            apart_of_ordered sound.apartV1 selected isSelected one
          obtain ⟨other, inside, isMade⟩ := ih (by omega) areOthers (by omega)
          exact ⟨other, List.mem_append_right _ (List.mem_cons_of_mem _ inside), isMade⟩
      · rename_i turn found noV1
        have later := v1At_none noV1 selected
        split at segmented
        · obtain ⟨packed, _, segmented⟩ := except_bind_ok segmented
          obtain ⟨fragments, _, segmented⟩ := except_bind_ok segmented
          obtain ⟨others, areOthers, same⟩ := except_bind_ok segmented
          cases same
          obtain ⟨other, inside, isMade⟩ := ih (by omega) areOthers (by omega)
          exact ⟨other, List.mem_append_right _ inside, isMade⟩
        · exact ih (by omega) segmented (by omega)

theorem fragmentBoundaries_keeps {turn : CompleteTurn numbers} {maxChars cursor : Nat}
    {boundaries : List IndexedV2Boundary} {segments : List ReflectionSegment}
    (fragmented : fragmentBoundaries turn maxChars cursor boundaries = .ok segments) {v2 : IndexedV2Boundary}
    (inside : v2 ∈ boundaries) :
    ∃ segment ∈ segments, CutsOut turn (turn.messages.extract v2.startOffset (v2.endOffset + 1)) segment := by
  induction boundaries generalizing cursor segments with
  | nil => cases inside
  | cons boundary rest ih =>
      unfold fragmentBoundaries at fragmented
      obtain ⟨gap, _, fragmented⟩ := except_bind_ok fragmented
      obtain ⟨segment, made, fragmented⟩ := except_bind_ok fragmented
      split at fragmented
      · cases fragmented
      · obtain ⟨others, areOthers, same⟩ := except_bind_ok fragmented
        cases same
        rcases List.mem_cons.mp inside with isFirst | later
        · rw [isFirst]
          exact ⟨segment, List.mem_append_right _ List.mem_cons_self, _, _, made⟩
        · obtain ⟨other, isOther, cutsOut⟩ := ih areOthers later
          exact ⟨other, List.mem_append_right _ (List.mem_cons_of_mem _ isOther), cutsOut⟩

theorem segmentTurns_keepsV2 {history : CanonicalHistory numbers} (canonical : Canonical history) {plan : TurnPlan}
    (sound : Sound history plan) {maxChars rounds turnIndex : Nat} {ordinaryTurns : List (CompleteTurn numbers)}
    {segments : List ReflectionSegment} (enough : history.turns.length ≤ turnIndex + rounds)
    (segmented : segmentTurns history.turns plan maxChars rounds turnIndex ordinaryTurns = .ok segments)
    {v2 : IndexedV2Boundary} (selected : v2 ∈ plan.selectedV2) (notFrozen : isFrozen plan.selectedV1 v2.turnIndex = false)
    (ahead : turnIndex ≤ v2.turnIndex) {turn : CompleteTurn numbers} (anchored : Anchored history turn v2) :
    ∃ segment ∈ segments, CutsOut turn (turn.messages.extract v2.startOffset (v2.endOffset + 1)) segment := by
  have atTurn := canonical.turn_at anchored.isTurn
  rw [← anchored.number] at atTurn
  have within := (List.getElem?_eq_some_iff.mp atTurn).1
  induction rounds generalizing turnIndex ordinaryTurns segments with
  | zero => omega
  | succ rounds ih =>
      unfold segmentTurns at segmented
      split at segmented
      · rename_i missing
        have past := List.getElem?_eq_none_iff.mp missing
        omega
      · rename_i other chosen found isV1
        obtain ⟨packed, _, segmented⟩ := except_bind_ok segmented
        obtain ⟨segment, made, segmented⟩ := except_bind_ok segmented
        obtain ⟨others, areOthers, same⟩ := except_bind_ok segmented
        cases same
        obtain ⟨isSelected, start⟩ := v1At_mem isV1
        have chosenOrdered := (sound.v1 chosen isSelected).ordered
        have outside : chosen.endIndex < v2.turnIndex := by
          by_contra covers
          rw [frozen_inside isSelected (by omega) (by omega)] at notFrozen
          cases notFrozen
        obtain ⟨other, inside, isMade⟩ := ih (by omega) areOthers (by omega)
        exact ⟨other, List.mem_append_right _ (List.mem_cons_of_mem _ inside), isMade⟩
      · rename_i other found noV1
        split at segmented
        · obtain ⟨packed, _, segmented⟩ := except_bind_ok segmented
          obtain ⟨fragments, areFragments, segmented⟩ := except_bind_ok segmented
          obtain ⟨others, areOthers, same⟩ := except_bind_ok segmented
          cases same
          rcases Nat.lt_or_eq_of_le ahead with later | here
          · obtain ⟨other, inside, isMade⟩ := ih (by omega) areOthers (by omega)
            exact ⟨other, List.mem_append_right _ inside, isMade⟩
          · rw [here, atTurn] at found
            cases found
            have inAnchors : v2 ∈ plan.v2At turnIndex := by
              unfold TurnPlan.v2At
              rw [List.mem_filter, beq_iff_eq]
              exact ⟨selected, here.symm⟩
            unfold fragmentTurn at areFragments
            split at areFragments
            · cases areFragments
            · split at areFragments
              · split at areFragments
                · rename_i none
                  rw [List.isEmpty_iff.mp none] at inAnchors
                  cases inAnchors
                · cases areFragments
              · obtain ⟨segment, inside, cutsOut⟩ := fragmentBoundaries_keeps areFragments inAnchors
                exact ⟨segment, List.mem_append_left _ (List.mem_append_right _ inside), cutsOut⟩
        · rename_i notFragmented
          have isLater : turnIndex ≠ v2.turnIndex := by
            intro here
            apply notFragmented
            unfold TurnPlan.isFragmented
            rw [here, notFrozen, Bool.not_false, Bool.true_and, Bool.or_eq_true]
            exact Or.inl (List.any_eq_true.mpr ⟨v2, sound.resolved v2 selected, beq_self_eq_true _⟩)
          exact ih (by omega) segmented (by omega)

/-! ### What is selected -/

section Selected

variable {localeCompare : JsString → JsString → Ordering} {messages : List (OpenCodeMessage numbers)}
  {boundaries : List CommittedSegmentBoundary} {plan : TurnPlan}
  (planned : turnPlan localeCompare (canonicalHistory messages) boundaries = .ok plan)

include planned

theorem undisputed_turns_selected {boundary : CommittedSegmentBoundary} (inside : boundary ∈ boundaries)
    {indexed : IndexedV1Boundary}
    (found : indexV1Boundary (userIndexes (canonicalHistory messages).turns) boundary = .ok (some indexed))
    (undisputed : Undisputed (canonicalHistory messages) boundaries indexed.place) :
    ∃ selected ∈ plan.selectedV1, selected.startIndex = indexed.startIndex ∧ selected.endIndex = indexed.endIndex := by
  obtain ⟨reconciled, _, _⟩ := turnPlan_ok planned
  obtain ⟨candidates, mem, best⟩ := reconcileV1Boundaries_best reconciled
  by_contra none
  have ordered := (indexV1Boundary_names found).2.ordered
  have apart : ∀ one ∈ plan.selectedV1, one ≠ indexed →
      Apart (startOf IndexedV1Boundary.interval) (endOf IndexedV1Boundary.interval) indexed one := by
    intro one selected _
    obtain ⟨other, isOther, isOne⟩ := (mem one).mp (best.sublist.subset selected)
    have different : one.place ≠ indexed.place := by
      intro same
      have parts := Place.turns.inj same
      exact none ⟨one, selected, parts.1, parts.2⟩
    have notOut := undisputed other isOther one.place (placeOf_turns isOne) different
    unfold Place.KeepsOut IndexedV1Boundary.place at notOut
    change indexed.endIndex < one.startIndex ∨ one.endIndex < indexed.startIndex
    dsimp only at notOut
    omega
  have isCandidate := (mem indexed).mpr ⟨boundary, inside, found⟩
  have selected := best.mem_of_apart isCandidate (intervalTriple_pos ordered) apart
  exact none ⟨indexed, selected, rfl, rfl⟩

theorem undisputed_sources_selected {boundary : CommittedSegmentBoundary} (inside : boundary ∈ boundaries)
    {indexed : IndexedV2Boundary}
    (found : resolveV2Boundary (canonicalHistory messages) boundary = .ok (some indexed))
    (undisputed : Undisputed (canonicalHistory messages) boundaries indexed.place) :
    isFrozen plan.selectedV1 indexed.turnIndex = false ∧ ∃ selected ∈ plan.selectedV2,
      selected.startIndex = indexed.startIndex ∧ selected.endIndex = indexed.endIndex := by
  obtain ⟨reconciled, areResolved, isSelected⟩ := turnPlan_ok planned
  obtain ⟨_, mem, best⟩ := reconcileV1Boundaries_best reconciled
  obtain ⟨_, turn, isAnchored⟩ := resolveV2Boundary_anchored found
  have anchored : ∀ resolved ∈ plan.resolvedV2, ∃ turn, Anchored (canonicalHistory messages) turn resolved :=
    fun resolved isResolved => (resolveV2Boundaries_anchored areResolved resolved isResolved).2
  have notFrozen : isFrozen plan.selectedV1 indexed.turnIndex = false := by
    unfold isFrozen
    rw [List.any_eq_false]
    intro one selected covers
    obtain ⟨other, isOther, isOne⟩ := (mem one).mp (best.sublist.subset selected)
    have different : one.place ≠ indexed.place := fun same => by cases same
    refine undisputed other isOther one.place (placeOf_turns isOne) different ?_
    simpa [Place.KeepsOut, IndexedV1Boundary.place, IndexedV2Boundary.place] using covers
  refine ⟨notFrozen, ?_⟩
  obtain ⟨candidates, perm, bestV2⟩ := reconcileV2Boundaries_best localeCompare (isFrozen plan.selectedV1) anchored
  rw [← isSelected] at bestV2
  by_contra none
  have apart : ∀ one ∈ plan.selectedV2, one ≠ indexed →
      Apart (startOf IndexedV2Boundary.interval) (endOf IndexedV2Boundary.interval) indexed one := by
    intro one selected _
    have isResolved := (List.mem_filter.mp (perm.subset (bestV2.sublist.subset selected))).1
    obtain ⟨other, isOther, isOne⟩ := (mem_resolveV2Boundaries areResolved).mp isResolved
    have different : one.place ≠ indexed.place := by
      intro same
      have parts := Place.sources.inj same
      exact none ⟨one, selected, parts.2.1, parts.2.2⟩
    have notOut := undisputed other isOther one.place (placeOf_sources isOne) different
    unfold Place.KeepsOut IndexedV2Boundary.place at notOut
    change indexed.endIndex < one.startIndex ∨ one.endIndex < indexed.startIndex
    dsimp only at notOut
    omega
  have isCandidate : indexed ∈ candidates := by
    rw [perm.mem_iff, List.mem_filter, notFrozen]
    exact ⟨(mem_resolveV2Boundaries areResolved).mpr ⟨boundary, inside, found⟩, rfl⟩
  have selected := bestV2.mem_of_apart isCandidate (intervalTriple_pos isAnchored.ordered) apart
  exact none ⟨indexed, selected, rfl, rfl⟩

end Selected

/-! ### The span of the segment -/

theorem boundaryVersion_v1 {boundary : CommittedSegmentBoundary} (version : boundaryVersion boundary = .ok .v1) :
    boundary.startSourceMessageId = none ∧ boundary.endSourceMessageId = none := by
  unfold boundaryVersion at version
  split at version
  · split at version
    · cases version
    · rename_i noCursors
      simpa using noCursors
  · split at version
    · cases version
    · rename_i noCursors
      simpa using noCursors
  · split at version
    · split at version
      · cases version
      · split at version <;> cases version
    · cases version
  · cases version

theorem boundaryVersion_v2 {boundary : CommittedSegmentBoundary} (version : boundaryVersion boundary = .ok .v2) :
    boundary.startUserMessageId = boundary.endUserMessageId ∧
      ∃ startSource endSource, boundary.startSourceMessageId = some startSource ∧
        boundary.endSourceMessageId = some endSource := by
  unfold boundaryVersion at version
  split at version
  · split at version <;> cases version
  · split at version <;> cases version
  · split at version
    · rename_i startSource endSource isStart isEnd
      split at version
      · cases version
      · split at version
        · cases version
        · rename_i sameUsers
          exact ⟨not_not.mp sameUsers, startSource, endSource, isStart, isEnd⟩
    · cases version
  · cases version

/-- Turns between the users of a boundary become a segment with its users. -/
theorem NamesTurns.span {turns : List (CompleteTurn numbers)} {indexed : IndexedV1Boundary} (names : NamesTurns turns indexed)
    {closed : Bool} {projectionVersion : Option Int} {segment : ReflectionSegment}
    (made : makeV1Segment (turns.extract indexed.startIndex (indexed.endIndex + 1)) closed projectionVersion = .ok segment) :
    SameSpan segment indexed.boundary := by
  have whole := makeV1Segment_whole made
  have within := names.within
  have ordered := names.ordered
  obtain ⟨first, atFirst, firstUser⟩ := userIndexes_lookup_mem names.start
  obtain ⟨last, atLast, lastUser⟩ := userIndexes_lookup_mem names.finish
  have isFirst : (turns.extract indexed.startIndex (indexed.endIndex + 1)).head? = some first := by
    rw [List.head?_eq_getElem?, getElem?_extract, if_pos (by omega), Nat.add_zero, atFirst]
  have length : (turns.extract indexed.startIndex (indexed.endIndex + 1)).length =
      indexed.endIndex + 1 - indexed.startIndex := by
    rw [List.extract_eq_take_drop, List.length_take, List.length_drop]
    omega
  have isLast : (turns.extract indexed.startIndex (indexed.endIndex + 1)).getLast? = some last := by
    rw [List.getLast?_eq_getElem?, length, getElem?_extract, if_pos (by omega),
      show indexed.startIndex + (indexed.endIndex + 1 - indexed.startIndex - 1) = indexed.endIndex by omega, atLast]
  have startUser := whole.startUser
  have endUser := whole.endUser
  rw [isFirst, Option.map_some, Option.some.injEq, firstUser] at startUser
  rw [isLast, Option.map_some, Option.some.injEq, lastUser] at endUser
  have noCursors := boundaryVersion_v1 names.version
  exact ⟨by rw [whole.version, names.version], startUser.symm, endUser.symm, by rw [whole.noStart, noCursors.1],
    by rw [whole.noEnd, noCursors.2]⟩

/-- The message that a cursor names. -/
theorem uniqueSourceIndexes_id {history : CanonicalHistory numbers} (distinct : Distinct history) {id : JsString}
    {sourceIndex : Nat} (found : (uniqueSourceIndexes history.messages).lookup id = some (some sourceIndex)) :
    ∃ source, history.messages[sourceIndex]? = some source ∧ source.message.id = id := by
  have isKey : id ∈ uniqueSourceIndexes history.messages := AList.lookup_isSome.mp (by rw [found]; rfl)
  rw [mem_uniqueSourceIndexes, List.mem_map] at isKey
  obtain ⟨source, inside, rfl⟩ := isKey
  rw [uniqueSourceIndexes_lookup distinct.ids inside, Option.some.injEq, Option.some.injEq] at found
  obtain ⟨place, atPlace⟩ := List.getElem?_of_mem inside
  rw [← found, distinct.placed place source atPlace]
  exact ⟨source, atPlace, rfl⟩

/-- The sources between the cursors of a boundary become a segment with its cursors. -/
theorem Anchored.span {history : CanonicalHistory numbers} (distinct : Distinct history) {turn : CompleteTurn numbers}
    {indexed : IndexedV2Boundary} (anchored : Anchored history turn indexed) {segment : ReflectionSegment}
    (made : CutsOut turn (turn.messages.extract indexed.startOffset (indexed.endOffset + 1)) segment) :
    SameSpan segment indexed.boundary := by
  obtain ⟨closed, projectionVersion, isMade⟩ := made
  have exact := makeV2Segment_exact isMade
  obtain ⟨sameUsers, startSource, endSource, isStart, isEnd⟩ := boundaryVersion_v2 anchored.version
  have inTurn : (turn.messages.extract indexed.startOffset (indexed.endOffset + 1)).Sublist turn.messages := by
    rw [List.extract_eq_take_drop]
    exact (List.take_sublist _ _).trans (List.drop_sublist _ _)
  obtain ⟨start, finish⟩ := exact.cursors ((distinct.toCanonical.turn_inOrder anchored.isTurn).sublist inTurn)
  have offsets := anchored.offsets
  obtain ⟨first, atFirst, firstIndex⟩ := anchored.start_found
  obtain ⟨last, atLast, lastIndex⟩ := anchored.end_found
  have within := (List.getElem?_eq_some_iff.mp atLast).1
  have named : ∀ {source : IndexedMessage numbers} {sourceIndex : Nat} {id : JsString}, source ∈ turn.messages →
      source.sourceIndex = sourceIndex →
        (uniqueSourceIndexes history.messages).lookup id = some (some sourceIndex) → source.message.id = id := by
    intro source sourceIndex id inside index found
    obtain ⟨other, atOther, otherId⟩ := uniqueSourceIndexes_id distinct found
    have isSource := (distinct.toCanonical.turn_sublist anchored.isTurn).subset inside
    obtain ⟨place, atPlace⟩ := List.getElem?_of_mem isSource
    rw [distinct.placed place source atPlace] at index
    rw [← index, atPlace] at atOther
    rw [← otherId, Option.some.inj atOther]
  have isFirst : (turn.messages.extract indexed.startOffset (indexed.endOffset + 1)).head? = some first := by
    rw [List.head?_eq_getElem?, getElem?_extract, if_pos (by omega), Nat.add_zero, atFirst]
  have length : (turn.messages.extract indexed.startOffset (indexed.endOffset + 1)).length =
      indexed.endOffset + 1 - indexed.startOffset := by
    rw [List.extract_eq_take_drop, List.length_take, List.length_drop]
    omega
  have isLast : (turn.messages.extract indexed.startOffset (indexed.endOffset + 1)).getLast? = some last := by
    rw [List.getLast?_eq_getElem?, length, getElem?_extract, if_pos (by omega),
      show indexed.startOffset + (indexed.endOffset + 1 - indexed.startOffset - 1) = indexed.endOffset by omega, atLast]
  have startFound := anchored.start
  have endFound := anchored.finish
  rw [isStart, Option.getD_some] at startFound
  rw [isEnd, Option.getD_some] at endFound
  rw [isFirst, Option.map_some, named (List.mem_of_getElem? atFirst) firstIndex startFound] at start
  rw [isLast, Option.map_some, named (List.mem_of_getElem? atLast) lastIndex endFound] at finish
  exact ⟨by rw [exact.version, anchored.version], by rw [exact.startUser, anchored.user],
    by rw [exact.endUser, anchored.user, sameUsers], by rw [start, isStart], by rw [finish, isEnd]⟩

theorem undisputed_kept {localeCompare : JsString → JsString → Ordering} {messages : List (OpenCodeMessage numbers)}
    (distinct : (messages.map OpenCodeMessage.id).Nodup) {maxChars : Nat}
    {boundaries : List CommittedSegmentBoundary} {segments : List ReflectionSegment}
    (segmented : segmentMessages localeCompare messages maxChars boundaries = .ok segments)
    {boundary : CommittedSegmentBoundary} (inside : boundary ∈ boundaries) {place : Place}
    (found : placeOf (canonicalHistory messages) boundary = some place)
    (undisputed : Undisputed (canonicalHistory messages) boundaries place) :
    ∃ segment ∈ segments, SameSpan segment boundary := by
  have history := distinct_history distinct
  unfold segmentMessages at segmented
  split at segmented
  · cases segmented
  · obtain ⟨plan, planned, run⟩ := except_bind_ok segmented
    have sound := turnPlan_sound planned
    rcases placeOf_eq_some found with ⟨indexed, isIndexed, rfl⟩ | ⟨indexed, isIndexed, rfl⟩
    · obtain ⟨same, names⟩ := indexV1Boundary_names isIndexed
      obtain ⟨selected, isSelected, start, finish⟩ :=
        undisputed_turns_selected planned inside isIndexed undisputed
      obtain ⟨segment, isSegment, closed, projectionVersion, made⟩ :=
        segmentTurns_keepsV1 sound (Nat.le_add_left _ _) run isSelected (Nat.zero_le _)
      rw [start, finish] at made
      exact ⟨segment, isSegment, same ▸ names.span made⟩
    · obtain ⟨same, turn, anchored⟩ := resolveV2Boundary_anchored isIndexed
      obtain ⟨notFrozen, selected, isSelected, start, finish⟩ :=
        undisputed_sources_selected planned inside isIndexed undisputed
      obtain ⟨owner, alsoAnchored⟩ := sound.v2 selected isSelected
      obtain ⟨sameTurn, startOffset, endOffset⟩ :=
        alsoAnchored.place_eq history.toCanonical anchored start finish
      have owned : owner = turn := history.toCanonical.turn_unique alsoAnchored.isTurn anchored.isTurn
        (by rw [← alsoAnchored.number, sameTurn, anchored.number])
      subst owned
      obtain ⟨segment, isSegment, made⟩ := segmentTurns_keepsV2 history.toCanonical sound (Nat.le_add_left _ _) run
        isSelected (by rw [sameTurn]; exact notFrozen) (Nat.zero_le _) alsoAnchored
      rw [startOffset, endOffset] at made
      exact ⟨segment, isSegment, same ▸ anchored.span history made⟩

/-- A committed boundary that is found in the history, and that nothing keeps out, is the span of a segment. -/
theorem undisputed_boundary_kept (localeCompare : JsString → JsString → Ordering)
    (messages : List (OpenCodeMessage numbers)) (distinct : (messages.map OpenCodeMessage.id).Nodup) (maxChars : Nat)
    (boundaries : List CommittedSegmentBoundary) (segments : List ReflectionSegment)
    (segmented : segmentMessages localeCompare messages maxChars boundaries = .ok segments)
    (boundary : CommittedSegmentBoundary) (inside : boundary ∈ boundaries) (place : Place)
    (found : placeOf (canonicalHistory messages) boundary = some place)
    (undisputed : Undisputed (canonicalHistory messages) boundaries place) :
    ∃ segment ∈ segments, SameSpan segment boundary :=
  undisputed_kept distinct segmented inside found undisputed

theorem undisputed_boundary_kept_sample : ∃ segments,
    segmentMessages (fun _ _ => .eq) sampleHistory 5 [turnBoundary [5] none] = .ok segments ∧
      ∃ segment ∈ segments, SameSpan segment (turnBoundary [5] none) := by
  have distinct : (sampleHistory.map OpenCodeMessage.id).Nodup := by decide
  have planned : ∃ plan, turnPlan (fun _ _ => .eq) (canonicalHistory sampleHistory) [turnBoundary [5] none] = .ok plan ∧
      plan.resolvedV2 = [] := ⟨_, rfl, rfl⟩
  obtain ⟨plan, isPlan, noExact⟩ := planned
  have returned : ∃ segments, segmentMessages (fun _ _ => .eq) sampleHistory 5 [turnBoundary [5] none] = .ok segments := by
    rcases segmentMessages_outcome distinct (show 5 ≠ 0 by decide) isPlan with ⟨value, _⟩ | ⟨_, broken⟩
    · exact value
    · refine absurd (fun turn _ _ _ anchors => ?_) broken
      obtain ⟨indexed, inside⟩ := List.exists_mem_of_ne_nil _ anchors
      have isResolved := (turnPlan_sound isPlan).resolved indexed (v2At_mem inside).1
      rw [noExact] at isResolved
      cases isResolved
  obtain ⟨segments, segmented⟩ := returned
  refine ⟨segments, segmented, undisputed_boundary_kept (fun _ _ => .eq) sampleHistory distinct 5 _ segments segmented _
    List.mem_cons_self (.turns 0 0) rfl fun other inside place isPlace different => ?_⟩
  rw [List.mem_singleton.mp inside] at isPlace
  exact absurd (Option.some.inj isPlace).symm different

end Reflection.Segments
