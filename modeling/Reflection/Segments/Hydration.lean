/-
Reading a segment back by its boundary.

A segment of whole turns is found by its users, and an exact one by its cursors, since the range it
was cut from stands in one piece in the source. A cursor that is blank is refused, so a message whose
id is blank cannot end an exact segment that is to be read again.
-/

import Reflection.Segments.Partition

namespace Reflection.Segments

open JsString

variable {numbers : Numbers}

/-! ### The boundary of a segment -/

def BoundaryVersion.number : BoundaryVersion → Int
  | .v1 => 1
  | .v2 => 2

/-- A segment as a committed boundary, under any id and eligibility. -/
def boundaryOf (segment : ReflectionSegment) (id : Option JsString) (sourceEligible : Option Bool) :
    CommittedSegmentBoundary :=
  { id := id
    startUserMessageId := segment.startUserMessageId
    endUserMessageId := segment.endUserMessageId
    sourceBoundaryVersion := some segment.sourceBoundaryVersion.number
    startSourceMessageId := segment.startSourceMessageId
    endSourceMessageId := segment.endSourceMessageId
    projectionVersion := segment.projectionVersion.map Int.ofNat
    sourceEligible := sourceEligible }

def hasBlankCursor (segment : ReflectionSegment) : Bool :=
  segment.startSourceMessageId.any isBlank || segment.endSourceMessageId.any isBlank

theorem WholeSegment.boundaryVersion_eq {covered : List (CompleteTurn numbers)} {closed : Bool}
    {projectionVersion : Option Int} {segment : ReflectionSegment}
    (whole : WholeSegment covered closed projectionVersion segment) (id : Option JsString)
    (sourceEligible : Option Bool) :
    hasBlankCursor segment = false ∧ boundaryVersion (boundaryOf segment id sourceEligible) = .ok .v1 := by
  simp [hasBlankCursor, boundaryVersion, boundaryOf, whole.version, whole.noStart, whole.noEnd,
    BoundaryVersion.number]

theorem ExactSegment.boundaryVersion_eq {turn : CompleteTurn numbers} {range : List (IndexedMessage numbers)}
    {closed : Bool} {projectionVersion : Option Int} {segment : ReflectionSegment}
    (exact : ExactSegment turn range closed projectionVersion segment) (id : Option JsString)
    (sourceEligible : Option Bool) :
    boundaryVersion (boundaryOf segment id sourceEligible) =
      if hasBlankCursor segment then .error .v2Cursors else .ok .v2 := by
  have nonempty : orderedSourceMessages range ≠ [] := by
    intro empty
    have same := orderedSourceMessages_perm range
    rw [empty] at same
    exact exact.nonempty same.nil_eq.symm
  obtain ⟨first, isFirst⟩ := Option.isSome_iff_exists.mp (List.isSome_head?.mpr nonempty)
  obtain ⟨last, isLast⟩ := Option.isSome_iff_exists.mp (List.getLast?_isSome.mpr nonempty)
  have start := exact.start
  have finish := exact.finish
  rw [isFirst, Option.map_some] at start
  rw [isLast, Option.map_some] at finish
  unfold boundaryVersion boundaryOf hasBlankCursor
  dsimp only
  rw [exact.version, start, finish, exact.startUser, exact.endUser]
  simp [BoundaryVersion.number]

/-! ### Exact boundaries -/

theorem mem_uniqueSourceIndexes {sources : List (IndexedMessage numbers)} {id : JsString} :
    id ∈ uniqueSourceIndexes sources ↔ id ∈ sources.map fun source => source.message.id := by
  induction sources using List.reverseRecOn with
  | nil => simp [uniqueSourceIndexes]
  | append_singleton sources source ih =>
      unfold uniqueSourceIndexes at ih ⊢
      rw [List.foldl_append, List.foldl_cons, List.foldl_nil, AList.mem_insert, ih, List.map_append,
        List.mem_append, List.map_singleton, List.mem_singleton, or_comm]

theorem uniqueSourceIndexes_lookup {sources : List (IndexedMessage numbers)}
    (distinct : (sources.map fun source => source.message.id).Nodup) {source : IndexedMessage numbers}
    (inside : source ∈ sources) :
    (uniqueSourceIndexes sources).lookup source.message.id = some (some source.sourceIndex) := by
  induction sources using List.reverseRecOn with
  | nil => cases inside
  | append_singleton sources last ih =>
      rw [List.map_append, List.map_singleton, List.nodup_append] at distinct
      have grown : uniqueSourceIndexes (sources ++ [last]) = (uniqueSourceIndexes sources).insert
          last.message.id (if last.message.id ∈ uniqueSourceIndexes sources then none
            else some last.sourceIndex) := by
        unfold uniqueSourceIndexes
        rw [List.foldl_append]
        rfl
      have fresh : last.message.id ∉ sources.map fun source => source.message.id := fun present =>
        distinct.2.2 _ present _ (List.mem_singleton.mpr rfl) rfl
      rw [grown]
      rcases List.mem_append.mp inside with before | atEnd
      · have other : source.message.id ≠ last.message.id := fun same =>
          fresh (same ▸ List.mem_map.mpr ⟨source, before, rfl⟩)
        rw [AList.lookup_insert_ne other]
        exact ih distinct.1 before
      · rw [List.mem_singleton.mp atEnd, AList.lookup_insert, if_neg (mt mem_uniqueSourceIndexes.mp fresh)]

/-- The cursors of a range that was cut from a contiguous turn. -/
def anchorOf (boundary : CommittedSegmentBoundary) (turn : CompleteTurn numbers)
    (first before length : Nat) : IndexedV2Boundary :=
  { boundary := boundary
    turnIndex := turn.index
    startIndex := first + before
    endIndex := first + before + (length - 1)
    startOffset := before
    endOffset := before + (length - 1) }

theorem findIdx?_sourceIndex {turn : CompleteTurn numbers} {first : Nat}
    (follows : ∀ (place : Nat) (source : IndexedMessage numbers), turn.messages[place]? = some source →
      source.sourceIndex = first + place) {place : Nat} (within : place < turn.messages.length) :
    turn.messages.findIdx? (fun source => source.sourceIndex == first + place) = some place := by
  rw [List.findIdx?_eq_some_iff_getElem]
  refine ⟨within, ?_, ?_⟩
  · simpa using follows place _ (List.getElem?_eq_getElem within)
  · intro earlier before
    have number := follows earlier _ (List.getElem?_eq_getElem (before.trans within))
    simp only [number, beq_iff_eq]
    omega

/-- The slice between the cursors is the range. -/
theorem Canonical.range_slice {history : CanonicalHistory numbers} (canonical : Canonical history)
    {turn : CompleteTurn numbers} (isTurn : turn ∈ history.turns) {first : Nat}
    (follows : ∀ (place : Nat) (source : IndexedMessage numbers), turn.messages[place]? = some source →
      source.sourceIndex = first + place)
    {before range after : List (IndexedMessage numbers)} (split : turn.messages = before ++ (range ++ after)) :
    history.messages.extract (first + before.length) (first + before.length + range.length) = range := by
  have slice := canonical.contiguous_slice isTurn follows
  apply List.ext_getElem?
  intro place
  rw [getElem?_extract]
  have lengths : turn.messages.length = before.length + (range.length + after.length) := by
    rw [split, List.length_append, List.length_append]
  have atTurn : turn.messages[before.length + place]? = (range ++ after)[place]? := by
    rw [split, List.getElem?_append_right (by omega), Nat.add_sub_cancel_left]
  by_cases inside : place < range.length
  · rw [slice, getElem?_extract, if_pos (by omega), List.getElem?_append_left inside] at atTurn
    rw [if_pos (by omega), ← atTurn, Nat.add_assoc]
  · rw [if_neg (by omega), List.getElem?_eq_none (Nat.le_of_not_lt inside)]

theorem resolveV2Boundary_exact {history : CanonicalHistory numbers} (distinct : Distinct history)
    {turn : CompleteTurn numbers} (isTurn : turn ∈ history.turns) {first : Nat}
    (follows : ∀ (place : Nat) (source : IndexedMessage numbers), turn.messages[place]? = some source →
      source.sourceIndex = first + place)
    {before range after : List (IndexedMessage numbers)} (split : turn.messages = before ++ (range ++ after))
    (nonempty : range ≠ []) {boundary : CommittedSegmentBoundary} (version : boundaryVersion boundary = .ok .v2)
    (user : boundary.startUserMessageId = turn.userMessageId)
    (start : boundary.startSourceMessageId = range.head?.map fun source => source.message.id)
    (finish : boundary.endSourceMessageId = range.getLast?.map fun source => source.message.id) :
    resolveV2Boundary history boundary =
      .ok (some (anchorOf boundary turn first before.length range.length)) := by
  have positive := List.length_pos_of_ne_nil nonempty
  have lengths : turn.messages.length = before.length + (range.length + after.length) := by
    rw [split, List.length_append, List.length_append]
  -- The first and the last message of the range, and where they stand.
  have atPlace : ∀ place, place < range.length →
      ∃ source, range[place]? = some source ∧ source ∈ history.messages ∧
        source.sourceIndex = first + before.length + place := by
    intro place within
    have found := List.getElem?_eq_getElem within
    have atTurn : turn.messages[before.length + place]? = some range[place] := by
      rw [split, List.getElem?_append_right (by omega), Nat.add_sub_cancel_left,
        List.getElem?_append_left within, found]
    refine ⟨_, found, (distinct.toCanonical.turn_sublist isTurn).subset (List.mem_of_getElem? atTurn), ?_⟩
    rw [follows _ _ atTurn, Nat.add_assoc]
  obtain ⟨head, isHead, headInside, headIndex⟩ := atPlace 0 positive
  obtain ⟨last, isLast, lastInside, lastIndex⟩ := atPlace (range.length - 1) (by omega)
  rw [← List.head?_eq_getElem?] at isHead
  rw [← List.getLast?_eq_getElem?] at isLast
  rw [isHead, Option.map_some] at start
  rw [isLast, Option.map_some] at finish
  have isOwner : (ofEntries (history.turns.map fun turn => (turn.userMessageId, turn))).lookup
      boundary.startUserMessageId = some turn := by
    rw [user]
    apply lookup_ofEntries
    · rw [List.map_map]
      exact distinct.users
    · exact List.mem_map.mpr ⟨turn, isTurn, rfl⟩
  rw [Nat.add_zero] at headIndex
  have startIndex := uniqueSourceIndexes_lookup distinct.ids headInside
  have endIndex := uniqueSourceIndexes_lookup distinct.ids lastInside
  rw [headIndex] at startIndex
  rw [lastIndex] at endIndex
  have slice := distinct.toCanonical.range_slice isTurn follows split
  have finished : first + before.length + (range.length - 1) + 1 = first + before.length + range.length := by
    omega
  have inTurn : (range.isEmpty || range.any fun source => source.turnIndex != turn.index) = false := by
    rw [Bool.or_eq_false_iff, List.isEmpty_eq_false_iff, List.any_eq_false]
    refine ⟨nonempty, fun source inside => ?_⟩
    have owned : source ∈ turn.messages := by
      rw [split]
      exact List.mem_append_right _ (List.mem_append_left _ inside)
    simpa using ((distinct.toCanonical.mem_turn isTurn).mp owned).2
  have startAt := findIdx?_sourceIndex follows (show before.length < turn.messages.length by omega)
  have endAt := findIdx?_sourceIndex follows
    (show before.length + (range.length - 1) < turn.messages.length by omega)
  rw [← Nat.add_assoc] at endAt
  unfold resolveV2Boundary
  rw [version, except_ok_bind]
  dsimp only
  rw [isOwner, start, finish, Option.getD_some, Option.getD_some, startIndex, endIndex]
  dsimp only
  rw [if_neg (by omega), finished, slice, inTurn, if_neg Bool.false_ne_true, startAt, endAt]
  dsimp only
  rw [if_neg (by omega)]
  rfl

/-! ### Boundaries of whole turns -/

/-- The turns that a segment covers stand between the places of its users. -/
theorem WholeSegment.places {history : CanonicalHistory numbers} (distinct : Distinct history)
    {before covered after : List (CompleteTurn numbers)} (split : history.turns = before ++ (covered ++ after))
    {closed : Bool} {projectionVersion : Option Int} {segment : ReflectionSegment}
    (whole : WholeSegment covered closed projectionVersion segment) :
    0 < covered.length ∧
      (userIndexes history.turns).lookup segment.startUserMessageId = some before.length ∧
        (userIndexes history.turns).lookup segment.endUserMessageId =
            some (before.length + (covered.length - 1)) ∧
          history.turns.extract before.length (before.length + covered.length) = covered := by
  obtain ⟨first, isFirst, firstUser⟩ := Option.map_eq_some_iff.mp whole.startUser
  obtain ⟨last, isLast, lastUser⟩ := Option.map_eq_some_iff.mp whole.endUser
  have positive : 0 < covered.length := by
    apply List.length_pos_of_ne_nil
    intro empty
    rw [empty] at isFirst
    cases isFirst
  have atPlace : ∀ place, place < covered.length →
      history.turns[before.length + place]? = covered[place]? := by
    intro place within
    rw [split, List.getElem?_append_right (by omega), Nat.add_sub_cancel_left,
      List.getElem?_append_left within]
  rw [List.head?_eq_getElem?, ← atPlace 0 positive] at isFirst
  rw [List.getLast?_eq_getElem?, ← atPlace (covered.length - 1) (by omega)] at isLast
  refine ⟨positive, ?_, ?_, ?_⟩
  · rw [← firstUser]
    exact userIndexes_lookup distinct.users isFirst
  · rw [← lastUser]
    exact userIndexes_lookup distinct.users isLast
  · apply List.ext_getElem?
    intro place
    rw [getElem?_extract]
    by_cases inside : place < covered.length
    · rw [if_pos (by omega), atPlace place inside]
    · rw [if_neg (by omega), List.getElem?_eq_none (Nat.le_of_not_lt inside)]

/-! ### Reading back -/

theorem ExactSegment.cursors {turn : CompleteTurn numbers} {range : List (IndexedMessage numbers)} {closed : Bool}
    {projectionVersion : Option Int} {segment : ReflectionSegment}
    (exact : ExactSegment turn range closed projectionVersion segment) (inOrder : InOrder range) :
    segment.startSourceMessageId = range.head?.map (fun source => source.message.id) ∧
      segment.endSourceMessageId = range.getLast?.map fun source => source.message.id := by
  have ordered := orderedSourceMessages_eq inOrder (List.Perm.refl range)
  have start := exact.start
  have finish := exact.finish
  rw [ordered] at start finish
  exact ⟨start, finish⟩

/-- A segment is read back as it was submitted, unless one of its cursors is blank. -/
theorem readSegmentMessages_segment (localeCompare : JsString → JsString → Ordering)
    (messages : List (OpenCodeMessage numbers)) (maxChars : Nat) (boundaries : List CommittedSegmentBoundary)
    (segments : List ReflectionSegment) (distinct : (messages.map OpenCodeMessage.id).Nodup)
    (segmented : segmentMessages localeCompare messages maxChars boundaries = .ok segments) :
    ∀ segment ∈ segments, ∀ id sourceEligible,
      readSegmentMessages messages (boundaryOf segment id sourceEligible) =
        if hasBlankCursor segment then .error .v2Cursors else .ok segment.messages := by
  intro segment inside id sourceEligible
  have history := distinct_history distinct
  rcases (segmentMessages_cut segmented).mem inside with ⟨before, covered, after, closed, version, turns, whole⟩ |
    ⟨turn, isTurn, ⟨first, follows⟩, before, range, after, closed, version, split, exact⟩
  · obtain ⟨notBlank, isV1⟩ := whole.boundaryVersion_eq id sourceEligible
    obtain ⟨positive, start, finish, extracted⟩ := whole.places history turns
    have finished : before.length + (covered.length - 1) + 1 = before.length + covered.length := by omega
    unfold readSegmentMessages
    dsimp only
    rw [isV1, except_ok_bind, notBlank, if_neg Bool.false_ne_true]
    dsimp only [boundaryOf]
    rw [start, finish]
    dsimp only
    rw [if_neg (by omega), finished, extracted, whole.messages]
  · have isExact := exact.boundaryVersion_eq id sourceEligible
    unfold readSegmentMessages
    dsimp only
    rw [isExact]
    split
    · rfl
    · rename_i notBlank
      rw [if_neg notBlank] at isExact
      have inTurn : range.Sublist turn.messages := by
        rw [split]
        exact (List.sublist_append_left _ _).trans (List.sublist_append_right _ _)
      have inOrder : InOrder range :=
        history.toCanonical.inOrder.sublist (inTurn.trans (history.toCanonical.turn_sublist isTurn))
      obtain ⟨start, finish⟩ := exact.cursors inOrder
      have resolved := resolveV2Boundary_exact history isTurn follows split exact.nonempty isExact
        exact.startUser start finish
      have positive := List.length_pos_of_ne_nil exact.nonempty
      have finished : first + before.length + (range.length - 1) + 1 =
          first + before.length + range.length := by omega
      rw [except_ok_bind, resolved, except_ok_bind]
      dsimp only [anchorOf]
      rw [finished, history.toCanonical.range_slice isTurn follows split, exact.messages]

/-! ### Samples -/

theorem readSegmentMessages_segment_sample : ∃ segments,
    segmentMessages (fun _ _ => .eq) sampleHistory 5 [] = .ok segments ∧ segments.length = 2 ∧
      ∀ segment ∈ segments, ∀ id sourceEligible,
        readSegmentMessages sampleHistory (boundaryOf segment id sourceEligible) =
          if hasBlankCursor segment then .error .v2Cursors else .ok segment.messages := by
  have segmented := segmentMessages_uncommitted (fun _ _ => .eq) sampleHistory (show 5 ≠ 0 by decide)
  have returned : ∃ segments, segmentTurns (canonicalHistory sampleHistory).turns uncommittedPlan 5
      (canonicalHistory sampleHistory).turns.length 0 [] = .ok segments ∧ segments.length = 2 :=
    ⟨_, rfl, rfl⟩
  obtain ⟨segments, isSegments, two⟩ := returned
  rw [isSegments] at segmented
  exact ⟨segments, segmented, two,
    readSegmentMessages_segment (fun _ _ => .eq) sampleHistory 5 [] segments (by decide) segmented⟩

/-- Where there is no legal cut, the range stays in one piece. -/
theorem fragmentScan_uncut {Message : Type} {isLegal : Message → Bool} {messages : List Message}
    (uncut : ∀ message ∈ messages, isLegal message = false) (weights : List ℕ∞) (maxChars : Nat)
    (forceClosed : Bool) {start index : Nat} (forward : start ≤ index) (inside : start < messages.length) :
    Fragments.fragmentScan isLegal messages weights maxChars forceClosed start index (-1) forward =
      [(messages.drop start, forceClosed)] := by
  suffices general : ∀ left index (forward : start ≤ index), messages.length ≤ index + left →
      Fragments.fragmentScan isLegal messages weights maxChars forceClosed start index (-1) forward =
        [(messages.drop start, forceClosed)] by
    exact general messages.length index forward (by omega)
  intro left
  induction left with
  | zero =>
      intro index forward atEnd
      rw [Fragments.fragmentScan.eq_def, dif_neg (by omega), if_pos inside]
  | succ left ih =>
      intro index forward atEnd
      rw [Fragments.fragmentScan.eq_def]
      by_cases within : index < messages.length
      · have notLegal := uncut messages[index] (List.getElem_mem within)
        rw [dif_pos within]
        dsimp only
        rw [dif_neg (by omega), if_neg (by simp [notLegal])]
        simp only [notLegal, Bool.false_eq_true, if_false]
        exact ih (index + 1) (by omega) (by omega)
      · rw [dif_neg within, if_pos inside]

/-- A user with a blank id, who is too heavy for the limit of two characters. -/
def blankUser : OpenCodeMessage digitNumbers :=
  { sampleUser [0x20] with
    parts :=
      [{ body := .text (some [7, 7])
         synthetic := none
         ignored := none
         metadata := none },
       { body := .text (some [7])
         synthetic := none
         ignored := none
         metadata := none }] }

def blankTurn : CompleteTurn digitNumbers :=
  { index := 0
    userMessageId := [0x20]
    charCount := 3
    closed := false
    messages :=
      [{ index := 0
         sourceIndex := 0
         turnIndex := 0
         message := blankUser }] }

theorem fragmentTurn_blank : fragmentTurn blankTurn [] 2 =
    (makeV2Segment blankTurn blankTurn.messages false none).map fun segment => [segment] := by
  have uncut : Fragments.fragmentSourceRange isLegalActiveTurnCut sourceWeight blankTurn.messages 2 false =
      [(blankTurn.messages, false)] :=
    fragmentScan_uncut (fun message inside => by rw [List.mem_singleton.mp inside]; rfl) _ 2 false le_rfl
      (by decide)
  have whole : fragmentTurn blankTurn [] 2 = fragmentSourceRange blankTurn blankTurn.messages 2 false := rfl
  rw [whole, fragmentSourceRange, uncut]
  rfl

theorem blank_id_not_read_back : ([blankUser].map OpenCodeMessage.id).Nodup ∧ ∃ segments,
    segmentMessages (fun _ _ => .eq) [blankUser] 2 [] = .ok segments ∧ ∃ segment ∈ segments,
      readSegmentMessages [blankUser] (boundaryOf segment none none) ≠ .ok segment.messages := by
  have segmented := segmentMessages_uncommitted (fun _ _ => .eq) [blankUser] (show 2 ≠ 0 by decide)
  have fragmented : segmentTurns (canonicalHistory [blankUser]).turns uncommittedPlan 2
      (canonicalHistory [blankUser]).turns.length 0 [] = (do
        let fragments ← fragmentTurn blankTurn [] 2
        .ok (fragments ++ [])) := rfl
  rw [fragmented, fragmentTurn_blank] at segmented
  refine ⟨by decide, _, segmented, _, List.mem_cons_self, ?_⟩
  intro same
  cases same

end Reflection.Segments
