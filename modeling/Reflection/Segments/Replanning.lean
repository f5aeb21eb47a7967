/-
Planning again with what was planned.

The boundaries of a segmentation lie apart, since no two of its segments share a message. So every one
of them is selected again, no exact one is frozen, no gap is left between them, and the second plan
consists of the same segments. Only their state may differ: a segment that was closed by force is open
again where its last turn is.
-/

import Reflection.Segments.Availability

namespace Reflection.Segments

open IntervalSelection

variable {numbers : Numbers}

/-! ### Segments made again -/

/-- A segment but for its state. -/
def unclosed (segment : ReflectionSegment) : ReflectionSegment := { segment with closed := false }

theorem upgradedProjection_again (projectionVersion : Option Int) (usedToolFallback : Bool) :
    upgradedProjection ((upgradedProjection projectionVersion usedToolFallback).map Int.ofNat) usedToolFallback =
      upgradedProjection projectionVersion usedToolFallback := by
  unfold upgradedProjection
  by_cases upgraded : (decide (2 ≤ projectionVersion.getD 1) || usedToolFallback) = true
  · rw [if_pos upgraded]
    rfl
  · rw [if_neg upgraded]
    rw [Bool.or_eq_true, not_or] at upgraded
    simp [upgraded.2]

theorem makeV1Segment_again {covered : List (CompleteTurn numbers)} {closed : Bool}
    {projectionVersion : Option Int} {segment : ReflectionSegment}
    (made : makeV1Segment covered closed projectionVersion = .ok segment) (state : Bool) :
    makeV1Segment covered state (segment.projectionVersion.map Int.ofNat) =
      .ok { segment with closed := state } := by
  unfold makeV1Segment at made ⊢
  split at made
  · rename_i firstTurn lastTurn isFirst isLast
    dsimp only at made
    split at made
    · rename_i first last isFirstSource isLastSource
      cases made
      dsimp only
      rw [isFirstSource, isLastSource]
      dsimp only
      rw [upgradedProjection_again]
    · cases made
  · cases made

theorem makeV2Segment_again {turn : CompleteTurn numbers} {range : List (IndexedMessage numbers)} {closed : Bool}
    {projectionVersion : Option Int} {segment : ReflectionSegment}
    (made : makeV2Segment turn range closed projectionVersion = .ok segment) (state : Bool) :
    makeV2Segment turn range state (segment.projectionVersion.map Int.ofNat) =
      .ok { segment with closed := state } := by
  unfold makeV2Segment at made ⊢
  dsimp only at made ⊢
  split at made
  · cases made
    dsimp only
    rw [upgradedProjection_again]
  · cases made

/-! ### Segments lie apart -/

section Apart

variable {history : CanonicalHistory numbers} (distinct : Distinct history) {segments : List ReflectionSegment}
  (cut : CutInto history.turns segments)

include distinct cut in
/-- Two segments that share a message are one. -/
theorem CutInto.segment_unique {one other : ReflectionSegment} (inside : one ∈ segments)
    (alsoInside : other ∈ segments) {id : JsString} (inOne : id ∈ one.sourceMessageIds)
    (inOther : id ∈ other.sourceMessageIds) : one = other := by
  have perm := cut.ids_perm.trans (distinct.toCanonical.turns_perm.map fun source => source.message.id)
  have nodup := perm.nodup_iff.mpr distinct.ids
  rw [List.nodup_flatMap] at nodup
  by_contra different
  have symm : Std.Symm (Function.onFun List.Disjoint ReflectionSegment.sourceMessageIds) :=
    ⟨fun _ _ disjoint => disjoint.symm⟩
  exact nodup.2.forall inside alsoInside different inOne inOther

/-- The messages of covered turns are in their segment. -/
theorem WholeSegment.covers {before covered after : List (CompleteTurn numbers)}
    (split : history.turns = before ++ (covered ++ after)) {closed : Bool} {projectionVersion : Option Int}
    {segment : ReflectionSegment} (whole : WholeSegment covered closed projectionVersion segment) {place : Nat}
    (start : before.length ≤ place) (finish : place < before.length + covered.length)
    {turn : CompleteTurn numbers} (atPlace : history.turns[place]? = some turn)
    {source : IndexedMessage numbers} (inside : source ∈ turn.messages) :
    source.message.id ∈ segment.sourceMessageIds := by
  rw [split, List.getElem?_append_right start, List.getElem?_append_left (by omega)] at atPlace
  rw [whole.ids]
  refine List.mem_map.mpr ⟨source, (orderedSourceMessages_perm _).symm.subset ?_, rfl⟩
  exact List.mem_flatMap.mpr ⟨turn, List.mem_of_getElem? atPlace, inside⟩

theorem ExactSegment.covers {turn : CompleteTurn numbers} {range : List (IndexedMessage numbers)} {closed : Bool}
    {projectionVersion : Option Int} {segment : ReflectionSegment}
    (exact : ExactSegment turn range closed projectionVersion segment) {source : IndexedMessage numbers}
    (inside : source ∈ range) : source.message.id ∈ segment.sourceMessageIds := by
  rw [exact.ids]
  exact List.mem_map.mpr ⟨source, (orderedSourceMessages_perm range).symm.subset inside, rfl⟩

end Apart

/-! ### The boundaries of a segmentation -/

/-- The boundary of a segment, under the id and the eligibility that its row got. -/
def committed (ids : ReflectionSegment → Option JsString) (eligible : ReflectionSegment → Option Bool)
    (segment : ReflectionSegment) : CommittedSegmentBoundary :=
  boundaryOf segment (ids segment) (eligible segment)

section Fed

variable {history : CanonicalHistory numbers} (distinct : Distinct history) {segments : List ReflectionSegment}
  (cut : CutInto history.turns segments) (ids : ReflectionSegment → Option JsString)
  (eligible : ReflectionSegment → Option Bool)

/-- The range of turns of a segment that covers them. -/
def rangeOf (boundary : CommittedSegmentBoundary) (before length : Nat) : IndexedV1Boundary :=
  { boundary := boundary
    startIndex := before
    endIndex := before + (length - 1) }

include distinct in
theorem WholeSegment.indexed {before covered after : List (CompleteTurn numbers)}
    (split : history.turns = before ++ (covered ++ after)) {closed : Bool} {projectionVersion : Option Int}
    {segment : ReflectionSegment} (whole : WholeSegment covered closed projectionVersion segment) :
    indexV1Boundary (userIndexes history.turns) (committed ids eligible segment) =
        .ok (some (rangeOf (committed ids eligible segment) before.length covered.length)) ∧
      resolveV2Boundary history (committed ids eligible segment) = .ok none := by
  obtain ⟨_, version⟩ := whole.boundaryVersion_eq (ids segment) (eligible segment)
  obtain ⟨_, start, finish, _⟩ := whole.places distinct split
  unfold committed
  constructor
  · unfold indexV1Boundary
    rw [version, except_ok_bind]
    dsimp only [boundaryOf]
    rw [start, finish]
    dsimp only
    rw [if_neg (by omega)]
    rfl
  · unfold resolveV2Boundary
    rw [version, except_ok_bind]

include distinct in
theorem ExactSegment.resolved {turn : CompleteTurn numbers} (isTurn : turn ∈ history.turns) {first : Nat}
    (follows : ∀ (place : Nat) (source : IndexedMessage numbers), turn.messages[place]? = some source →
      source.sourceIndex = first + place)
    {before range after : List (IndexedMessage numbers)} (split : turn.messages = before ++ (range ++ after))
    {closed : Bool} {projectionVersion : Option Int} {segment : ReflectionSegment}
    (exact : ExactSegment turn range closed projectionVersion segment) (notBlank : hasBlankCursor segment = false) :
    indexV1Boundary (userIndexes history.turns) (committed ids eligible segment) = .ok none ∧
      resolveV2Boundary history (committed ids eligible segment) =
        .ok (some (anchorOf (committed ids eligible segment) turn first before.length range.length)) := by
  have version := exact.boundaryVersion_eq (ids segment) (eligible segment)
  rw [notBlank, if_neg Bool.false_ne_true] at version
  have inTurn : range.Sublist turn.messages := by
    rw [split]
    exact (List.sublist_append_left _ _).trans (List.sublist_append_right _ _)
  obtain ⟨start, finish⟩ := exact.cursors ((distinct.toCanonical.turn_inOrder isTurn).sublist inTurn)
  constructor
  · unfold indexV1Boundary committed
    rw [version, except_ok_bind]
  · exact resolveV2Boundary_exact distinct isTurn follows split exact.nonempty version exact.startUser start finish

include distinct cut in
theorem CutInto.planned (localeCompare : JsString → JsString → Ordering)
    (notBlank : ∀ segment ∈ segments, hasBlankCursor segment = false) :
    ∃ plan, turnPlan localeCompare history (segments.map (committed ids eligible)) = .ok plan := by
  have each : ∀ boundary ∈ segments.map (committed ids eligible),
      (∃ indexed, indexV1Boundary (userIndexes history.turns) boundary = .ok indexed) ∧
        ∃ resolved, resolveV2Boundary history boundary = .ok resolved := by
    intro boundary inside
    obtain ⟨segment, isSegment, rfl⟩ := List.mem_map.mp inside
    rcases cut.mem isSegment with ⟨before, covered, after, closed, version, split, whole⟩ |
      ⟨turn, isTurn, ⟨first, follows⟩, before, range, after, closed, version, split, exact⟩
    · obtain ⟨indexed, resolved⟩ := whole.indexed distinct ids eligible split
      exact ⟨⟨_, indexed⟩, _, resolved⟩
    · obtain ⟨indexed, resolved⟩ := exact.resolved distinct ids eligible isTurn follows split
        (notBlank segment isSegment)
      exact ⟨⟨_, indexed⟩, _, resolved⟩
  obtain ⟨found, isFound⟩ := exists_mapM_ok.mpr fun boundary inside => (each boundary inside).1
  obtain ⟨results, areResults⟩ := exists_mapM_ok.mpr fun boundary inside => (each boundary inside).2
  unfold turnPlan reconcileV1Boundaries resolveV2Boundaries
  rw [isFound, areResults]
  exact ⟨_, rfl⟩

/-! ### Where the boundaries lie -/

include distinct cut in
theorem CutInto.indexed_whole {segment : ReflectionSegment} (inside : segment ∈ segments)
    {indexed : IndexedV1Boundary}
    (found : indexV1Boundary (userIndexes history.turns) (committed ids eligible segment) = .ok (some indexed)) :
    ∃ before covered after closed projectionVersion, history.turns = before ++ (covered ++ after) ∧
      WholeSegment covered closed projectionVersion segment ∧
        indexed = rangeOf (committed ids eligible segment) before.length covered.length := by
  rcases cut.mem inside with ⟨before, covered, after, closed, version, split, whole⟩ |
    ⟨turn, isTurn, ⟨first, follows⟩, before, range, after, closed, version, split, exact⟩
  · rw [(whole.indexed distinct ids eligible split).1] at found
    cases found
    exact ⟨before, covered, after, closed, version, split, whole, rfl⟩
  · cases blank : hasBlankCursor segment with
    | false =>
        rw [(exact.resolved distinct ids eligible isTurn follows split blank).1] at found
        cases found
    | true =>
        have refused := exact.boundaryVersion_eq (ids segment) (eligible segment)
        rw [blank, if_pos rfl] at refused
        rw [indexV1Boundary, committed, refused, except_error_bind] at found
        cases found

include distinct cut in
theorem CutInto.resolved_exact {segment : ReflectionSegment} (inside : segment ∈ segments)
    {indexed : IndexedV2Boundary}
    (found : resolveV2Boundary history (committed ids eligible segment) = .ok (some indexed)) :
    ∃ turn ∈ history.turns, ∃ first, (∀ (place : Nat) (source : IndexedMessage numbers),
        turn.messages[place]? = some source → source.sourceIndex = first + place) ∧
      ∃ before range after closed projectionVersion, turn.messages = before ++ (range ++ after) ∧
        ExactSegment turn range closed projectionVersion segment ∧
          indexed = anchorOf (committed ids eligible segment) turn first before.length range.length := by
  rcases cut.mem inside with ⟨before, covered, after, closed, version, split, whole⟩ |
    ⟨turn, isTurn, ⟨first, follows⟩, before, range, after, closed, version, split, exact⟩
  · rw [(whole.indexed distinct ids eligible split).2] at found
    cases found
  · cases blank : hasBlankCursor segment with
    | false =>
        rw [(exact.resolved distinct ids eligible isTurn follows split blank).2] at found
        cases found
        exact ⟨turn, isTurn, first, follows, before, range, after, closed, version, split, exact, rfl⟩
    | true =>
        have refused := exact.boundaryVersion_eq (ids segment) (eligible segment)
        rw [blank, if_pos rfl] at refused
        rw [resolveV2Boundary, committed, refused, except_error_bind] at found
        cases found

include distinct cut in
/-- The messages of every turn in the range of a segment are in the segment. -/
theorem CutInto.range_covers {segment : ReflectionSegment} (inside : segment ∈ segments)
    {indexed : IndexedV1Boundary}
    (found : indexV1Boundary (userIndexes history.turns) (committed ids eligible segment) = .ok (some indexed))
    {turn : CompleteTurn numbers} (isTurn : turn ∈ history.turns) (start : indexed.startIndex ≤ turn.index)
    (finish : turn.index ≤ indexed.endIndex) {source : IndexedMessage numbers} (ofTurn : source ∈ turn.messages) :
    source.message.id ∈ segment.sourceMessageIds := by
  obtain ⟨before, covered, after, closed, version, split, whole, rfl⟩ :=
    cut.indexed_whole distinct ids eligible inside found
  have positive := (whole.places distinct split).1
  dsimp only [rangeOf] at start finish
  exact whole.covers split start (by omega) (distinct.toCanonical.turn_at isTurn) ofTurn

include distinct cut in
/-- The messages between the cursors of a segment are in the segment. -/
theorem CutInto.anchor_covers {segment : ReflectionSegment} (inside : segment ∈ segments)
    {indexed : IndexedV2Boundary}
    (found : resolveV2Boundary history (committed ids eligible segment) = .ok (some indexed)) {place : Nat}
    (start : indexed.startIndex ≤ place) (finish : place ≤ indexed.endIndex) {source : IndexedMessage numbers}
    (atPlace : history.messages[place]? = some source) : source.message.id ∈ segment.sourceMessageIds := by
  obtain ⟨turn, isTurn, first, follows, before, range, after, closed, version, split, exact, rfl⟩ :=
    cut.resolved_exact distinct ids eligible inside found
  have positive := List.length_pos_of_ne_nil exact.nonempty
  dsimp only [anchorOf] at start finish
  apply exact.covers
  rw [← distinct.toCanonical.range_slice isTurn follows split]
  refine List.mem_of_getElem? (?_ : (history.messages.extract _ _)[place - (first + before.length)]? = _)
  rw [getElem?_extract, if_pos (by omega), Nat.add_sub_cancel' start, atPlace]

/-! ### Everything is selected again -/

variable {localeCompare : JsString → JsString → Ordering} {plan : TurnPlan}
  (planned : turnPlan localeCompare history (segments.map (committed ids eligible)) = .ok plan)

include distinct cut planned in
/-- The ranges of turns that are selected are those of the segments that cover turns. -/
theorem CutInto.mem_selectedV1 {indexed : IndexedV1Boundary} :
    indexed ∈ plan.selectedV1 ↔ ∃ segment ∈ segments,
      indexV1Boundary (userIndexes history.turns) (committed ids eligible segment) = .ok (some indexed) := by
  obtain ⟨isSelected, _, _⟩ := turnPlan_ok planned
  obtain ⟨candidates, mem, best⟩ := reconcileV1Boundaries_best isSelected
  have inSegments : ∀ indexed, indexed ∈ candidates ↔ ∃ segment ∈ segments,
      indexV1Boundary (userIndexes history.turns) (committed ids eligible segment) = .ok (some indexed) := by
    intro indexed
    rw [mem indexed]
    simp only [List.mem_map, exists_exists_and_eq_and]
  rw [← inSegments]
  refine ⟨fun inside => best.sublist.subset inside, fun candidate => ?_⟩
  obtain ⟨segment, inside, found⟩ := (inSegments indexed).mp candidate
  have names := (indexV1Boundary_names found).2
  refine best.mem_of_apart candidate (intervalTriple_pos names.ordered) fun other isOther different => ?_
  obtain ⟨another, alsoInside, alsoFound⟩ := (inSegments other).mp (best.sublist.subset isOther)
  have alsoNames := (indexV1Boundary_names alsoFound).2
  -- Two ranges that meet share a turn, so their segments share its messages.
  by_contra overlap
  have ordered : indexed.startIndex ≤ indexed.endIndex := names.ordered
  have alsoOrdered : other.startIndex ≤ other.endIndex := alsoNames.ordered
  have meets : ¬(indexed.endIndex < other.startIndex ∨ other.endIndex < indexed.startIndex) := overlap
  have within : max indexed.startIndex other.startIndex < history.turns.length := by
    have one := names.within
    omega
  have isTurn := List.getElem_mem within
  have number := distinct.numbered _ _ (List.getElem?_eq_getElem within)
  obtain ⟨source, ofTurn⟩ := List.exists_mem_of_ne_nil _ (distinct.nonempty _ isTurn)
  have inOne := cut.range_covers distinct ids eligible inside found isTurn (by omega) (by omega) ofTurn
  have inOther := cut.range_covers distinct ids eligible alsoInside alsoFound isTurn (by omega) (by omega) ofTurn
  have same := cut.segment_unique distinct inside alsoInside inOne inOther
  rw [same, alsoFound] at found
  exact different (Option.some.inj (Except.ok.inj found))

include distinct cut planned in
/-- No exact segment lies in the range of a segment of whole turns. -/
theorem CutInto.notFrozen {segment : ReflectionSegment} (inside : segment ∈ segments)
    {indexed : IndexedV2Boundary}
    (found : resolveV2Boundary history (committed ids eligible segment) = .ok (some indexed)) :
    isFrozen plan.selectedV1 indexed.turnIndex = false := by
  unfold isFrozen
  rw [List.any_eq_false]
  intro v1 selected frozen
  obtain ⟨another, alsoInside, alsoFound⟩ :=
    (cut.mem_selectedV1 distinct ids eligible planned).mp selected
  simp only [Bool.and_eq_true, decide_eq_true_iff] at frozen
  obtain ⟨turn, isTurn, first, follows, before, range, after, closed, version, split, exact, rfl⟩ :=
    cut.resolved_exact distinct ids eligible inside found
  obtain ⟨source, ofRange⟩ := List.exists_mem_of_ne_nil _ exact.nonempty
  have ofTurn : source ∈ turn.messages := by
    rw [split]
    exact List.mem_append_right _ (List.mem_append_left _ ofRange)
  have inOther := cut.range_covers distinct ids eligible alsoInside alsoFound isTurn frozen.1 frozen.2 ofTurn
  have same := cut.segment_unique distinct inside alsoInside (exact.covers ofRange) inOther
  obtain ⟨_, _, _, _, _, _, whole, _⟩ := cut.indexed_whole distinct ids eligible alsoInside alsoFound
  have wholeVersion := whole.version
  rw [← same, exact.version] at wholeVersion
  cases wholeVersion

include distinct cut planned in
/-- The exact boundaries that are selected are those of the exact segments. -/
theorem CutInto.mem_selectedV2 {indexed : IndexedV2Boundary} :
    indexed ∈ plan.selectedV2 ↔ ∃ segment ∈ segments,
      resolveV2Boundary history (committed ids eligible segment) = .ok (some indexed) := by
  obtain ⟨_, isResolved, selectedV2⟩ := turnPlan_ok planned
  have mem : ∀ {indexed}, indexed ∈ plan.resolvedV2 ↔ ∃ segment ∈ segments,
      resolveV2Boundary history (committed ids eligible segment) = .ok (some indexed) := by
    intro indexed
    rw [mem_resolveV2Boundaries isResolved]
    simp only [List.mem_map, exists_exists_and_eq_and]
  have anchored := resolveV2Boundaries_anchored isResolved
  obtain ⟨candidates, perm, best⟩ := reconcileV2Boundaries_best localeCompare (isFrozen plan.selectedV1)
    fun other isOther => (anchored other isOther).2
  rw [← selectedV2] at best
  rw [← mem]
  refine ⟨(turnPlan_sound planned).resolved indexed, fun resolved => ?_⟩
  obtain ⟨segment, inside, found⟩ := mem.mp resolved
  obtain ⟨_, turn, isAnchored⟩ := anchored indexed resolved
  have candidate : indexed ∈ candidates := by
    apply perm.symm.subset
    rw [List.mem_filter, cut.notFrozen distinct ids eligible planned inside found]
    exact ⟨resolved, rfl⟩
  refine best.mem_of_apart candidate (intervalTriple_pos isAnchored.ordered) fun other isOther different => ?_
  have alsoResolved := (turnPlan_sound planned).resolved other isOther
  obtain ⟨another, alsoInside, alsoFound⟩ := mem.mp alsoResolved
  obtain ⟨_, owner, alsoAnchored⟩ := anchored other alsoResolved
  by_contra overlap
  have ordered := isAnchored.ordered
  have alsoOrdered := alsoAnchored.ordered
  have meets : ¬(indexed.endIndex < other.startIndex ∨ other.endIndex < indexed.startIndex) := overlap
  have common : ∃ place, indexed.startIndex ≤ place ∧ place ≤ indexed.endIndex ∧ other.startIndex ≤ place ∧
      place ≤ other.endIndex :=
    ⟨max indexed.startIndex other.startIndex, by omega, by omega, by omega, by omega⟩
  obtain ⟨place, afterOne, beforeOne, afterOther, beforeOther⟩ := common
  obtain ⟨source, atPlace, _⟩ := isAnchored.source_at distinct.toCanonical afterOne beforeOne
  have inOne := cut.anchor_covers distinct ids eligible inside found afterOne beforeOne atPlace
  have inOther := cut.anchor_covers distinct ids eligible alsoInside alsoFound afterOther beforeOther atPlace
  have same := cut.segment_unique distinct inside alsoInside inOne inOther
  rw [same, alsoFound] at found
  exact different (Option.some.inj (Except.ok.inj found))

end Fed

/-! ### The anchors of a turn that was cut up -/

/-- The anchors of consecutive ranges with their segments. -/
def anchorsFrom (bound : ReflectionSegment → CommittedSegmentBoundary) (turn : CompleteTurn numbers)
    (first : Nat) : Nat → List (List (IndexedMessage numbers) × ReflectionSegment) → List IndexedV2Boundary
  | _, [] => []
  | before, piece :: rest =>
      anchorOf (bound piece.2) turn first before piece.1.length ::
        anchorsFrom bound turn first (before + piece.1.length) rest

section Fragments

variable {bound : ReflectionSegment → CommittedSegmentBoundary} {turn : CompleteTurn numbers} {first : Nat}
  {pieces : List (List (IndexedMessage numbers) × ReflectionSegment)}

theorem anchorsFrom_start {before : Nat} :
    ∀ anchor ∈ anchorsFrom bound turn first before pieces, first + before ≤ anchor.startIndex := by
  induction pieces generalizing before with
  | nil =>
      intro anchor inside
      cases inside
  | cons piece rest ih =>
      intro anchor inside
      rcases List.mem_cons.mp inside with rfl | behind
      · exact Nat.le_refl _
      · have later := ih anchor behind
        omega

theorem anchorsFrom_ordered {before : Nat} (made : ∀ piece ∈ pieces, CutsOut turn piece.1 piece.2) :
    (anchorsFrom bound turn first before pieces).Pairwise fun one other =>
      one.startIndex < other.startIndex := by
  induction pieces generalizing before with
  | nil => exact List.Pairwise.nil
  | cons piece rest ih =>
      obtain ⟨_, _, isMade⟩ := made piece List.mem_cons_self
      have positive := List.length_pos_of_ne_nil (makeV2Segment_exact isMade).nonempty
      refine List.pairwise_cons.mpr ⟨fun anchor inside => ?_, ih fun other inside =>
        made other (List.mem_cons_of_mem _ inside)⟩
      have later := anchorsFrom_start anchor inside
      dsimp only [anchorOf]
      omega

theorem mem_anchorsFrom {history : CanonicalHistory numbers} (distinct : Distinct history)
    (ids : ReflectionSegment → Option JsString) (eligible : ReflectionSegment → Option Bool)
    (isTurn : turn ∈ history.turns) (follows : ∀ (place : Nat) (source : IndexedMessage numbers),
      turn.messages[place]? = some source → source.sourceIndex = first + place)
    {done : List (IndexedMessage numbers)} (split : turn.messages = done ++ (pieces.map Prod.fst).flatten)
    (made : ∀ piece ∈ pieces, CutsOut turn piece.1 piece.2)
    (notBlank : ∀ piece ∈ pieces, hasBlankCursor piece.2 = false) {anchor : IndexedV2Boundary} :
    anchor ∈ anchorsFrom (committed ids eligible) turn first done.length pieces ↔
      ∃ piece ∈ pieces, resolveV2Boundary history (committed ids eligible piece.2) = .ok (some anchor) := by
  induction pieces generalizing done with
  | nil => simp [anchorsFrom]
  | cons piece rest ih =>
      obtain ⟨_, _, isMade⟩ := made piece List.mem_cons_self
      rw [List.map_cons, List.flatten_cons] at split
      have resolved := ((makeV2Segment_exact isMade).resolved distinct ids eligible isTurn follows split
        (notBlank piece List.mem_cons_self)).2
      rw [← List.append_assoc] at split
      have later := ih split (fun other inside => made other (List.mem_cons_of_mem _ inside))
        fun other inside => notBlank other (List.mem_cons_of_mem _ inside)
      rw [List.length_append] at later
      rw [anchorsFrom, List.mem_cons, later]
      simp only [List.mem_cons, exists_eq_or_imp, resolved, Except.ok.injEq, Option.some.injEq,
        eq_comm (a := anchor)]

/-- With its own anchors a turn is cut up as it was. -/
theorem fragmentBoundaries_again (ids : ReflectionSegment → Option JsString)
    (eligible : ReflectionSegment → Option Bool) (maxChars : Nat) {done : List (IndexedMessage numbers)}
    (split : turn.messages = done ++ (pieces.map Prod.fst).flatten)
    (made : ∀ piece ∈ pieces, CutsOut turn piece.1 piece.2) :
    ∃ segments, fragmentBoundaries turn maxChars done.length
        (anchorsFrom (committed ids eligible) turn first done.length pieces) = .ok segments ∧
      segments.map unclosed = (pieces.map Prod.snd).map unclosed := by
  induction pieces generalizing done with
  | nil =>
      have nothing : turn.messages.drop done.length = [] := by
        rw [split]
        simp
      refine ⟨[], ?_, rfl⟩
      rw [anchorsFrom, fragmentBoundaries, nothing]
      rfl
  | cons piece rest ih =>
      obtain ⟨_, _, isMade⟩ := made piece List.mem_cons_self
      have positive := List.length_pos_of_ne_nil (makeV2Segment_exact isMade).nonempty
      rw [List.map_cons, List.flatten_cons] at split
      have sources : turn.messages.extract done.length (done.length + (piece.1.length - 1) + 1) = piece.1 := by
        rw [split, List.extract_eq_take_drop, List.drop_left, show done.length + (piece.1.length - 1) + 1 -
          done.length = piece.1.length by omega, List.take_left]
      have nothing : turn.messages.extract done.length done.length = [] := by
        rw [List.extract_eq_take_drop, Nat.sub_self, List.take_zero]
      rw [← List.append_assoc] at split
      obtain ⟨others, areOthers, sameOthers⟩ := ih split fun other inside =>
        made other (List.mem_cons_of_mem _ inside)
      rw [List.length_append] at areOthers
      have cursor : done.length + (piece.1.length - 1) + 1 = done.length + piece.1.length := by omega
      rw [anchorsFrom, fragmentBoundaries]
      dsimp only [anchorOf]
      rw [nothing, sources]
      simp only [cursor]
      have gap : fragmentSourceRange turn [] maxChars true = .ok [] := rfl
      have version : (committed ids eligible piece.2).projectionVersion =
          piece.2.projectionVersion.map Int.ofNat := rfl
      rw [gap, except_ok_bind, version, makeV2Segment_again isMade, except_ok_bind]
      split
      · rename_i overlaps
        cases rest with
        | nil => cases overlaps
        | cons next later => simp [anchorsFrom, anchorOf] at overlaps
      · rw [areOthers]
        refine ⟨_, rfl, ?_⟩
        rw [List.map_cons, List.map_cons, List.nil_append, List.map_cons, sameOthers]
        rfl

end Fragments

/-! ### The second run -/

theorem Sound.v1At_eq {history : CanonicalHistory numbers} {plan : TurnPlan} (sound : Sound history plan)
    {indexed : IndexedV1Boundary} (selected : indexed ∈ plan.selectedV1) :
    plan.v1At indexed.startIndex = some indexed := by
  apply lookup_ofEntries
  · rw [List.map_map, List.Nodup, List.pairwise_map]
    refine sound.apartV1.imp_of_mem fun {one other} isOne _ before => ?_
    have ordered := (sound.v1 one isOne).ordered
    dsimp only [Function.comp_apply]
    omega
  · exact List.mem_map.mpr ⟨indexed, selected, rfl⟩

theorem segmentTurns_end (turns : List (CompleteTurn numbers)) (plan : TurnPlan) (maxChars rounds : Nat) :
    segmentTurns turns plan maxChars rounds turns.length [] = .ok [] := by
  cases rounds with
  | zero => rfl
  | succ rounds =>
      unfold segmentTurns
      rw [List.getElem?_eq_none (Nat.le_refl _)]
      rfl

/-- An exact segment names a user of the turns that were cut. -/
theorem CutInto.exact_user {turns : List (CompleteTurn numbers)} {segments : List ReflectionSegment}
    (cut : CutInto turns segments) {segment : ReflectionSegment} (inside : segment ∈ segments)
    (version : segment.sourceBoundaryVersion = .v2) :
    ∃ turn ∈ turns, segment.startUserMessageId = turn.userMessageId := by
  rcases cut.mem inside with ⟨_, _, _, _, _, _, whole⟩ | ⟨turn, isTurn, _, _, _, _, _, _, _, exact⟩
  · rw [whole.version] at version
    cases version
  · exact ⟨turn, isTurn, exact.startUser⟩

section Run

variable {history : CanonicalHistory numbers} (distinct : Distinct history)
  (ids : ReflectionSegment → Option JsString) (eligible : ReflectionSegment → Option Bool)
  {localeCompare : JsString → JsString → Ordering} {plan : TurnPlan}

include distinct in
/-- The anchors that a turn is given are those of its own fragments. -/
theorem CutInto.v2At_own {before rest : List (CompleteTurn numbers)} {turn : CompleteTurn numbers}
    {earlier later : List ReflectionSegment}
    {pieces : List (List (IndexedMessage numbers) × ReflectionSegment)}
    (split : history.turns = before ++ turn :: rest)
    (cutBefore : CutInto before earlier) (cutRest : CutInto rest later)
    (covers : (pieces.map Prod.fst).flatten = turn.messages)
    (made : ∀ piece ∈ pieces, CutsOut turn piece.1 piece.2) {first : Nat}
    (follows : ∀ (place : Nat) (source : IndexedMessage numbers), turn.messages[place]? = some source →
      source.sourceIndex = first + place)
    (cut : CutInto history.turns (earlier ++ (pieces.map Prod.snd ++ later)))
    (notBlank : ∀ segment ∈ earlier ++ (pieces.map Prod.snd ++ later), hasBlankCursor segment = false)
    (planned : turnPlan localeCompare history
      ((earlier ++ (pieces.map Prod.snd ++ later)).map (committed ids eligible)) = .ok plan) :
    plan.v2At before.length = anchorsFrom (committed ids eligible) turn first 0 pieces := by
  have sound := turnPlan_sound planned
  have atPlace : history.turns[before.length]? = some turn := by
    rw [split, List.getElem?_append_right (Nat.le_refl _), Nat.sub_self]
    rfl
  have isTurn := List.mem_of_getElem? atPlace
  have number := distinct.numbered _ _ atPlace
  have fromStart : turn.messages = [] ++ (pieces.map Prod.fst).flatten := covers.symm
  have mem : ∀ anchor, anchor ∈ anchorsFrom (committed ids eligible) turn first 0 pieces ↔
      ∃ piece ∈ pieces, resolveV2Boundary history (committed ids eligible piece.2) = .ok (some anchor) :=
    fun anchor => mem_anchorsFrom distinct ids eligible isTurn follows fromStart made fun piece inside =>
      notBlank piece.2 (List.mem_append_right _ (List.mem_append_left _
        (List.mem_map.mpr ⟨piece, inside, rfl⟩)))
  have ordered : (plan.v2At before.length).Pairwise fun one other => one.startIndex < other.startIndex := by
    have apart : (plan.v2At before.length).Pairwise fun one other => one.endIndex < other.startIndex :=
      sound.apartV2.sublist List.filter_sublist
    refine apart.imp_of_mem fun {one other} isOne _ ahead => ?_
    obtain ⟨_, anchored⟩ := sound.v2 one (v2At_mem isOne).1
    exact Nat.lt_of_le_of_lt anchored.ordered ahead
  refine eq_of_mem_iff ordered (anchorsFrom_ordered made) fun anchor => ?_
  rw [mem]
  constructor
  · intro inside
    obtain ⟨selected, atTurn⟩ := v2At_mem inside
    obtain ⟨segment, isSegment, found⟩ := (cut.mem_selectedV2 distinct ids eligible planned).mp selected
    obtain ⟨owner, isOwner, _, _, _, _, _, _, _, _, exact, same⟩ :=
      cut.resolved_exact distinct ids eligible isSegment found
    have isThis : owner = turn := by
      apply distinct.toCanonical.turn_unique isOwner isTurn
      rw [number, ← atTurn, same]
      rfl
    -- A segment of an earlier or a later turn names another user.
    have elsewhere : ∀ other ∈ history.turns, other.index ≠ before.length →
        segment.startUserMessageId ≠ other.userMessageId := by
      intro other isOther different sameUser
      rw [exact.startUser, isThis] at sameUser
      have one := List.inj_on_of_nodup_map distinct.users isTurn isOther sameUser
      rw [← one] at different
      exact different number
    rcases List.mem_append.mp isSegment with inEarlier | behind
    · obtain ⟨other, isOther, user⟩ := cutBefore.exact_user inEarlier exact.version
      obtain ⟨place, found⟩ := List.getElem?_of_mem isOther
      have within := (List.getElem?_eq_some_iff.mp found).1
      have inHistory : history.turns[place]? = some other := by
        rw [split, List.getElem?_append_left within, found]
      have index := distinct.numbered place other inHistory
      exact absurd user (elsewhere other (List.mem_of_getElem? inHistory) (by omega))
    · rcases List.mem_append.mp behind with here | inLater
      · obtain ⟨piece, isPiece, rfl⟩ := List.mem_map.mp here
        exact ⟨piece, isPiece, found⟩
      · obtain ⟨other, isOther, user⟩ := cutRest.exact_user inLater exact.version
        obtain ⟨place, found⟩ := List.getElem?_of_mem isOther
        have inHistory : history.turns[before.length + 1 + place]? = some other := by
          rw [split, List.getElem?_append_right (by omega), show before.length + 1 + place - before.length =
            place + 1 by omega, List.getElem?_cons_succ, found]
        have index := distinct.numbered _ other inHistory
        exact absurd user (elsewhere other (List.mem_of_getElem? inHistory) (by omega))
  · rintro ⟨piece, isPiece, found⟩
    have isSegment : piece.2 ∈ earlier ++ (pieces.map Prod.snd ++ later) :=
      List.mem_append_right _ (List.mem_append_left _ (List.mem_map.mpr ⟨piece, isPiece, rfl⟩))
    have selected := (cut.mem_selectedV2 distinct ids eligible planned).mpr ⟨piece.2, isSegment, found⟩
    refine List.mem_filter.mpr ⟨selected, ?_⟩
    obtain ⟨owner, isOwner, _, _, _, _, _, _, _, _, exact, same⟩ :=
      cut.resolved_exact distinct ids eligible isSegment found
    obtain ⟨_, _, isMade⟩ := made piece isPiece
    have users := exact.startUser.symm.trans (makeV2Segment_exact isMade).startUser
    have one := List.inj_on_of_nodup_map distinct.users isOwner isTurn users
    rw [beq_iff_eq, same, one, ← number]
    rfl

include distinct in
/-- From any turn on at which a segment begins, the loop makes the same segments again. -/
theorem CutInto.run_again {turns : List (CompleteTurn numbers)} {segments : List ReflectionSegment}
    (cutHere : CutInto turns segments) {before : List (CompleteTurn numbers)} {earlier : List ReflectionSegment}
    (split : history.turns = before ++ turns) (cutBefore : CutInto before earlier)
    (notBlank : ∀ segment ∈ earlier ++ segments, hasBlankCursor segment = false)
    (planned : turnPlan localeCompare history ((earlier ++ segments).map (committed ids eligible)) = .ok plan)
    (maxChars : Nat) {rounds : Nat} (enough : history.turns.length ≤ before.length + rounds) :
    ∃ again, segmentTurns history.turns plan maxChars rounds before.length [] = .ok again ∧
      again.map unclosed = segments.map unclosed := by
  have cut : CutInto history.turns (earlier ++ segments) := split ▸ cutBefore.append cutHere
  have sound := turnPlan_sound planned
  have lengths : history.turns.length = before.length + turns.length := by rw [split, List.length_append]
  induction cutHere generalizing before earlier rounds with
  | done =>
      rw [List.length_nil, Nat.add_zero] at lengths
      rw [← lengths]
      exact ⟨[], segmentTurns_end _ plan maxChars rounds, rfl⟩
  | @whole covered rest segment segments closed projectionVersion made cutRest ih =>
      have whole := makeV1Segment_whole made
      obtain ⟨positive, _, _, extracted⟩ := whole.places distinct split
      rw [List.length_append] at lengths
      obtain ⟨rounds, rfl⟩ : ∃ fewer, rounds = fewer + 1 := ⟨rounds - 1, by omega⟩
      have inside : segment ∈ earlier ++ segment :: segments := List.mem_append_right _ List.mem_cons_self
      have selected := (cut.mem_selectedV1 distinct ids eligible planned).mpr
        ⟨segment, inside, (whole.indexed distinct ids eligible split).1⟩
      have isV1 := sound.v1At_eq selected
      have found := List.getElem?_eq_getElem (show before.length < history.turns.length by omega)
      have next : ∃ others,
          segmentTurns history.turns plan maxChars rounds (before ++ covered).length [] = .ok others ∧
            others.map unclosed = segments.map unclosed :=
        ih (by rw [split, List.append_assoc]) (cutBefore.append (.one made))
          (by rw [List.append_assoc]; exact notBlank) (by rw [List.append_assoc]; exact planned)
          (by rw [List.length_append]; omega) (by rw [List.append_assoc]; exact cut)
          (by rw [List.length_append]; omega)
      rw [List.length_append] at next
      obtain ⟨others, areOthers, sameOthers⟩ := next
      have finished : before.length + (covered.length - 1) + 1 = before.length + covered.length := by omega
      have packed : packTurns ([] : List (CompleteTurn numbers)) maxChars true = .ok [] := rfl
      have version : (committed ids eligible segment).projectionVersion =
          segment.projectionVersion.map Int.ofNat := rfl
      unfold segmentTurns
      dsimp only [rangeOf] at isV1
      rw [found, isV1]
      dsimp only
      rw [packed, except_ok_bind, finished, extracted, version, makeV1Segment_again made, except_ok_bind,
        areOthers]
      refine ⟨_, rfl, ?_⟩
      rw [List.nil_append, List.map_cons, List.map_cons, sameOthers]
      rfl
  | @exact turn rest fragments segments contiguous cuts cutRest ih =>
      obtain ⟨first, follows⟩ := contiguous
      obtain ⟨ranges, covers, made⟩ := cuts
      obtain ⟨sameLength, each⟩ := List.forall₂_iff_zip.mp made
      -- The ranges with their segments.
      obtain ⟨pieces, isRanges, isFragments, madePieces⟩ : ∃ pieces, pieces.map Prod.fst = ranges ∧
          pieces.map Prod.snd = fragments ∧ ∀ piece ∈ pieces, CutsOut turn piece.1 piece.2 :=
        ⟨ranges.zip fragments, List.map_fst_zip sameLength.le, List.map_snd_zip sameLength.ge,
          fun piece inside => each inside⟩
      rw [← isRanges] at covers
      rw [← isFragments] at notBlank planned cut ⊢
      rw [List.length_cons] at lengths
      obtain ⟨rounds, rfl⟩ : ∃ fewer, rounds = fewer + 1 := ⟨rounds - 1, by omega⟩
      have found : history.turns[before.length]? = some turn := by
        rw [split, List.getElem?_append_right (Nat.le_refl _), Nat.sub_self]
        rfl
      have isTurn := List.mem_of_getElem? found
      have number := distinct.numbered _ _ found
      have own := cutBefore.v2At_own distinct ids eligible split cutRest covers madePieces follows cut notBlank
        planned
      obtain ⟨source, ofTurn⟩ := List.exists_mem_of_ne_nil _ (distinct.nonempty turn isTurn)
      have notEmpty : pieces ≠ [] := by
        intro none
        rw [none] at covers
        rw [← covers] at ofTurn
        cases ofTurn
      have anchors : plan.v2At before.length ≠ [] := by
        rw [own]
        cases pieces with
        | nil => exact absurd rfl notEmpty
        | cons piece rest => exact List.cons_ne_nil _ _
      obtain ⟨anchor, isAnchor⟩ := List.exists_mem_of_ne_nil _ anchors
      obtain ⟨selected, atTurn⟩ := v2At_mem isAnchor
      obtain ⟨segment, isSegment, resolves⟩ := (cut.mem_selectedV2 distinct ids eligible planned).mp selected
      have notFrozen := cut.notFrozen distinct ids eligible planned isSegment resolves
      rw [atTurn] at notFrozen
      have noV1 : plan.v1At before.length = none := by
        by_contra some
        obtain ⟨v1, isV1⟩ := Option.ne_none_iff_exists'.mp some
        obtain ⟨chosen, start⟩ := v1At_mem isV1
        have ordered := (sound.v1 v1 chosen).ordered
        rw [frozen_inside chosen start.le (by omega)] at notFrozen
        cases notFrozen
      have fragmented : plan.isFragmented maxChars turn before.length = true := by
        unfold TurnPlan.isFragmented
        rw [notFrozen]
        simp only [Bool.not_false, Bool.true_and, Bool.or_eq_true, List.any_eq_true, beq_iff_eq]
        exact Or.inl ⟨anchor, sound.resolved anchor selected, atTurn⟩
      obtain ⟨head, isHead⟩ := Option.isSome_iff_exists.mp (List.isSome_head?.mpr (distinct.nonempty turn isTurn))
      have holds := isContiguous_of_contiguous ⟨first, follows⟩ isHead
      have fromStart : turn.messages = [] ++ (pieces.map Prod.fst).flatten := covers.symm
      have refragmented : ∃ again, fragmentBoundaries turn maxChars 0
          (anchorsFrom (committed ids eligible) turn first 0 pieces) = .ok again ∧
            again.map unclosed = (pieces.map Prod.snd).map unclosed :=
        fragmentBoundaries_again ids eligible maxChars fromStart madePieces
      obtain ⟨again, areAgain, sameAgain⟩ := refragmented
      have cutTurn : CutInto [turn] (pieces.map Prod.snd) := by
        have one := CutInto.exact ⟨first, follows⟩ ⟨ranges, by rw [← isRanges, covers], made⟩ .done
        rw [List.append_nil, ← isFragments] at one
        exact one
      have next : ∃ others,
          segmentTurns history.turns plan maxChars rounds (before ++ [turn]).length [] = .ok others ∧
            others.map unclosed = segments.map unclosed :=
        ih (by rw [split, List.append_assoc]; rfl) (cutBefore.append cutTurn)
          (by rw [List.append_assoc]; exact notBlank) (by rw [List.append_assoc]; exact planned)
          (by rw [List.length_append, List.length_singleton]; omega) (by rw [List.append_assoc]; exact cut)
          (by rw [List.length_append, List.length_singleton]; omega)
      rw [List.length_append, List.length_singleton] at next
      obtain ⟨others, areOthers, sameOthers⟩ := next
      have packed : packTurns ([] : List (CompleteTurn numbers)) maxChars true = .ok [] := rfl
      have cutUp : fragmentTurn turn (plan.v2At before.length) maxChars = .ok again := by
        unfold fragmentTurn
        rw [isHead]
        dsimp only
        rw [holds, own]
        exact areAgain
      unfold segmentTurns
      rw [found, noV1]
      dsimp only
      rw [if_pos fragmented, packed, except_ok_bind, cutUp, except_ok_bind, areOthers]
      refine ⟨_, rfl, ?_⟩
      rw [List.nil_append, List.map_append, List.map_append, sameAgain, sameOthers]

end Run

/-! ### Planning again -/

/-- The first pass refuses a blank cursor. -/
theorem CutInto.blank_refused {history : CanonicalHistory numbers} (distinct : Distinct history)
    {segments : List ReflectionSegment} (cut : CutInto history.turns segments)
    (ids : ReflectionSegment → Option JsString) (eligible : ReflectionSegment → Option Bool)
    (localeCompare : JsString → JsString → Ordering) {segment : ReflectionSegment} (inside : segment ∈ segments)
    (blank : hasBlankCursor segment = true) :
    turnPlan localeCompare history (segments.map (committed ids eligible)) = .error .v2Cursors := by
  have version : boundaryVersion (committed ids eligible segment) = .error .v2Cursors := by
    rcases cut.mem inside with ⟨_, _, _, _, _, _, whole⟩ | ⟨_, _, _, _, _, _, _, _, _, exact⟩
    · rw [(whole.boundaryVersion_eq none none).1] at blank
      cases blank
    · have refused := exact.boundaryVersion_eq (ids segment) (eligible segment)
      rw [blank, if_pos rfl] at refused
      exact refused
  unfold turnPlan reconcileV1Boundaries
  cases found : (segments.map (committed ids eligible)).mapM
      (indexV1Boundary (userIndexes history.turns)) with
  | ok results =>
      have each := exists_mapM_ok.mp ⟨results, found⟩ _ (List.mem_map.mpr ⟨segment, inside, rfl⟩)
      obtain ⟨result, returned⟩ := each
      rw [indexV1Boundary, version, except_error_bind] at returned
      cases returned
  | error error =>
      obtain ⟨boundary, isBoundary, throws⟩ := mapM_error found
      obtain ⟨thrower, isSegment, rfl⟩ := List.mem_map.mp isBoundary
      have refused := indexV1Boundary_error throws
      have only : error = .v2Cursors := by
        rcases cut.mem isSegment with ⟨_, _, _, _, _, _, whole⟩ | ⟨_, _, _, _, _, _, _, _, _, exact⟩
        · rw [committed, (whole.boundaryVersion_eq _ _).2] at refused
          cases refused
        · rw [committed, exact.boundaryVersion_eq] at refused
          split at refused <;> cases refused
          rfl
      rw [only]
      rfl

/-- A segmentation is planned again, under any later limit, from its own boundaries: with the same
segments but for their state, unless a cursor is blank. -/
theorem segmentMessages_replan (localeCompare : JsString → JsString → Ordering)
    (messages : List (OpenCodeMessage numbers)) (distinct : (messages.map OpenCodeMessage.id).Nodup)
    (maxChars : Nat) (boundaries : List CommittedSegmentBoundary) (segments : List ReflectionSegment)
    (segmented : segmentMessages localeCompare messages maxChars boundaries = .ok segments)
    (ids : ReflectionSegment → Option JsString) (eligible : ReflectionSegment → Option Bool)
    (laterChars : Nat) (positive : laterChars ≠ 0) :
    (segmentMessages localeCompare messages laterChars (segments.map (committed ids eligible))).map
        (List.map unclosed) =
      if segments.any hasBlankCursor then .error .v2Cursors else .ok (segments.map unclosed) := by
  have cut := segmentMessages_cut segmented
  have history := distinct_history distinct
  unfold segmentMessages
  rw [if_neg positive]
  dsimp only
  split
  · rename_i blank
    obtain ⟨segment, inside, isBlank⟩ := List.any_eq_true.mp blank
    rw [cut.blank_refused history ids eligible localeCompare inside isBlank]
    rfl
  · rename_i none
    have notBlank : ∀ segment ∈ segments, hasBlankCursor segment = false := by
      intro segment inside
      by_contra blank
      rw [Bool.not_eq_false] at blank
      exact none (List.any_eq_true.mpr ⟨segment, inside, blank⟩)
    obtain ⟨plan, planned⟩ := cut.planned history ids eligible localeCompare notBlank
    have again : ∃ again, segmentTurns (canonicalHistory messages).turns plan laterChars
        (canonicalHistory messages).turns.length 0 [] = .ok again ∧
          again.map unclosed = segments.map unclosed :=
      cut.run_again history ids eligible (List.nil_append _).symm .done notBlank planned laterChars
        (Nat.le_add_left _ _)
    obtain ⟨others, areOthers, same⟩ := again
    rw [planned, except_ok_bind, areOthers]
    exact congrArg Except.ok same

theorem segmentMessages_replan_sample : ∃ segments,
    segmentMessages (fun _ _ => .eq) sampleHistory 5 [] = .ok segments ∧ segments.length = 2 ∧
      (segmentMessages (fun _ _ => .eq) sampleHistory 100
          (segments.map (committed (fun _ => none) fun _ => some true))).map (List.map unclosed) =
        if segments.any hasBlankCursor then .error .v2Cursors else .ok (segments.map unclosed) := by
  have segmented := segmentMessages_uncommitted (fun _ _ => .eq) sampleHistory (show 5 ≠ 0 by decide)
  have returned : ∃ segments, segmentTurns (canonicalHistory sampleHistory).turns uncommittedPlan 5
      (canonicalHistory sampleHistory).turns.length 0 [] = .ok segments ∧ segments.length = 2 :=
    ⟨_, rfl, rfl⟩
  obtain ⟨segments, isSegments, two⟩ := returned
  rw [isSegments] at segmented
  exact ⟨segments, segmented, two, segmentMessages_replan (fun _ _ => .eq) sampleHistory (by decide) 5 []
    segments segmented (fun _ => none) (fun _ => some true) 100 (by decide)⟩

end Reflection.Segments
