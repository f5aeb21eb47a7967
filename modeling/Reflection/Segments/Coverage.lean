/-
Segments share out the canonical messages.

A canonical message is a normal user or a visible assistant that answers one. Every canonical message
is in exactly one segment. Segments of whole turns take all messages of consecutive users, and exact
segments take a run of canonical messages that belong to one user.
-/

import Reflection.Segments.Cutting

namespace Reflection.Segments

variable {numbers : Numbers}

/-! ### What a segment holds -/

structure WholeSegment (covered : List (CompleteTurn numbers)) (closed : Bool) (projectionVersion : Option Int)
    (segment : ReflectionSegment) : Prop where
  startUser : covered.head?.map CompleteTurn.userMessageId = some segment.startUserMessageId
  endUser : covered.getLast?.map CompleteTurn.userMessageId = some segment.endUserMessageId
  version : segment.sourceBoundaryVersion = .v1
  noStart : segment.startSourceMessageId = none
  noEnd : segment.endSourceMessageId = none
  ids : segment.sourceMessageIds = (orderedSourceMessages (covered.flatMap CompleteTurn.messages)).map
    fun source => source.message.id
  state : segment.closed = closed
  messages : segment.messages = reflectionMessages (covered.flatMap CompleteTurn.messages)
  projection : segment.projectionVersion = upgradedProjection projectionVersion
    (reflectionMessagesWithMetadata (covered.flatMap CompleteTurn.messages)).2

structure ExactSegment (turn : CompleteTurn numbers) (range : List (IndexedMessage numbers)) (closed : Bool)
    (projectionVersion : Option Int) (segment : ReflectionSegment) : Prop where
  startUser : segment.startUserMessageId = turn.userMessageId
  endUser : segment.endUserMessageId = turn.userMessageId
  version : segment.sourceBoundaryVersion = .v2
  start : segment.startSourceMessageId = (orderedSourceMessages range).head?.map fun source => source.message.id
  finish : segment.endSourceMessageId = (orderedSourceMessages range).getLast?.map fun source =>
    source.message.id
  nonempty : range ≠ []
  ids : segment.sourceMessageIds = (orderedSourceMessages range).map fun source => source.message.id
  state : segment.closed = closed
  messages : segment.messages = reflectionMessages range
  projection : segment.projectionVersion =
    upgradedProjection projectionVersion (reflectionMessagesWithMetadata range).2

theorem orderedSourceMessages_twice (sources : List (IndexedMessage numbers)) :
    orderedSourceMessages (orderedSourceMessages sources) = orderedSourceMessages sources := by
  have trans : IsTrans (IndexedMessage numbers) fun one other => one.sourceIndex ≤ other.sourceIndex :=
    ⟨fun _ _ _ => Nat.le_trans⟩
  exact (orderedSourceMessages_sorted sources).insertionSort_eq

theorem reflectionMessagesWithMetadata_ordered (sources : List (IndexedMessage numbers)) :
    reflectionMessagesWithMetadata (orderedSourceMessages sources) = reflectionMessagesWithMetadata sources := by
  unfold reflectionMessagesWithMetadata
  rw [orderedSourceMessages_twice]

theorem makeV1Segment_whole {covered : List (CompleteTurn numbers)} {closed : Bool}
    {projectionVersion : Option Int} {segment : ReflectionSegment}
    (made : makeV1Segment covered closed projectionVersion = .ok segment) :
    WholeSegment covered closed projectionVersion segment := by
  unfold makeV1Segment at made
  split at made
  · rename_i firstTurn lastTurn isFirst isLast
    dsimp only at made
    split at made
    · cases made
      constructor
      case startUser => rw [isFirst]; rfl
      case endUser => rw [isLast]; rfl
      case messages =>
        dsimp only
        rw [reflectionMessagesWithMetadata_ordered]
        rfl
      case projection =>
        dsimp only
        rw [reflectionMessagesWithMetadata_ordered]
      all_goals rfl
    · cases made
  · cases made

theorem makeV2Segment_exact {turn : CompleteTurn numbers} {range : List (IndexedMessage numbers)} {closed : Bool}
    {projectionVersion : Option Int} {segment : ReflectionSegment}
    (made : makeV2Segment turn range closed projectionVersion = .ok segment) :
    ExactSegment turn range closed projectionVersion segment := by
  unfold makeV2Segment at made
  dsimp only at made
  split at made
  · rename_i first last isFirst isLast
    cases made
    constructor
    case start => rw [isFirst]; rfl
    case finish => rw [isLast]; rfl
    case nonempty =>
      intro empty
      rw [empty] at isFirst
      cases isFirst
    case messages =>
      dsimp only
      rw [reflectionMessagesWithMetadata_ordered]
      rfl
    case projection =>
      dsimp only
      rw [reflectionMessagesWithMetadata_ordered]
    all_goals rfl
  · cases made

/-- Every segment by what it was made of. -/
theorem CutInto.mem {turns : List (CompleteTurn numbers)} {segments : List ReflectionSegment}
    (cut : CutInto turns segments) {segment : ReflectionSegment} (inside : segment ∈ segments) :
    (∃ before covered after closed projectionVersion, turns = before ++ (covered ++ after) ∧
      WholeSegment covered closed projectionVersion segment) ∨
    ∃ turn ∈ turns, Contiguous turn ∧ ∃ before range after closed projectionVersion,
      turn.messages = before ++ (range ++ after) ∧ ExactSegment turn range closed projectionVersion segment := by
  induction cut with
  | done => cases inside
  | @whole covered rest first segments closed projectionVersion made _ ih =>
      rcases List.mem_cons.mp inside with rfl | behind
      · exact Or.inl ⟨[], covered, rest, closed, projectionVersion, rfl, makeV1Segment_whole made⟩
      · rcases ih behind with ⟨before, others, after, state, version, same, holds⟩ | ⟨turn, isTurn, exact⟩
        · exact Or.inl ⟨covered ++ before, others, after, state, version, by rw [same, List.append_assoc],
            holds⟩
        · exact Or.inr ⟨turn, List.mem_append_right _ isTurn, exact⟩
  | @exact turn rest fragments segments contiguous cuts _ ih =>
      rcases List.mem_append.mp inside with here | behind
      · obtain ⟨ranges, covers, made⟩ := cuts
        obtain ⟨range, isRange, closed, projectionVersion, isSegment⟩ := exists_left_of_forall₂ made here
        obtain ⟨before, after, same⟩ := List.append_of_mem isRange
        rw [same, List.flatten_append, List.flatten_cons] at covers
        exact Or.inr ⟨turn, List.mem_cons_self, contiguous, _, range, _, closed, projectionVersion,
          covers.symm, makeV2Segment_exact isSegment⟩
      · rcases ih behind with ⟨before, others, after, state, version, same, holds⟩ | ⟨other, isTurn, exact⟩
        · exact Or.inl ⟨turn :: before, others, after, state, version, by rw [same, List.cons_append], holds⟩
        · exact Or.inr ⟨other, List.mem_cons_of_mem _ isTurn, exact⟩

/-! ### Source messages shared out -/

theorem CutsUp.ids_perm {turn : CompleteTurn numbers} {sources : List (IndexedMessage numbers)}
    {segments : List ReflectionSegment} (cuts : CutsUp turn sources segments) :
    (segments.flatMap ReflectionSegment.sourceMessageIds).Perm (sources.map fun source => source.message.id) := by
  obtain ⟨ranges, covers, made⟩ := cuts
  rw [← covers]
  induction made generalizing sources with
  | nil => exact List.Perm.refl _
  | @cons range segment ranges segments isSegment _ ih =>
      obtain ⟨closed, projectionVersion, isMade⟩ := isSegment
      rw [List.flatMap_cons, List.flatten_cons, List.map_append, (makeV2Segment_exact isMade).ids]
      exact ((orderedSourceMessages_perm range).map _).append (ih rfl)

theorem CutInto.ids_perm {turns : List (CompleteTurn numbers)} {segments : List ReflectionSegment}
    (cut : CutInto turns segments) :
    (segments.flatMap ReflectionSegment.sourceMessageIds).Perm
      ((turns.flatMap CompleteTurn.messages).map fun source => source.message.id) := by
  induction cut with
  | done => exact List.Perm.refl _
  | @whole covered rest segment segments closed projectionVersion made _ ih =>
      rw [List.flatMap_cons, List.flatMap_append, List.map_append, (makeV1Segment_whole made).ids]
      exact ((orderedSourceMessages_perm _).map _).append ih
  | @exact turn rest fragments segments contiguous cuts _ ih =>
      rw [List.flatMap_append, List.flatMap_cons, List.map_append]
      exact cuts.ids_perm.append ih

theorem Canonical.nodup {history : CanonicalHistory numbers} (canonical : Canonical history) :
    history.messages.Nodup :=
  canonical.inOrder.imp fun less same => absurd (congrArg IndexedMessage.sourceIndex same) less.ne

theorem Canonical.mem_turn {history : CanonicalHistory numbers} (canonical : Canonical history)
    {turn : CompleteTurn numbers} (isTurn : turn ∈ history.turns) {source : IndexedMessage numbers} :
    source ∈ turn.messages ↔ source ∈ history.messages ∧ source.turnIndex = turn.index := by
  rw [canonical.owned turn isTurn, List.mem_filter, beq_iff_eq]

theorem Canonical.turns_ordered {history : CanonicalHistory numbers} (canonical : Canonical history) :
    history.turns.Pairwise fun one other => one.index < other.index := by
  apply List.pairwise_iff_getElem.mpr
  intro one other before behind less
  rw [canonical.numbered one _ (List.getElem?_eq_getElem before),
    canonical.numbered other _ (List.getElem?_eq_getElem behind)]
  exact less

theorem Canonical.turns_perm {history : CanonicalHistory numbers} (canonical : Canonical history) :
    (history.turns.flatMap CompleteTurn.messages).Perm history.messages := by
  have distinct : (history.turns.flatMap CompleteTurn.messages).Nodup := by
    rw [List.nodup_flatMap]
    refine ⟨fun turn isTurn => canonical.nodup.sublist (canonical.turn_sublist isTurn), ?_⟩
    refine canonical.turns_ordered.imp_of_mem fun {one other} isOne isOther less source inOne inOther => ?_
    have number := (canonical.mem_turn isOne).mp inOne
    have otherNumber := (canonical.mem_turn isOther).mp inOther
    omega
  rw [List.perm_ext_iff_of_nodup distinct canonical.nodup]
  intro source
  rw [List.mem_flatMap]
  constructor
  · rintro ⟨turn, isTurn, inside⟩
    exact ((canonical.mem_turn isTurn).mp inside).1
  · intro inside
    have within := canonical.within source inside
    have found := List.getElem?_eq_getElem within
    refine ⟨_, List.getElem_mem within, (canonical.mem_turn (List.getElem_mem within)).mpr ⟨inside, ?_⟩⟩
    exact (canonical.numbered _ _ found).symm

end Reflection.Segments
