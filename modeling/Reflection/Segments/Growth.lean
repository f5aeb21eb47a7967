/-
Planning a session that has grown.

New messages stand behind the old ones, so every turn keeps its number and its messages and can only
gain some at its end. A segment of whole turns is found again in any case. An exact one is found again
exactly where its turn is still in one piece.
-/

import Reflection.Segments.Replanning

namespace Reflection.Segments

variable {numbers : Numbers}

/-! ### Turns and their messages -/

theorem ownedBy_append (messages more users : List (OpenCodeMessage numbers)) :
    ownedBy (messages ++ more) users = ownedBy messages users ++ ownedBy more users :=
  List.filter_append ..

theorem normalUsers_append (messages more : List (OpenCodeMessage numbers)) :
    normalUsers (messages ++ more) = normalUsers messages ++ normalUsers more :=
  List.filter_append ..

/-- A turn holds the messages of its user. -/
theorem turn_messages {messages : List (OpenCodeMessage numbers)}
    (distinct : (messages.map OpenCodeMessage.id).Nodup) {turn : CompleteTurn numbers}
    (isTurn : turn ∈ (canonicalHistory messages).turns) {user : OpenCodeMessage numbers}
    (isUser : user ∈ normalUsers messages) (sameId : user.id = turn.userMessageId) :
    turn.messages.map IndexedMessage.message = ownedBy messages [user] := by
  have canonical := canonical_history messages
  obtain ⟨before, after, split⟩ := List.append_of_mem isTurn
  have users : [user].map OpenCodeMessage.id = [turn].map CompleteTurn.userMessageId := by
    rw [List.map_singleton, List.map_singleton, sameId]
  have owned := sources_of_turns distinct split (List.singleton_sublist.mpr isUser) users
  rw [List.flatMap_singleton, orderedSourceMessages_eq (canonical.turn_inOrder isTurn) (List.Perm.refl _)] at owned
  exact owned

theorem messages_nodup {messages : List (OpenCodeMessage numbers)}
    (distinct : (messages.map OpenCodeMessage.id).Nodup) :
    ((canonicalHistory messages).messages.map IndexedMessage.message).Nodup := by
  have ids := (distinct_history distinct).ids
  rw [show (fun source : IndexedMessage numbers => source.message.id) =
    OpenCodeMessage.id ∘ IndexedMessage.message from rfl, ← List.map_map] at ids
  exact ids.of_map _

/-- A turn is contiguous where the messages of its user stand together among the canonical ones. -/
theorem contiguous_iff_adjacent {messages : List (OpenCodeMessage numbers)}
    (distinct : (messages.map OpenCodeMessage.id).Nodup) {turn : CompleteTurn numbers}
    (isTurn : turn ∈ (canonicalHistory messages).turns) {user : OpenCodeMessage numbers}
    (isUser : user ∈ normalUsers messages) (sameId : user.id = turn.userMessageId) :
    Contiguous turn ↔ ownedBy messages [user] <:+: canonicalMessages messages := by
  have canonical := canonical_history messages
  rw [← turn_messages distinct isTurn isUser sameId, ← history_canonicalMessages]
  constructor
  · intro contiguous
    obtain ⟨before, after, whole⟩ := canonical.contiguous_split isTurn contiguous
    refine ⟨before.map IndexedMessage.message, after.map IndexedMessage.message, ?_⟩
    rw [whole, List.map_append, List.map_append, List.append_assoc]
  · rintro ⟨before, after, whole⟩
    rw [List.append_assoc] at whole
    obtain ⟨front, behind, split, _, sameBehind⟩ := List.map_eq_append_iff.mp whole.symm
    obtain ⟨run, back, alsoSplit, sameRun, _⟩ := List.map_eq_append_iff.mp sameBehind
    have inHistory : ∀ source ∈ run, source ∈ (canonicalHistory messages).messages := by
      intro source inside
      rw [split, alsoSplit]
      exact List.mem_append_right _ (List.mem_append_left _ inside)
    have same : run = turn.messages := by
      apply List.ext_getElem?
      intro place
      have images : run[place]?.map IndexedMessage.message = turn.messages[place]?.map IndexedMessage.message := by
        rw [← List.getElem?_map, ← List.getElem?_map, sameRun]
      cases one : run[place]? with
      | none =>
          rw [one, Option.map_none, eq_comm, Option.map_eq_none_iff] at images
          rw [images]
      | some source =>
          rw [one, Option.map_some, eq_comm, Option.map_eq_some_iff] at images
          obtain ⟨other, found, image⟩ := images
          have inTurn := (canonical.turn_sublist isTurn).subset (List.mem_of_getElem? found)
          have equal := List.inj_on_of_nodup_map (messages_nodup distinct)
            (inHistory source (List.mem_of_getElem? one)) inTurn image.symm
          rw [found, equal]
    refine ⟨front.length, fun place source found => ?_⟩
    rw [← same] at found
    apply canonical.placed
    rw [split, alsoSplit, List.getElem?_append_right (Nat.le_add_right _ _), Nat.add_sub_cancel_left,
      List.getElem?_append_left (List.getElem?_eq_some_iff.mp found).1, found]

/-! ### Growing -/

section Growing

variable {messages more : List (OpenCodeMessage numbers)}
  (distinct : ((messages ++ more).map OpenCodeMessage.id).Nodup)

include distinct in
theorem distinct_before : (messages.map OpenCodeMessage.id).Nodup := by
  rw [List.map_append] at distinct
  exact distinct.sublist (List.sublist_append_left _ _)

include distinct in
/-- The turn of the same number holds the same messages first. -/
theorem grown_turn {turn : CompleteTurn numbers} (isTurn : turn ∈ (canonicalHistory messages).turns) :
    ∃ grown ∈ (canonicalHistory (messages ++ more)).turns, grown.index = turn.index ∧
      grown.userMessageId = turn.userMessageId ∧
        ∃ added, grown.messages.map IndexedMessage.message =
          turn.messages.map IndexedMessage.message ++ added := by
  obtain ⟨user, atPlace, userId, _⟩ := mem_turns isTurn
  have isUser := List.mem_of_getElem? atPlace
  have within := (List.getElem?_eq_some_iff.mp atPlace).1
  have atGrown : (normalUsers (messages ++ more))[turn.index]? = some user := by
    rw [normalUsers_append, List.getElem?_append_left within, atPlace]
  have found := turns_getElem? (messages ++ more) turn.index
  rw [atGrown, Option.map_some] at found
  have isGrown := List.mem_of_getElem? found
  refine ⟨_, isGrown, rfl, userId.symm, ownedBy more [user], ?_⟩
  rw [turn_messages (distinct_before distinct) isTurn isUser userId.symm, ← ownedBy_append]
  exact turn_messages distinct isGrown (List.mem_of_getElem? atGrown) rfl

/-- A range of a turn is a range of the grown turn. -/
theorem grown_range {turn grown : CompleteTurn numbers} {added : List (OpenCodeMessage numbers)}
    (messages : grown.messages.map IndexedMessage.message = turn.messages.map IndexedMessage.message ++ added)
    {before range after : List (IndexedMessage numbers)} (split : turn.messages = before ++ (range ++ after)) :
    ∃ before' range' after', grown.messages = before' ++ (range' ++ after') ∧
      range'.map IndexedMessage.message = range.map IndexedMessage.message := by
  rw [split, List.map_append, List.map_append, List.append_assoc, List.append_assoc] at messages
  obtain ⟨before', behind, splitBefore, _, sameBehind⟩ := List.map_eq_append_iff.mp messages
  obtain ⟨range', after', splitRange, sameRange, _⟩ := List.map_eq_append_iff.mp sameBehind
  exact ⟨before', range', after', by rw [splitBefore, splitRange], sameRange⟩

/-- Segments of the history before, as boundaries of the grown history. -/
structure GrownExact (messages : List (OpenCodeMessage numbers)) (segment : ReflectionSegment)
    (turn : CompleteTurn numbers) (range : List (IndexedMessage numbers)) : Prop where
  isTurn : turn ∈ (canonicalHistory messages).turns
  user : segment.startUserMessageId = turn.userMessageId
  nonempty : range ≠ []
  start : segment.startSourceMessageId = range.head?.map fun source => source.message.id
  finish : segment.endSourceMessageId = range.getLast?.map fun source => source.message.id
  inTurn : ∃ before after, turn.messages = before ++ (range ++ after)

include distinct in
theorem ExactSegment.grown {turn : CompleteTurn numbers} (isTurn : turn ∈ (canonicalHistory messages).turns)
    {before range after : List (IndexedMessage numbers)} (split : turn.messages = before ++ (range ++ after))
    {closed : Bool} {projectionVersion : Option Int} {segment : ReflectionSegment}
    (exact : ExactSegment turn range closed projectionVersion segment) :
    ∃ grown range', grown.index = turn.index ∧ GrownExact (messages ++ more) segment grown range' := by
  obtain ⟨grown, isGrown, index, user, added, same⟩ := grown_turn distinct isTurn
  obtain ⟨before', range', after', splitGrown, sameRange⟩ := grown_range same split
  have inTurn : range.Sublist turn.messages := by
    rw [split]
    exact (List.sublist_append_left _ _).trans (List.sublist_append_right _ _)
  obtain ⟨start, finish⟩ := exact.cursors (((canonical_history messages).turn_inOrder isTurn).sublist inTurn)
  have ids : ∀ sources : List (IndexedMessage numbers), (sources.head?.map fun source => source.message.id) =
      (sources.map IndexedMessage.message).head?.map OpenCodeMessage.id ∧
        (sources.getLast?.map fun source => source.message.id) =
          (sources.map IndexedMessage.message).getLast?.map OpenCodeMessage.id := by
    intro sources
    rw [List.head?_map, List.getLast?_map, Option.map_map, Option.map_map]
    exact ⟨rfl, rfl⟩
  refine ⟨grown, range', index, isGrown, by rw [exact.startUser, user], ?_, ?_, ?_, before', after', splitGrown⟩
  · intro none
    rw [none, List.map_nil, eq_comm, List.map_eq_nil_iff] at sameRange
    exact exact.nonempty sameRange
  · rw [start, (ids range).1, (ids range').1, sameRange]
  · rw [finish, (ids range).2, (ids range').2, sameRange]

/-- Where its turn is in one piece, an exact segment is found again in the grown history. -/
theorem GrownExact.resolved {grownMessages : List (OpenCodeMessage numbers)}
    (distinct : (grownMessages.map OpenCodeMessage.id).Nodup) {segment : ReflectionSegment}
    {turn : CompleteTurn numbers} {range : List (IndexedMessage numbers)}
    (grown : GrownExact grownMessages segment turn range) (contiguous : Contiguous turn)
    (ids : ReflectionSegment → Option JsString) (eligible : ReflectionSegment → Option Bool)
    (version : boundaryVersion (committed ids eligible segment) = .ok .v2) :
    ∃ indexed, resolveV2Boundary (canonicalHistory grownMessages) (committed ids eligible segment) =
      .ok (some indexed) := by
  obtain ⟨first, follows⟩ := contiguous
  obtain ⟨before, after, split⟩ := grown.inTurn
  exact ⟨_, resolveV2Boundary_exact (distinct_history distinct) grown.isTurn follows split grown.nonempty version
    grown.user grown.start grown.finish⟩

/-- In any case its turn and its cursors are there, so it is found or refused. -/
theorem GrownExact.found {grownMessages : List (OpenCodeMessage numbers)}
    (distinct : (grownMessages.map OpenCodeMessage.id).Nodup) {segment : ReflectionSegment}
    {turn : CompleteTurn numbers} {range : List (IndexedMessage numbers)}
    (grown : GrownExact grownMessages segment turn range)
    (ids : ReflectionSegment → Option JsString) (eligible : ReflectionSegment → Option Bool)
    (version : boundaryVersion (committed ids eligible segment) = .ok .v2) {result : Option IndexedV2Boundary}
    (returned : resolveV2Boundary (canonicalHistory grownMessages) (committed ids eligible segment) = .ok result) :
    ∃ indexed, result = some indexed ∧ indexed.turnIndex = turn.index := by
  have history := distinct_history distinct
  obtain ⟨before, after, split⟩ := grown.inTurn
  obtain ⟨head, isHead⟩ := Option.isSome_iff_exists.mp (List.isSome_head?.mpr grown.nonempty)
  obtain ⟨last, isLast⟩ := Option.isSome_iff_exists.mp (List.getLast?_isSome.mpr grown.nonempty)
  have inHistory : ∀ source ∈ range, source ∈ (canonicalHistory grownMessages).messages := by
    intro source inside
    refine (history.toCanonical.turn_sublist grown.isTurn).subset ?_
    rw [split]
    exact List.mem_append_right _ (List.mem_append_left _ inside)
  have start := grown.start
  have finish := grown.finish
  rw [isHead, Option.map_some] at start
  rw [isLast, Option.map_some] at finish
  have isOwner : (ofEntries ((canonicalHistory grownMessages).turns.map fun turn =>
      (turn.userMessageId, turn))).lookup segment.startUserMessageId = some turn := by
    rw [grown.user]
    apply lookup_ofEntries
    · rw [List.map_map]
      exact history.users
    · exact List.mem_map.mpr ⟨turn, grown.isTurn, rfl⟩
  have startIndex := uniqueSourceIndexes_lookup history.ids (inHistory head (List.mem_of_mem_head? isHead))
  have endIndex := uniqueSourceIndexes_lookup history.ids (inHistory last (List.mem_of_mem_getLast? isLast))
  have whole := returned
  unfold resolveV2Boundary at returned
  rw [version, except_ok_bind] at returned
  dsimp only [committed, boundaryOf] at returned
  rw [isOwner, start, finish, Option.getD_some, Option.getD_some, startIndex, endIndex] at returned
  dsimp only at returned
  split at returned
  · cases returned
  · split at returned
    · cases returned
    · split at returned
      · split at returned
        · cases returned
        · cases returned
          exact ⟨_, rfl, rfl⟩
      · cases returned

/-! ### The boundaries of the history before -/

variable {segments : List ReflectionSegment} (cut : CutInto (canonicalHistory messages).turns segments)
  (ids : ReflectionSegment → Option JsString) (eligible : ReflectionSegment → Option Bool)

end Growing

/-! ### When planning a grown session returns -/

end Reflection.Segments
