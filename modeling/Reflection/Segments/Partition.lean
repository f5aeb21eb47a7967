/-
The partition in the words of the messages.

A message belongs to the normal user with its id, or to the one a visible assistant answers. An empty
parent is no parent, so an assistant that answers a user with the empty id belongs to nobody.
-/

import Reflection.Segments.Coverage
import Reflection.Shared.ToolRecognition

namespace Reflection.Segments

open JsString

variable {numbers : Numbers}

/-! ### Canonical messages -/

def Owns (user message : OpenCodeMessage numbers) : Prop :=
  (isNormalUserMessage message = true ∧ message.id = user.id) ∨
    (message.role = .assistant ∧ isModelVisibleMessage message = true ∧ message.parentID = some user.id ∧
      user.id ≠ [])

instance (user message : OpenCodeMessage numbers) : Decidable (Owns user message) :=
  inferInstanceAs (Decidable (_ ∧ _ ∨ _ ∧ _ ∧ _ ∧ _))

/-- The messages that belong to one of some users, in order. -/
def ownedBy (messages users : List (OpenCodeMessage numbers)) : List (OpenCodeMessage numbers) :=
  messages.filter fun message => decide (∃ user ∈ users, Owns user message)

def canonicalMessages (messages : List (OpenCodeMessage numbers)) : List (OpenCodeMessage numbers) :=
  ownedBy messages (normalUsers messages)

theorem ownerId_iff (user message : OpenCodeMessage numbers) :
    ownerId message = some user.id ↔ Owns user message := by
  unfold ownerId Owns
  by_cases normal : isNormalUserMessage message = true
  · have isUser : message.role = .user := by
      simp only [isNormalUserMessage, Bool.and_eq_true, beq_iff_eq] at normal
      exact normal.1.1
    simp [normal, isUser]
  · rw [if_neg normal]
    by_cases visible : message.role = .assistant ∧ isModelVisibleMessage message = true
    · simp [visible.1, visible.2, normal, Option.filter_eq_some_iff]
    · rw [if_neg (by simpa using visible)]
      simp only [reduceCtorEq, normal, false_and, false_or, false_iff]
      exact fun owns => visible ⟨owns.1, owns.2.1⟩

theorem turnOf_isSome_iff (messages : List (OpenCodeMessage numbers)) (message : OpenCodeMessage numbers) :
    (turnOf (userTurns messages) message).isSome = true ↔
      ∃ user ∈ normalUsers messages, Owns user message := by
  rw [Option.isSome_iff_exists]
  constructor
  · rintro ⟨turnIndex, owned⟩
    obtain ⟨user, found, isOwner⟩ := turnOf_owner owned
    exact ⟨user, List.mem_of_getElem? found, (ownerId_iff user message).mp isOwner⟩
  · rintro ⟨user, inside, owns⟩
    unfold turnOf
    rw [(ownerId_iff user message).mpr owns, Option.bind_some]
    apply lookup_ofEntries_isSome
    obtain ⟨place, found⟩ := List.getElem?_of_mem inside
    exact List.mem_map.mpr ⟨(user.id, place),
      List.mem_map.mpr ⟨(user, place), List.mk_mem_zipIdx_iff_getElem?.mpr found, rfl⟩, rfl⟩

theorem history_canonicalMessages (messages : List (OpenCodeMessage numbers)) :
    (canonicalHistory messages).messages.map IndexedMessage.message = canonicalMessages messages := by
  rw [history_messages]
  apply List.filter_congr
  intro message _
  rw [Bool.eq_iff_iff, turnOf_isSome_iff, decide_eq_true_iff]

/-! ### Segments of whole turns -/

/-- A segment that takes all messages of some users, one behind the other. -/
def CoversTurns (messages : List (OpenCodeMessage numbers)) (segment : ReflectionSegment) : Prop :=
  ∃ before covered after : List (OpenCodeMessage numbers),
    normalUsers messages = before ++ (covered ++ after) ∧
      covered.head?.map OpenCodeMessage.id = some segment.startUserMessageId ∧
        covered.getLast?.map OpenCodeMessage.id = some segment.endUserMessageId ∧
          segment.sourceMessageIds = (ownedBy messages covered).map OpenCodeMessage.id

/-- The sources of some turns in order are the messages of their users. -/
theorem sources_of_turns {messages : List (OpenCodeMessage numbers)}
    (distinct : (messages.map OpenCodeMessage.id).Nodup) {before covered after : List (CompleteTurn numbers)}
    (turns : (canonicalHistory messages).turns = before ++ (covered ++ after))
    {users : List (OpenCodeMessage numbers)} (isUsers : users.Sublist (normalUsers messages))
    (sameUsers : users.map OpenCodeMessage.id = covered.map CompleteTurn.userMessageId) :
    (orderedSourceMessages (covered.flatMap CompleteTurn.messages)).map IndexedMessage.message =
      ownedBy messages users := by
  have canonical := canonical_history messages
  have inside : ∀ turn ∈ covered, turn ∈ (canonicalHistory messages).turns := by
    intro turn isTurn
    rw [turns]
    exact List.mem_append_right _ (List.mem_append_left _ isTurn)
  -- Of all source messages, those of the turns are the ones whose turn is among them.
  have ordered : orderedSourceMessages (covered.flatMap CompleteTurn.messages) =
      (canonicalHistory messages).messages.filter fun source =>
        decide (∃ turn ∈ covered, source.turnIndex = turn.index) := by
    apply orderedSourceMessages_eq (canonical.inOrder.sublist List.filter_sublist)
    have sub : (covered.flatMap CompleteTurn.messages).Sublist
        ((canonicalHistory messages).turns.flatMap CompleteTurn.messages) := by
      rw [turns, List.flatMap_append, List.flatMap_append]
      exact (List.sublist_append_left _ _).trans (List.sublist_append_right _ _)
    have nodup : (covered.flatMap CompleteTurn.messages).Nodup :=
      (canonical.turns_perm.nodup_iff.mpr canonical.nodup).sublist sub
    rw [List.perm_ext_iff_of_nodup nodup (canonical.nodup.sublist List.filter_sublist)]
    intro source
    rw [List.mem_flatMap, List.mem_filter, decide_eq_true_iff]
    constructor
    · rintro ⟨turn, isTurn, member⟩
      have owned := (canonical.mem_turn (inside turn isTurn)).mp member
      exact ⟨owned.1, turn, isTurn, owned.2⟩
    · rintro ⟨member, turn, isTurn, number⟩
      exact ⟨turn, isTurn, (canonical.mem_turn (inside turn isTurn)).mpr ⟨member, number⟩⟩
  have same : ∀ source ∈ (canonicalHistory messages).messages,
      (∃ turn ∈ covered, source.turnIndex = turn.index) ↔ ∃ user ∈ users, Owns user source.message := by
    intro source member
    obtain ⟨owner, found, isOwner⟩ := turnOf_owner (message_owner member)
    constructor
    · rintro ⟨turn, isTurn, number⟩
      obtain ⟨user, atTurn, userId, _⟩ := mem_turns (inside turn isTurn)
      rw [number, atTurn] at found
      cases found
      have userOf : turn.userMessageId ∈ users.map OpenCodeMessage.id := by
        rw [sameUsers]
        exact List.mem_map.mpr ⟨turn, isTurn, rfl⟩
      obtain ⟨other, isOther, otherId⟩ := List.mem_map.mp userOf
      exact ⟨other, isOther, (ownerId_iff other source.message).mp (by rw [isOwner, otherId, userId])⟩
    · rintro ⟨user, isUser, owns⟩
      have userOf : user.id ∈ covered.map CompleteTurn.userMessageId := by
        rw [← sameUsers]
        exact List.mem_map.mpr ⟨user, isUser, rfl⟩
      obtain ⟨turn, isTurn, turnId⟩ := List.mem_map.mp userOf
      obtain ⟨opener, atTurn, openerId, _⟩ := mem_turns (inside turn isTurn)
      have owned := (ownerId_iff user source.message).mpr owns
      rw [← turnId, openerId] at owned
      have placed := turnOf_normalUser distinct atTurn owned
      rw [message_owner member] at placed
      exact ⟨turn, isTurn, Option.some.inj placed⟩
  rw [ordered]
  unfold ownedBy
  have narrow : (messages.filter fun message => decide (∃ user ∈ users, Owns user message)) =
      (canonicalMessages messages).filter fun message => decide (∃ user ∈ users, Owns user message) := by
    unfold canonicalMessages ownedBy
    rw [List.filter_filter]
    apply List.filter_congr
    intro message _
    rw [Bool.eq_iff_iff, Bool.and_eq_true, decide_eq_true_iff, decide_eq_true_iff]
    exact ⟨fun ⟨user, isUser, owns⟩ => ⟨⟨user, isUser, owns⟩, user, isUsers.subset isUser, owns⟩,
      fun both => both.1⟩
  rw [narrow, ← history_canonicalMessages, List.filter_map]
  congr 1
  apply List.filter_congr
  intro source member
  rw [Bool.eq_iff_iff, decide_eq_true_iff, Function.comp_apply, decide_eq_true_iff]
  exact same source member

theorem WholeSegment.coversTurns {messages : List (OpenCodeMessage numbers)}
    (distinct : (messages.map OpenCodeMessage.id).Nodup) {before covered after : List (CompleteTurn numbers)}
    (turns : (canonicalHistory messages).turns = before ++ (covered ++ after)) {closed : Bool}
    {projectionVersion : Option Int} {segment : ReflectionSegment}
    (whole : WholeSegment covered closed projectionVersion segment) : CoversTurns messages segment := by
  have users := turns_userMessageId messages
  rw [turns, List.map_append, List.map_append] at users
  obtain ⟨first, behind, split, sameFirst, sameBehind⟩ := List.map_eq_append_iff.mp users.symm
  obtain ⟨middle, last, alsoSplit, sameMiddle, _⟩ := List.map_eq_append_iff.mp sameBehind
  refine ⟨first, middle, last, by rw [split, alsoSplit], ?_, ?_, ?_⟩
  · rw [← List.head?_map, sameMiddle, List.head?_map]
    exact whole.startUser
  · rw [← List.getLast?_map, sameMiddle, List.getLast?_map]
    exact whole.endUser
  · have sub : middle.Sublist (normalUsers messages) := by
      rw [split, alsoSplit]
      exact (List.sublist_append_left _ _).trans (List.sublist_append_right _ _)
    rw [whole.ids, ← sources_of_turns distinct turns sub sameMiddle, List.map_map]
    rfl

/-! ### Exact segments -/

/-- A segment that takes a run of canonical messages of one user, with the ends as its cursors. -/
def CoversRun (messages : List (OpenCodeMessage numbers)) (segment : ReflectionSegment) : Prop :=
  ∃ user ∈ normalUsers messages,
    segment.startUserMessageId = user.id ∧ segment.endUserMessageId = user.id ∧
      ∃ before run after : List (OpenCodeMessage numbers),
        canonicalMessages messages = before ++ (run ++ after) ∧ run ≠ [] ∧
          (∀ message ∈ run, Owns user message) ∧ segment.sourceMessageIds = run.map OpenCodeMessage.id ∧
            segment.startSourceMessageId = run.head?.map OpenCodeMessage.id ∧
              segment.endSourceMessageId = run.getLast?.map OpenCodeMessage.id

/-- The messages of a contiguous turn are a slice of the source. -/
theorem Canonical.contiguous_slice {history : CanonicalHistory numbers} (canonical : Canonical history)
    {turn : CompleteTurn numbers} (isTurn : turn ∈ history.turns) {first : Nat}
    (contiguous : ∀ (place : Nat) (source : IndexedMessage numbers), turn.messages[place]? = some source →
      source.sourceIndex = first + place) :
    turn.messages = history.messages.extract first (first + turn.messages.length) := by
  apply List.ext_getElem?
  intro place
  rw [getElem?_extract]
  cases found : turn.messages[place]? with
  | none =>
      have outside := List.getElem?_eq_none_iff.mp found
      rw [if_neg (by omega)]
  | some source =>
      have within := (List.getElem?_eq_some_iff.mp found).1
      have member := ((canonical.mem_turn isTurn).mp (List.mem_of_getElem? found)).1
      obtain ⟨position, atPosition⟩ := List.getElem?_of_mem member
      have number := canonical.placed position source atPosition
      rw [if_pos (by omega), ← contiguous place source found, number, atPosition]

theorem Canonical.contiguous_split {history : CanonicalHistory numbers} (canonical : Canonical history)
    {turn : CompleteTurn numbers} (isTurn : turn ∈ history.turns) (contiguous : Contiguous turn) :
    ∃ before after, history.messages = before ++ (turn.messages ++ after) := by
  obtain ⟨first, follows⟩ := contiguous
  have slice := canonical.contiguous_slice isTurn follows
  refine ⟨history.messages.take first, history.messages.drop (first + turn.messages.length), ?_⟩
  have whole : history.messages.take first ++ (history.messages.extract first (first + turn.messages.length) ++
      history.messages.drop (first + turn.messages.length)) = history.messages :=
    take_append_extract_append_drop (Nat.le_add_right first turn.messages.length)
  rw [← slice] at whole
  exact whole.symm

theorem ExactSegment.coversRun {messages : List (OpenCodeMessage numbers)} {turn : CompleteTurn numbers}
    (isTurn : turn ∈ (canonicalHistory messages).turns) (contiguous : Contiguous turn)
    {before range after : List (IndexedMessage numbers)} (split : turn.messages = before ++ (range ++ after))
    {closed : Bool} {projectionVersion : Option Int} {segment : ReflectionSegment}
    (exact : ExactSegment turn range closed projectionVersion segment) : CoversRun messages segment := by
  have canonical := canonical_history messages
  obtain ⟨user, isUser, userId, _⟩ := mem_turns isTurn
  obtain ⟨earlier, later, whole⟩ := canonical.contiguous_split isTurn contiguous
  have inTurn : range.Sublist turn.messages := by
    rw [split]
    exact (List.sublist_append_left _ _).trans (List.sublist_append_right _ _)
  have ordered : orderedSourceMessages range = range :=
    orderedSourceMessages_eq (canonical.inOrder.sublist (inTurn.trans (canonical.turn_sublist isTurn)))
      (List.Perm.refl _)
  refine ⟨user, List.mem_of_getElem? isUser, by rw [exact.startUser, userId], by rw [exact.endUser, userId],
    (earlier ++ before).map IndexedMessage.message, range.map IndexedMessage.message,
    (after ++ later).map IndexedMessage.message, ?_, ?_, ?_, ?_, ?_, ?_⟩
  · rw [← history_canonicalMessages, whole, split]
    simp only [List.map_append, List.append_assoc]
  · exact fun empty => exact.nonempty (List.map_eq_nil_iff.mp empty)
  · intro message inside
    obtain ⟨source, isSource, rfl⟩ := List.mem_map.mp inside
    have owned := (canonical.mem_turn isTurn).mp (inTurn.subset isSource)
    obtain ⟨owner, found, isOwner⟩ := turnOf_owner (message_owner owned.1)
    rw [owned.2, isUser] at found
    cases found
    exact (ownerId_iff user source.message).mp isOwner
  · rw [exact.ids, ordered, List.map_map]
    rfl
  · rw [exact.start, ordered, List.head?_map, Option.map_map]
    rfl
  · rw [exact.finish, ordered, List.getLast?_map, Option.map_map]
    rfl

/-! ### The partition -/

theorem turns_canonical_ids (messages : List (OpenCodeMessage numbers)) :
    (((canonicalHistory messages).turns.flatMap CompleteTurn.messages).map fun source =>
        source.message.id).Perm ((canonicalMessages messages).map OpenCodeMessage.id) := by
  rw [← history_canonicalMessages, List.map_map]
  exact (canonical_history messages).turns_perm.map _

/-- The canonical messages, each in one segment, in source order, by whole turns or by runs. -/
theorem segmentMessages_partition (localeCompare : JsString → JsString → Ordering)
    (messages : List (OpenCodeMessage numbers)) (maxChars : Nat) (boundaries : List CommittedSegmentBoundary)
    (segments : List ReflectionSegment) (distinct : (messages.map OpenCodeMessage.id).Nodup)
    (segmented : segmentMessages localeCompare messages maxChars boundaries = .ok segments) :
    (segments.flatMap ReflectionSegment.sourceMessageIds).Perm
        ((canonicalMessages messages).map OpenCodeMessage.id) ∧
      (segments.flatMap ReflectionSegment.sourceMessageIds).Nodup ∧
        ∀ segment ∈ segments, segment.sourceMessageIds.Sublist (messages.map OpenCodeMessage.id) ∧
          match segment.sourceBoundaryVersion with
          | .v1 => CoversTurns messages segment
          | .v2 => CoversRun messages segment := by
  have cut := segmentMessages_cut segmented
  have perm := cut.ids_perm.trans (turns_canonical_ids messages)
  have canonicalSub : (canonicalMessages messages).Sublist messages := List.filter_sublist
  refine ⟨perm, perm.nodup_iff.mpr (distinct.sublist (canonicalSub.map _)), ?_⟩
  intro segment inside
  rcases cut.mem inside with ⟨before, covered, after, closed, version, turns, whole⟩ |
    ⟨turn, isTurn, contiguous, before, range, after, closed, version, split, exact⟩
  · rw [whole.version]
    refine ⟨?_, whole.coversTurns distinct turns⟩
    obtain ⟨_, users, _, _, _, _, ids⟩ := whole.coversTurns distinct turns
    rw [ids]
    exact List.filter_sublist.map _
  · rw [exact.version]
    refine ⟨?_, exact.coversRun isTurn contiguous split⟩
    obtain ⟨_, _, _, _, earlier, run, later, canonical, _, _, ids, _⟩ := exact.coversRun isTurn contiguous split
    have runSub : run.Sublist (canonicalMessages messages) := by
      rw [canonical]
      exact (List.sublist_append_left _ _).trans (List.sublist_append_right _ _)
    rw [ids]
    exact (runSub.trans canonicalSub).map _

/-! ### Samples -/

def sampleUser (id : JsString) : OpenCodeMessage digitNumbers :=
  { id := id
    role := .user
    parentID := none
    error := none
    time := none
    parts := [] }

def sampleAnswer (id parentID text : JsString) : OpenCodeMessage digitNumbers :=
  { id := id
    role := .assistant
    parentID := some parentID
    error := none
    time := none
    parts :=
      [{ body := .text (some text)
         synthetic := none
         ignored := none
         metadata := none }] }

/-- Two turns of four characters, of which the second answer comes before the first. -/
def sampleHistory : List (OpenCodeMessage digitNumbers) :=
  [sampleUser [1], sampleUser [2], sampleAnswer [3] [2] [7, 7, 7, 7], sampleAnswer [4] [1] [8, 8, 8, 8]]

theorem segmentMessages_partition_sample : ∃ segments,
    segmentMessages (fun _ _ => .eq) sampleHistory 5 [] = .ok segments ∧ segments.length = 2 ∧
      (segments.flatMap ReflectionSegment.sourceMessageIds).Perm
          ((canonicalMessages sampleHistory).map OpenCodeMessage.id) ∧
        (segments.flatMap ReflectionSegment.sourceMessageIds).Nodup ∧
          ∀ segment ∈ segments, segment.sourceMessageIds.Sublist (sampleHistory.map OpenCodeMessage.id) ∧
            match segment.sourceBoundaryVersion with
            | .v1 => CoversTurns sampleHistory segment
            | .v2 => CoversRun sampleHistory segment := by
  have segmented := segmentMessages_uncommitted (fun _ _ => .eq) sampleHistory (show 5 ≠ 0 by decide)
  have returned : ∃ segments, segmentTurns (canonicalHistory sampleHistory).turns uncommittedPlan 5
      (canonicalHistory sampleHistory).turns.length 0 [] = .ok segments ∧ segments.length = 2 :=
    ⟨_, rfl, rfl⟩
  obtain ⟨segments, isSegments, two⟩ := returned
  rw [isSegments] at segmented
  exact ⟨segments, segmented, two,
    segmentMessages_partition (fun _ _ => .eq) sampleHistory 5 [] segments (by decide) segmented⟩

/-- An assistant that answers a user with the empty id. -/
def emptyParentHistory : List (OpenCodeMessage digitNumbers) :=
  [sampleUser [], sampleAnswer [3] [] [7]]

theorem empty_parent_in_no_segment : (emptyParentHistory.map OpenCodeMessage.id).Nodup ∧
    ∃ segments, segmentMessages (fun _ _ => .eq) emptyParentHistory 5 [] = .ok segments ∧
      ∃ user ∈ emptyParentHistory, isNormalUserMessage user = true ∧
        ∃ message ∈ emptyParentHistory, message.role = .assistant ∧ isModelVisibleMessage message = true ∧
          message.parentID = some user.id ∧
            message.id ∉ segments.flatMap ReflectionSegment.sourceMessageIds := by
  have segmented := segmentMessages_uncommitted (fun _ _ => .eq) emptyParentHistory (show 5 ≠ 0 by decide)
  have returned : ∃ segments, segmentTurns (canonicalHistory emptyParentHistory).turns uncommittedPlan 5
      (canonicalHistory emptyParentHistory).turns.length 0 [] = .ok segments ∧
        segments.flatMap ReflectionSegment.sourceMessageIds = [[]] :=
    ⟨_, rfl, rfl⟩
  obtain ⟨segments, isSegments, ids⟩ := returned
  rw [isSegments] at segmented
  refine ⟨by decide, segments, segmented, sampleUser [], List.mem_cons_self, rfl, sampleAnswer [3] [] [7],
    List.mem_cons_of_mem _ List.mem_cons_self, rfl, rfl, rfl, ?_⟩
  rw [ids]
  decide

end Reflection.Segments
