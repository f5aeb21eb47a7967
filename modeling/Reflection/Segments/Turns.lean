/-
What a canonical history consists of.

Source messages are numbered in order, and each turn holds exactly the source messages that were
given its number, so the turns share the source out among them. Where the ids of the messages differ,
every turn holds at least its own user.
-/

import Reflection.Segments.History

namespace Reflection.Segments

variable {numbers : Numbers}

/-- A turn holds the source messages with its number, and weighs what they weigh together. -/
def fillTurn (sources : List (IndexedMessage numbers)) (turn : CompleteTurn numbers) :
    CompleteTurn numbers :=
  let own := sources.filter fun source => source.turnIndex == turn.index
  { turn with
    messages := own
    charCount := (own.map fun source => modelVisibleCharWeightOf source.message).sum }

@[simp] theorem fillTurn_index (sources : List (IndexedMessage numbers)) (turn : CompleteTurn numbers) :
    (fillTurn sources turn).index = turn.index := rfl

@[simp] theorem fillTurn_userMessageId (sources : List (IndexedMessage numbers))
    (turn : CompleteTurn numbers) : (fillTurn sources turn).userMessageId = turn.userMessageId := rfl

theorem emptyTurns_index {messages : List (OpenCodeMessage numbers)} {place : Nat}
    {turn : CompleteTurn numbers} (found : (emptyTurns messages)[place]? = some turn) :
    turn.index = place := by
  simp only [emptyTurns, List.getElem?_map, List.getElem?_zipIdx, Option.map_map,
    Option.map_eq_some_iff] at found
  obtain ⟨user, _, rfl⟩ := found
  simp

theorem emptyTurns_messages {messages : List (OpenCodeMessage numbers)} {turn : CompleteTurn numbers}
    (inside : turn ∈ emptyTurns messages) : fillTurn [] turn = turn := by
  simp only [emptyTurns, List.mem_map] at inside
  obtain ⟨user, _, rfl⟩ := inside
  rfl

/-! ### The second pass -/

/-- The history after some of the messages. -/
structure Filled (messages : List (OpenCodeMessage numbers)) (done : List (OpenCodeMessage numbers × Nat))
    (history : CanonicalHistory numbers) : Prop where
  sources : history.messages.map IndexedMessage.message =
    (done.map Prod.fst).filter fun message => (turnOf (userTurns messages) message).isSome
  placed : ∀ (place : Nat) (source : IndexedMessage numbers), history.messages[place]? = some source →
    source.sourceIndex = place
  owner : ∀ source ∈ history.messages,
    turnOf (userTurns messages) source.message = some source.turnIndex
  turns : history.turns = (emptyTurns messages).map (fillTurn history.messages)

theorem fillTurn_append (sources : List (IndexedMessage numbers)) (source : IndexedMessage numbers)
    (turn : CompleteTurn numbers) :
    fillTurn (sources ++ [source]) turn =
      if turn.index = source.turnIndex then
        { fillTurn sources turn with
          messages := (fillTurn sources turn).messages ++ [source]
          charCount := (fillTurn sources turn).charCount + modelVisibleCharWeightOf source.message }
      else fillTurn sources turn := by
  by_cases same : turn.index = source.turnIndex
  · simp [fillTurn, same]
  · have other : ¬source.turnIndex = turn.index := fun equal => same equal.symm
    simp [fillTurn, same, other]

theorem Filled.step {messages : List (OpenCodeMessage numbers)}
    {done : List (OpenCodeMessage numbers × Nat)} {history : CanonicalHistory numbers}
    (filled : Filled messages done history) (entry : OpenCodeMessage numbers × Nat) :
    Filled messages (done ++ [entry]) (addMessage (userTurns messages) history entry) := by
  unfold addMessage
  cases owned : turnOf (userTurns messages) entry.1 with
  | none =>
      refine ⟨?_, filled.placed, filled.owner, filled.turns⟩
      rw [filled.sources, List.map_append, List.filter_append]
      simp [owned]
  | some turnIndex =>
      refine ⟨?_, ?_, ?_, ?_⟩
      · rw [List.map_append, filled.sources, List.map_append, List.filter_append]
        simp [owned]
      · intro place source found
        rcases Nat.lt_or_ge place history.messages.length with before | behind
        · rw [List.getElem?_append_left before] at found
          exact filled.placed place source found
        · rw [List.getElem?_append_right behind, List.getElem?_singleton] at found
          split at found
          · cases found
            simp only
            omega
          · cases found
      · intro source inside
        rcases List.mem_append.mp inside with before | last
        · exact filled.owner source before
        · rw [List.mem_singleton.mp last]
          exact owned
      · apply List.ext_getElem?
        intro place
        rw [List.getElem?_modify, filled.turns, List.getElem?_map, List.getElem?_map]
        cases found : (emptyTurns messages)[place]? with
        | none => simp
        | some turn =>
            have index := emptyTurns_index found
            simp only [Option.map_some, fillTurn_append, index, eq_comm (a := place)]
            split <;> rfl

theorem filled_history (messages : List (OpenCodeMessage numbers)) :
    Filled messages messages.zipIdx
      (messages.zipIdx.foldl (addMessage (userTurns messages))
        { turns := emptyTurns messages
          messages := [] }) := by
  induction messages.zipIdx using List.reverseRecOn with
  | nil =>
      refine ⟨rfl, ?_, ?_, ?_⟩
      · intro place source found
        cases found
      · intro source inside
        cases inside
      · have same : (emptyTurns messages).map (fillTurn []) = (emptyTurns messages).map id :=
          List.map_congr_left fun turn inside => emptyTurns_messages inside
        rw [List.map_id] at same
        exact same.symm
  | append_singleton done entry ih =>
      rw [List.foldl_append]
      exact ih.step entry

/-! ### The finished history -/

/-- What the rest of the planning uses of a history. -/
structure Canonical (history : CanonicalHistory numbers) : Prop where
  placed : ∀ (place : Nat) (source : IndexedMessage numbers), history.messages[place]? = some source →
    source.sourceIndex = place
  numbered : ∀ (place : Nat) (turn : CompleteTurn numbers), history.turns[place]? = some turn →
    turn.index = place
  within : ∀ source ∈ history.messages, source.turnIndex < history.turns.length
  owned : ∀ turn ∈ history.turns,
    turn.messages = history.messages.filter fun source => source.turnIndex == turn.index
  weighed : ∀ turn ∈ history.turns,
    turn.charCount = (turn.messages.map fun source => modelVisibleCharWeightOf source.message).sum
  closed : ∀ turn ∈ history.turns, turn.closed = decide (turn.index < history.turns.length - 1)

theorem closeTurns_getElem? (turns : List (CompleteTurn numbers)) (place : Nat) :
    (closeTurns turns)[place]? = turns[place]?.map fun turn =>
      { turn with closed := decide (place < turns.length - 1) } := by
  simp [closeTurns, List.getElem?_zipIdx, Function.comp_def]

theorem closeTurns_length (turns : List (CompleteTurn numbers)) :
    (closeTurns turns).length = turns.length := by
  simp [closeTurns]

/-- Every turn by its number: the user who opened it and the messages it was filled with. -/
theorem turns_getElem? (messages : List (OpenCodeMessage numbers)) (place : Nat) :
    (canonicalHistory messages).turns[place]? = (normalUsers messages)[place]?.map fun user =>
      { fillTurn (canonicalHistory messages).messages
          { index := place
            userMessageId := user.id
            charCount := 0
            closed := false
            messages := [] } with
        closed := decide (place < (normalUsers messages).length - 1) } := by
  have filled := filled_history messages
  unfold canonicalHistory
  dsimp only
  rw [closeTurns_getElem?, filled.turns]
  simp only [List.getElem?_map, List.length_map, emptyTurns, List.getElem?_zipIdx, Option.map_map,
    List.length_zipIdx, Nat.zero_add]
  rfl

theorem turns_length (messages : List (OpenCodeMessage numbers)) :
    (canonicalHistory messages).turns.length = (normalUsers messages).length := by
  have filled := filled_history messages
  unfold canonicalHistory
  dsimp only
  rw [closeTurns_length, filled.turns]
  simp [emptyTurns]

theorem turns_userMessageId (messages : List (OpenCodeMessage numbers)) :
    (canonicalHistory messages).turns.map CompleteTurn.userMessageId =
      (normalUsers messages).map OpenCodeMessage.id := by
  apply List.ext_getElem?
  intro place
  rw [List.getElem?_map, List.getElem?_map, turns_getElem?, Option.map_map]
  rfl

theorem mem_turns {messages : List (OpenCodeMessage numbers)} {turn : CompleteTurn numbers}
    (inside : turn ∈ (canonicalHistory messages).turns) :
    ∃ user, (normalUsers messages)[turn.index]? = some user ∧ turn.userMessageId = user.id ∧
      (canonicalHistory messages).turns[turn.index]? = some turn := by
  obtain ⟨place, atPlace⟩ := List.getElem?_of_mem inside
  have found := atPlace
  rw [turns_getElem?, Option.map_eq_some_iff] at found
  obtain ⟨user, isUser, rfl⟩ := found
  exact ⟨user, isUser, rfl, atPlace⟩

theorem history_messages (messages : List (OpenCodeMessage numbers)) :
    (canonicalHistory messages).messages.map IndexedMessage.message =
      messages.filter fun message => (turnOf (userTurns messages) message).isSome := by
  have whole : messages.zipIdx.map Prod.fst = messages := List.zipIdx_map_fst 0 messages
  have filled := (filled_history messages).sources
  rw [whole] at filled
  exact filled

theorem message_owner {messages : List (OpenCodeMessage numbers)} {source : IndexedMessage numbers}
    (inside : source ∈ (canonicalHistory messages).messages) :
    turnOf (userTurns messages) source.message = some source.turnIndex :=
  (filled_history messages).owner source inside

/-- A turn that a message belongs to is opened by the user that owns the message. -/
theorem turnOf_owner {messages : List (OpenCodeMessage numbers)} {message : OpenCodeMessage numbers}
    {turnIndex : Nat} (owned : turnOf (userTurns messages) message = some turnIndex) :
    ∃ user, (normalUsers messages)[turnIndex]? = some user ∧ ownerId message = some user.id := by
  unfold turnOf at owned
  rw [Option.bind_eq_some_iff] at owned
  obtain ⟨ownedBy, isOwner, found⟩ := owned
  have entry := lookup_ofEntries_mem found
  simp only [List.mem_map, Prod.mk.injEq] at entry
  obtain ⟨⟨user, place⟩, inside, rfl, rfl⟩ := entry
  exact ⟨user, List.mk_mem_zipIdx_iff_getElem?.mp inside, isOwner⟩

theorem canonical_history (messages : List (OpenCodeMessage numbers)) :
    Canonical (canonicalHistory messages) := by
  refine ⟨(filled_history messages).placed, ?_, ?_, ?_, ?_, ?_⟩
  · intro place turn found
    rw [turns_getElem?, Option.map_eq_some_iff] at found
    obtain ⟨user, _, rfl⟩ := found
    rfl
  · intro source inside
    obtain ⟨user, found, _⟩ := turnOf_owner (message_owner inside)
    rw [turns_length]
    exact (List.getElem?_eq_some_iff.mp found).1
  all_goals
    intro turn inside
    obtain ⟨user, _, _, found⟩ := mem_turns inside
    rw [turns_getElem?, Option.map_eq_some_iff] at found
    obtain ⟨_, _, same⟩ := found
    rw [← same]
    try rw [turns_length]
    rfl

/-! ### Distinct ids -/

/-- What holds besides where the ids of the messages differ. -/
structure Distinct (history : CanonicalHistory numbers) : Prop extends Canonical history where
  ids : (history.messages.map fun source => source.message.id).Nodup
  users : (history.turns.map CompleteTurn.userMessageId).Nodup
  nonempty : ∀ turn ∈ history.turns, turn.messages ≠ []

theorem normalUsers_distinct {messages : List (OpenCodeMessage numbers)}
    (distinct : (messages.map OpenCodeMessage.id).Nodup) :
    ((normalUsers messages).map OpenCodeMessage.id).Nodup :=
  distinct.sublist (List.Sublist.map _ List.filter_sublist)

/-- A user opens the turn of its own number. -/
theorem turnOf_normalUser {messages : List (OpenCodeMessage numbers)}
    (distinct : (messages.map OpenCodeMessage.id).Nodup) {place : Nat} {user : OpenCodeMessage numbers}
    (found : (normalUsers messages)[place]? = some user) {message : OpenCodeMessage numbers}
    (owned : ownerId message = some user.id) : turnOf (userTurns messages) message = some place := by
  unfold turnOf
  rw [owned, Option.bind_some]
  apply lookup_ofEntries
  · rw [List.map_map]
    have ids := normalUsers_distinct distinct
    rw [← List.zipIdx_map_fst 0 (normalUsers messages), List.map_map] at ids
    exact ids
  · exact List.mem_map.mpr ⟨(user, place), List.mk_mem_zipIdx_iff_getElem?.mpr found, rfl⟩

theorem distinct_history {messages : List (OpenCodeMessage numbers)}
    (distinct : (messages.map OpenCodeMessage.id).Nodup) : Distinct (canonicalHistory messages) := by
  refine ⟨canonical_history messages, ?_, ?_, ?_⟩
  · have ids : ((canonicalHistory messages).messages.map fun source => source.message.id) =
        ((canonicalHistory messages).messages.map IndexedMessage.message).map OpenCodeMessage.id := by
      rw [List.map_map]
      rfl
    rw [ids, history_messages]
    exact distinct.sublist (List.Sublist.map _ List.filter_sublist)
  · rw [turns_userMessageId]
    exact normalUsers_distinct distinct
  · intro turn inside empty
    obtain ⟨user, atPlace, _, _⟩ := mem_turns inside
    have isUser := List.mem_filter.mp (List.mem_of_getElem? atPlace)
    have owner : ownerId user = some user.id := by
      unfold ownerId
      rw [if_pos isUser.2]
    have owned := turnOf_normalUser distinct atPlace owner
    have source : user ∈ (canonicalHistory messages).messages.map IndexedMessage.message := by
      rw [history_messages]
      exact List.mem_filter.mpr ⟨isUser.1, by rw [owned]; rfl⟩
    obtain ⟨indexed, isSource, rfl⟩ := List.mem_map.mp source
    have number := message_owner isSource
    rw [owned] at number
    rw [(canonical_history messages).owned turn inside] at empty
    have present : indexed ∈ (canonicalHistory messages).messages.filter fun source =>
        source.turnIndex == turn.index :=
      List.mem_filter.mpr ⟨isSource, by simpa using (Option.some.inj number).symm⟩
    rw [empty] at present
    cases present

end Reflection.Segments
