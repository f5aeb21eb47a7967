/-
Which closed segments are final.

Nothing is committed here. New messages belong to the last turn or open new ones, so the loop does the
same until it comes to that turn. What it closed before stays closed, a fragment that it closed is cut
again, and a pack that was closed because it is exactly full is lost when its last turn gains a message.
-/

import Reflection.Segments.Growth

namespace Reflection.Segments

variable {numbers : Numbers}

/-! ### The loop where nothing is committed -/

def plainTurns (maxChars : Nat) : List (CompleteTurn numbers) → List (CompleteTurn numbers) →
    Except SegmentationError (List ReflectionSegment)
  | ordinaryTurns, [] => packTurns ordinaryTurns maxChars false
  | ordinaryTurns, turn :: rest =>
      if (maxChars : ℕ∞) < turn.charCount then do
        let packed ← packTurns ordinaryTurns maxChars true
        let fragments ← fragmentTurn turn [] maxChars
        let others ← plainTurns maxChars [] rest
        .ok (packed ++ fragments ++ others)
      else plainTurns maxChars (ordinaryTurns ++ [turn]) rest

theorem segmentTurns_plain (turns : List (CompleteTurn numbers)) (maxChars : Nat) {rounds turnIndex : Nat}
    (ordinaryTurns : List (CompleteTurn numbers)) (enough : turns.length ≤ turnIndex + rounds) :
    segmentTurns turns uncommittedPlan maxChars rounds turnIndex ordinaryTurns =
      plainTurns maxChars ordinaryTurns (turns.drop turnIndex) := by
  induction rounds generalizing turnIndex ordinaryTurns with
  | zero =>
      rw [List.drop_eq_nil_of_le (show turns.length ≤ turnIndex from enough)]
      rfl
  | succ rounds ih =>
      unfold segmentTurns
      cases found : turns[turnIndex]? with
      | none =>
          rw [List.drop_eq_nil_of_le (List.getElem?_eq_none_iff.mp found)]
          rfl
      | some turn =>
          obtain ⟨within, same⟩ := List.getElem?_eq_some_iff.mp found
          have noV1 : uncommittedPlan.v1At turnIndex = none := rfl
          have fragmented : uncommittedPlan.isFragmented maxChars turn turnIndex =
              decide ((maxChars : ℕ∞) < turn.charCount) := rfl
          have noV2 : uncommittedPlan.v2At turnIndex = [] := rfl
          rw [noV1, List.drop_eq_getElem_cons within, same, plainTurns]
          dsimp only
          rw [fragmented, noV2, ih _ (by omega), ih _ (by omega)]
          simp only [decide_eq_true_eq]

/-! ### Fragments of a turn that grows -/

section Fragments

variable {Message : Type} {isLegalActiveTurnCut : Message → Bool} {weightOf : Message → ℕ∞}

theorem extract_append_left {front : List Message} (back : List Message) {start finish : Nat}
    (within : finish ≤ front.length) : (front ++ back).extract start finish = front.extract start finish := by
  rw [List.extract_eq_take_drop, List.extract_eq_take_drop, ← List.drop_take, ← List.drop_take,
    List.take_append_of_le_length within]

theorem rangeWeight_append {messages : List Message} (more : List Message) {start finish : Nat}
    (ordered : start ≤ finish) (within : finish < messages.length) :
    Fragments.rangeWeight ((messages ++ more).map weightOf) start finish =
      Fragments.rangeWeight (messages.map weightOf) start finish := by
  rw [Fragments.rangeWeight_eq ordered (by rw [List.length_append]; omega), Fragments.rangeWeight_eq ordered within,
    extract_append_left more (by omega)]

/-- What the scan closes before it comes to the end, it closes whatever follows. -/
theorem fragmentScan_grown (messages more : List Message) (maxChars : Nat) (laterClosed : Bool) {start index : Nat}
    {lastLegalCut : Int} (forward : start ≤ index) (behind : lastLegalCut < index) {range : List Message}
    (closed : (range, true) ∈ Fragments.fragmentScan isLegalActiveTurnCut messages (messages.map weightOf) maxChars
      false start index lastLegalCut forward) :
    (range, true) ∈ Fragments.fragmentScan isLegalActiveTurnCut (messages ++ more)
      ((messages ++ more).map weightOf) maxChars laterClosed start index lastLegalCut forward := by
  have longer : messages.length ≤ (messages ++ more).length := by
    rw [List.length_append]
    exact Nat.le_add_right _ _
  fun_induction Fragments.fragmentScan isLegalActiveTurnCut messages (messages.map weightOf) maxChars false
    start index lastLegalCut forward with
  | case1 start index lastLegalCut forward inside nextWeight rewinds next ih =>
      have same : nextWeight = _ := (rangeWeight_append more forward inside).symm
      rw [same] at rewinds
      have nextWithin : next ≤ messages.length := by omega
      unfold Fragments.fragmentScan
      rw [dif_pos (by omega)]
      dsimp only
      rw [dif_pos rewinds, extract_append_left more nextWithin]
      rcases List.mem_cons.mp closed with first | later
      · rw [first]
        exact List.mem_cons_self
      · exact List.mem_cons_of_mem _ (ih (by omega) later)
  | case2 start index lastLegalCut forward inside nextWeight stays legalCut full ih =>
      have same : nextWeight = _ := (rangeWeight_append more forward inside).symm
      have longer : index < (messages ++ more).length := by
        rw [List.length_append]
        omega
      have here : (messages ++ more)[index] = messages[index] := List.getElem_append_left inside
      rw [same] at stays full
      unfold Fragments.fragmentScan
      rw [dif_pos longer]
      dsimp only
      rw [dif_neg stays, here, if_pos full, extract_append_left more inside]
      rcases List.mem_cons.mp closed with first | later
      · rw [first]
        exact List.mem_cons_self
      · exact List.mem_cons_of_mem _ (ih (by omega) later)
  | case3 start index lastLegalCut forward inside nextWeight stays legalCut notFull ih =>
      have same : nextWeight = _ := (rangeWeight_append more forward inside).symm
      have longer : index < (messages ++ more).length := by
        rw [List.length_append]
        omega
      have here : (messages ++ more)[index] = messages[index] := List.getElem_append_left inside
      rw [same] at stays notFull
      unfold Fragments.fragmentScan
      rw [dif_pos longer]
      dsimp only
      rw [dif_neg stays, here, if_neg notFull]
      refine ih ?_ closed
      split <;> omega
  | case4 start index lastLegalCut forward outside remains =>
      rw [List.mem_singleton, Prod.mk.injEq] at closed
      cases closed.2
  | case5 start index lastLegalCut forward outside nothing => cases closed

theorem fragmentSourceRange_grown (messages more : List Message) (maxChars : Nat) (laterClosed : Bool)
    {range : List Message}
    (closed : (range, true) ∈ Fragments.fragmentSourceRange isLegalActiveTurnCut weightOf messages maxChars false) :
    (range, true) ∈
      Fragments.fragmentSourceRange isLegalActiveTurnCut weightOf (messages ++ more) maxChars laterClosed := by
  cases messages with
  | nil => cases closed
  | cons message rest => exact fragmentScan_grown (message :: rest) more maxChars laterClosed le_rfl (by omega) closed

end Fragments

/-! ### Packs -/

section Packs

variable {maxChars : Nat}

/-- What a loop over the first turns leaves: finished segments, and the current turns. -/
theorem packFrom_front {front : List (CompleteTurn numbers)} (current : List (CompleteTurn numbers))
    (currentChars : ℕ∞) (light : ∀ turn ∈ front, turn.charCount ≤ (maxChars : ℕ∞))
    (nonempty : ∀ turn ∈ current ++ front, turn.messages ≠ []) :
    ∃ finished kept keptChars, ∀ forceClosed back,
      packFrom maxChars forceClosed current currentChars (front ++ back) =
        (packFrom maxChars forceClosed kept keptChars back).map (finished ++ ·) := by
  induction front generalizing current currentChars with
  | nil =>
      refine ⟨[], current, currentChars, fun forceClosed back => ?_⟩
      rw [List.nil_append]
      cases packFrom maxChars forceClosed current currentChars back <;> rfl
  | cons turn rest ih =>
      have lightRest : ∀ other ∈ rest, other.charCount ≤ (maxChars : ℕ∞) := fun other inside =>
        light other (List.mem_cons_of_mem _ inside)
      have notHeavy := not_lt_of_ge (light turn List.mem_cons_self)
      have inCurrent : ∀ other ∈ current, other.messages ≠ [] := fun other inside =>
        nonempty other (List.mem_append_left _ inside)
      have inRest : ∀ other ∈ turn :: rest, other.messages ≠ [] := fun other inside =>
        nonempty other (List.mem_append_right _ inside)
      have pushed : ∀ (pack : List (CompleteTurn numbers)) (packChars : ℕ∞), pack ≠ [] →
          (∀ other ∈ pack, other.messages ≠ []) →
          ∃ finished kept keptChars, ∀ forceClosed back, (if packChars = maxChars then do
              let segment ← makeV1Segment pack true none
              let others ← packFrom maxChars forceClosed [] 0 (rest ++ back)
              .ok (segment :: others)
            else packFrom maxChars forceClosed pack packChars (rest ++ back)) =
              (packFrom maxChars forceClosed kept keptChars back).map (finished ++ ·) := by
        intro pack packChars some inPack
        by_cases full : packChars = maxChars
        · obtain ⟨segment, made⟩ := makeV1Segment_returns true none some inPack
          obtain ⟨finished, kept, keptChars, same⟩ := ih [] 0 lightRest fun other inside =>
            inRest other (List.mem_cons_of_mem _ (List.nil_append rest ▸ inside))
          refine ⟨segment :: finished, kept, keptChars, fun forceClosed back => ?_⟩
          rw [if_pos full, made, except_ok_bind, same]
          cases packFrom maxChars forceClosed kept keptChars back <;> rfl
        · obtain ⟨finished, kept, keptChars, same⟩ := ih pack packChars lightRest fun other inside => by
            rcases List.mem_append.mp inside with before | behind
            · exact inPack other before
            · exact inRest other (List.mem_cons_of_mem _ behind)
          refine ⟨finished, kept, keptChars, fun forceClosed back => ?_⟩
          rw [if_neg full, same]
      by_cases overflow : (!current.isEmpty && decide ((maxChars : ℕ∞) < currentChars + turn.charCount)) = true
      · have some : current ≠ [] := by
          rw [Bool.and_eq_true, Bool.not_eq_true', List.isEmpty_eq_false_iff] at overflow
          exact overflow.1
        obtain ⟨segment, made⟩ := makeV1Segment_returns true none some inCurrent
        obtain ⟨finished, kept, keptChars, same⟩ := pushed [turn] turn.charCount (List.cons_ne_nil _ _)
          fun other inside => by
            rw [List.mem_singleton.mp inside]
            exact inRest turn List.mem_cons_self
        refine ⟨segment :: finished, kept, keptChars, fun forceClosed back => ?_⟩
        rw [List.cons_append, packFrom]
        dsimp only
        rw [if_neg notHeavy, if_pos overflow, made, except_ok_bind, same]
        cases packFrom maxChars forceClosed kept keptChars back <;> rfl
      · obtain ⟨finished, kept, keptChars, same⟩ := pushed (current ++ [turn]) (currentChars + turn.charCount)
          (List.append_ne_nil_of_right_ne_nil _ (List.cons_ne_nil _ _)) fun other inside => by
            rcases List.mem_append.mp inside with before | last
            · exact inCurrent other before
            · rw [List.mem_singleton.mp last]
              exact inRest turn List.mem_cons_self
        refine ⟨finished, kept, keptChars, fun forceClosed back => ?_⟩
        rw [List.cons_append, packFrom]
        dsimp only
        rw [if_neg notHeavy, if_neg overflow]
        exact same forceClosed back

/-- The next turn does not fit behind the current ones. -/
def overflows (maxChars : Nat) (kept : List (CompleteTurn numbers)) (keptChars : ℕ∞) (turn : CompleteTurn numbers) :
    Bool :=
  !kept.isEmpty && decide ((maxChars : ℕ∞) < keptChars + turn.charCount)

/-- The turns that the next one is put behind, with their weight. -/
def packedBehind (maxChars : Nat) (kept : List (CompleteTurn numbers)) (keptChars : ℕ∞)
    (turn : CompleteTurn numbers) : List (CompleteTurn numbers) × ℕ∞ :=
  if overflows maxChars kept keptChars turn then ([], 0) else (kept, keptChars)

variable {forceClosed : Bool} {kept back : List (CompleteTurn numbers)} {keptChars : ℕ∞}
  {turn : CompleteTurn numbers} {segments : List ReflectionSegment}

/-- One round: what it closes before the turn, and the pack with the turn where that is full. -/
theorem packFrom_round (light : turn.charCount ≤ (maxChars : ℕ∞))
    (packed : packFrom maxChars forceClosed kept keptChars (turn :: back) = .ok segments) :
    ∃ before behind, segments = before ++ behind ∧
      (if overflows maxChars kept keptChars turn then
        ∃ segment, makeV1Segment kept true none = .ok segment ∧ before = [segment] else before = []) ∧
      (if (packedBehind maxChars kept keptChars turn).2 + turn.charCount = maxChars then
        ∃ segment others, makeV1Segment ((packedBehind maxChars kept keptChars turn).1 ++ [turn]) true none = .ok segment ∧
          packFrom maxChars forceClosed [] 0 back = .ok others ∧ behind = segment :: others
      else packFrom maxChars forceClosed ((packedBehind maxChars kept keptChars turn).1 ++ [turn])
        ((packedBehind maxChars kept keptChars turn).2 + turn.charCount) back = .ok behind) := by
  rw [packFrom] at packed
  dsimp only at packed
  rw [if_neg (not_lt_of_ge light)] at packed
  have pushed : ∀ {pack : List (CompleteTurn numbers)} {packChars : ℕ∞} {behind : List ReflectionSegment},
      (if packChars = maxChars then do
          let segment ← makeV1Segment pack true none
          let others ← packFrom maxChars forceClosed [] 0 back
          .ok (segment :: others)
        else packFrom maxChars forceClosed pack packChars back) = .ok behind →
      if packChars = maxChars then
        ∃ segment others, makeV1Segment pack true none = .ok segment ∧
          packFrom maxChars forceClosed [] 0 back = .ok others ∧ behind = segment :: others
      else packFrom maxChars forceClosed pack packChars back = .ok behind := by
    intro pack packChars behind pushing
    split at pushing
    · rename_i full
      rw [if_pos full]
      obtain ⟨segment, made, pushing⟩ := except_bind_ok pushing
      obtain ⟨others, areOthers, same⟩ := except_bind_ok pushing
      cases same
      exact ⟨segment, others, made, areOthers, rfl⟩
    · rename_i notFull
      rw [if_neg notFull]
      exact pushing
  unfold packedBehind
  rw [show (!kept.isEmpty && decide ((maxChars : ℕ∞) < keptChars + turn.charCount)) =
    overflows maxChars kept keptChars turn from rfl] at packed
  by_cases overflow : overflows maxChars kept keptChars turn
  · rw [if_pos overflow] at packed
    obtain ⟨segment, made, packed⟩ := except_bind_ok packed
    obtain ⟨behind, areBehind, same⟩ := except_bind_ok packed
    cases same
    refine ⟨[segment], behind, rfl, ?_, ?_⟩
    · rw [if_pos overflow]
      exact ⟨segment, made, rfl⟩
    · rw [if_pos overflow]
      dsimp only
      rw [List.nil_append, zero_add]
      exact pushed areBehind
  · rw [if_neg overflow] at packed
    refine ⟨[], segments, rfl, ?_, ?_⟩
    · rw [if_neg overflow]
    · rw [if_neg overflow]
      exact pushed packed

theorem except_map_ok {ε α β : Type} {f : α → β} {result : Except ε α} {value : β}
    (returned : result.map f = .ok value) : ∃ inner, result = .ok inner ∧ f inner = value := by
  cases result with
  | error _ => cases returned
  | ok inner => exact ⟨inner, rfl, Except.ok.inj returned⟩

/-- The pack that holds the last turn, where the loop ends with it. -/
theorem packFrom_end {pack : List (CompleteTurn numbers)} {packChars : ℕ∞}
    (packed : packFrom maxChars forceClosed pack packChars [] = .ok segments) :
    segments = [] ∧ pack = [] ∨ ∃ segment, makeV1Segment pack forceClosed none = .ok segment ∧ segments = [segment] := by
  unfold packFrom at packed
  split at packed
  · rename_i empty
    cases packed
    exact Or.inl ⟨rfl, List.isEmpty_iff.mp empty⟩
  · obtain ⟨segment, made, same⟩ := except_bind_ok packed
    cases same
    exact Or.inr ⟨segment, made, rfl⟩

/-- A closed pack is packed again when the last turn grows, or it is full and holds that turn. -/
theorem packTurns_last {ordinary : List (CompleteTurn numbers)}
    (light : ∀ other ∈ ordinary, other.charCount ≤ (maxChars : ℕ∞)) (lightTurn : turn.charCount ≤ (maxChars : ℕ∞))
    (nonempty : ∀ other ∈ ordinary, other.messages ≠ [])
    (packed : packTurns (ordinary ++ [turn]) maxChars false = .ok segments) {segment : ReflectionSegment}
    (inside : segment ∈ segments) (closed : segment.closed = true) :
    ((∀ others, packTurns ordinary maxChars true = .ok others → segment ∈ others) ∧
      ∀ grown back laterClosed others, turn.charCount ≤ grown.charCount → grown.charCount ≤ (maxChars : ℕ∞) →
        packTurns (ordinary ++ grown :: back) maxChars laterClosed = .ok others → segment ∈ others) ∨
    ∃ front, makeV1Segment (front ++ [turn]) true none = .ok segment ∧
      ∀ grown back laterClosed others, grown.charCount = turn.charCount →
        packTurns (ordinary ++ grown :: back) maxChars laterClosed = .ok others →
          ∃ again ∈ others, makeV1Segment (front ++ [grown]) true none = .ok again := by
  obtain ⟨finished, kept, keptChars, same⟩ := packFrom_front [] 0 light nonempty
  unfold packTurns at packed ⊢
  rw [same] at packed
  obtain ⟨tail, areTail, rfl⟩ := except_map_ok packed
  obtain ⟨before, behind, rfl, isBefore, isBehind⟩ := packFrom_round lightTurn areTail
  have alone := same true []
  rw [List.append_nil] at alone
  rcases List.mem_append.mp inside with isFinished | inTail
  · left
    refine ⟨fun others areOthers => ?_, fun grown back laterClosed others _ _ areOthers => ?_⟩
    · rw [alone] at areOthers
      obtain ⟨_, _, rfl⟩ := except_map_ok areOthers
      exact List.mem_append_left _ isFinished
    · rw [same] at areOthers
      obtain ⟨_, _, rfl⟩ := except_map_ok areOthers
      exact List.mem_append_left _ isFinished
  · rcases List.mem_append.mp inTail with inBefore | inBehind
    · left
      split at isBefore
      · rename_i overflow
        obtain ⟨first, made, rfl⟩ := isBefore
        rw [List.mem_singleton.mp inBefore]
        have parts : kept ≠ [] ∧ (maxChars : ℕ∞) < keptChars + turn.charCount := by
          simpa [overflows] using overflow
        refine ⟨fun others areOthers => ?_, fun grown back laterClosed others heavier lightGrown areOthers => ?_⟩
        · rw [alone] at areOthers
          obtain ⟨rest, areRest, rfl⟩ := except_map_ok areOthers
          rcases packFrom_end areRest with ⟨_, none⟩ | ⟨last, alsoMade, rfl⟩
          · exact absurd none parts.1
          · rw [made] at alsoMade
            cases alsoMade
            exact List.mem_append_right _ List.mem_cons_self
        · rw [same] at areOthers
          obtain ⟨rest, areRest, rfl⟩ := except_map_ok areOthers
          obtain ⟨early, _, rfl, isEarly, _⟩ := packFrom_round lightGrown areRest
          have alsoOverflow : overflows maxChars kept keptChars grown = true := by
            simpa [overflows, parts.1] using lt_of_lt_of_le parts.2 (add_le_add_right heavier keptChars)
          rw [if_pos alsoOverflow] at isEarly
          obtain ⟨again, alsoMade, rfl⟩ := isEarly
          rw [made] at alsoMade
          cases alsoMade
          exact List.mem_append_right _ (List.mem_append_left _ List.mem_cons_self)
      · rw [isBefore] at inBefore
        cases inBefore
    · right
      refine ⟨(packedBehind maxChars kept keptChars turn).1, ?_⟩
      split at isBehind
      · rename_i full
        obtain ⟨first, others, made, areOthers, rfl⟩ := isBehind
        have only : segment = first := by
          rcases List.mem_cons.mp inBehind with isFirst | isOther
          · exact isFirst
          · rcases packFrom_end areOthers with ⟨none, _⟩ | ⟨last, alsoMade, _⟩
            · rw [none] at isOther
              cases isOther
            · cases alsoMade
        rw [only]
        refine ⟨made, fun grown back laterClosed others sameChars areOthers => ?_⟩
        rw [same] at areOthers
        obtain ⟨rest, areRest, rfl⟩ := except_map_ok areOthers
        obtain ⟨_, late, rfl, _, isLate⟩ := packFrom_round (sameChars ▸ lightTurn) areRest
        have sameFront : packedBehind maxChars kept keptChars grown = packedBehind maxChars kept keptChars turn := by
          unfold packedBehind overflows
          rw [sameChars]
        rw [sameFront, sameChars, if_pos full] at isLate
        obtain ⟨again, _, alsoMade, _, rfl⟩ := isLate
        exact ⟨again, List.mem_append_right _ (List.mem_append_right _ List.mem_cons_self), alsoMade⟩
      · -- The pack at the end of the loop is open.
        rcases packFrom_end isBehind with ⟨none, _⟩ | ⟨last, made, rfl⟩
        · rw [none] at inBehind
          cases inBehind
        · rw [List.mem_singleton.mp inBehind, (makeV1Segment_whole made).state] at closed
          cases closed

end Packs

/-! ### The loop when the last turn grows -/

/-- The same turn with more messages behind its own. -/
structure Grows (turn grown : CompleteTurn numbers) (gained : List (IndexedMessage numbers)) : Prop where
  user : grown.userMessageId = turn.userMessageId
  messages : grown.messages = turn.messages ++ gained
  heavier : turn.charCount ≤ grown.charCount

section Loop

variable {maxChars : Nat} {turn grown : CompleteTurn numbers} {gained : List (IndexedMessage numbers)}
  {segments others : List ReflectionSegment} {segment : ReflectionSegment}

theorem fragmentTurn_closed (isOpen : turn.closed = false) (fragmented : fragmentTurn turn [] maxChars = .ok segments)
    (inside : segment ∈ segments) (closed : segment.closed = true) :
    Contiguous turn ∧ ∃ range, makeV2Segment turn range true none = .ok segment ∧
      (range, true) ∈ Fragments.fragmentSourceRange isLegalActiveTurnCut sourceWeight turn.messages maxChars false := by
  unfold fragmentTurn at fragmented
  split at fragmented
  · cases fragmented
  · split at fragmented
    · rw [if_pos List.isEmpty_nil] at fragmented
      obtain ⟨whole, made, same⟩ := except_bind_ok fragmented
      cases same
      rw [List.mem_singleton.mp inside, (makeV1Segment_whole made).state, isOpen] at closed
      cases closed
    · rename_i holds
      rw [Bool.not_eq_true', Bool.not_eq_false] at holds
      refine ⟨contiguous_of_isContiguous holds, ?_⟩
      unfold fragmentBoundaries fragmentSourceRange at fragmented
      rw [List.drop_zero, isOpen] at fragmented
      obtain ⟨⟨range, state⟩, isRange, made⟩ := exists_left_of_forall₂ (mapM_ok_iff.mp fragmented) inside
      have sameState := (makeV2Segment_exact made).state
      rw [closed] at sameState
      dsimp only at made sameState
      rw [← sameState] at made isRange
      exact ⟨range, made, isRange⟩

/-- A turn in one piece closes the same fragments when it grows. -/
theorem Grows.fragments (grows : Grows turn grown gained) (contiguous : Contiguous grown) {range : List (IndexedMessage numbers)}
    (made : makeV2Segment turn range true none = .ok segment)
    (isRange : (range, true) ∈
      Fragments.fragmentSourceRange isLegalActiveTurnCut sourceWeight turn.messages maxChars false)
    (fragmented : fragmentTurn grown [] maxChars = .ok others) : segment ∈ others := by
  unfold fragmentTurn at fragmented
  split at fragmented
  · cases fragmented
  · rename_i first isFirst
    rw [isContiguous_of_contiguous contiguous isFirst] at fragmented
    rw [if_neg (by decide)] at fragmented
    unfold fragmentBoundaries fragmentSourceRange at fragmented
    rw [List.drop_zero, grows.messages] at fragmented
    have again := fragmentSourceRange_grown turn.messages gained maxChars grown.closed isRange
    obtain ⟨other, isOther, alsoMade⟩ := exists_right_of_forall₂ (mapM_ok_iff.mp fragmented) again
    have same : makeV2Segment grown range true none = makeV2Segment turn range true none := by
      unfold makeV2Segment
      rw [grows.user]
    dsimp only at alsoMade
    rw [same, made] at alsoMade
    rw [Except.ok.inj alsoMade]
    exact isOther

/-- The turns that wait are packed first. -/
theorem plainTurns_packs {ordinary rest : List (CompleteTurn numbers)}
    (run : plainTurns maxChars ordinary rest = .ok segments) :
    ∃ more forceClosed packed, packTurns (ordinary ++ more) maxChars forceClosed = .ok packed ∧ packed ⊆ segments := by
  induction rest generalizing ordinary with
  | nil => exact ⟨[], false, segments, by rw [List.append_nil]; exact run, List.Subset.refl _⟩
  | cons turn rest ih =>
      unfold plainTurns at run
      split at run
      · obtain ⟨packed, arePacked, run⟩ := except_bind_ok run
        obtain ⟨fragments, _, run⟩ := except_bind_ok run
        obtain ⟨behind, _, same⟩ := except_bind_ok run
        cases same
        refine ⟨[], true, packed, by rw [List.append_nil]; exact arePacked, ?_⟩
        exact List.subset_append_of_subset_left _ (List.subset_append_left _ _)
      · obtain ⟨more, forceClosed, packed, arePacked, inside⟩ := ih run
        rw [List.append_assoc] at arePacked
        exact ⟨turn :: more, forceClosed, packed, arePacked, inside⟩

/-- What becomes of a closed segment when the last turn grows. -/
theorem plainTurns_grown {ordinary front later : List (CompleteTurn numbers)} (grows : Grows turn grown gained)
    (isOpen : turn.closed = false) (light : ∀ other ∈ ordinary, other.charCount ≤ (maxChars : ℕ∞))
    (nonempty : ∀ other ∈ ordinary ++ front, other.messages ≠ [])
    (run : plainTurns maxChars ordinary (front ++ [turn]) = .ok segments)
    (again : plainTurns maxChars ordinary (front ++ grown :: later) = .ok others)
    (inside : segment ∈ segments) (closed : segment.closed = true) :
    segment ∈ others ∨
      (Contiguous turn ∧ ¬Contiguous grown ∧ ∃ range, makeV2Segment turn range true none = .ok segment) ∨
        ∃ pack, makeV1Segment (pack ++ [turn]) true none = .ok segment ∧
          (grown.charCount = turn.charCount →
            ∃ same ∈ others, makeV1Segment (pack ++ [grown]) true none = .ok same) := by
  induction front generalizing ordinary segments others with
  | nil =>
      rw [List.append_nil] at nonempty
      rw [List.nil_append] at run again
      unfold plainTurns at run again
      split at run
      · rename_i heavy
        rw [if_pos (lt_of_lt_of_le heavy grows.heavier)] at again
        obtain ⟨packed, arePacked, run⟩ := except_bind_ok run
        obtain ⟨fragments, areFragments, run⟩ := except_bind_ok run
        obtain ⟨behind, areBehind, same⟩ := except_bind_ok run
        cases same
        cases areBehind
        obtain ⟨packed', alsoPacked, again⟩ := except_bind_ok again
        obtain ⟨fragments', alsoFragments, again⟩ := except_bind_ok again
        obtain ⟨behind', _, same⟩ := except_bind_ok again
        cases same
        rw [arePacked] at alsoPacked
        cases alsoPacked
        rw [List.append_nil] at inside
        rcases List.mem_append.mp inside with inPacked | inFragments
        · exact Or.inl (List.mem_append_left _ (List.mem_append_left _ inPacked))
        · obtain ⟨contiguous, range, made, isRange⟩ := fragmentTurn_closed isOpen areFragments inFragments closed
          by_cases still : Contiguous grown
          · have found := grows.fragments still made isRange alsoFragments
            exact Or.inl (List.mem_append_left _ (List.mem_append_right _ found))
          · exact Or.inr (Or.inl ⟨contiguous, still, range, made⟩)
      · rename_i lightTurn
        have isLight := le_of_not_gt lightTurn
        rcases packTurns_last light isLight nonempty run inside closed with ⟨alone, grownLight⟩ | ⟨pack, made, full⟩
        · left
          split at again
          · obtain ⟨packed', alsoPacked, again⟩ := except_bind_ok again
            obtain ⟨fragments', _, again⟩ := except_bind_ok again
            obtain ⟨behind', _, same⟩ := except_bind_ok again
            cases same
            exact List.mem_append_left _ (List.mem_append_left _ (alone packed' alsoPacked))
          · rename_i notHeavy
            obtain ⟨more, forceClosed, packed', arePacked, isPart⟩ := plainTurns_packs again
            rw [List.append_assoc] at arePacked
            exact isPart (grownLight grown more forceClosed packed' grows.heavier (le_of_not_gt notHeavy) arePacked)
        · refine Or.inr (Or.inr ⟨pack, made, fun sameChars => ?_⟩)
          rw [if_neg (by rw [sameChars]; exact lightTurn)] at again
          obtain ⟨more, forceClosed, packed', arePacked, isPart⟩ := plainTurns_packs again
          rw [List.append_assoc] at arePacked
          obtain ⟨same, isSame, alsoMade⟩ := full grown more forceClosed packed' sameChars arePacked
          exact ⟨same, isPart isSame, alsoMade⟩
  | cons first rest ih =>
      rw [List.cons_append] at run again
      unfold plainTurns at run again
      split at run
      · rename_i heavy
        rw [if_pos heavy] at again
        obtain ⟨packed, arePacked, run⟩ := except_bind_ok run
        obtain ⟨fragments, areFragments, run⟩ := except_bind_ok run
        obtain ⟨behind, areBehind, same⟩ := except_bind_ok run
        cases same
        obtain ⟨packed', alsoPacked, again⟩ := except_bind_ok again
        obtain ⟨fragments', alsoFragments, again⟩ := except_bind_ok again
        obtain ⟨behind', alsoBehind, same⟩ := except_bind_ok again
        cases same
        rw [arePacked] at alsoPacked
        rw [areFragments] at alsoFragments
        cases alsoPacked
        cases alsoFragments
        rcases List.mem_append.mp inside with early | inBehind
        · exact Or.inl (List.mem_append_left _ early)
        · have restNonempty : ∀ other ∈ [] ++ rest, other.messages ≠ [] := fun other isOther =>
            nonempty other (List.mem_append_right _ (List.mem_cons_of_mem _ isOther))
          rcases ih (fun _ none => absurd none List.not_mem_nil) restNonempty areBehind alsoBehind inBehind with
            found | broken | ⟨pack, made, full⟩
          · exact Or.inl (List.mem_append_right _ found)
          · exact Or.inr (Or.inl broken)
          · refine Or.inr (Or.inr ⟨pack, made, fun sameChars => ?_⟩)
            obtain ⟨same, isSame, alsoMade⟩ := full sameChars
            exact ⟨same, List.mem_append_right _ isSame, alsoMade⟩
      · rename_i notHeavy
        rw [if_neg notHeavy] at again
        refine ih (fun other isOther => ?_) (fun other isOther => ?_) run again inside
        · rcases List.mem_append.mp isOther with before | isFirst
          · exact light other before
          · rw [List.mem_singleton.mp isFirst]
            exact le_of_not_gt notHeavy
        · rw [List.append_assoc] at isOther
          exact nonempty other isOther

end Loop

/-! ### The history when new messages belong to the last turn or to new ones -/

/-- The second pass, as far as the source messages go. -/
def addSource (users : AList fun _ : JsString => Nat) (sources : List (IndexedMessage numbers))
    (entry : OpenCodeMessage numbers × Nat) : List (IndexedMessage numbers) :=
  match turnOf users entry.1 with
  | none => sources
  | some turnIndex => sources ++ [{ index := entry.2, sourceIndex := sources.length, turnIndex, message := entry.1 }]

theorem addMessage_messages (users : AList fun _ : JsString => Nat) (history : CanonicalHistory numbers)
    (entry : OpenCodeMessage numbers × Nat) :
    (addMessage users history entry).messages = addSource users history.messages entry := by
  unfold addMessage addSource
  cases turnOf users entry.1 <;> rfl

theorem addSource_extends (users : AList fun _ : JsString => Nat) (entries : List (OpenCodeMessage numbers × Nat))
    (sources : List (IndexedMessage numbers)) : ∃ extra, entries.foldl (addSource users) sources = sources ++ extra := by
  induction entries generalizing sources with
  | nil => exact ⟨[], (List.append_nil _).symm⟩
  | cons entry rest ih =>
      obtain ⟨extra, same⟩ := ih (addSource users sources entry)
      rw [List.foldl_cons, same]
      unfold addSource
      cases turnOf users entry.1 with
      | none => exact ⟨extra, rfl⟩
      | some turnIndex => exact ⟨_ :: extra, by rw [List.append_assoc]; rfl⟩

theorem history_addSource (messages : List (OpenCodeMessage numbers)) :
    (canonicalHistory messages).messages = messages.zipIdx.foldl (addSource (userTurns messages)) [] := by
  have folded : ∀ (entries : List (OpenCodeMessage numbers × Nat)) (history : CanonicalHistory numbers),
      (entries.foldl (addMessage (userTurns messages)) history).messages =
        entries.foldl (addSource (userTurns messages)) history.messages := by
    intro entries
    induction entries with
    | nil => exact fun _ => rfl
    | cons entry rest ih =>
        intro history
        rw [List.foldl_cons, List.foldl_cons, ih, addMessage_messages]
  exact folded messages.zipIdx _

/-- New messages open turns of their own or belong to the last one, and no old message waits for a new user. -/
structure GrowsAtEnd (messages more : List (OpenCodeMessage numbers)) : Prop where
  distinct : ((messages ++ more).map OpenCodeMessage.id).Nodup
  settled : ∀ message ∈ messages, ∀ user ∈ normalUsers more, ¬Owns user message
  behind : ∀ message ∈ more, ∀ user ∈ (normalUsers messages).dropLast, ¬Owns user message

/-- The turn that a user opened. -/
def openedTurn (messages : List (OpenCodeMessage numbers)) (place : Nat) (user : OpenCodeMessage numbers) :
    CompleteTurn numbers :=
  { fillTurn (canonicalHistory messages).messages
      { index := place
        userMessageId := user.id
        charCount := 0
        closed := false
        messages := [] } with
    closed := decide (place < (normalUsers messages).length - 1) }

theorem turns_opened (messages : List (OpenCodeMessage numbers)) (place : Nat) :
    (canonicalHistory messages).turns[place]? = (normalUsers messages)[place]?.map (openedTurn messages place) :=
  turns_getElem? messages place

/-- A turn after the growth, with the source messages that came later. -/
theorem openedTurn_grown {messages more : List (OpenCodeMessage numbers)} {extra : List (IndexedMessage numbers)}
    (whole : (canonicalHistory (messages ++ more)).messages = (canonicalHistory messages).messages ++ extra)
    (place : Nat) (user : OpenCodeMessage numbers) :
    Grows (openedTurn messages place user) (openedTurn (messages ++ more) place user)
        (extra.filter fun source => source.turnIndex == place) ∧
      ((extra.filter fun source => source.turnIndex == place) = [] →
        (openedTurn (messages ++ more) place user).charCount = (openedTurn messages place user).charCount) := by
  have messagesSame : (openedTurn (messages ++ more) place user).messages =
      (openedTurn messages place user).messages ++ extra.filter fun source => source.turnIndex == place := by
    unfold openedTurn fillTurn
    rw [whole, List.filter_append]
  have chars : ∀ list : List (OpenCodeMessage numbers), (openedTurn list place user).charCount =
      ((openedTurn list place user).messages.map fun source => modelVisibleCharWeightOf source.message).sum :=
    fun _ => rfl
  refine ⟨⟨rfl, messagesSame, ?_⟩, fun none => ?_⟩
  · rw [chars, chars, messagesSame, List.map_append, List.sum_append]
    exact le_self_add
  · rw [chars, chars, messagesSame, none, List.append_nil]

section History

variable {messages more : List (OpenCodeMessage numbers)} (grows : GrowsAtEnd messages more)

include grows

theorem GrowsAtEnd.turnOf_eq {message : OpenCodeMessage numbers} (inside : message ∈ messages) :
    turnOf (userTurns (messages ++ more)) message = turnOf (userTurns messages) message := by
  cases owned : turnOf (userTurns messages) message with
  | some place =>
      obtain ⟨user, atPlace, isOwner⟩ := turnOf_owner owned
      refine turnOf_normalUser grows.distinct ?_ isOwner
      rw [normalUsers_append, List.getElem?_append_left (List.getElem?_eq_some_iff.mp atPlace).1]
      exact atPlace
  | none =>
      rw [← Option.not_isSome_iff_eq_none, turnOf_isSome_iff]
      rintro ⟨user, isUser, owns⟩
      rw [normalUsers_append] at isUser
      rcases List.mem_append.mp isUser with old | new
      · have found := (turnOf_isSome_iff messages message).mpr ⟨user, old, owns⟩
        rw [owned] at found
        cases found
      · exact grows.settled message inside user new owns

theorem GrowsAtEnd.history_messages : ∃ extra,
    (canonicalHistory (messages ++ more)).messages = (canonicalHistory messages).messages ++ extra ∧
      ∀ source ∈ extra, source.message ∈ more := by
  have folded : messages.zipIdx.foldl (addSource (userTurns (messages ++ more))) [] =
      messages.zipIdx.foldl (addSource (userTurns messages)) [] := by
    apply List.foldl_ext
    intro sources entry inside
    unfold addSource
    rw [grows.turnOf_eq (List.fst_mem_of_mem_zipIdx inside)]
  obtain ⟨extra, same⟩ := addSource_extends (userTurns (messages ++ more)) (more.zipIdx (0 + messages.length))
    (canonicalHistory messages).messages
  have whole : (canonicalHistory (messages ++ more)).messages = (canonicalHistory messages).messages ++ extra := by
    rw [history_addSource, List.zipIdx_append, List.foldl_append, folded, ← history_addSource, same]
  refine ⟨extra, whole, fun source inside => ?_⟩
  have texts := Segments.history_messages (messages ++ more)
  have kept : (messages.filter fun message => (turnOf (userTurns (messages ++ more)) message).isSome) =
      messages.filter fun message => (turnOf (userTurns messages) message).isSome :=
    List.filter_congr fun message isOld => by rw [grows.turnOf_eq isOld]
  rw [whole, List.map_append, List.filter_append, kept, ← Segments.history_messages messages] at texts
  have behind := List.append_cancel_left texts
  have image : source.message ∈ extra.map IndexedMessage.message := List.mem_map.mpr ⟨source, inside, rfl⟩
  rw [behind] at image
  exact List.mem_of_mem_filter image

/-- The turns before the last one stay as they are. -/
theorem GrowsAtEnd.opened_before {last : OpenCodeMessage numbers} {users : List (OpenCodeMessage numbers)}
    (isUsers : normalUsers messages = users ++ [last]) {place : Nat} {user : OpenCodeMessage numbers}
    (atPlace : users[place]? = some user) : openedTurn (messages ++ more) place user = openedTurn messages place user := by
  obtain ⟨extra, whole, isNew⟩ := grows.history_messages
  have within := (List.getElem?_eq_some_iff.mp atPlace).1
  have none : (extra.filter fun source => source.turnIndex == place) = [] := by
    rw [List.filter_eq_nil_iff]
    intro source inside isHere
    have isSource : source ∈ (canonicalHistory (messages ++ more)).messages := by
      rw [whole]
      exact List.mem_append_right _ inside
    obtain ⟨owner, atOwner, isOwner⟩ := turnOf_owner (message_owner isSource)
    rw [beq_iff_eq.mp isHere, normalUsers_append, isUsers, List.append_assoc, List.getElem?_append_left within,
      atPlace] at atOwner
    cases atOwner
    refine grows.behind source.message (isNew source inside) user ?_ ((ownerId_iff user source.message).mp isOwner)
    rw [isUsers, List.dropLast_concat]
    exact List.mem_of_getElem? atPlace
  have same := (openedTurn_grown whole place user).1.messages
  have chars := (openedTurn_grown whole place user).2 none
  rw [none, List.append_nil] at same
  have closed : (openedTurn (messages ++ more) place user).closed = (openedTurn messages place user).closed := by
    unfold openedTurn
    dsimp only
    rw [normalUsers_append, isUsers, List.length_append, List.length_append, List.length_singleton, decide_eq_true,
      decide_eq_true] <;> omega
  cases before : openedTurn messages place user with
  | mk index userMessageId charCount isClosed sources =>
      rw [before] at same chars closed
      have index' : (openedTurn (messages ++ more) place user).index = (openedTurn messages place user).index := rfl
      have user' : (openedTurn (messages ++ more) place user).userMessageId =
          (openedTurn messages place user).userMessageId := rfl
      rw [before] at index' user'
      cases after : openedTurn (messages ++ more) place user with
      | mk otherIndex otherUser otherCount otherClosed otherSources =>
          rw [after] at same chars closed index' user'
          dsimp only at same chars closed index' user'
          rw [same, chars, closed, index', user']

/-- The last turn gains what belongs to its user, and the turns before it stay. -/
theorem GrowsAtEnd.turns {last : OpenCodeMessage numbers} (isLast : (normalUsers messages).getLast? = some last) :
    ∃ front turn grown gained later,
      (canonicalHistory messages).turns = front ++ [turn] ∧
        (canonicalHistory (messages ++ more)).turns = front ++ grown :: later ∧
          Grows turn grown gained ∧ turn.closed = false ∧ turn.userMessageId = last.id ∧
            (gained = [] → grown.charCount = turn.charCount) := by
  obtain ⟨extra, whole, _⟩ := grows.history_messages
  obtain ⟨users, isUsers⟩ := List.getLast?_eq_some_iff.mp isLast
  obtain ⟨isGrown, sameChars⟩ := openedTurn_grown whole users.length last
  refine ⟨(canonicalHistory messages).turns.take users.length, openedTurn messages users.length last,
    openedTurn (messages ++ more) users.length last, extra.filter fun source => source.turnIndex == users.length,
    (canonicalHistory (messages ++ more)).turns.drop (users.length + 1), ?_, ?_, isGrown, ?_, rfl, sameChars⟩
  · have isTurn := turns_opened messages users.length
    rw [isUsers, List.getElem?_append_right le_rfl, Nat.sub_self, List.getElem?_cons_zero, Option.map_some] at isTurn
    obtain ⟨within, same⟩ := List.getElem?_eq_some_iff.mp isTurn
    have length : (canonicalHistory messages).turns.length = users.length + 1 := by
      rw [turns_length, isUsers, List.length_append, List.length_singleton]
    rw [← same, List.take_append_getElem, List.take_of_length_le length.le]
  · have isTurn := turns_opened (messages ++ more) users.length
    rw [normalUsers_append, isUsers, List.append_assoc, List.getElem?_append_right le_rfl, Nat.sub_self,
      List.singleton_append, List.getElem?_cons_zero, Option.map_some] at isTurn
    obtain ⟨within, same⟩ := List.getElem?_eq_some_iff.mp isTurn
    have sameFront : (canonicalHistory messages).turns.take users.length =
        (canonicalHistory (messages ++ more)).turns.take users.length := by
      apply List.ext_getElem?
      intro place
      rw [List.getElem?_take, List.getElem?_take]
      split
      · rename_i before
        rw [turns_opened, turns_opened, normalUsers_append, isUsers, List.append_assoc,
          List.getElem?_append_left before, List.getElem?_append_left before]
        cases atPlace : users[place]? with
        | none => rfl
        | some user => rw [Option.map_some, Option.map_some, grows.opened_before isUsers atPlace]
      · rfl
    rw [sameFront, ← same, ← List.drop_eq_getElem_cons within, List.take_append_drop]
  · unfold openedTurn
    dsimp only
    rw [isUsers, List.length_append, List.length_singleton, decide_eq_false]
    omega

end History

/-! ### Closed segments -/

theorem makeV1Segment_last (pack : List (CompleteTurn numbers)) {turn grown : CompleteTurn numbers}
    (user : grown.userMessageId = turn.userMessageId) (messages : grown.messages = turn.messages)
    (chars : grown.charCount = turn.charCount) (closed : Bool) (projectionVersion : Option Int) :
    makeV1Segment (pack ++ [grown]) closed projectionVersion = makeV1Segment (pack ++ [turn]) closed projectionVersion := by
  have sources : (pack ++ [grown]).flatMap CompleteTurn.messages = (pack ++ [turn]).flatMap CompleteTurn.messages := by
    rw [List.flatMap_append, List.flatMap_append, List.flatMap_singleton, List.flatMap_singleton, messages]
  have weights : (pack ++ [grown]).map CompleteTurn.charCount = (pack ++ [turn]).map CompleteTurn.charCount := by
    rw [List.map_append, List.map_append, List.map_singleton, List.map_singleton, chars]
  unfold makeV1Segment
  rw [sources, weights, List.getLast?_concat, List.getLast?_concat]
  cases pack with
  | nil =>
      rw [List.nil_append, List.nil_append, List.head?_cons, List.head?_cons]
      dsimp only
      rw [user]
  | cons first rest =>
      rw [List.cons_append, List.cons_append, List.head?_cons, List.head?_cons]
      dsimp only
      rw [user]

theorem segmentMessages_plain (localeCompare : JsString → JsString → Ordering)
    (messages : List (OpenCodeMessage numbers)) {maxChars : Nat} (positive : maxChars ≠ 0) :
    segmentMessages localeCompare messages maxChars [] = plainTurns maxChars [] (canonicalHistory messages).turns := by
  rw [segmentMessages_uncommitted localeCompare messages positive,
    segmentTurns_plain _ _ _ (Nat.le_add_left _ _), List.drop_zero]

theorem segmentMessages_plain_returns (localeCompare : JsString → JsString → Ordering)
    {messages : List (OpenCodeMessage numbers)} (distinct : (messages.map OpenCodeMessage.id).Nodup) {maxChars : Nat}
    (positive : maxChars ≠ 0) : ∃ segments, segmentMessages localeCompare messages maxChars [] = .ok segments := by
  rcases segmentMessages_outcome distinct positive (turnPlan_uncommitted localeCompare (canonicalHistory messages)) with
    ⟨returned, _⟩ | ⟨_, broken⟩
  · exact returned
  · exact absurd (fun turn _ _ _ anchors => absurd rfl anchors) broken

/-- No segment holds a message that the history does not have. -/
theorem CutInto.ids_subset {messages : List (OpenCodeMessage numbers)} {segments : List ReflectionSegment}
    (cut : CutInto (canonicalHistory messages).turns segments) {segment : ReflectionSegment}
    (inside : segment ∈ segments) : segment.sourceMessageIds ⊆ messages.map OpenCodeMessage.id := by
  intro id isId
  have member := cut.ids_perm.subset (List.mem_flatMap.mpr ⟨segment, inside, isId⟩)
  obtain ⟨source, isSource, rfl⟩ := List.mem_map.mp member
  have inHistory := (canonical_history messages).turns_perm.subset isSource
  have image : source.message ∈ (canonicalHistory messages).messages.map IndexedMessage.message :=
    List.mem_map.mpr ⟨source, inHistory, rfl⟩
  rw [history_messages] at image
  exact List.mem_map.mpr ⟨source.message, List.mem_of_mem_filter image, rfl⟩

/-- The last turn before and after, in terms of the messages. -/
theorem GrowsAtEnd.gained_eq {messages more : List (OpenCodeMessage numbers)} (grows : GrowsAtEnd messages more)
    {last : OpenCodeMessage numbers} (isLast : last ∈ normalUsers messages) {turn grown : CompleteTurn numbers}
    {gained : List (IndexedMessage numbers)} (isTurn : turn ∈ (canonicalHistory messages).turns)
    (isGrown : grown ∈ (canonicalHistory (messages ++ more)).turns) (isSame : Grows turn grown gained)
    (user : turn.userMessageId = last.id) : gained.map IndexedMessage.message = ownedBy more [last] := by
  have before := turn_messages (distinct_before grows.distinct) isTurn isLast user.symm
  have isUser : last ∈ normalUsers (messages ++ more) := by
    rw [normalUsers_append]
    exact List.mem_append_left _ isLast
  have after := turn_messages grows.distinct isGrown isUser (by rw [isSame.user, user])
  rw [isSame.messages, List.map_append, before, ownedBy_append] at after
  exact List.append_cancel_left after

/-- A closed segment is found again in the grown history, unless the history ends with its last turn and that
turn gains a message: then an exact segment is found again where the turn stays in one piece. -/
theorem closed_segment_final_iff (localeCompare : JsString → JsString → Ordering)
    (messages more : List (OpenCodeMessage numbers)) (grows : GrowsAtEnd messages more) (maxChars : Nat)
    (segments : List ReflectionSegment)
    (segmented : segmentMessages localeCompare messages maxChars [] = .ok segments)
    (segment : ReflectionSegment) (inside : segment ∈ segments) (closed : segment.closed = true) :
    ∃ others, segmentMessages localeCompare (messages ++ more) maxChars [] = .ok others ∧
      (segment ∈ others ↔ ∀ last, (normalUsers messages).getLast? = some last →
        last.id = segment.endUserMessageId → ownedBy more [last] ≠ [] →
          segment.sourceBoundaryVersion = .v2 ∧
            ownedBy (messages ++ more) [last] <:+: canonicalMessages (messages ++ more)) := by
  have positive : maxChars ≠ 0 := by
    intro zero
    rw [segmentMessages, if_pos zero] at segmented
    cases segmented
  have distinct := distinct_before grows.distinct
  obtain ⟨others, again⟩ := segmentMessages_plain_returns localeCompare grows.distinct positive
  refine ⟨others, again, ?_⟩
  have cut := segmentMessages_cut segmented
  have cutAgain := segmentMessages_cut again
  have after := distinct_history grows.distinct
  constructor
  · intro found last isLast sameEnd gains
    have isUser : last ∈ normalUsers (messages ++ more) := by
      rw [normalUsers_append]
      exact List.mem_append_left _ (List.mem_of_getLast? isLast)
    rcases cutAgain.mem found with ⟨before, covered, behind, _, _, split, whole⟩ |
      ⟨turn, isTurn, contiguous, _, _, _, _, _, _, exact⟩
    · -- The segment would hold the new message.
      exfalso
      obtain ⟨message, gained⟩ := List.exists_mem_of_ne_nil _ gains
      have endUser := whole.endUser
      rw [Option.map_eq_some_iff] at endUser
      obtain ⟨turn, isTurn, turnUser⟩ := endUser
      have inCovered := List.mem_of_getLast? isTurn
      have isGrown : turn ∈ (canonicalHistory (messages ++ more)).turns := by
        rw [split]
        exact List.mem_append_right _ (List.mem_append_left _ inCovered)
      have texts := turn_messages grows.distinct isGrown isUser (by rw [sameEnd, turnUser])
      have isText : message ∈ turn.messages.map IndexedMessage.message := by
        rw [texts, ownedBy_append]
        exact List.mem_append_right _ gained
      obtain ⟨source, isSource, isMessage⟩ := List.mem_map.mp isText
      have isId : message.id ∈ segment.sourceMessageIds := by
        rw [whole.ids, List.mem_map]
        exact ⟨source, (orderedSourceMessages_perm _).mem_iff.mpr (List.mem_flatMap.mpr ⟨turn, inCovered, isSource⟩),
          by rw [isMessage]⟩
      have isOld := cut.ids_subset inside isId
      have apart := grows.distinct
      rw [List.map_append, List.nodup_append] at apart
      exact apart.2.2 _ isOld _ (List.mem_map.mpr ⟨message, List.mem_of_mem_filter gained, rfl⟩) rfl
    · refine ⟨exact.version, ?_⟩
      exact (contiguous_iff_adjacent grows.distinct isTurn isUser (by rw [sameEnd, exact.endUser])).mp contiguous
  · intro condition
    rw [segmentMessages_plain localeCompare _ positive] at segmented again
    cases isLast : (normalUsers messages).getLast? with
    | none =>
        have noTurns : (canonicalHistory messages).turns = [] := by
          rw [← List.length_eq_zero_iff, turns_length, List.getLast?_eq_none_iff.mp isLast]
          rfl
        rw [noTurns] at segmented
        cases segmented
        cases inside
    | some last =>
        obtain ⟨front, turn, grown, gained, later, areTurns, areGrown, isSame, isOpen, user, sameChars⟩ := grows.turns isLast
        have isTurn : turn ∈ (canonicalHistory messages).turns := by
          rw [areTurns]
          exact List.mem_append_right _ List.mem_cons_self
        have isGrown : grown ∈ (canonicalHistory (messages ++ more)).turns := by
          rw [areGrown]
          exact List.mem_append_right _ List.mem_cons_self
        have isUser := List.mem_of_getLast? isLast
        have texts := grows.gained_eq isUser isTurn isGrown isSame user
        have nothing : ownedBy more [last] = [] → gained = [] := by
          intro none
          rw [none, List.map_eq_nil_iff] at texts
          exact texts
        have nonempty : ∀ other ∈ [] ++ front, other.messages ≠ [] := by
          intro other isOther
          refine (distinct_history distinct).nonempty other ?_
          rw [areTurns]
          exact List.mem_append_left _ isOther
        rw [areTurns] at segmented
        rw [areGrown] at again
        rcases plainTurns_grown isSame isOpen (fun _ none => absurd none List.not_mem_nil) nonempty segmented again inside
            closed with found | ⟨contiguous, broken, range, made⟩ | ⟨pack, made, full⟩
        · exact found
        · exfalso
          have exact := makeV2Segment_exact made
          by_cases gains : ownedBy more [last] = []
          · apply broken
            obtain ⟨first, follows⟩ := contiguous
            have sameMessages := isSame.messages
            rw [nothing gains, List.append_nil] at sameMessages
            exact ⟨first, by rw [sameMessages]; exact follows⟩
          · have stands := (condition last isLast (by rw [exact.endUser, user]) gains).2
            have isUserAfter : last ∈ normalUsers (messages ++ more) := by
              rw [normalUsers_append]
              exact List.mem_append_left _ isUser
            exact broken ((contiguous_iff_adjacent grows.distinct isGrown isUserAfter (by rw [isSame.user, user])).mpr stands)
        · have whole := makeV1Segment_whole made
          by_cases gains : ownedBy more [last] = []
          · have sameMessages := isSame.messages
            rw [nothing gains, List.append_nil] at sameMessages
            obtain ⟨same, isOther, alsoMade⟩ := full (sameChars (nothing gains))
            rw [makeV1Segment_last pack isSame.user sameMessages (sameChars (nothing gains)), made] at alsoMade
            rw [Except.ok.inj alsoMade]
            exact isOther
          · have endUser := whole.endUser
            rw [List.getLast?_concat, Option.map_some, Option.some.injEq, user] at endUser
            have exact := (condition last isLast endUser gains).1
            rw [whole.version] at exact
            cases exact

/-- The first of two packs is closed, and a later answer leaves it as it is. -/
theorem closed_segment_final_iff_sample : ∃ segments segment,
    segmentMessages (fun _ _ => .eq) sampleHistory 5 [] = .ok segments ∧ segment ∈ segments ∧
      ∃ others, segmentMessages (fun _ _ => .eq) (sampleHistory ++ [sampleAnswer [5] [2] [9]]) 5 [] = .ok others ∧
        segment ∈ others := by
  have segmented := segmentMessages_uncommitted (fun _ _ => .eq) sampleHistory (show 5 ≠ 0 by decide)
  have returned : ∃ first second, segmentTurns (canonicalHistory sampleHistory).turns uncommittedPlan 5
      (canonicalHistory sampleHistory).turns.length 0 [] = .ok [first, second] ∧ first.closed = true ∧
        first.endUserMessageId = [1] :=
    ⟨_, _, rfl, rfl, rfl⟩
  obtain ⟨first, second, isSegments, closed, endUser⟩ := returned
  rw [isSegments] at segmented
  obtain ⟨others, again, final⟩ := closed_segment_final_iff (fun _ _ => .eq) sampleHistory [sampleAnswer [5] [2] [9]]
    ⟨by decide, by decide, by decide⟩ 5 _ segmented first List.mem_cons_self closed
  refine ⟨_, first, segmented, List.mem_cons_self, others, again, final.mpr fun last isLast sameEnd _ => ?_⟩
  have only : (normalUsers sampleHistory).getLast? = some (sampleUser [2]) := rfl
  rw [only] at isLast
  cases isLast
  rw [endUser] at sameEnd
  cases sameEnd

end Reflection.Segments
