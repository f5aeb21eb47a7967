/-
When a segmentation returns.

The boundaries have to be resolved, and a turn that holds an exact boundary and is not frozen has to be
contiguous. Nothing else can fail: packs hold no heavy turns, selected anchors do not overlap, and no
segment is empty.
-/

import Reflection.Segments.Hydration

namespace Reflection.Segments

open IntervalSelection

variable {numbers : Numbers}

/-! ### Single segments -/

theorem makeV1Segment_returns {covered : List (CompleteTurn numbers)} (closed : Bool)
    (projectionVersion : Option Int) (some : covered ≠ [])
    (nonempty : ∀ turn ∈ covered, turn.messages ≠ []) :
    ∃ segment, makeV1Segment covered closed projectionVersion = .ok segment := by
  obtain ⟨firstTurn, isFirst⟩ := Option.isSome_iff_exists.mp (List.isSome_head?.mpr some)
  obtain ⟨lastTurn, isLast⟩ := Option.isSome_iff_exists.mp (List.getLast?_isSome.mpr some)
  have sources : orderedSourceMessages (covered.flatMap CompleteTurn.messages) ≠ [] := by
    intro empty
    have none := (orderedSourceMessages_perm (covered.flatMap CompleteTurn.messages)).symm
    rw [empty, List.perm_nil, List.flatMap_eq_nil_iff] at none
    have member := List.mem_of_mem_head? isFirst
    exact nonempty firstTurn member (none firstTurn member)
  obtain ⟨first, isFirstSource⟩ := Option.isSome_iff_exists.mp (List.isSome_head?.mpr sources)
  obtain ⟨last, isLastSource⟩ := Option.isSome_iff_exists.mp (List.getLast?_isSome.mpr sources)
  unfold makeV1Segment
  rw [isFirst, isLast]
  dsimp only
  rw [isFirstSource, isLastSource]
  exact ⟨_, rfl⟩

theorem makeV2Segment_returns (turn : CompleteTurn numbers) {range : List (IndexedMessage numbers)}
    (closed : Bool) (projectionVersion : Option Int) (nonempty : range ≠ []) :
    ∃ segment, makeV2Segment turn range closed projectionVersion = .ok segment := by
  have sources : orderedSourceMessages range ≠ [] := by
    intro empty
    have none := (orderedSourceMessages_perm range).symm
    rw [empty, List.perm_nil] at none
    exact nonempty none
  obtain ⟨first, isFirst⟩ := Option.isSome_iff_exists.mp (List.isSome_head?.mpr sources)
  obtain ⟨last, isLast⟩ := Option.isSome_iff_exists.mp (List.getLast?_isSome.mpr sources)
  unfold makeV2Segment
  dsimp only
  rw [isFirst, isLast]
  exact ⟨_, rfl⟩

/-! ### Packs -/

theorem packFrom_returns {maxChars : Nat} (forceClosed : Bool) {turns current : List (CompleteTurn numbers)}
    (currentChars : ℕ∞) (light : ∀ turn ∈ turns, turn.charCount ≤ (maxChars : ℕ∞))
    (nonempty : ∀ turn ∈ current ++ turns, turn.messages ≠ []) :
    ∃ segments, packFrom maxChars forceClosed current currentChars turns = .ok segments := by
  induction turns generalizing current currentChars with
  | nil =>
      unfold packFrom
      rw [List.append_nil] at nonempty
      split
      · exact ⟨[], rfl⟩
      · rename_i some
        have isSome : current ≠ [] := fun empty => some (by rw [empty]; rfl)
        obtain ⟨segment, made⟩ := makeV1Segment_returns forceClosed none isSome nonempty
        rw [made]
        exact ⟨[segment], rfl⟩
  | cons turn rest ih =>
      have lightRest : ∀ other ∈ rest, other.charCount ≤ (maxChars : ℕ∞) := fun other inside =>
        light other (List.mem_cons_of_mem _ inside)
      have notHeavy := not_lt_of_ge (light turn List.mem_cons_self)
      have inCurrent : ∀ other ∈ current, other.messages ≠ [] := fun other inside =>
        nonempty other (List.mem_append_left _ inside)
      have inRest : ∀ other ∈ turn :: rest, other.messages ≠ [] := fun other inside =>
        nonempty other (List.mem_append_right _ inside)
      have pushed : ∀ (kept : List (CompleteTurn numbers)) (keptChars : ℕ∞), kept ≠ [] →
          (∀ other ∈ kept, other.messages ≠ []) →
          ∃ segments, (if keptChars = maxChars then do
              let segment ← makeV1Segment kept true none
              let others ← packFrom maxChars forceClosed [] 0 rest
              .ok (segment :: others)
            else packFrom maxChars forceClosed kept keptChars rest) = .ok segments := by
        intro kept keptChars some inKept
        split
        · obtain ⟨segment, made⟩ := makeV1Segment_returns true none some inKept
          obtain ⟨others, packed⟩ := ih 0 lightRest fun other inside =>
            inRest other (List.mem_cons_of_mem _ (List.nil_append rest ▸ inside))
          rw [made, except_ok_bind, packed]
          exact ⟨_, rfl⟩
        · apply ih keptChars lightRest
          intro other inside
          rcases List.mem_append.mp inside with before | behind
          · exact inKept other before
          · exact inRest other (List.mem_cons_of_mem _ behind)
      unfold packFrom
      dsimp only
      rw [if_neg notHeavy]
      split
      · rename_i full
        rw [Bool.and_eq_true, Bool.not_eq_true', List.isEmpty_eq_false_iff] at full
        obtain ⟨segment, made⟩ := makeV1Segment_returns true none full.1 inCurrent
        obtain ⟨others, packed⟩ := pushed [turn] turn.charCount (List.cons_ne_nil _ _) fun other inside => by
          rw [List.mem_singleton.mp inside]
          exact inRest turn List.mem_cons_self
        rw [made, except_ok_bind, packed]
        exact ⟨_, rfl⟩
      · apply pushed
        · exact List.append_ne_nil_of_right_ne_nil _ (List.cons_ne_nil _ _)
        · intro other inside
          rcases List.mem_append.mp inside with before | last
          · exact inCurrent other before
          · rw [List.mem_singleton.mp last]
            exact inRest turn List.mem_cons_self

/-! ### Fragments -/

theorem fragmentSourceRange_returns (turn : CompleteTurn numbers) (sources : List (IndexedMessage numbers))
    (maxChars : Nat) (forceClosed : Bool) :
    ∃ segments, fragmentSourceRange turn sources maxChars forceClosed = .ok segments := by
  have law : Fragments.CutLaw isLegalActiveTurnCut sourceWeight maxChars sources _ :=
    Fragments.fragmentSourceRange_cutLaw sources maxChars forceClosed
  unfold fragmentSourceRange
  rw [exists_mapM_ok]
  intro range inside
  exact makeV2Segment_returns turn range.2 none
    (law.nonempty range.1 (List.mem_map.mpr ⟨range, inside, rfl⟩))

/-- Anchors that stand one behind the other in the turn. -/
theorem fragmentBoundaries_returns {turn : CompleteTurn numbers} (maxChars cursor : Nat)
    {boundaries : List IndexedV2Boundary}
    (inside : ∀ boundary ∈ boundaries, boundary.startOffset ≤ boundary.endOffset ∧
      boundary.endOffset < turn.messages.length)
    (apart : boundaries.Pairwise fun one other => one.endOffset < other.startOffset) :
    ∃ segments, fragmentBoundaries turn maxChars cursor boundaries = .ok segments := by
  induction boundaries generalizing cursor with
  | nil => exact fragmentSourceRange_returns turn _ maxChars turn.closed
  | cons boundary rest ih =>
      obtain ⟨ordered, within⟩ := inside boundary List.mem_cons_self
      obtain ⟨behind, laterApart⟩ := List.pairwise_cons.mp apart
      have nonempty : turn.messages.extract boundary.startOffset (boundary.endOffset + 1) ≠ [] := by
        apply List.ne_nil_of_length_pos
        rw [List.extract_eq_take_drop, List.length_take, List.length_drop]
        omega
      obtain ⟨gap, isGap⟩ := fragmentSourceRange_returns turn
        (turn.messages.extract cursor boundary.startOffset) maxChars true
      obtain ⟨others, areOthers⟩ := ih (boundary.endOffset + 1)
        (fun other member => inside other (List.mem_cons_of_mem _ member)) laterApart
      unfold fragmentBoundaries
      rw [isGap, except_ok_bind]
      dsimp only
      obtain ⟨segment, made⟩ := makeV2Segment_returns turn
        (turn.closed || decide (boundary.endOffset < turn.messages.length - 1) ||
          (turn.messages.extract boundary.startOffset (boundary.endOffset + 1)).getLast?.any isLegalActiveTurnCut)
        boundary.boundary.projectionVersion nonempty
      have noOverlap : (rest.head?.any fun next => decide (next.startOffset < boundary.endOffset + 1)) = false := by
        cases rest with
        | nil => rfl
        | cons next later =>
            have after := behind next List.mem_cons_self
            simpa using after
      rw [made, except_ok_bind, noOverlap, if_neg Bool.false_ne_true, areOthers]
      exact ⟨_, rfl⟩

theorem isContiguous_of_contiguous {turn : CompleteTurn numbers} (contiguous : Contiguous turn)
    {first : IndexedMessage numbers} (isFirst : turn.messages.head? = some first) :
    isContiguous turn first.sourceIndex = true := by
  obtain ⟨start, follows⟩ := contiguous
  have atStart : first.sourceIndex = start + 0 := follows 0 first (by rw [← List.head?_eq_getElem?, isFirst])
  unfold isContiguous
  rw [List.all_eq_true]
  intro entry inside
  have found : turn.messages[entry.2]? = some entry.1 := List.mk_mem_zipIdx_iff_getElem?.mp inside
  simp [follows entry.2 entry.1 found, atStart]

/-- A computation that returns when a condition holds, and otherwise finds a turn in pieces. -/
def Outcome {α : Type} (result : Except SegmentationError α) (fits : Prop) : Prop :=
  (∃ value, result = .ok value) ∧ fits ∨ result = .error .notContiguous ∧ ¬fits

theorem fragmentTurn_outcome {turn : CompleteTurn numbers} (maxChars : Nat) {boundaries : List IndexedV2Boundary}
    (nonempty : turn.messages ≠ [])
    (inside : ∀ boundary ∈ boundaries, boundary.startOffset ≤ boundary.endOffset ∧
      boundary.endOffset < turn.messages.length)
    (apart : boundaries.Pairwise fun one other => one.endOffset < other.startOffset) :
    Outcome (fragmentTurn turn boundaries maxChars) (boundaries ≠ [] → Contiguous turn) := by
  obtain ⟨first, isFirst⟩ := Option.isSome_iff_exists.mp (List.isSome_head?.mpr nonempty)
  unfold fragmentTurn
  rw [isFirst]
  dsimp only
  split
  · rename_i broken
    split
    · rename_i none
      obtain ⟨segment, made⟩ := makeV1Segment_returns turn.closed Option.none (List.cons_ne_nil turn [])
        fun other isOther => by
          rw [List.mem_singleton.mp isOther]
          exact nonempty
      rw [made]
      exact Or.inl ⟨⟨[segment], rfl⟩, fun some => absurd (List.isEmpty_iff.mp none) some⟩
    · rename_i some
      refine Or.inr ⟨rfl, fun contiguous => ?_⟩
      have holds := isContiguous_of_contiguous (contiguous fun none => some (by rw [none]; rfl)) isFirst
      rw [holds] at broken
      cases broken
  · rename_i holds
    rw [Bool.not_eq_true', Bool.not_eq_false] at holds
    exact Or.inl ⟨fragmentBoundaries_returns maxChars 0 inside apart,
      fun _ => contiguous_of_isContiguous holds⟩

/-! ### Anchors of one turn -/

theorem Anchored.start_found {history : CanonicalHistory numbers} {turn : CompleteTurn numbers}
    {indexed : IndexedV2Boundary} (anchored : Anchored history turn indexed) :
    ∃ source, turn.messages[indexed.startOffset]? = some source ∧ source.sourceIndex = indexed.startIndex := by
  obtain ⟨within, found, _⟩ := List.findIdx?_eq_some_iff_getElem.mp anchored.startAt
  exact ⟨_, List.getElem?_eq_getElem within, by simpa using found⟩

theorem Anchored.end_found {history : CanonicalHistory numbers} {turn : CompleteTurn numbers}
    {indexed : IndexedV2Boundary} (anchored : Anchored history turn indexed) :
    ∃ source, turn.messages[indexed.endOffset]? = some source ∧ source.sourceIndex = indexed.endIndex := by
  obtain ⟨within, found, _⟩ := List.findIdx?_eq_some_iff_getElem.mp anchored.endAt
  exact ⟨_, List.getElem?_eq_getElem within, by simpa using found⟩

theorem Canonical.turn_inOrder {history : CanonicalHistory numbers} (canonical : Canonical history)
    {turn : CompleteTurn numbers} (isTurn : turn ∈ history.turns) : InOrder turn.messages :=
  canonical.inOrder.sublist (canonical.turn_sublist isTurn)

/-- Turns with one number are one. -/
theorem Canonical.turn_unique {history : CanonicalHistory numbers} (canonical : Canonical history)
    {turn other : CompleteTurn numbers} (isTurn : turn ∈ history.turns) (isOther : other ∈ history.turns)
    (same : turn.index = other.index) : turn = other :=
  eq_of_key_eq canonical.turns_ordered isTurn isOther same

theorem Canonical.turn_at {history : CanonicalHistory numbers} (canonical : Canonical history)
    {turn : CompleteTurn numbers} (isTurn : turn ∈ history.turns) : history.turns[turn.index]? = some turn := by
  obtain ⟨place, found⟩ := List.getElem?_of_mem isTurn
  rw [canonical.numbered place turn found]
  exact found

/-- What lies apart in the source lies apart in the turn. -/
theorem Anchored.offsets_apart {history : CanonicalHistory numbers} (canonical : Canonical history)
    {turn : CompleteTurn numbers} {one other : IndexedV2Boundary} (anchored : Anchored history turn one)
    (alsoAnchored : Anchored history turn other) (apart : one.endIndex < other.startIndex) :
    one.endOffset < other.startOffset := by
  obtain ⟨last, atEnd, lastIndex⟩ := anchored.end_found
  obtain ⟨first, atStart, firstIndex⟩ := alsoAnchored.start_found
  by_contra late
  rcases Nat.lt_or_eq_of_le (Nat.le_of_not_lt late) with before | same
  · have inOrder := canonical.turn_inOrder anchored.isTurn
    obtain ⟨inStart, isFirst⟩ := List.getElem?_eq_some_iff.mp atStart
    obtain ⟨inEnd, isLast⟩ := List.getElem?_eq_some_iff.mp atEnd
    have ordered := List.pairwise_iff_getElem.mp inOrder _ _ inStart inEnd before
    rw [isFirst, isLast] at ordered
    omega
  · rw [← same, atStart] at atEnd
    cases atEnd
    omega

/-- The anchors that a turn of the loop is given. -/
theorem Sound.v2At_fits {history : CanonicalHistory numbers} (canonical : Canonical history) {plan : TurnPlan}
    (sound : Sound history plan) {turn : CompleteTurn numbers} (isTurn : turn ∈ history.turns) :
    (∀ boundary ∈ plan.v2At turn.index, boundary.startOffset ≤ boundary.endOffset ∧
      boundary.endOffset < turn.messages.length) ∧
      (plan.v2At turn.index).Pairwise fun one other => one.endOffset < other.startOffset := by
  have inTurn : ∀ boundary ∈ plan.v2At turn.index, Anchored history turn boundary := by
    intro boundary inside
    obtain ⟨selected, number⟩ := v2At_mem inside
    obtain ⟨owner, anchored⟩ := sound.v2 boundary selected
    rw [anchored.number] at number
    rw [← canonical.turn_unique anchored.isTurn isTurn number]
    exact anchored
  refine ⟨?_, ?_⟩
  · intro boundary inside
    obtain ⟨source, found, _⟩ := (inTurn boundary inside).end_found
    exact ⟨(inTurn boundary inside).offsets, (List.getElem?_eq_some_iff.mp found).1⟩
  · have apart : (plan.v2At turn.index).Pairwise fun one other => one.endIndex < other.startIndex :=
      sound.apartV2.sublist List.filter_sublist
    refine apart.imp_of_mem fun {one other} isOne isOther before => ?_
    exact (inTurn one isOne).offsets_apart canonical (inTurn other isOther) before

/-! ### The loop -/

theorem v1At_none {plan : TurnPlan} {turnIndex : Nat} (nothing : plan.v1At turnIndex = none)
    {indexed : IndexedV1Boundary} (selected : indexed ∈ plan.selectedV1) : indexed.startIndex ≠ turnIndex := by
  intro same
  have isKey : turnIndex ∈ (plan.selectedV1.map fun boundary => (boundary.startIndex, boundary)).map Prod.fst := by
    rw [List.map_map, ← same]
    exact List.mem_map.mpr ⟨indexed, selected, rfl⟩
  obtain ⟨value, found⟩ := lookup_ofEntries_isSome isKey
  unfold TurnPlan.v1At at nothing
  rw [nothing] at found
  cases found

/-- Where the loop stands, every selected range of turns begins or is over. -/
def Clear (plan : TurnPlan) (turnIndex : Nat) : Prop :=
  ∀ indexed ∈ plan.selectedV1, turnIndex ≤ indexed.startIndex ∨ indexed.endIndex < turnIndex

theorem clear_behind {history : CanonicalHistory numbers} {plan : TurnPlan} (sound : Sound history plan)
    {turnIndex : Nat} {v1 : IndexedV1Boundary} (isV1 : plan.v1At turnIndex = some v1) :
    Clear plan (v1.endIndex + 1) := by
  obtain ⟨selected, start⟩ := v1At_mem isV1
  intro indexed inside
  by_cases same : indexed = v1
  · rw [same]
    exact Or.inr (Nat.lt_succ_self _)
  · have disjoint : indexed.endIndex < v1.startIndex ∨ v1.endIndex < indexed.startIndex :=
      apart_of_ordered sound.apartV1 inside selected same
    have ordered := (sound.v1 v1 selected).ordered
    omega

theorem Clear.next {plan : TurnPlan} {turnIndex : Nat} (clear : Clear plan turnIndex)
    (nothing : plan.v1At turnIndex = none) : Clear plan (turnIndex + 1) := by
  intro indexed inside
  have starts := v1At_none nothing inside
  have ahead := clear indexed inside
  omega

theorem Clear.notFrozen {plan : TurnPlan} {turnIndex : Nat} (clear : Clear plan turnIndex)
    (nothing : plan.v1At turnIndex = none) : isFrozen plan.selectedV1 turnIndex = false := by
  unfold isFrozen
  rw [List.any_eq_false]
  intro indexed inside
  have starts := v1At_none nothing inside
  have ahead := clear indexed inside
  simp only [Bool.and_eq_true, decide_eq_true_iff, not_and, Nat.not_le]
  omega

/-- From some turn on, the turns with anchors that are not frozen are contiguous. -/
def ContiguousFrom (history : CanonicalHistory numbers) (plan : TurnPlan) (turnIndex : Nat) : Prop :=
  ∀ turn ∈ history.turns, turnIndex ≤ turn.index → isFrozen plan.selectedV1 turn.index = false →
    plan.v2At turn.index ≠ [] → Contiguous turn

theorem contiguousFrom_step {history : CanonicalHistory numbers} (canonical : Canonical history)
    {plan : TurnPlan} {turn : CompleteTurn numbers} (isTurn : turn ∈ history.turns) {turnIndex : Nat}
    (number : turn.index = turnIndex) (notFrozen : isFrozen plan.selectedV1 turnIndex = false) :
    ContiguousFrom history plan turnIndex ↔
      (plan.v2At turnIndex ≠ [] → Contiguous turn) ∧ ContiguousFrom history plan (turnIndex + 1) := by
  constructor
  · intro ahead
    refine ⟨?_, fun other isOther after => ahead other isOther (by omega)⟩
    rw [← number] at notFrozen ahead ⊢
    exact ahead turn isTurn (Nat.le_refl _) notFrozen
  · rintro ⟨here, behind⟩ other isOther after otherNotFrozen anchors
    rcases Nat.lt_or_eq_of_le after with later | same
    · exact behind other isOther later otherNotFrozen anchors
    · have one := canonical.turn_unique isOther isTurn (same.symm.trans number.symm)
      rw [← same] at anchors
      rw [one]
      exact here anchors

/-- The range of a selected boundary is frozen. -/
theorem frozen_inside {plan : TurnPlan} {v1 : IndexedV1Boundary} (selected : v1 ∈ plan.selectedV1) {place : Nat}
    (start : v1.startIndex ≤ place) (finish : place ≤ v1.endIndex) :
    isFrozen plan.selectedV1 place = true := by
  unfold isFrozen
  rw [List.any_eq_true]
  exact ⟨v1, selected, by simp [start, finish]⟩

theorem Outcome.map {α β : Type} {result : Except SegmentationError α} {fits : Prop}
    (outcome : Outcome result fits) (next : α → β) : Outcome (result >>= fun value => .ok (next value)) fits := by
  rcases outcome with ⟨⟨value, same⟩, holds⟩ | ⟨same, fails⟩
  · exact Or.inl ⟨⟨next value, by rw [same, except_ok_bind]⟩, holds⟩
  · exact Or.inr ⟨by rw [same, except_error_bind], fails⟩

theorem Outcome.congr {α : Type} {result : Except SegmentationError α} {fits others : Prop}
    (outcome : Outcome result fits) (same : fits ↔ others) : Outcome result others := by
  unfold Outcome at outcome ⊢
  rw [← same]
  exact outcome

theorem segmentTurns_outcome {history : CanonicalHistory numbers} (distinct : Distinct history)
    {plan : TurnPlan} (sound : Sound history plan) (maxChars : Nat) {rounds turnIndex : Nat}
    (enough : history.turns.length ≤ turnIndex + rounds) (clear : Clear plan turnIndex)
    {ordinaryTurns : List (CompleteTurn numbers)}
    (ordinary : ∀ turn ∈ ordinaryTurns, turn ∈ history.turns ∧ turn.charCount ≤ (maxChars : ℕ∞)) :
    Outcome (segmentTurns history.turns plan maxChars rounds turnIndex ordinaryTurns)
      (ContiguousFrom history plan turnIndex) := by
  have packs : ∀ forceClosed, ∀ turns : List (CompleteTurn numbers),
      (∀ turn ∈ turns, turn ∈ history.turns ∧ turn.charCount ≤ (maxChars : ℕ∞)) →
      ∃ segments, packTurns turns maxChars forceClosed = .ok segments := by
    intro forceClosed turns inside
    exact packFrom_returns forceClosed 0 (fun turn isTurn => (inside turn isTurn).2)
      fun turn isTurn => distinct.nonempty turn (inside turn isTurn).1
  have finished : ∀ place, history.turns.length ≤ place → ContiguousFrom history plan place := by
    intro place past turn isTurn after
    have within := (List.getElem?_eq_some_iff.mp (distinct.toCanonical.turn_at isTurn)).1
    omega
  have nothing : ∀ turn ∈ ([] : List (CompleteTurn numbers)),
      turn ∈ history.turns ∧ turn.charCount ≤ (maxChars : ℕ∞) := fun turn inside => absurd inside List.not_mem_nil
  induction rounds generalizing turnIndex ordinaryTurns with
  | zero => exact Or.inl ⟨packs false ordinaryTurns ordinary, finished turnIndex (by omega)⟩
  | succ rounds ih =>
      obtain ⟨packed, isPacked⟩ := packs true ordinaryTurns ordinary
      unfold segmentTurns
      split
      · rename_i missing
        exact Or.inl ⟨packs false ordinaryTurns ordinary,
          finished turnIndex (List.getElem?_eq_none_iff.mp missing)⟩
      · rename_i turn v1 found isV1
        obtain ⟨selected, start⟩ := v1At_mem isV1
        have names := sound.v1 v1 selected
        have within := names.within
        have ordered := names.ordered
        have some : history.turns.extract v1.startIndex (v1.endIndex + 1) ≠ [] := by
          apply List.ne_nil_of_length_pos
          rw [List.extract_eq_take_drop, List.length_take, List.length_drop]
          omega
        obtain ⟨segment, made⟩ := makeV1Segment_returns
          (((history.turns.extract v1.startIndex (v1.endIndex + 1)).getLast?.map CompleteTurn.closed).getD true)
          v1.boundary.projectionVersion some fun turn inside => by
            rw [List.extract_eq_take_drop] at inside
            exact distinct.nonempty turn (List.mem_of_mem_drop (List.mem_of_mem_take inside))
        have later := ih (by omega) (clear_behind sound isV1) nothing
        have frozen : ContiguousFrom history plan (v1.endIndex + 1) ↔ ContiguousFrom history plan turnIndex := by
          constructor
          · intro behind turn isTurn after notFrozen
            refine behind turn isTurn ?_ notFrozen
            by_contra before
            rw [frozen_inside selected (by omega) (by omega)] at notFrozen
            cases notFrozen
          · intro ahead turn isTurn after
            exact ahead turn isTurn (by omega)
        rw [isPacked, except_ok_bind]
        dsimp only
        rw [made, except_ok_bind]
        exact (later.map fun others => packed ++ segment :: others).congr frozen
      · rename_i turn found noV1
        have isTurn := List.mem_of_getElem? found
        have number := distinct.numbered turnIndex turn found
        have notFrozen := clear.notFrozen noV1
        have step := contiguousFrom_step distinct.toCanonical isTurn number notFrozen
        split
        · have fits := sound.v2At_fits distinct.toCanonical isTurn
          rw [number] at fits
          have later := ih (by omega) (clear.next noV1) nothing
          rw [isPacked, except_ok_bind]
          rcases fragmentTurn_outcome maxChars (distinct.nonempty turn isTurn) fits.1 fits.2 with
            ⟨⟨fragments, areFragments⟩, holds⟩ | ⟨fails, broken⟩
          · rw [areFragments, except_ok_bind]
            refine (later.map fun others => packed ++ fragments ++ others).congr ?_
            rw [step]
            exact ⟨fun behind => ⟨holds, behind⟩, fun both => both.2⟩
          · rw [fails, except_error_bind]
            exact Or.inr ⟨rfl, fun ahead => broken (step.mp ahead).1⟩
        · rename_i notFragmented
          unfold TurnPlan.isFragmented at notFragmented
          rw [notFrozen] at notFragmented
          simp only [Bool.not_false, Bool.true_and, Bool.or_eq_true, List.any_eq_true, beq_iff_eq,
            decide_eq_true_iff, not_or, not_exists, not_and, not_lt] at notFragmented
          have later := ih (by omega) (clear.next noV1) fun other inside => by
            rcases List.mem_append.mp inside with before | last
            · exact ordinary other before
            · rw [List.mem_singleton.mp last]
              exact ⟨isTurn, notFragmented.2⟩
          refine later.congr ?_
          rw [step]
          refine ⟨fun behind => ⟨fun anchors => ?_, behind⟩, fun both => both.2⟩
          obtain ⟨indexed, inside⟩ := List.exists_mem_of_ne_nil _ anchors
          obtain ⟨selected, atTurn⟩ := v2At_mem inside
          exact absurd atTurn (notFragmented.1 indexed (sound.resolved indexed selected))

/-! ### Exact boundaries of different turns -/

theorem Anchored.source_at {history : CanonicalHistory numbers} (canonical : Canonical history)
    {turn : CompleteTurn numbers} {indexed : IndexedV2Boundary} (anchored : Anchored history turn indexed)
    {place : Nat} (start : indexed.startIndex ≤ place) (finish : place ≤ indexed.endIndex) :
    ∃ source, history.messages[place]? = some source ∧ source.turnIndex = turn.index := by
  obtain ⟨last, atEnd, lastIndex⟩ := anchored.end_found
  have inHistory := (canonical.turn_sublist anchored.isTurn).subset (List.mem_of_getElem? atEnd)
  obtain ⟨position, atPosition⟩ := List.getElem?_of_mem inHistory
  have number := canonical.placed position last atPosition
  have within := (List.getElem?_eq_some_iff.mp atPosition).1
  have found := List.getElem?_eq_getElem (show place < history.messages.length by omega)
  refine ⟨_, found, anchored.inTurn _ (?_)⟩
  refine List.mem_of_getElem? (?_ : (history.messages.extract _ _)[place - indexed.startIndex]? = _)
  rw [getElem?_extract, if_pos (by omega), Nat.add_sub_cancel' start, found]

theorem Anchored.apart {history : CanonicalHistory numbers} (canonical : Canonical history)
    {turn other : CompleteTurn numbers} {one another : IndexedV2Boundary}
    (anchored : Anchored history turn one) (alsoAnchored : Anchored history other another)
    (different : turn.index ≠ other.index) :
    one.endIndex < another.startIndex ∨ another.endIndex < one.startIndex := by
  by_contra overlap
  have ordered := anchored.ordered
  have alsoOrdered := alsoAnchored.ordered
  -- The later of the two starts lies in both.
  have common : ∃ place, one.startIndex ≤ place ∧ place ≤ one.endIndex ∧ another.startIndex ≤ place ∧
      place ≤ another.endIndex :=
    ⟨max one.startIndex another.startIndex, by omega, by omega, by omega, by omega⟩
  obtain ⟨place, afterOne, beforeOne, afterOther, beforeOther⟩ := common
  obtain ⟨source, found, inOne⟩ := anchored.source_at canonical afterOne beforeOne
  obtain ⟨_, alsoFound, inOther⟩ := alsoAnchored.source_at canonical afterOther beforeOther
  rw [found] at alsoFound
  cases alsoFound
  exact different (inOne.symm.trans inOther)

/-- A turn that is not frozen and holds a resolved boundary has a selected one. -/
theorem v2At_nonempty_iff {localeCompare : JsString → JsString → Ordering} {history : CanonicalHistory numbers}
    (canonical : Canonical history) {boundaries : List CommittedSegmentBoundary} {plan : TurnPlan}
    (planned : turnPlan localeCompare history boundaries = .ok plan) {turnIndex : Nat}
    (notFrozen : isFrozen plan.selectedV1 turnIndex = false) :
    plan.v2At turnIndex ≠ [] ↔ ∃ indexed ∈ plan.resolvedV2, indexed.turnIndex = turnIndex := by
  have sound := turnPlan_sound planned
  constructor
  · intro anchors
    obtain ⟨indexed, inside⟩ := List.exists_mem_of_ne_nil _ anchors
    obtain ⟨selected, atTurn⟩ := v2At_mem inside
    exact ⟨indexed, sound.resolved indexed selected, atTurn⟩
  · rintro ⟨indexed, isResolved, atTurn⟩ nothing
    obtain ⟨_, areResolved, selectedV2⟩ := turnPlan_ok planned
    have anchored := resolveV2Boundaries_anchored areResolved
    obtain ⟨candidates, perm, best⟩ := reconcileV2Boundaries_best localeCompare (isFrozen plan.selectedV1)
      fun other isOther => (anchored other isOther).2
    rw [← selectedV2] at best
    have candidate : indexed ∈ candidates := by
      apply perm.symm.subset
      rw [List.mem_filter, atTurn, notFrozen]
      exact ⟨isResolved, rfl⟩
    obtain ⟨_, turn, isAnchored⟩ := anchored indexed isResolved
    have elsewhere : ∀ other ∈ plan.selectedV2, other.turnIndex ≠ turnIndex := by
      intro other isOther same
      have inside : other ∈ plan.v2At turnIndex := List.mem_filter.mpr ⟨isOther, beq_iff_eq.mpr same⟩
      rw [nothing] at inside
      cases inside
    have selected := best.mem_of_apart candidate (intervalTriple_pos isAnchored.ordered) fun other isOther _ => by
      obtain ⟨owner, alsoAnchored⟩ := sound.v2 other isOther
      apply isAnchored.apart canonical alsoAnchored
      intro one
      exact elsewhere other isOther (by rw [alsoAnchored.number, ← one, ← isAnchored.number, atTurn])
    exact elsewhere indexed selected atTurn

/-! ### What resolving can throw -/

theorem boundaryVersion_error {boundary : CommittedSegmentBoundary} {error : SegmentationError}
    (failed : boundaryVersion boundary = .error error) :
    error = .v1Cursors ∨ error = .unsupportedVersion ∨ error = .v2Cursors ∨ error = .v2Turns := by
  unfold boundaryVersion at failed
  split at failed
  · split at failed <;> cases failed
    exact Or.inl rfl
  · split at failed <;> cases failed
    exact Or.inl rfl
  · split at failed
    · split at failed
      · cases failed
        exact Or.inr (Or.inr (Or.inl rfl))
      · split at failed <;> cases failed
        exact Or.inr (Or.inr (Or.inr rfl))
    · cases failed
      exact Or.inr (Or.inr (Or.inl rfl))
  · cases failed
    exact Or.inr (Or.inl rfl)

theorem uniqueSourceIndexes_found {sources : List (IndexedMessage numbers)}
    (distinct : (sources.map fun source => source.message.id).Nodup) {id : JsString} {index : Option Nat}
    (found : (uniqueSourceIndexes sources).lookup id = some index) :
    ∃ source ∈ sources, index = some source.sourceIndex := by
  have isKey : id ∈ uniqueSourceIndexes sources := AList.lookup_isSome.mp (by rw [found]; rfl)
  obtain ⟨source, inside, rfl⟩ := List.mem_map.mp (mem_uniqueSourceIndexes.mp isKey)
  rw [uniqueSourceIndexes_lookup distinct inside] at found
  exact ⟨source, inside, (Option.some.inj found).symm⟩

/-- A source message of the turn is found there. -/
theorem Canonical.findIdx?_turn {history : CanonicalHistory numbers} (canonical : Canonical history)
    {turn : CompleteTurn numbers} (isTurn : turn ∈ history.turns) {source : IndexedMessage numbers}
    (inside : source ∈ turn.messages) :
    ∃ offset, turn.messages.findIdx? (fun other => other.sourceIndex == source.sourceIndex) = some offset ∧
      turn.messages[offset]? = some source := by
  have present : (turn.messages.findIdx? fun other => other.sourceIndex == source.sourceIndex).isSome = true := by
    rw [List.findIdx?_isSome, List.any_eq_true]
    exact ⟨source, inside, beq_self_eq_true source.sourceIndex⟩
  obtain ⟨offset, found⟩ := Option.isSome_iff_exists.mp present
  obtain ⟨within, same, _⟩ := List.findIdx?_eq_some_iff_getElem.mp found
  have one := eq_of_key_eq (canonical.turn_inOrder isTurn) (List.getElem_mem within) inside (by simpa using same)
  exact ⟨offset, found, by rw [List.getElem?_eq_getElem within, one]⟩

/-- Where ids differ, the cursors of a boundary can only be out of order or leave the turn. -/
theorem resolveV2Boundary_error {history : CanonicalHistory numbers} (distinct : Distinct history)
    {boundary : CommittedSegmentBoundary} {error : SegmentationError}
    (failed : resolveV2Boundary history boundary = .error error) :
    boundaryVersion boundary = .error error ∨
      boundaryVersion boundary = .ok .v2 ∧ (error = .outOfOrder ∨ error = .leavesTurn) := by
  unfold resolveV2Boundary at failed
  cases isVersion : boundaryVersion boundary with
  | error other =>
      rw [isVersion, except_error_bind] at failed
      cases failed
      exact Or.inl rfl
  | ok version =>
      rw [isVersion, except_ok_bind] at failed
      cases version with
      | v1 => cases failed
      | v2 =>
          refine Or.inr ⟨rfl, ?_⟩
          dsimp only at failed
          split at failed
          · rename_i turn start finish isTurn isStart isFinish
            obtain ⟨head, headInside, rfl⟩ := uniqueSourceIndexes_found distinct.ids isStart
            obtain ⟨last, lastInside, rfl⟩ := uniqueSourceIndexes_found distinct.ids isFinish
            dsimp only at failed
            split at failed
            · cases failed
              exact Or.inl rfl
            · rename_i ordered
              split at failed
              · cases failed
                exact Or.inr rfl
              · rename_i inTurn
                exfalso
                simp only [Bool.or_eq_true, not_or, List.any_eq_true, not_exists, not_and,
                  bne_iff_ne, ne_eq, not_not] at inTurn
                have entry := lookup_ofEntries_mem isTurn
                simp only [List.mem_map, Prod.mk.injEq] at entry
                obtain ⟨member, isMember, _, same⟩ := entry
                cases same
                -- The two ends of the span belong to the turn, so they are found there in order.
                have owned : ∀ source ∈ history.messages, head.sourceIndex ≤ source.sourceIndex →
                    source.sourceIndex ≤ last.sourceIndex → source ∈ turn.messages := by
                  intro source inside start finish
                  obtain ⟨position, atPosition⟩ := List.getElem?_of_mem inside
                  have number := distinct.placed position source atPosition
                  refine (distinct.toCanonical.mem_turn isMember).mpr ⟨inside, inTurn.2 source ?_⟩
                  refine List.mem_of_getElem?
                    (?_ : (history.messages.extract _ _)[source.sourceIndex - head.sourceIndex]? = _)
                  rw [getElem?_extract, if_pos (by omega), Nat.add_sub_cancel' start, number, atPosition]
                have forward : head.sourceIndex ≤ last.sourceIndex := Nat.le_of_not_lt ordered
                obtain ⟨startOffset, isStartOffset, atStart⟩ := distinct.toCanonical.findIdx?_turn isMember
                  (owned head headInside (Nat.le_refl _) forward)
                obtain ⟨endOffset, isEndOffset, atEnd⟩ := distinct.toCanonical.findIdx?_turn isMember
                  (owned last lastInside forward (Nat.le_refl _))
                rw [isStartOffset, isEndOffset] at failed
                dsimp only at failed
                split at failed
                · rename_i backward
                  obtain ⟨inStart, isHead⟩ := List.getElem?_eq_some_iff.mp atStart
                  obtain ⟨inEnd, isLast⟩ := List.getElem?_eq_some_iff.mp atEnd
                  have inOrder := List.pairwise_iff_getElem.mp (distinct.toCanonical.turn_inOrder isMember)
                    _ _ inEnd inStart backward
                  rw [isHead, isLast] at inOrder
                  omega
                · cases failed
          · cases failed

/-! ### When a segmentation returns -/

theorem segmentMessages_outcome {localeCompare : JsString → JsString → Ordering}
    {messages : List (OpenCodeMessage numbers)} (distinct : (messages.map OpenCodeMessage.id).Nodup)
    {maxChars : Nat} (positive : maxChars ≠ 0) {boundaries : List CommittedSegmentBoundary} {plan : TurnPlan}
    (planned : turnPlan localeCompare (canonicalHistory messages) boundaries = .ok plan) :
    Outcome (segmentMessages localeCompare messages maxChars boundaries)
      (ContiguousFrom (canonicalHistory messages) plan 0) := by
  unfold segmentMessages
  rw [if_neg positive]
  dsimp only
  rw [planned, except_ok_bind]
  exact segmentTurns_outcome (distinct_history distinct) (turnPlan_sound planned) maxChars (by omega)
    (fun indexed _ => Or.inl (Nat.zero_le _)) fun turn inside => absurd inside List.not_mem_nil

/-- It returns where the boundaries are resolved and no turn with an exact boundary is in pieces. -/
theorem segmentMessages_returns_iff (localeCompare : JsString → JsString → Ordering)
    (messages : List (OpenCodeMessage numbers)) (distinct : (messages.map OpenCodeMessage.id).Nodup)
    (maxChars : Nat) (boundaries : List CommittedSegmentBoundary) :
    (∃ segments, segmentMessages localeCompare messages maxChars boundaries = .ok segments) ↔
      maxChars ≠ 0 ∧ ∃ plan, turnPlan localeCompare (canonicalHistory messages) boundaries = .ok plan ∧
        ∀ turn ∈ (canonicalHistory messages).turns, isFrozen plan.selectedV1 turn.index = false →
          (∃ indexed ∈ plan.resolvedV2, indexed.turnIndex = turn.index) → Contiguous turn := by
  have canonical := canonical_history messages
  constructor
  · rintro ⟨segments, segmented⟩
    have positive : maxChars ≠ 0 := by
      intro zero
      rw [segmentMessages, if_pos zero] at segmented
      cases segmented
    have whole := segmented
    unfold segmentMessages at whole
    rw [if_neg positive] at whole
    obtain ⟨plan, planned, _⟩ := except_bind_ok whole
    refine ⟨positive, plan, planned, fun turn isTurn notFrozen holds => ?_⟩
    rcases segmentMessages_outcome distinct positive planned with ⟨_, contiguous⟩ | ⟨failed, _⟩
    · exact contiguous turn isTurn (Nat.zero_le _) notFrozen
        ((v2At_nonempty_iff canonical planned notFrozen).mpr holds)
    · rw [segmented] at failed
      cases failed
  · rintro ⟨positive, plan, planned, contiguous⟩
    rcases segmentMessages_outcome distinct positive planned with ⟨returned, _⟩ | ⟨_, broken⟩
    · exact returned
    · refine absurd (fun turn isTurn _ notFrozen anchors => ?_) broken
      exact contiguous turn isTurn notFrozen ((v2At_nonempty_iff canonical planned notFrozen).mp anchors)

theorem segmentMessages_returns_iff_sample :
    ∃ segments, segmentMessages (fun _ _ => .eq) sampleHistory 5 [] = .ok segments := by
  refine (segmentMessages_returns_iff (fun _ _ => .eq) sampleHistory (by decide) 5 []).mpr
    ⟨by decide, uncommittedPlan, turnPlan_uncommitted _ _, fun turn _ _ holds => ?_⟩
  obtain ⟨indexed, inside, _⟩ := holds
  cases inside

theorem indexV1Boundary_error {indexes : AList fun _ : JsString => Nat} {boundary : CommittedSegmentBoundary}
    {error : SegmentationError} (failed : indexV1Boundary indexes boundary = .error error) :
    boundaryVersion boundary = .error error := by
  unfold indexV1Boundary at failed
  cases isVersion : boundaryVersion boundary with
  | error other =>
      rw [isVersion, except_error_bind] at failed
      cases failed
      rfl
  | ok version =>
      rw [isVersion, except_ok_bind] at failed
      cases version with
      | v2 => cases failed
      | v1 =>
          dsimp only at failed
          split at failed
          · split at failed <;> cases failed
          · cases failed

/-- What a segmentation of messages with distinct ids can throw: its own guards, and none of the checks
on what it computed itself. -/
theorem segmentMessages_error (localeCompare : JsString → JsString → Ordering)
    (messages : List (OpenCodeMessage numbers)) (distinct : (messages.map OpenCodeMessage.id).Nodup)
    (maxChars : Nat) (boundaries : List CommittedSegmentBoundary) (error : SegmentationError)
    (failed : segmentMessages localeCompare messages maxChars boundaries = .error error) :
    (maxChars = 0 ∧ error = .maxChars) ∨
      (∃ boundary ∈ boundaries, boundaryVersion boundary = .error error ∧
        (error = .v1Cursors ∨ error = .unsupportedVersion ∨ error = .v2Cursors ∨ error = .v2Turns)) ∨
        (∃ boundary ∈ boundaries, boundaryVersion boundary = .ok .v2 ∧
          resolveV2Boundary (canonicalHistory messages) boundary = .error error ∧
            (error = .outOfOrder ∨ error = .leavesTurn)) ∨
          (error = .notContiguous ∧ ∃ boundary ∈ boundaries, ∃ indexed,
            resolveV2Boundary (canonicalHistory messages) boundary = .ok (some indexed) ∧
              ∃ turn, (canonicalHistory messages).turns[indexed.turnIndex]? = some turn ∧
                ¬Contiguous turn) := by
  have history := distinct_history distinct
  by_cases zero : maxChars = 0
  · rw [segmentMessages, if_pos zero] at failed
    cases failed
    exact Or.inl ⟨zero, rfl⟩
  · right
    cases planned : turnPlan localeCompare (canonicalHistory messages) boundaries with
    | error other =>
        unfold segmentMessages at failed
        rw [if_neg zero] at failed
        dsimp only at failed
        rw [planned, except_error_bind] at failed
        cases failed
        unfold turnPlan at planned
        cases reconciled : reconcileV1Boundaries localeCompare (canonicalHistory messages).turns boundaries with
        | error another =>
            rw [reconciled, except_error_bind] at planned
            cases planned
            unfold reconcileV1Boundaries at reconciled
            cases indexed : boundaries.mapM
                (indexV1Boundary (userIndexes (canonicalHistory messages).turns)) with
            | error first =>
                rw [indexed, except_error_bind] at reconciled
                cases reconciled
                obtain ⟨boundary, inside, throws⟩ := mapM_error indexed
                have refused := indexV1Boundary_error throws
                exact Or.inl ⟨boundary, inside, refused, boundaryVersion_error refused⟩
            | ok found =>
                rw [indexed] at reconciled
                cases reconciled
        | ok selectedV1 =>
            rw [reconciled, except_ok_bind] at planned
            unfold resolveV2Boundaries at planned
            cases resolved : boundaries.mapM (resolveV2Boundary (canonicalHistory messages)) with
            | error first =>
                rw [resolved] at planned
                cases planned
                obtain ⟨boundary, inside, throws⟩ := mapM_error resolved
                rcases resolveV2Boundary_error history throws with refused | ⟨exact, which⟩
                · exact Or.inl ⟨boundary, inside, refused, boundaryVersion_error refused⟩
                · exact Or.inr (Or.inl ⟨boundary, inside, exact, throws, which⟩)
            | ok found =>
                rw [resolved] at planned
                cases planned
    | ok plan =>
        rcases segmentMessages_outcome distinct zero planned with ⟨⟨segments, returned⟩, _⟩ | ⟨thrown, broken⟩
        · rw [failed] at returned
          cases returned
        · rw [failed] at thrown
          cases thrown
          right
          right
          refine ⟨rfl, ?_⟩
          by_contra none
          apply broken
          intro turn isTurn _ notFrozen anchors
          by_contra inPieces
          obtain ⟨indexed, isResolved, atTurn⟩ :=
            (v2At_nonempty_iff history.toCanonical planned notFrozen).mp anchors
          obtain ⟨_, areResolved, _⟩ := turnPlan_ok planned
          obtain ⟨boundary, inside, isIndexed⟩ := (mem_resolveV2Boundaries areResolved).mp isResolved
          exact none ⟨boundary, inside, indexed, isIndexed, turn,
            by rw [atTurn]; exact history.toCanonical.turn_at isTurn, inPieces⟩

/-- A boundary of a version that is not supported. -/
def laterBoundary : CommittedSegmentBoundary :=
  { id := none
    startUserMessageId := [1]
    endUserMessageId := [1]
    sourceBoundaryVersion := some 3
    startSourceMessageId := none
    endSourceMessageId := none
    projectionVersion := none
    sourceEligible := none }

theorem segmentMessages_error_sample :
    segmentMessages (fun _ _ => .eq) sampleHistory 5 [laterBoundary] = .error .unsupportedVersion ∧
      ∃ boundary ∈ [laterBoundary], boundaryVersion boundary = .error .unsupportedVersion := by
  have failed : segmentMessages (fun _ _ => .eq) sampleHistory 5 [laterBoundary] = .error .unsupportedVersion := rfl
  refine ⟨failed, ?_⟩
  rcases segmentMessages_error (fun _ _ => .eq) sampleHistory (by decide) 5 [laterBoundary]
      .unsupportedVersion failed with ⟨zero, _⟩ | ⟨boundary, inside, refused, _⟩ | ⟨_, _, _, _, which⟩ | ⟨other, _⟩
  · cases zero
  · exact ⟨boundary, inside, refused⟩
  · rcases which with other | other <;> cases other
  · cases other

end Reflection.Segments
