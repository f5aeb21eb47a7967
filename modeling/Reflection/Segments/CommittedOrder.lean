/-
A segmentation does not depend on the order of the committed boundaries.

The plan is read through the ranges of what was selected and the projection versions they carry. Two
orders of the same boundaries select boundaries that agree in these, so every round does the same.
-/

import Reflection.Segments.Replanning
import Reflection.Shared.BoundaryOrder

namespace Reflection.Segments

variable {numbers : Numbers}

/-! ### What the loop reads of a plan -/

def IndexedV1Boundary.reads (indexed : IndexedV1Boundary) : Nat × Nat × Int :=
  (indexed.startIndex, indexed.endIndex, indexed.boundary.projectionVersion.getD 0)

def IndexedV2Boundary.reads (indexed : IndexedV2Boundary) : Nat × Nat × Int :=
  (indexed.startOffset, indexed.endOffset, indexed.boundary.projectionVersion.getD 0)

structure SamePlans (plan other : TurnPlan) : Prop where
  v1At : ∀ turnIndex, (plan.v1At turnIndex).map IndexedV1Boundary.reads =
    (other.v1At turnIndex).map IndexedV1Boundary.reads
  v2At : ∀ turnIndex, (plan.v2At turnIndex).map IndexedV2Boundary.reads =
    (other.v2At turnIndex).map IndexedV2Boundary.reads
  frozen : ∀ turnIndex, isFrozen plan.selectedV1 turnIndex = isFrozen other.selectedV1 turnIndex
  resolved : ∀ turnIndex, (plan.resolvedV2.any fun boundary => boundary.turnIndex == turnIndex) =
    other.resolvedV2.any fun boundary => boundary.turnIndex == turnIndex

/-- A missing version counts as zero where scores are added, and as one where it is asked for. -/
theorem upgradedProjection_congr {one other : Option Int} (same : one.getD 0 = other.getD 0) :
    upgradedProjection one = upgradedProjection other := by
  funext fallback
  unfold upgradedProjection
  have decided : decide (2 ≤ one.getD 1) = decide (2 ≤ other.getD 1) := by
    cases one with
    | none =>
        cases other with
        | none => rfl
        | some version =>
            change (0 : Int) = version at same
            rw [← same]
            rfl
    | some version =>
        cases other with
        | none =>
            change version = (0 : Int) at same
            rw [same]
            rfl
        | some another =>
            change version = another at same
            rw [same]
  rw [decided]

theorem makeV1Segment_congr (turns : List (CompleteTurn numbers)) (closed : Bool) {one other : Option Int}
    (same : one.getD 0 = other.getD 0) : makeV1Segment turns closed one = makeV1Segment turns closed other := by
  unfold makeV1Segment
  rw [upgradedProjection_congr same]

theorem makeV2Segment_congr (turn : CompleteTurn numbers) (sources : List (IndexedMessage numbers)) (closed : Bool)
    {one other : Option Int} (same : one.getD 0 = other.getD 0) :
    makeV2Segment turn sources closed one = makeV2Segment turn sources closed other := by
  unfold makeV2Segment
  rw [upgradedProjection_congr same]

theorem fragmentBoundaries_congr (turn : CompleteTurn numbers) (maxChars cursor : Nat)
    {boundaries others : List IndexedV2Boundary}
    (same : boundaries.map IndexedV2Boundary.reads = others.map IndexedV2Boundary.reads) :
    fragmentBoundaries turn maxChars cursor boundaries = fragmentBoundaries turn maxChars cursor others := by
  induction boundaries generalizing cursor others with
  | nil =>
      rw [List.map_nil, eq_comm, List.map_eq_nil_iff] at same
      rw [same]
  | cons boundary rest ih =>
      cases others with
      | nil => cases same
      | cons other more =>
          rw [List.map_cons, List.map_cons, List.cons.injEq] at same
          obtain ⟨sameReads, sameRest⟩ := same
          simp only [IndexedV2Boundary.reads, Prod.mk.injEq] at sameReads
          obtain ⟨start, finish, version⟩ := sameReads
          have next : (rest.head?.any fun next => decide (next.startOffset < boundary.endOffset + 1)) =
              more.head?.any fun next => decide (next.startOffset < other.endOffset + 1) := by
            cases rest with
            | nil =>
                rw [List.map_nil, eq_comm, List.map_eq_nil_iff] at sameRest
                rw [sameRest]
                rfl
            | cons one behind =>
                cases more with
                | nil => cases sameRest
                | cons another beyond =>
                    rw [List.map_cons, List.map_cons, List.cons.injEq] at sameRest
                    have sameStart : one.startOffset = another.startOffset := congrArg Prod.fst sameRest.1
                    rw [List.head?_cons, List.head?_cons, Option.any_some, Option.any_some, sameStart, finish]
          unfold fragmentBoundaries
          rw [start, next, finish, ih _ sameRest]
          simp only [makeV2Segment_congr turn _ _ version]

theorem fragmentTurn_congr (turn : CompleteTurn numbers) (maxChars : Nat)
    {boundaries others : List IndexedV2Boundary}
    (same : boundaries.map IndexedV2Boundary.reads = others.map IndexedV2Boundary.reads) :
    fragmentTurn turn boundaries maxChars = fragmentTurn turn others maxChars := by
  have empty : boundaries.isEmpty = others.isEmpty := by
    rw [← List.isEmpty_map (f := IndexedV2Boundary.reads), same, List.isEmpty_map]
  unfold fragmentTurn
  rw [empty]
  simp only [fragmentBoundaries_congr turn maxChars _ same]

theorem SamePlans.isFragmented {plan other : TurnPlan} (same : SamePlans plan other) (maxChars : Nat)
    (turn : CompleteTurn numbers) (turnIndex : Nat) :
    plan.isFragmented maxChars turn turnIndex = other.isFragmented maxChars turn turnIndex := by
  unfold TurnPlan.isFragmented
  rw [same.frozen, same.resolved]

/-- The loop does the same with plans that agree in what it reads. -/
theorem SamePlans.segmentTurns {plan other : TurnPlan} (same : SamePlans plan other)
    (turns : List (CompleteTurn numbers)) (maxChars rounds turnIndex : Nat)
    (ordinaryTurns : List (CompleteTurn numbers)) :
    segmentTurns turns plan maxChars rounds turnIndex ordinaryTurns =
      segmentTurns turns other maxChars rounds turnIndex ordinaryTurns := by
  induction rounds generalizing turnIndex ordinaryTurns with
  | zero => rfl
  | succ rounds ih =>
      have reads := same.v1At turnIndex
      unfold Segments.segmentTurns
      cases turns[turnIndex]? with
      | none => rfl
      | some turn =>
          cases first : plan.v1At turnIndex with
          | none =>
              rw [first, Option.map_none, eq_comm, Option.map_eq_none_iff] at reads
              rw [reads]
              dsimp only
              rw [same.isFragmented, fragmentTurn_congr turn maxChars (same.v2At turnIndex)]
              simp only [ih]
          | some v1 =>
              rw [first, Option.map_some, eq_comm, Option.map_eq_some_iff] at reads
              obtain ⟨v1', isOther, sameReads⟩ := reads
              simp only [IndexedV1Boundary.reads, Prod.mk.injEq] at sameReads
              obtain ⟨start, finish, version⟩ := sameReads
              rw [isOther]
              dsimp only
              rw [start, finish, makeV1Segment_congr _ _ version]
              simp only [ih]

/-! ### What is selected from either order -/

section Candidates

variable (localeCompare : JsString → JsString → Ordering) {Item : Type} {interval : Item → BoundaryInterval}
  {boundary : Item → CommittedSegmentBoundary}

theorem candidates_sorted_range (items : List Item) :
    (items.insertionSort (candidateLe localeCompare interval boundary)).Pairwise fun one other =>
      rangeKey interval one ≤ rangeKey interval other := by
  apply insertionSort_sorted
  · rintro one other (before | ⟨sameEnd, before | ⟨sameStart, _⟩⟩)
    · exact Prod.Lex.le_iff.mpr (Or.inl before)
    · exact Prod.Lex.le_iff.mpr (Or.inr ⟨sameEnd, before.le⟩)
    · exact Prod.Lex.le_iff.mpr (Or.inr ⟨sameEnd, sameStart.le⟩)
  · intro one other behind
    rw [← not_lt]
    intro less
    rcases Prod.Lex.lt_iff.mp less with before | ⟨sameEnd, before⟩
    · exact behind (Or.inl before)
    · exact behind (Or.inr ⟨sameEnd, Or.inl before⟩)

theorem selected_traits {items others : List Item} (perm : items.Perm others)
    (proper : ∀ item ∈ items, startOf interval item ≤ endOf interval item) :
    traits interval (selectBoundaryIntervals interval
        (items.insertionSort (candidateLe localeCompare interval boundary))) =
      traits interval (selectBoundaryIntervals interval
        (others.insertionSort (candidateLe localeCompare interval boundary))) := by
  apply selectBoundaryIntervals_traits
  · exact (List.perm_insertionSort _ items).trans (perm.trans (List.perm_insertionSort _ others).symm)
  · exact candidates_sorted_range localeCompare items
  · exact candidates_sorted_range localeCompare others
  · intro item inside
    exact proper item ((List.mem_insertionSort _).mp inside)

end Candidates

variable {localeCompare : JsString → JsString → Ordering} {boundaries others : List CommittedSegmentBoundary}

theorem reconcileV1Boundaries_perm {turns : List (CompleteTurn numbers)} (perm : boundaries.Perm others)
    {selected : List IndexedV1Boundary}
    (reconciled : reconcileV1Boundaries localeCompare turns boundaries = .ok selected) :
    ∃ more, reconcileV1Boundaries localeCompare turns others = .ok more ∧
      selected.map IndexedV1Boundary.reads = more.map IndexedV1Boundary.reads := by
  unfold reconcileV1Boundaries at reconciled ⊢
  obtain ⟨found, isFound, same⟩ := except_bind_ok reconciled
  cases same
  obtain ⟨alsoFound, isAlsoFound, foundPerm⟩ := mapM_perm perm isFound
  rw [isAlsoFound, except_ok_bind]
  refine ⟨_, rfl, ?_⟩
  have proper : ∀ indexed ∈ found.reduceOption,
      startOf IndexedV1Boundary.interval indexed ≤ endOf IndexedV1Boundary.interval indexed := by
    intro indexed inside
    obtain ⟨boundary, _, isIndexed⟩ := (mem_reduceOption_mapM isFound).mp inside
    exact (indexV1Boundary_names isIndexed).2.ordered
  refine map_eq_of_map_eq (selected_traits localeCompare (foundPerm.filterMap id) proper) ?_
  intro one _ other _ alike
  have start := congrArg BoundaryInterval.startIndex alike
  have finish := congrArg BoundaryInterval.endIndex alike
  have version := Option.some.inj (congrArg BoundaryInterval.projectionVersion alike)
  exact Prod.ext start (Prod.ext finish version)

/-- The range of an exact boundary says which turn it lies in, and where. -/
theorem Anchored.place_eq {history : CanonicalHistory numbers} (canonical : Canonical history)
    {turn owner : CompleteTurn numbers} {one other : IndexedV2Boundary} (anchored : Anchored history turn one)
    (alsoAnchored : Anchored history owner other) (start : one.startIndex = other.startIndex)
    (finish : one.endIndex = other.endIndex) :
    one.turnIndex = other.turnIndex ∧ one.startOffset = other.startOffset ∧ one.endOffset = other.endOffset := by
  have sameTurn : turn = owner := by
    apply canonical.turn_unique anchored.isTurn alsoAnchored.isTurn
    by_contra different
    have ordered := anchored.ordered
    rcases anchored.apart canonical alsoAnchored different with before | behind <;> omega
  subst sameTurn
  have startAt := anchored.startAt
  have endAt := anchored.endAt
  rw [start, alsoAnchored.startAt, Option.some.injEq] at startAt
  rw [finish, alsoAnchored.endAt, Option.some.injEq] at endAt
  exact ⟨anchored.number.trans alsoAnchored.number.symm, startAt.symm, endAt.symm⟩

theorem reconcileV2Boundaries_perm {history : CanonicalHistory numbers} (canonical : Canonical history)
    {resolved more : List IndexedV2Boundary} (perm : resolved.Perm more) (frozen : Nat → Bool)
    (anchored : ∀ indexed ∈ resolved, ∃ turn, Anchored history turn indexed) (turnIndex : Nat) :
    ((reconcileV2Boundaries localeCompare resolved frozen).filter fun boundary =>
        boundary.turnIndex == turnIndex).map IndexedV2Boundary.reads =
      ((reconcileV2Boundaries localeCompare more frozen).filter fun boundary =>
        boundary.turnIndex == turnIndex).map IndexedV2Boundary.reads := by
  have alsoAnchored : ∀ indexed ∈ more, ∃ turn, Anchored history turn indexed := fun indexed inside =>
    anchored indexed (perm.mem_iff.mpr inside)
  have alike : traits IndexedV2Boundary.interval (reconcileV2Boundaries localeCompare resolved frozen) =
      traits IndexedV2Boundary.interval (reconcileV2Boundaries localeCompare more frozen) := by
    apply selected_traits localeCompare (perm.filter _)
    intro indexed inside
    obtain ⟨turn, isAnchored⟩ := anchored indexed (List.mem_of_mem_filter inside)
    exact isAnchored.ordered
  have placed : (reconcileV2Boundaries localeCompare resolved frozen).map
        (fun boundary => (boundary.turnIndex, boundary.reads)) =
      (reconcileV2Boundaries localeCompare more frozen).map
        fun boundary => (boundary.turnIndex, boundary.reads) := by
    refine map_eq_of_map_eq alike ?_
    intro one inside other alsoInside same
    obtain ⟨turn, isAnchored⟩ := anchored one (mem_reconcileV2Boundaries anchored inside).1
    obtain ⟨owner, isAlsoAnchored⟩ := alsoAnchored other (mem_reconcileV2Boundaries alsoAnchored alsoInside).1
    obtain ⟨turns, starts, ends⟩ := isAnchored.place_eq canonical isAlsoAnchored
      (congrArg BoundaryInterval.startIndex same) (congrArg BoundaryInterval.endIndex same)
    have version := Option.some.inj (congrArg BoundaryInterval.projectionVersion same)
    exact Prod.ext turns (Prod.ext starts (Prod.ext ends version))
  have filtered := congrArg (List.map Prod.snd)
    (congrArg (List.filter fun entry : Nat × (Nat × Nat × Int) => entry.1 == turnIndex) placed)
  rw [List.filter_map, List.filter_map, List.map_map, List.map_map] at filtered
  exact filtered

/-! ### The plan from either order -/

theorem Sound.v1At_reads {history : CanonicalHistory numbers} {plan : TurnPlan} (sound : Sound history plan)
    (turnIndex : Nat) (reads : Nat × Nat × Int) : (plan.v1At turnIndex).map IndexedV1Boundary.reads = some reads ↔
      reads ∈ plan.selectedV1.map IndexedV1Boundary.reads ∧ reads.1 = turnIndex := by
  rw [Option.map_eq_some_iff, List.mem_map]
  constructor
  · rintro ⟨indexed, found, rfl⟩
    obtain ⟨selected, start⟩ := v1At_mem found
    exact ⟨⟨indexed, selected, rfl⟩, start⟩
  · rintro ⟨⟨indexed, selected, rfl⟩, rfl⟩
    exact ⟨indexed, sound.v1At_eq selected, rfl⟩

theorem isFrozen_reads (selected : List IndexedV1Boundary) (turnIndex : Nat) : isFrozen selected turnIndex =
    (selected.map IndexedV1Boundary.reads).any fun reads => reads.1 ≤ turnIndex && turnIndex ≤ reads.2.1 := by
  rw [List.any_map]
  rfl

theorem turnPlan_perm {history : CanonicalHistory numbers} (canonical : Canonical history)
    (perm : boundaries.Perm others) {plan : TurnPlan}
    (planned : turnPlan localeCompare history boundaries = .ok plan) :
    ∃ other, turnPlan localeCompare history others = .ok other ∧ SamePlans plan other := by
  obtain ⟨reconciled, resolved, selected⟩ := turnPlan_ok planned
  obtain ⟨selectedV1, alsoReconciled, sameReads⟩ := reconcileV1Boundaries_perm perm reconciled
  have anchored : ∀ indexed ∈ plan.resolvedV2, ∃ turn, Anchored history turn indexed := fun indexed inside =>
    (resolveV2Boundaries_anchored resolved indexed inside).2
  unfold resolveV2Boundaries at resolved
  obtain ⟨found, isFound, same⟩ := except_bind_ok resolved
  obtain ⟨alsoFound, isAlsoFound, foundPerm⟩ := mapM_perm perm isFound
  have resolvedPerm : plan.resolvedV2.Perm alsoFound.reduceOption := by
    rw [← Except.ok.inj same]
    exact foundPerm.filterMap id
  have alsoPlanned : turnPlan localeCompare history others = .ok
      { selectedV1 := selectedV1
        selectedV2 := reconcileV2Boundaries localeCompare alsoFound.reduceOption (isFrozen selectedV1)
        resolvedV2 := alsoFound.reduceOption } := by
    unfold turnPlan resolveV2Boundaries
    rw [alsoReconciled, except_ok_bind, isAlsoFound]
    rfl
  have sound := turnPlan_sound planned
  have alsoSound := turnPlan_sound alsoPlanned
  have frozen : isFrozen plan.selectedV1 = isFrozen selectedV1 := by
    funext turnIndex
    rw [isFrozen_reads, isFrozen_reads, sameReads]
  refine ⟨_, alsoPlanned, fun turnIndex => ?_, fun turnIndex => ?_, congrFun frozen, fun turnIndex => ?_⟩
  · apply Option.ext
    intro reads
    rw [sound.v1At_reads, alsoSound.v1At_reads, sameReads]
  · unfold TurnPlan.v2At
    rw [selected, frozen]
    exact reconcileV2Boundaries_perm canonical resolvedPerm (isFrozen selectedV1) anchored turnIndex
  · exact resolvedPerm.any_eq

theorem segmentMessages_perm_ok {messages : List (OpenCodeMessage numbers)} {maxChars : Nat}
    (perm : boundaries.Perm others) {segments : List ReflectionSegment}
    (segmented : segmentMessages localeCompare messages maxChars boundaries = .ok segments) :
    segmentMessages localeCompare messages maxChars others = .ok segments := by
  unfold segmentMessages at segmented ⊢
  split at segmented
  · cases segmented
  · rename_i positive
    rw [if_neg positive]
    dsimp only at segmented ⊢
    obtain ⟨plan, planned, run⟩ := except_bind_ok segmented
    obtain ⟨other, alsoPlanned, same⟩ := turnPlan_perm (canonical_history messages) perm planned
    rw [alsoPlanned, except_ok_bind, ← same.segmentTurns]
    exact run

/-- Two orders of the same committed boundaries lead to the same segments, or both are refused. -/
theorem segmentMessages_order (localeCompare : JsString → JsString → Ordering)
    (messages : List (OpenCodeMessage numbers)) (maxChars : Nat)
    (boundaries others : List CommittedSegmentBoundary) (perm : boundaries.Perm others) :
    (segmentMessages localeCompare messages maxChars boundaries).toOption =
      (segmentMessages localeCompare messages maxChars others).toOption := by
  cases one : segmentMessages localeCompare messages maxChars boundaries with
  | ok segments =>
      rw [segmentMessages_perm_ok perm one]
  | error _ =>
      cases other : segmentMessages localeCompare messages maxChars others with
      | ok segments =>
          rw [segmentMessages_perm_ok perm.symm other] at one
          cases one
      | error _ => rfl

/-- Two boundaries of one turn that differ in their projection version. -/
def turnBoundary (id : JsString) (projectionVersion : Option Int) : CommittedSegmentBoundary :=
  { id := some id
    startUserMessageId := [1]
    endUserMessageId := [1]
    sourceBoundaryVersion := some 1
    startSourceMessageId := none
    endSourceMessageId := none
    projectionVersion := projectionVersion
    sourceEligible := some true }

theorem segmentMessages_order_sample :
    (segmentMessages (fun _ _ => .eq) sampleHistory 5 [turnBoundary [5] none, turnBoundary [6] (some 2)]).toOption =
      (segmentMessages (fun _ _ => .eq) sampleHistory 5
        [turnBoundary [6] (some 2), turnBoundary [5] none]).toOption :=
  segmentMessages_order (fun _ _ => .eq) sampleHistory 5 _ _ (.swap _ _ _)

end Reflection.Segments
