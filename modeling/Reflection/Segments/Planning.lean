/-
Cutting a session into segments.

Committed boundaries of whole turns are reconciled first, and what they select is frozen. Exact
boundaries are reconciled in the turns that are left. Turns that are too heavy or hold an exact
boundary are cut into fragments, and the others are packed.
-/

import Reflection.Foundation.Results
import Reflection.Segments.History
import Reflection.Shared.BoundaryIntervals
import Reflection.Shared.FragmentRanges

namespace Reflection.Segments

open JsString

/-! ### Segments -/

inductive BoundaryVersion
  | v1
  | v2
deriving DecidableEq

structure ReflectionSegment where
  startUserMessageId : JsString
  endUserMessageId : JsString
  sourceBoundaryVersion : BoundaryVersion
  startSourceMessageId : Option JsString
  endSourceMessageId : Option JsString
  startMessageId : JsString
  endMessageId : JsString
  sourceMessageIds : List JsString
  charCount : ℕ∞
  closed : Bool
  messages : List SourceMessage
  projectionVersion : Option Nat
deriving DecidableEq

/-- A boundary as it is handed in; the version says which of the other fields are needed. -/
structure CommittedSegmentBoundary where
  id : Option JsString
  startUserMessageId : JsString
  endUserMessageId : JsString
  sourceBoundaryVersion : Option Int
  startSourceMessageId : Option JsString
  endSourceMessageId : Option JsString
  projectionVersion : Option Int
  sourceEligible : Option Bool
deriving DecidableEq

inductive SegmentationError
  /-- maxChars must be a positive integer -/
  | maxChars
  /-- V1 source boundaries cannot contain source cursors -/
  | v1Cursors
  /-- Unsupported source boundary version -/
  | unsupportedVersion
  /-- V2 source boundaries require both source cursors -/
  | v2Cursors
  /-- V2 source boundaries must stay within one user turn -/
  | v2Turns
  /-- V2 source boundary is ambiguous -/
  | ambiguous
  /-- V2 source boundaries are out of order -/
  | outOfOrder
  /-- V2 source boundary leaves its user turn -/
  | leavesTurn
  /-- V2 source boundary does not match its user turn -/
  | notInTurn
  /-- Cannot create an empty segment -/
  | emptySegment
  /-- Cannot fragment an empty turn -/
  | emptyTurn
  /-- A fragmented turn must be contiguous in source order -/
  | notContiguous
  /-- Selected V2 source boundaries overlap -/
  | overlap
  /-- Oversized turns must use source-message boundaries -/
  | oversized
  /-- V2 source boundary was not found -/
  | boundaryNotFound
  /-- Segment user boundary was not found -/
  | userNotFound
  /-- Segment user boundaries are out of order -/
  | usersOutOfOrder
deriving DecidableEq

section Segments

variable {numbers : Numbers}

def orderedSourceMessages (sourceMessages : List (IndexedMessage numbers)) : List (IndexedMessage numbers) :=
  sourceMessages.insertionSort fun left right => left.sourceIndex ≤ right.sourceIndex

def reflectionMessagesWithMetadata (sourceMessages : List (IndexedMessage numbers)) :
    List SourceMessage × Bool :=
  sourceTexts ((orderedSourceMessages sourceMessages).map IndexedMessage.message)

def reflectionMessages (sourceMessages : List (IndexedMessage numbers)) : List SourceMessage :=
  (reflectionMessagesWithMetadata sourceMessages).1

/-- `projectionVersion: 2`, or no such field. -/
def upgradedProjection (projectionVersion : Option Int) (usedToolFallback : Bool) : Option Nat :=
  if decide (2 ≤ projectionVersion.getD 1) || usedToolFallback then some 2 else none

def makeV1Segment (completeTurns : List (CompleteTurn numbers)) (closed : Bool)
    (projectionVersion : Option Int) : Except SegmentationError ReflectionSegment :=
  match completeTurns.head?, completeTurns.getLast? with
  | some firstTurn, some lastTurn =>
      let ordered := orderedSourceMessages (completeTurns.flatMap CompleteTurn.messages)
      match ordered.head?, ordered.getLast? with
      | some first, some last =>
          let reflected := reflectionMessagesWithMetadata ordered
          .ok
            { startUserMessageId := firstTurn.userMessageId
              endUserMessageId := lastTurn.userMessageId
              sourceBoundaryVersion := .v1
              startSourceMessageId := none
              endSourceMessageId := none
              startMessageId := first.message.id
              endMessageId := last.message.id
              sourceMessageIds := ordered.map fun source => source.message.id
              charCount := (completeTurns.map CompleteTurn.charCount).sum
              closed := closed
              messages := reflected.1
              projectionVersion := upgradedProjection projectionVersion reflected.2 }
      | _, _ => .error .emptySegment
  | _, _ => .error .emptySegment

def makeV2Segment (turn : CompleteTurn numbers) (sourceMessages : List (IndexedMessage numbers))
    (closed : Bool) (projectionVersion : Option Int) : Except SegmentationError ReflectionSegment :=
  let ordered := orderedSourceMessages sourceMessages
  match ordered.head?, ordered.getLast? with
  | some first, some last =>
      let reflected := reflectionMessagesWithMetadata ordered
      .ok
        { startUserMessageId := turn.userMessageId
          endUserMessageId := turn.userMessageId
          sourceBoundaryVersion := .v2
          startSourceMessageId := some first.message.id
          endSourceMessageId := some last.message.id
          startMessageId := first.message.id
          endMessageId := last.message.id
          sourceMessageIds := ordered.map fun source => source.message.id
          charCount := (ordered.map fun source => modelVisibleCharWeightOf source.message).sum
          closed := closed
          messages := reflected.1
          projectionVersion := upgradedProjection projectionVersion reflected.2 }
  | _, _ => .error .emptySegment

end Segments

/-! ### Boundaries -/

def boundaryVersion (boundary : CommittedSegmentBoundary) : Except SegmentationError BoundaryVersion :=
  match boundary.sourceBoundaryVersion with
  | none | some 1 =>
      if boundary.startSourceMessageId.isSome || boundary.endSourceMessageId.isSome then .error .v1Cursors
      else .ok .v1
  | some 2 =>
      match boundary.startSourceMessageId, boundary.endSourceMessageId with
      | some startSource, some endSource =>
          if isBlank startSource || isBlank endSource then .error .v2Cursors
          else if boundary.startUserMessageId ≠ boundary.endUserMessageId then .error .v2Turns
          else .ok .v2
      | _, _ => .error .v2Cursors
  | some _ => .error .unsupportedVersion

structure IndexedV1Boundary where
  boundary : CommittedSegmentBoundary
  startIndex : Nat
  endIndex : Nat
deriving DecidableEq

structure IndexedV2Boundary where
  boundary : CommittedSegmentBoundary
  turnIndex : Nat
  startIndex : Nat
  endIndex : Nat
  startOffset : Nat
  endOffset : Nat
deriving DecidableEq

/-- What the selection reads of an indexed boundary. -/
def IndexedV1Boundary.interval (indexed : IndexedV1Boundary) : BoundaryInterval :=
  { startIndex := indexed.startIndex
    endIndex := indexed.endIndex
    key := indexed.boundary.startUserMessageId ++ ofString ":" ++ indexed.boundary.endUserMessageId ++
      ofString ":" ++ indexed.boundary.id.getD []
    sourceEligible := indexed.boundary.sourceEligible
    projectionVersion := indexed.boundary.projectionVersion }

def IndexedV2Boundary.interval (indexed : IndexedV2Boundary) : BoundaryInterval :=
  { startIndex := indexed.startIndex
    endIndex := indexed.endIndex
    key := indexed.boundary.startUserMessageId ++ ofString ":" ++ indexed.boundary.endUserMessageId ++
      ofString ":" ++ indexed.boundary.startSourceMessageId.getD [] ++ ofString ":" ++
        indexed.boundary.endSourceMessageId.getD [] ++ ofString ":" ++ indexed.boundary.id.getD []
    sourceEligible := indexed.boundary.sourceEligible
    projectionVersion := indexed.boundary.projectionVersion }

section Planning

variable {numbers : Numbers} (localeCompare : JsString → JsString → Ordering)

/-- The comparison before the selection: by end, by start, then by id. -/
def candidateLe {Item : Type} (interval : Item → BoundaryInterval) (boundary : Item → CommittedSegmentBoundary)
    (left right : Item) : Prop :=
  (interval left).endIndex < (interval right).endIndex ∨
    (interval left).endIndex = (interval right).endIndex ∧
      ((interval left).startIndex < (interval right).startIndex ∨
        (interval left).startIndex = (interval right).startIndex ∧
          localeCompare ((boundary left).id.getD []) ((boundary right).id.getD []) ≠ .gt)

instance {Item : Type} (interval : Item → BoundaryInterval) (boundary : Item → CommittedSegmentBoundary) :
    DecidableRel (candidateLe localeCompare interval boundary) :=
  fun _ _ => inferInstanceAs (Decidable (_ ∨ _ ∧ (_ ∨ _ ∧ _)))

/-- The places of the users; of two with one id the last one counts. -/
def userIndexes (turns : List (CompleteTurn numbers)) : AList fun _ : JsString => Nat :=
  ofEntries (turns.zipIdx.map fun (turn, index) => (turn.userMessageId, index))

def indexV1Boundary (indexes : AList fun _ : JsString => Nat) (boundary : CommittedSegmentBoundary) :
    Except SegmentationError (Option IndexedV1Boundary) := do
  match ← boundaryVersion boundary with
  | .v2 => .ok none
  | .v1 =>
      match indexes.lookup boundary.startUserMessageId, indexes.lookup boundary.endUserMessageId with
      | some startIndex, some endIndex =>
          if endIndex < startIndex then .ok none
          else
            .ok (some
              { boundary := boundary
                startIndex := startIndex
                endIndex := endIndex })
      | _, _ => .ok none

def reconcileV1Boundaries (turns : List (CompleteTurn numbers)) (boundaries : List CommittedSegmentBoundary) :
    Except SegmentationError (List IndexedV1Boundary) := do
  let found ← boundaries.mapM (indexV1Boundary (userIndexes turns))
  .ok (selectBoundaryIntervals IndexedV1Boundary.interval
    (found.reduceOption.insertionSort
      (candidateLe localeCompare IndexedV1Boundary.interval IndexedV1Boundary.boundary)))

/-- An id that occurs twice has no index. -/
def uniqueSourceIndexes (sourceMessages : List (IndexedMessage numbers)) :
    AList fun _ : JsString => Option Nat :=
  sourceMessages.foldl (fun indexes source =>
    indexes.insert source.message.id
      (if source.message.id ∈ indexes then none else some source.sourceIndex)) ∅

def resolveV2Boundary (history : CanonicalHistory numbers) (boundary : CommittedSegmentBoundary) :
    Except SegmentationError (Option IndexedV2Boundary) := do
  match ← boundaryVersion boundary with
  | .v1 => .ok none
  | .v2 =>
      let turns := ofEntries (history.turns.map fun turn => (turn.userMessageId, turn))
      let indexes := uniqueSourceIndexes history.messages
      match turns.lookup boundary.startUserMessageId, indexes.lookup (boundary.startSourceMessageId.getD []),
          indexes.lookup (boundary.endSourceMessageId.getD []) with
      | some turn, some start, some finish =>
          match start, finish with
          | some startIndex, some endIndex =>
              if endIndex < startIndex then .error .outOfOrder
              else
                let exactSpan := history.messages.extract startIndex (endIndex + 1)
                if exactSpan.isEmpty || exactSpan.any fun source => source.turnIndex != turn.index then
                  .error .leavesTurn
                else
                  match turn.messages.findIdx? fun source => source.sourceIndex == startIndex,
                      turn.messages.findIdx? fun source => source.sourceIndex == endIndex with
                  | some startOffset, some endOffset =>
                      if endOffset < startOffset then .error .notInTurn
                      else
                        .ok (some
                          { boundary := boundary
                            turnIndex := turn.index
                            startIndex := startIndex
                            endIndex := endIndex
                            startOffset := startOffset
                            endOffset := endOffset })
                  | _, _ => .error .notInTurn
          | _, _ => .error .ambiguous
      | _, _, _ => .ok none

def resolveV2Boundaries (history : CanonicalHistory numbers) (boundaries : List CommittedSegmentBoundary) :
    Except SegmentationError (List IndexedV2Boundary) := do
  let found ← boundaries.mapM (resolveV2Boundary history)
  .ok found.reduceOption

/-- A turn that a selected boundary of whole turns covers. -/
def isFrozen (selectedV1 : List IndexedV1Boundary) (turnIndex : Nat) : Bool :=
  selectedV1.any fun boundary => boundary.startIndex ≤ turnIndex && turnIndex ≤ boundary.endIndex

def reconcileV2Boundaries (boundaries : List IndexedV2Boundary) (frozen : Nat → Bool) :
    List IndexedV2Boundary :=
  selectBoundaryIntervals IndexedV2Boundary.interval
    ((boundaries.filter fun boundary => !frozen boundary.turnIndex).insertionSort
      (candidateLe localeCompare IndexedV2Boundary.interval IndexedV2Boundary.boundary))

/-! ### Fragments -/

def isLegalActiveTurnCut (source : IndexedMessage numbers) : Bool :=
  isCompletedAssistantMessage source.message

def sourceWeight (source : IndexedMessage numbers) : ℕ∞ := modelVisibleCharWeightOf source.message

def fragmentSourceRange (turn : CompleteTurn numbers) (sourceMessages : List (IndexedMessage numbers))
    (maxChars : Nat) (forceClosed : Bool) : Except SegmentationError (List ReflectionSegment) :=
  (Fragments.fragmentSourceRange isLegalActiveTurnCut sourceWeight sourceMessages maxChars
    forceClosed).mapM fun (range, closed) => makeV2Segment turn range closed none

/-- The loop over the selected boundaries of a turn. -/
def fragmentBoundaries (turn : CompleteTurn numbers) (maxChars : Nat) :
    Nat → List IndexedV2Boundary → Except SegmentationError (List ReflectionSegment)
  | cursor, [] => fragmentSourceRange turn (turn.messages.drop cursor) maxChars turn.closed
  | cursor, boundary :: rest => do
      let gap ← fragmentSourceRange turn (turn.messages.extract cursor boundary.startOffset) maxChars true
      let sourceMessages := turn.messages.extract boundary.startOffset (boundary.endOffset + 1)
      let closed := turn.closed || decide (boundary.endOffset < turn.messages.length - 1) ||
        sourceMessages.getLast?.any isLegalActiveTurnCut
      let segment ← makeV2Segment turn sourceMessages closed boundary.boundary.projectionVersion
      if rest.head?.any fun next => next.startOffset < boundary.endOffset + 1 then .error .overlap
      else
        let others ← fragmentBoundaries turn maxChars (boundary.endOffset + 1) rest
        .ok (gap ++ segment :: others)

/-- The messages of the turn stand one behind the other in the source. -/
def isContiguous (turn : CompleteTurn numbers) (firstSourceIndex : Nat) : Bool :=
  turn.messages.zipIdx.all fun (source, index) => source.sourceIndex == firstSourceIndex + index

def fragmentTurn (turn : CompleteTurn numbers) (boundaries : List IndexedV2Boundary) (maxChars : Nat) :
    Except SegmentationError (List ReflectionSegment) :=
  match turn.messages.head? with
  | none => .error .emptyTurn
  | some first =>
      if !isContiguous turn first.sourceIndex then
        if boundaries.isEmpty then do
          let segment ← makeV1Segment [turn] turn.closed none
          .ok [segment]
        else .error .notContiguous
      else fragmentBoundaries turn maxChars 0 boundaries

/-! ### Packs -/

/-- The loop over the turns, behind the current ones and their weight. -/
def packFrom (maxChars : Nat) (forceClosed : Bool) : List (CompleteTurn numbers) → ℕ∞ →
    List (CompleteTurn numbers) → Except SegmentationError (List ReflectionSegment)
  | current, _, [] =>
      if current.isEmpty then .ok []
      else do
        let segment ← makeV1Segment current forceClosed none
        .ok [segment]
  | current, currentChars, turn :: rest =>
      -- The check behind `current.push(turn)`.
      let pushed (kept : List (CompleteTurn numbers)) (keptChars : ℕ∞) :
          Except SegmentationError (List ReflectionSegment) :=
        if keptChars = maxChars then do
          let segment ← makeV1Segment kept true none
          let others ← packFrom maxChars forceClosed [] 0 rest
          .ok (segment :: others)
        else packFrom maxChars forceClosed kept keptChars rest
      if (maxChars : ℕ∞) < turn.charCount then .error .oversized
      else if !current.isEmpty && decide ((maxChars : ℕ∞) < currentChars + turn.charCount) then do
        let segment ← makeV1Segment current true none
        let others ← pushed [turn] turn.charCount
        .ok (segment :: others)
      else pushed (current ++ [turn]) (currentChars + turn.charCount)

def packTurns (completeTurns : List (CompleteTurn numbers)) (maxChars : Nat) (forceClosed : Bool) :
    Except SegmentationError (List ReflectionSegment) :=
  packFrom maxChars forceClosed [] 0 completeTurns

/-! ### The loop over the turns -/

/-- What the loop looks up. -/
structure TurnPlan where
  selectedV1 : List IndexedV1Boundary
  selectedV2 : List IndexedV2Boundary
  resolvedV2 : List IndexedV2Boundary

namespace TurnPlan

variable (plan : TurnPlan)

def v1At (turnIndex : Nat) : Option IndexedV1Boundary :=
  (ofEntries (plan.selectedV1.map fun boundary => (boundary.startIndex, boundary))).lookup turnIndex

def v2At (turnIndex : Nat) : List IndexedV2Boundary :=
  plan.selectedV2.filter fun boundary => boundary.turnIndex == turnIndex

/-- The turn holds an exact boundary, or is too heavy, and is not frozen. -/
def isFragmented (maxChars : Nat) (turn : CompleteTurn numbers) (turnIndex : Nat) : Bool :=
  !isFrozen plan.selectedV1 turnIndex &&
    ((plan.resolvedV2.any fun boundary => boundary.turnIndex == turnIndex) ||
      decide ((maxChars : ℕ∞) < turn.charCount))

end TurnPlan

/-- Every round moves on by at least one turn, so as many rounds as turns are enough. -/
def segmentTurns (turns : List (CompleteTurn numbers)) (plan : TurnPlan) (maxChars : Nat) :
    Nat → Nat → List (CompleteTurn numbers) → Except SegmentationError (List ReflectionSegment)
  | 0, _, ordinaryTurns => packTurns ordinaryTurns maxChars false
  | rounds + 1, turnIndex, ordinaryTurns =>
      match turns[turnIndex]?, plan.v1At turnIndex with
      | none, _ => packTurns ordinaryTurns maxChars false
      | some _, some v1 => do
          let packed ← packTurns ordinaryTurns maxChars true
          let coveredTurns := turns.extract v1.startIndex (v1.endIndex + 1)
          let closed := (coveredTurns.getLast?.map CompleteTurn.closed).getD true
          let segment ← makeV1Segment coveredTurns closed v1.boundary.projectionVersion
          let others ← segmentTurns turns plan maxChars rounds (v1.endIndex + 1) []
          .ok (packed ++ segment :: others)
      | some turn, none =>
          if plan.isFragmented maxChars turn turnIndex then do
            let packed ← packTurns ordinaryTurns maxChars true
            let fragments ← fragmentTurn turn (plan.v2At turnIndex) maxChars
            let others ← segmentTurns turns plan maxChars rounds (turnIndex + 1) []
            .ok (packed ++ fragments ++ others)
          else segmentTurns turns plan maxChars rounds (turnIndex + 1) (ordinaryTurns ++ [turn])

def turnPlan (history : CanonicalHistory numbers) (boundaries : List CommittedSegmentBoundary) :
    Except SegmentationError TurnPlan := do
  let selectedV1 ← reconcileV1Boundaries localeCompare history.turns boundaries
  let resolvedV2 ← resolveV2Boundaries history boundaries
  .ok
    { selectedV1 := selectedV1
      selectedV2 := reconcileV2Boundaries localeCompare resolvedV2 (isFrozen selectedV1)
      resolvedV2 := resolvedV2 }

def segmentMessages (messages : List (OpenCodeMessage numbers)) (maxChars : Nat)
    (committedBoundaries : List CommittedSegmentBoundary) : Except SegmentationError (List ReflectionSegment) :=
  if maxChars = 0 then .error .maxChars
  else do
    let history := canonicalHistory messages
    let plan ← turnPlan localeCompare history committedBoundaries
    segmentTurns history.turns plan maxChars history.turns.length 0 []

/-! ### Reading a segment back -/

def readSegmentMessages (messages : List (OpenCodeMessage numbers)) (boundary : CommittedSegmentBoundary) :
    Except SegmentationError (List SourceMessage) := do
  let history := canonicalHistory messages
  match ← boundaryVersion boundary with
  | .v2 =>
      match ← resolveV2Boundary history boundary with
      | none => .error .boundaryNotFound
      | some resolved =>
          .ok (reflectionMessages (history.messages.extract resolved.startIndex (resolved.endIndex + 1)))
  | .v1 =>
      let indexes := userIndexes history.turns
      match indexes.lookup boundary.startUserMessageId, indexes.lookup boundary.endUserMessageId with
      | some startIndex, some endIndex =>
          if endIndex < startIndex then .error .usersOutOfOrder
          else
            .ok (reflectionMessages
              ((history.turns.extract startIndex (endIndex + 1)).flatMap CompleteTurn.messages))
      | _, _ => .error .userNotFound

end Planning

end Reflection.Segments
