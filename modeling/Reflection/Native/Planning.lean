/-
Planning of exact native message ranges.

The planner walks the complete records before the first incomplete one, keeps
every range the manifest already anchors and packs the rest under the soft
limit. All failures are the ones the source throws, in the order it meets them.
-/

import Mathlib
import Reflection.Shared.Identity

namespace Reflection.Native

open JsString

/-- What the planner reads of a raw history message. -/
structure NativeHistoryMessage where
  id : JsString
deriving DecidableEq

/-- Weights may be infinite: unsized media is heavier than every limit. -/
structure NativeCanonicalRecord where
  raw : NativeHistoryMessage
  source : NativeSourceMessage
  complete : Bool
  weightedChars : ℕ∞
deriving DecidableEq

structure NativePlannedSegment where
  request : NativeSegmentCreate
  id : SegmentName
  fingerprint : JsString
  closed : Bool
  sourceMessageIds : List JsString
  weightedChars : ℕ∞
deriving DecidableEq

/-- A manifest entry, boundary or target: its segment id and its two end points. -/
structure ManifestEntry where
  id : SegmentName
  startSourceMessageId : JsString
  endSourceMessageId : JsString
deriving DecidableEq

structure NativeSessionSegmentsResponse where
  sourceId : JsString
  sessionId : JsString
  boundaries : List ManifestEntry
  targets : List ManifestEntry

inductive PlanError
  /-- native segmentation requires an opencode-v2 source-v1 registry entry -/
  | registry
  /-- native soft segment limit must be a positive integer -/
  | softLimit
  /-- native canonical records must have unique matching IDs -/
  | recordIds
  /-- native source message exceeds the message text limit -/
  | recordText (id : JsString)
  /-- cannot create an empty native segment -/
  | emptySegment
  | identity (error : IdentityError)
  /-- native manifest session does not match segment plan -/
  | manifestSession
  /-- native manifest anchor is reversed -/
  | anchorReversed
  /-- native manifest anchor has an invalid deterministic ID -/
  | anchorId
  /-- native manifest anchors with the same start conflict -/
  | anchorConflict
  /-- native manifest anchors overlap -/
  | anchorOverlap
  /-- native manifest anchor is not contiguous -/
  | anchorGap
  /-- native segment exceeds the segment text limit and cannot be split safely -/
  | segmentText
deriving DecidableEq

/-- An anchored range of positions, both ends included. -/
structure Anchor where
  start : Nat
  stop : Nat
  target : Bool
deriving DecidableEq

def identityChecked {α : Type} : Except IdentityError α → Except PlanError α
  | .ok value => .ok value
  | .error error => .error (.identity error)

@[simp] theorem identityChecked_ok {α : Type} (value : α) :
    identityChecked (.ok value : Except IdentityError α) = .ok value := rfl

theorem identityChecked_ok_iff {α : Type} {result : Except IdentityError α} {value : α} :
    identityChecked result = .ok value ↔ result = .ok value := by
  cases result <;> simp [identityChecked]

/-- `values.slice(start, stop)` for indices that are not negative. -/
def slice {α : Type} (values : List α) (start stop : Nat) : List α :=
  (values.take stop).drop start

def recordIds (records : List NativeCanonicalRecord) : List JsString :=
  records.map (·.source.id)

/-- The `positions` map of validated records. -/
def positionOf (records : List NativeCanonicalRecord) (id : JsString) : Option Nat :=
  records.findIdx? (fun record => record.source.id == id)

/-- The checks of `validateRecords`, with the ids of the records seen so far. -/
def validateRecordsFrom : List JsString → List NativeCanonicalRecord → Except PlanError Unit
  | _, [] => .ok ()
  | seen, record :: rest =>
      if record.source.id ≠ record.raw.id ∨ record.source.id ∈ seen then .error .recordIds
      else if codePointLength record.source.text > maxMessageTextChars then
        .error (.recordText record.source.id)
      else validateRecordsFrom (record.source.id :: seen) rest

def validateRecords (records : List NativeCanonicalRecord) : Except PlanError Unit :=
  validateRecordsFrom [] records

theorem validateRecordsFrom_ok_iff (seen : List JsString)
    (records : List NativeCanonicalRecord) :
    validateRecordsFrom seen records = .ok () ↔
      (∀ record ∈ records, record.source.id = record.raw.id ∧
        codePointLength record.source.text ≤ maxMessageTextChars) ∧
      (recordIds records).Nodup ∧ ∀ id ∈ recordIds records, id ∉ seen := by
  induction records generalizing seen with
  | nil => simp [validateRecordsFrom, recordIds]
  | cons record rest ih =>
      unfold validateRecordsFrom
      by_cases invalid : record.source.id ≠ record.raw.id ∨ record.source.id ∈ seen
      · rw [if_pos invalid]
        simp only [reduceCtorEq, false_iff]
        rintro ⟨matching, _, fresh⟩
        rcases invalid with differs | repeated
        · exact differs (matching record List.mem_cons_self).1
        · exact fresh _ List.mem_cons_self repeated
      · rw [if_neg invalid]
        rw [not_or, not_not] at invalid
        by_cases long : codePointLength record.source.text > maxMessageTextChars
        · rw [if_pos long]
          simp only [reduceCtorEq, false_iff]
          rintro ⟨matching, _⟩
          exact absurd (matching record List.mem_cons_self).2 (Nat.not_le.mpr long)
        · rw [if_neg long, ih]
          have ids : recordIds (record :: rest) = record.source.id :: recordIds rest := rfl
          rw [ids, List.nodup_cons, List.forall_mem_cons, List.forall_mem_cons]
          simp only [List.mem_cons, not_or]
          constructor
          · rintro ⟨matching, distinct, fresh⟩
            exact ⟨⟨⟨invalid.1, Nat.not_lt.mp long⟩, matching⟩,
              ⟨fun member => (fresh _ member).1 rfl, distinct⟩, invalid.2,
              fun id member => (fresh id member).2⟩
          · rintro ⟨⟨_, matching⟩, ⟨absent, distinct⟩, _, fresh⟩
            exact ⟨matching, distinct,
              fun id member => ⟨fun same => absent (same ▸ member), fresh id member⟩⟩

theorem validateRecords_ok_iff (records : List NativeCanonicalRecord) :
    validateRecords records = .ok () ↔
      (∀ record ∈ records, record.source.id = record.raw.id ∧
        codePointLength record.source.text ≤ maxMessageTextChars) ∧
      (recordIds records).Nodup := by
  simp [validateRecords, validateRecordsFrom_ok_iff]

section Planner

variable (sha256 : JsString → JsString) (source : SourceInfo) (sessionId : JsString)

def requestFor (records : List NativeCanonicalRecord) : Except PlanError NativeSegmentCreate :=
  match records.head?, records.getLast? with
  | some first, some last =>
      identityChecked (contractChecked (parseNativeSegmentCreate
        { sourceId := source.id
          sessionId := sessionId
          startSourceMessageId := first.source.id
          endSourceMessageId := last.source.id
          projectionVersion := 3
          processingPriority := 0
          messages := records.map (·.source) }))
  | _, _ => .error .emptySegment

def textChars (records : List NativeCanonicalRecord) : Nat :=
  (records.map (fun record => codePointLength record.source.text)).sum

structure Identified where
  request : NativeSegmentCreate
  id : SegmentName
  fingerprint : JsString

def identify (records : List NativeCanonicalRecord) : Except PlanError Identified := do
  let request ← requestFor source sessionId records
  let id ← identityChecked (nativeSegmentIdForRequest request source)
  .ok { request := request, id := id, fingerprint := nativeSourceFingerprint sha256 request }

def totalWeight (records : List NativeCanonicalRecord) : ℕ∞ :=
  (records.map (·.weightedChars)).sum

def planned (records : List NativeCanonicalRecord) (closed : Bool) :
    Except PlanError NativePlannedSegment := do
  let identified ← identify sha256 source sessionId records
  .ok
    { request := identified.request
      id := identified.id
      fingerprint := identified.fingerprint
      closed := closed
      sourceMessageIds := recordIds records
      weightedChars := totalWeight records }

def assertSegmentSize (records : List NativeCanonicalRecord) : Except PlanError Unit :=
  if textChars records > maxSegmentTextChars then .error .segmentText else .ok ()

/-- The anchor of one manifest entry; an entry whose end point is gone is dropped. -/
def anchorFor (records : List NativeCanonicalRecord) (entry : ManifestEntry) (target : Bool) :
    Except PlanError (Option Anchor) :=
  match positionOf records entry.startSourceMessageId,
    positionOf records entry.endSourceMessageId with
  | some start, some stop =>
      if stop < start then .error .anchorReversed
      else do
        let identity ← identify sha256 source sessionId (slice records start (stop + 1))
        if identity.id ≠ entry.id then .error .anchorId
        else .ok (some { start := start, stop := stop, target := target })
  | _, _ => .ok none

def collectAnchors (records : List NativeCanonicalRecord) :
    List (ManifestEntry × Bool) → Except PlanError (List Anchor)
  | [] => .ok []
  | (entry, target) :: rest => do
      let anchor ← anchorFor sha256 source sessionId records entry target
      let anchors ← collectAnchors records rest
      .ok (anchor.toList ++ anchors)

/-- `left.start - right.start || left.end - right.end` is not positive. -/
def Anchor.Le (left right : Anchor) : Prop :=
  left.start < right.start ∨ left.start = right.start ∧ left.stop ≤ right.stop

instance : DecidableRel Anchor.Le := fun _ _ =>
  inferInstanceAs (Decidable (_ ∨ _ ∧ _))

/-- The `unique` loop: `previous` is its last element and `kept` the ones before. -/
def uniqueAnchorsFrom (kept : List Anchor) (previous : Anchor) :
    List Anchor → Except PlanError (List Anchor)
  | [] => .ok (kept ++ [previous])
  | anchor :: rest =>
      if anchor.start = previous.start then
        if anchor.target ≠ previous.target then
          uniqueAnchorsFrom kept (if anchor.target then anchor else previous) rest
        else if anchor.stop ≠ previous.stop then .error .anchorConflict
        else uniqueAnchorsFrom kept previous rest
      else if anchor.start ≤ previous.stop then .error .anchorOverlap
      else uniqueAnchorsFrom (kept ++ [previous]) anchor rest

def uniqueAnchors : List Anchor → Except PlanError (List Anchor)
  | [] => .ok []
  | anchor :: rest => uniqueAnchorsFrom [] anchor rest

/-- `parseNativeSessionSegmentsResponse` on a typed manifest: its owner is the expected one. -/
def parseManifest (manifest : NativeSessionSegmentsResponse) (expectedSourceId : JsString) :
    Except ContractValidationError NativeSessionSegmentsResponse := do
  let owner ← parseSourceId manifest.sourceId "native session segments response"
  let expected ← parseSourceId expectedSourceId "native session segments response"
  if owner ≠ expected then .error ⟨"native session segments response"⟩
  else .ok { manifest with sourceId := owner }

def manifestEntries (manifest : NativeSessionSegmentsResponse) : List (ManifestEntry × Bool) :=
  manifest.boundaries.map (·, false) ++ manifest.targets.map (·, true)

def anchorsFor (manifest : Option NativeSessionSegmentsResponse)
    (records : List NativeCanonicalRecord) : Except PlanError (List Anchor) :=
  match manifest with
  | none => .ok []
  | some manifest => do
      let parsed ← identityChecked (contractChecked (parseManifest manifest source.id))
      if parsed.sessionId ≠ sessionId then .error .manifestSession
      else do
        let anchors ← collectAnchors sha256 source sessionId records (manifestEntries parsed)
        uniqueAnchors (anchors.insertionSort Anchor.Le)

/-- The packing loop shared by the gaps between anchors and the tail: the segments
pushed so far and the chunk still open when the records run out. -/
def packRecords (softLimit : ℕ∞) :
    List NativeCanonicalRecord → List NativeCanonicalRecord → ℕ∞ → List NativePlannedSegment →
      Except PlanError (List NativePlannedSegment × List NativeCanonicalRecord)
  | [], chunk, _, result => .ok (result, chunk)
  | candidate :: rest, chunk, weight, result => do
      let (result, chunk, weight) ←
        if chunk ≠ [] ∧ weight + candidate.weightedChars > softLimit then do
          let segment ← planned sha256 source sessionId chunk true
          pure (result ++ [segment], [], 0)
        else pure (result, chunk, weight)
      if weight + candidate.weightedChars ≥ softLimit then do
        let segment ← planned sha256 source sessionId (chunk ++ [candidate]) true
        packRecords softLimit rest [] 0 (result ++ [segment])
      else
        packRecords softLimit rest (chunk ++ [candidate]) (weight + candidate.weightedChars) result

/-- The gap before an anchor is packed and its last chunk is closed by the anchor. -/
def packGap (softLimit : ℕ∞) (gap : List NativeCanonicalRecord)
    (result : List NativePlannedSegment) : Except PlanError (List NativePlannedSegment) := do
  let (result, chunk) ← packRecords sha256 source sessionId softLimit gap [] 0 result
  if chunk ≠ [] then do
    let segment ← planned sha256 source sessionId chunk true
    pure (result ++ [segment])
  else pure result

/-- Push the range of one anchor. A range that ends the history below the limit is open
and pushed only as a snapshot. -/
def pushAnchored (softLimit : ℕ∞) (allowOpenSnapshot : Bool)
    (records anchored : List NativeCanonicalRecord) (stop : Nat)
    (result : List NativePlannedSegment) : Except PlanError (List NativePlannedSegment) :=
  let closed := decide (stop + 1 < records.length) || decide (softLimit ≤ totalWeight anchored)
  if closed || allowOpenSnapshot then do
    let segment ← planned sha256 source sessionId anchored closed
    .ok (result ++ [segment])
  else .ok result

/-- The loop over the anchors. It stops at the first one that reaches the barrier and
returns the segments pushed and the cursor. -/
def planAnchors (softLimit : ℕ∞) (allowOpenSnapshot : Bool)
    (records completeRecords : List NativeCanonicalRecord) :
    List Anchor → Nat → List NativePlannedSegment →
      Except PlanError (List NativePlannedSegment × Nat)
  | [], cursor, result => .ok (result, cursor)
  | anchor :: rest, cursor, result =>
      if anchor.start ≥ completeRecords.length ∨ anchor.stop ≥ completeRecords.length then
        .ok (result, cursor)
      else do
        let result ← packGap sha256 source sessionId softLimit
          (slice completeRecords cursor anchor.start) result
        if max cursor anchor.start ≠ anchor.start then .error .anchorGap
        else do
          let anchored := slice completeRecords anchor.start (anchor.stop + 1)
          assertSegmentSize anchored
          let result ← pushAnchored sha256 source sessionId softLimit allowOpenSnapshot records
            anchored anchor.stop result
          planAnchors softLimit allowOpenSnapshot records completeRecords rest (anchor.stop + 1)
            result

/-- The records after the last anchor; what stays open is pushed only as a snapshot. -/
def planTail (softLimit : ℕ∞) (allowOpenSnapshot : Bool) (remaining : List NativeCanonicalRecord)
    (result : List NativePlannedSegment) : Except PlanError (List NativePlannedSegment) := do
  let (result, tail) ← packRecords sha256 source sessionId softLimit remaining [] 0 result
  if tail ≠ [] ∧ allowOpenSnapshot = true then do
    assertSegmentSize tail
    let segment ← planned sha256 source sessionId tail false
    pure (result ++ [segment])
  else pure result

/-- The records before the first incomplete one. -/
def completeRecords (records : List NativeCanonicalRecord) : List NativeCanonicalRecord :=
  records.takeWhile (·.complete)

def planNativeSegments (records : List NativeCanonicalRecord)
    (manifest : Option NativeSessionSegmentsResponse) (softLimitChars : Int)
    (allowOpenSnapshot : Bool) : Except PlanError (List NativePlannedSegment) :=
  if !source.isNative then .error .registry
  else if softLimitChars ≤ 0 then .error .softLimit
  else do
    let softLimit : ℕ∞ := softLimitChars.toNat
    validateRecords records
    let anchors ← anchorsFor sha256 source sessionId manifest records
    let (result, cursor) ← planAnchors sha256 source sessionId softLimit allowOpenSnapshot records
      (completeRecords records) anchors 0 []
    planTail sha256 source sessionId softLimit allowOpenSnapshot
      ((completeRecords records).drop cursor) result

end Planner

/-! ### A small history -/

def sampleSource : SourceInfo :=
  { id := ofString "history"
    kind := .opencodeV2
    identityScheme := .sourceV1 }

def sampleRecord (id : String) (weight : ℕ∞) : NativeCanonicalRecord :=
  { raw := { id := ofString id }
    source := { id := ofString id, type := .user, text := ofString id }
    complete := true
    weightedChars := weight }

def sampleManifest (targets : List ManifestEntry) : NativeSessionSegmentsResponse :=
  { sourceId := ofString "history"
    sessionId := ofString "session"
    boundaries := []
    targets := targets }

/-- The plan of a small history, empty when planning fails. -/
def sampleSegments (records : List NativeCanonicalRecord)
    (manifest : Option NativeSessionSegmentsResponse) (softLimitChars : Int)
    (allowOpenSnapshot : Bool) : List NativePlannedSegment :=
  match planNativeSegments id sampleSource (ofString "session") records manifest softLimitChars
    allowOpenSnapshot with
  | .ok segments => segments
  | .error _ => []

end Reflection.Native
