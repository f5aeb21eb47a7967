/-
The session's manifest: which summaries a client may show.

One query reads the committed rows and the targets of all the session's segments. The code
then goes through the rows in the order of their timestamps and keeps one summary for each
segment. The segments of the database are independent queues of registered sources.
-/

import Reflection.Database.Claiming

namespace Reflection.Database

open JsString

/-! ### All segments -/

/-- The segments of the database, each owned by one source. -/
structure Registry where
  groups : List Group
  distinct : (groups.map (·.segmentId)).Nodup

/-- The rows of every segment, with the workers that hold claims on them. -/
abbrev Tables := SegmentName → System

def Tables.empty : Tables := fun _ => System.initial

/-- One transaction on one segment. -/
inductive TablesStep (platform : Platform) (registry : Registry) :
    Tables → Group × Label → Tables → Prop
  | segment {tables : Tables} {group : Group} {label : Label} {next : System}
      (registered : group ∈ registry.groups)
      (step : Step platform group (tables group.segmentId) label next) :
      TablesStep platform registry tables (group, label)
        (Function.update tables group.segmentId next)

def TablesReachable (platform : Platform) (registry : Registry) (tables : Tables) : Prop :=
  Reaches (TablesStep platform registry) (fun _ _ => True) Tables.empty tables

/-! ### Rows of the query -/

inductive RowKind
  | committed
  | target
deriving DecidableEq

structure ManifestRow where
  rowKind : RowKind
  id : SegmentName
  startUserMessageId : Option JsString
  boundary : ExactBoundary
  projectionVersion : Nat
  sourceEligible : Bool
  stagedEligible : Bool
  sourceFingerprint : Option JsString
  summary : Option JsString
  extractionResult : Option ExtractionResult
  payload : Option PersistedIngestRequest
  status : Option JobStatus
  orderedAt : Nat
deriving DecidableEq

/-- `NOT (payload ? 'source_id') OR payload->>'source_id' = owner`: only native payloads name
their source. -/
def payloadOwned (owner : JsString) : PersistedIngestRequest → Bool
  | .legacy _ => true
  | .native request => request.sourceId == owner

section Rows

variable (platform : Platform) (group : Group)

/-- The target's job exists and belongs to the target's owner. -/
def targetOwned (queue : Queue) (target : TargetRow) : Bool :=
  payloadOwned group.source.id target.payload &&
    (queue.job? target.jobId).any fun job => job.payload.all (payloadOwned group.source.id)

/-- The target describes the snapshot the committed row was made from. -/
def targetAgrees (target : TargetRow) (segment : SegmentRow) : Bool :=
  target.sourceGeneration == segment.sourceGeneration &&
    target.sourceFingerprint == segment.sourceFingerprint &&
    columnSourceFingerprint platform target.boundary target.payload ==
      some target.sourceFingerprint &&
    target.projectionVersion == segment.projectionVersion && target.boundary == segment.boundary &&
    target.payload.sessionId == segment.sessionId &&
    target.payload.startUserMessageId == segment.startUserMessageId

/-- COMMITTED_SEGMENT_ELIGIBILITY_SQL; the owner is registered. -/
def committedEligible (queue : Queue) (segment : SegmentRow) : Bool :=
  queue.target.all (targetOwned group queue) && !isBlank segment.summary &&
    projectionFingerprintForBoundary platform group.segmentId segment.boundary segment.summary
      segment.projectionVersion == some segment.projectionCommitFingerprint &&
    queue.target.all fun target => targetAgrees platform target segment

def committedRow (queue : Queue) (segment : SegmentRow) (createdAt : Nat) : ManifestRow :=
  { rowKind := .committed
    id := group.segmentId
    startUserMessageId := segment.startUserMessageId
    boundary := segment.boundary
    projectionVersion := segment.projectionVersion
    sourceEligible := committedEligible platform group queue segment
    stagedEligible := false
    sourceFingerprint := some segment.sourceFingerprint
    summary := some segment.summary
    extractionResult := none
    payload := none
    status := none
    orderedAt := createdAt }

def targetRow (queue : Queue) (target : TargetRow) (updatedAt : Nat) : ManifestRow :=
  { rowKind := .target
    id := group.segmentId
    startUserMessageId := target.payload.startUserMessageId
    boundary := target.boundary
    projectionVersion := target.projectionVersion
    sourceEligible := false
    stagedEligible := stagedEligible platform group target
    sourceFingerprint := some target.sourceFingerprint
    summary := none
    extractionResult := target.staged.map (·.extractionResult)
    payload := some target.payload
    status := (queue.job? target.jobId).map (·.status)
    orderedAt := updatedAt }

end Rows

/-- The timestamps the rows are ordered by, and the database's order of ids. -/
structure Ordering where
  createdAt : SegmentName → Nat
  updatedAt : SegmentName → Nat
  idBefore : SegmentName → SegmentName → Bool

/-- The rows one segment contributes. -/
def segmentRows (platform : Platform) (ordering : Ordering) (source : SourceInfo)
    (sessionId : JsString) (group : Group) (queue : Queue) : List ManifestRow :=
  if group.source = source then
    ((queue.segment.filter fun segment => segment.sessionId == sessionId).map fun segment =>
        committedRow platform group queue segment (ordering.createdAt group.segmentId)).toList ++
      ((queue.target.filter fun target =>
          target.payload.sessionId == sessionId && targetOwned group queue target).map fun target =>
        targetRow platform group queue target (ordering.updatedAt group.segmentId)).toList
  else []

/-- `ORDER BY ordered_at, id, row_kind`. -/
def rowBefore (ordering : Ordering) (one two : ManifestRow) : Bool :=
  decide (one.orderedAt < two.orderedAt) ||
    (one.orderedAt == two.orderedAt &&
      (ordering.idBefore one.id two.id && one.id != two.id ||
        one.id == two.id && (one.rowKind == .committed || two.rowKind == .target)))

def queriedRows (platform : Platform) (ordering : Ordering) (registry : Registry)
    (tables : Tables) (source : SourceInfo) (sessionId : JsString) : List ManifestRow :=
  (registry.groups.flatMap fun group =>
    segmentRows platform ordering source sessionId group (tables group.segmentId).queue).mergeSort
      (rowBefore ordering)

/-! ### The listing -/

inductive ManifestError
  | missingStartUser
  | missingSummary
  | invalidTarget
  | mismatchedTarget
  | missingUserIds
  | invalidBoundary
  | missingPayload
  | contract (error : ContractValidationError)
  | identity (error : IdentityError)
deriving DecidableEq

/-- A boundary as responses carry it. -/
inductive SourceBoundary
  | legacy (boundary : LegacyBoundary)
  | native (startSourceMessageId endSourceMessageId : JsString)
deriving DecidableEq

def sourceBoundary (startUserMessageId : Option JsString) (boundary : ExactBoundary) :
    Except ManifestError SourceBoundary :=
  match boundary.sourceBoundaryVersion, startUserMessageId, boundary.endUserMessageId,
    boundary.startSourceMessageId, boundary.endSourceMessageId with
  | 3, none, none, some startSource, some endSource => .ok (.native startSource endSource)
  | 1, some startUser, some endUser, none, none => .ok (.legacy (.v1 startUser endUser))
  | 2, some startUser, some endUser, some startSource, some endSource =>
      .ok (.legacy (.v2 startUser endUser startSource endSource))
  | _, some _, some _, _, _ => .error .invalidBoundary
  | _, _, _, _, _ => .error .missingUserIds

structure SegmentSummary where
  boundary : SourceBoundary
  id : SegmentName
  projectionVersion : Nat
  summary : JsString
deriving DecidableEq

structure SegmentBoundary where
  boundary : SourceBoundary
  id : SegmentName
  projectionVersion : Nat
  sourceEligible : Bool
  sourceFingerprint : Option JsString
deriving DecidableEq

structure SegmentTargetBoundary where
  boundary : SourceBoundary
  id : SegmentName
  projectionVersion : Nat
  status : JobStatus
  sourceFingerprint : JsString
deriving DecidableEq

/-- `effective`, `boundaries` and `targets`. A Map keeps the place of a key that is set again. -/
structure Listing where
  effective : List (SegmentName × SegmentSummary × Nat)
  boundaries : List SegmentBoundary
  targets : List SegmentTargetBoundary

def Listing.empty : Listing :=
  { effective := []
    boundaries := []
    targets := [] }

/-- `effective.set(id, { summary, orderedAt })`. -/
def setEffective (effective : List (SegmentName × SegmentSummary × Nat)) (id : SegmentName)
    (entry : SegmentSummary × Nat) : List (SegmentName × SegmentSummary × Nat) :=
  if effective.any (fun item => item.1 == id) then
    effective.map fun item => if item.1 == id then (id, entry) else item
  else effective ++ [(id, entry)]

def manifestContract {α : Type} : Except ContractValidationError α → Except ManifestError α
  | .ok value => .ok value
  | .error error => .error (.contract error)

def manifestIdentity {α : Type} : Except IdentityError α → Except ManifestError α
  | .ok value => .ok value
  | .error error => .error (.identity error)

section Listing

variable (platform : Platform) (source : SourceInfo) (sessionId : JsString)

def listCommitted (listing : Listing) (row : ManifestRow) : Except ManifestError Listing :=
  if row.boundary.sourceBoundaryVersion ≠ 3 ∧ row.startUserMessageId = none then
    .error .missingStartUser
  else do
    let boundary ← sourceBoundary row.startUserMessageId row.boundary
    let bounded : Listing :=
      { listing with
        boundaries := listing.boundaries ++
          [{ boundary := boundary
             id := row.id
             projectionVersion := row.projectionVersion
             sourceEligible := row.sourceEligible
             sourceFingerprint := row.sourceFingerprint }] }
    if row.sourceEligible then
      match row.summary with
      | none => .error .missingSummary
      | some summary =>
          .ok
            { bounded with
              effective := setEffective bounded.effective row.id
                ({ boundary := boundary
                   id := row.id
                   projectionVersion := row.projectionVersion
                   summary := summary }, row.orderedAt) }
    else .ok bounded

/-- The persisted payload names the listed target's columns. -/
def listedTargetMatches (row : ManifestRow) (request : IngestSegmentCreate) : Bool :=
  let persisted := persistedRequest request
  persisted.sessionId == sessionId && persisted.startUserMessageId == row.startUserMessageId &&
    persisted.boundary == row.boundary && persisted.projectionVersion == row.projectionVersion

/-- Staged output that does not parse is never projected; the target remains visible. -/
def listStaged (targeted : Listing) (boundary : SourceBoundary) (row : ManifestRow) : Listing :=
  match row.stagedEligible, row.extractionResult with
  | true, some extractionResult =>
      match parseExtractionResult extractionResult with
      | .error _ => targeted
      | .ok extraction =>
          { targeted with
            effective := setEffective targeted.effective row.id
              ({ boundary := boundary
                 id := row.id
                 projectionVersion := row.projectionVersion
                 summary := extraction.summary }, row.orderedAt) }
  | _, _ => targeted

def listTarget (listing : Listing) (row : ManifestRow) : Except ManifestError Listing :=
  if row.boundary.sourceBoundaryVersion ≠ 3 ∧ row.startUserMessageId = none then
    .error .invalidTarget
  else
    match row.status, row.sourceFingerprint with
    | some status, some fingerprint =>
        match row.payload with
        | none => .error .missingPayload
        | some payload => do
            let request ← manifestContract (decodePersistedIngestSegment payload source.id)
            if !listedTargetMatches sessionId row request then .error .mismatchedTarget
            else do
              let segmentId ← manifestIdentity (ingestSegmentIdForRequest request source)
              if segmentId ≠ row.id ∨
                  ingestSourceFingerprint platform.sha256 request ≠ fingerprint then
                .error .mismatchedTarget
              else do
                let boundary ← sourceBoundary row.startUserMessageId row.boundary
                let targeted : Listing :=
                  { listing with
                    targets := listing.targets ++
                      [{ boundary := boundary
                         id := row.id
                         projectionVersion := row.projectionVersion
                         status := status
                         sourceFingerprint := fingerprint }] }
                .ok (listStaged targeted boundary row)
    | _, _ => .error .invalidTarget

def listRow (listing : Listing) (row : ManifestRow) : Except ManifestError Listing :=
  match row.rowKind with
  | .committed => listCommitted listing row
  | .target => listTarget platform source sessionId listing row

end Listing

/-- `left.orderedAt - right.orderedAt || left.summary.id.localeCompare(right.summary.id)`. -/
def summaryBefore (ordering : Ordering) (one two : SegmentName × SegmentSummary × Nat) : Bool :=
  decide (one.2.2 < two.2.2) ||
    (one.2.2 == two.2.2 && ordering.idBefore one.2.1.id two.2.1.id)

def sessionSegmentListing (platform : Platform) (ordering : Ordering) (registry : Registry)
    (tables : Tables) (source : SourceInfo) (sessionId : JsString) :
    Except ManifestError
      (List SegmentSummary × List SegmentBoundary × List SegmentTargetBoundary) := do
  let listing ← (queriedRows platform ordering registry tables source sessionId).foldlM
    (listRow platform source sessionId) Listing.empty
  .ok ((listing.effective.mergeSort (summaryBefore ordering)).map (·.2.1), listing.boundaries,
    listing.targets)

end Reflection.Database
