/-
The rows one segment's queue consists of, and the tests that compare them.

A segment has any number of extraction jobs, at most one desired target and at most one
committed row. All of them belong to one registered source, so the owner column is the
group's. Timestamps and error texts are left out: no test of the queue reads them, except
that a claim waits for the next attempt, which only delays it.
-/

import Reflection.Foundation.Results
import Reflection.Shared.Extraction

namespace Reflection.Database

open JsString

inductive JobStatus
  | pending
  | running
  | succeeded
  | failed
  | superseded
deriving DecidableEq

/-- A row of extraction_jobs. -/
structure JobRow where
  id : Nat
  sessionId : JsString
  startUserMessageId : Option JsString
  boundary : ExactBoundary
  projectionVersion : Nat
  payload : Option PersistedIngestRequest
  status : JobStatus
  attempts : Nat
  leaseId : Option Nat
  sourceGeneration : Nat
  sourceFingerprint : JsString
  processingPriority : Nat
deriving DecidableEq

/-- The four extraction columns of a target, which are set and cleared together. -/
structure StagedExtraction where
  extractionResult : ExtractionResult
  validationVersion : Nat
  validationFingerprint : JsString
  summaryCommitFingerprint : JsString
deriving DecidableEq

/-- A row of segment_targets. -/
structure TargetRow where
  jobId : Nat
  boundary : ExactBoundary
  projectionVersion : Nat
  payload : PersistedIngestRequest
  sourceGeneration : Nat
  sourceFingerprint : JsString
  staged : Option StagedExtraction
  processingPriority : Nat
deriving DecidableEq

/-- A row of segments. -/
structure SegmentRow where
  sessionId : JsString
  startUserMessageId : Option JsString
  boundary : ExactBoundary
  summary : JsString
  projectionVersion : Nat
  projectionCommitFingerprint : JsString
  sourceGeneration : Nat
  sourceFingerprint : JsString
deriving DecidableEq

structure Queue where
  jobs : List JobRow
  target : Option TargetRow
  segment : Option SegmentRow
deriving DecidableEq

def Queue.empty : Queue :=
  { jobs := []
    target := none
    segment := none }

/-- What a worker holds after a claim. -/
structure ClaimedJob where
  id : Nat
  segmentId : SegmentName
  leaseId : Nat
  sourceGeneration : Nat
  sourceFingerprint : JsString
  attempts : Nat
  sourceId : JsString
  request : PersistedIngestRequest
  extractionResult : Option ExtractionResult
deriving DecidableEq

/-- What a resolution hands back; entities and claims go to tables outside the queue. -/
structure PreparedSegment where
  id : SegmentName
  sessionId : JsString
  startUserMessageId : Option JsString
  boundary : ExactBoundary
  summary : JsString
  projectionVersion : Nat
deriving DecidableEq

/-- The segment a queue belongs to and its owner's registry entry, as the registry returns it. -/
structure Group where
  source : SourceInfo
  registered : parseSourceInfo source = .ok source
  segmentId : SegmentName

inductive OwnershipError
  | nativeRow
  | invalidPayload
  | boundaryVersion
  | nativePayload
  | segmentIdentity
  | requestIdentity
  | fingerprint
  | foreignJob
deriving DecidableEq

/-- Everything a step throws; the transaction is rolled back then. -/
inductive QueueError
  | contract (error : ContractValidationError)
  | identity (error : IdentityError)
  | ownership (reason : OwnershipError)
  | unknownSource
  | nativeSource
  /-- the request or claim names another segment's group -/
  | otherSegment
  | claimedSourceIdentityMismatch
  | claimDoesNotMatchOwnership
  | uniqueViolation
  | runningBoundaryJobDisappeared
  | jobNotRetryable
  | blankSummary
  | invalidProjectionBoundary
  | preparedMismatch
  | leaseChanged
  | stagedMissing
  | stagedChanged
  | failedJobChanged
  | failedTargetChanged
  | targetChanged
deriving DecidableEq

def contractQueue {α : Type} : Except ContractValidationError α → Except QueueError α
  | .ok value => .ok value
  | .error error => .error (.contract error)

def identityQueue {α : Type} : Except IdentityError α → Except QueueError α
  | .ok value => .ok value
  | .error error => .error (.identity error)

/-! ### Tables -/

/-- `SELECT ... WHERE id = $1`. -/
def Queue.job? (queue : Queue) (id : Nat) : Option JobRow :=
  queue.jobs.find? fun job => job.id == id

/-- `UPDATE extraction_jobs SET ... WHERE ...`. -/
def Queue.updateJobs (queue : Queue) (selected : JobRow → Bool) (change : JobRow → JobRow) : Queue :=
  { queue with jobs := queue.jobs.map fun job => if selected job then change job else job }

/-- An update that throws unless it finds its row. -/
def Queue.updateJob (queue : Queue) (missing : QueueError) (selected : JobRow → Bool)
    (change : JobRow → JobRow) : Except QueueError Queue :=
  if queue.jobs.any selected then .ok (queue.updateJobs selected change) else .error missing

def Queue.anyRunning (queue : Queue) : Bool := queue.jobs.any fun job => job.status == .running

/-! ### Comparing rows -/

/-- The join of jobs with targets: the same job, snapshot and exact boundary. -/
def targetJoins (target : TargetRow) (job : JobRow) : Bool :=
  target.jobId == job.id && target.sourceGeneration == job.sourceGeneration &&
    target.sourceFingerprint == job.sourceFingerprint &&
    target.projectionVersion == job.projectionVersion && target.boundary == job.boundary

def ownedIngestRequest (request : PersistedIngestRequest) (sourceId : JsString) :
    Except ContractValidationError IngestSegmentCreate :=
  match request with
  | .legacy legacy => do
      let owner ← parseSourceId sourceId "assigned source"
      let parsed ← parseSegmentCreate legacy
      .ok (.source owner parsed)
  | .native native => do
      let parsed ← parseNativeSegmentCreate native
      let owner ← parseSourceId sourceId "assigned source"
      if parsed.sourceId ≠ owner then .error ⟨"native segment request source"⟩
      else .ok (.native parsed)

section Comparing

variable (platform : Platform) (group : Group)

/-- `ingestSegmentIdForRequest(request, source) === segmentId`, a throw counting as different. -/
def identifies (request : IngestSegmentCreate) (segmentId : SegmentName) : Bool :=
  match ingestSegmentIdForRequest request group.source with
  | .ok id => id == segmentId
  | .error _ => false

def targetRequest (target : TargetRow) : Except ContractValidationError IngestSegmentCreate :=
  decodePersistedIngestSegment target.payload group.source.id

def persistedPayload (payload : PersistedIngestRequest) :
    Except ContractValidationError PersistedIngestRequest := do
  let request ← decodePersistedIngestSegment payload group.source.id
  .ok (persistedRequest request)

def targetMatchesRequest (target : TargetRow) (request : PersistedIngestRequest)
    (segmentId : SegmentName) (fingerprint : JsString) : Bool :=
  target.projectionVersion == request.projectionVersion &&
    target.sourceFingerprint == fingerprint && target.boundary == request.boundary &&
    match targetRequest group target with
    | .error _ => false
    | .ok persisted =>
        (persistedRequest persisted).sessionId == request.sessionId &&
          (persistedRequest persisted).startUserMessageId == request.startUserMessageId &&
          (persistedRequest persisted).boundary == request.boundary &&
          (persistedRequest persisted).projectionVersion == request.projectionVersion &&
          identifies group persisted segmentId &&
          ingestSourceFingerprint platform.sha256 persisted == fingerprint

def failedTargetMatchesJob (target : TargetRow) (job : JobRow) : Bool :=
  target.jobId == job.id && target.sourceGeneration == job.sourceGeneration &&
    target.sourceFingerprint == job.sourceFingerprint &&
    target.projectionVersion == job.projectionVersion &&
    match targetRequest group target with
    | .error _ => false
    | .ok source =>
        target.boundary == (persistedRequest source).boundary &&
          job.boundary == (persistedRequest source).boundary &&
          (persistedRequest source).projectionVersion == job.projectionVersion &&
          (persistedRequest source).sessionId == job.sessionId &&
          (persistedRequest source).startUserMessageId == job.startUserMessageId &&
          identifies group source group.segmentId &&
          ingestSourceFingerprint platform.sha256 source == job.sourceFingerprint

def targetMatchesJob (target : TargetRow) (claim : ClaimedJob) : Bool :=
  target.jobId == claim.id && target.projectionVersion == claim.request.projectionVersion &&
    target.sourceGeneration == claim.sourceGeneration &&
    target.sourceFingerprint == claim.sourceFingerprint &&
    target.boundary == claim.request.boundary &&
    targetMatchesRequest platform group target claim.request claim.segmentId claim.sourceFingerprint

def persistedJobMatchesClaim (job : JobRow) (claim : ClaimedJob) : Bool :=
  job.sessionId == claim.request.sessionId &&
    job.startUserMessageId == claim.request.startUserMessageId &&
    job.boundary == claim.request.boundary &&
    job.projectionVersion == claim.request.projectionVersion &&
    job.sourceGeneration == claim.sourceGeneration &&
    job.sourceFingerprint == claim.sourceFingerprint

/-- STAGED_TARGET_ELIGIBILITY_SQL. -/
def stagedEligible (target : TargetRow) : Bool :=
  match target.staged with
  | none => false
  | some staged =>
      columnSourceFingerprint platform target.boundary target.payload ==
          some target.sourceFingerprint &&
        staged.validationVersion == EXTRACTION_VALIDATION_VERSION &&
        staged.validationFingerprint == extractionValidationFingerprint platform
          staged.extractionResult staged.validationVersion target.sourceFingerprint &&
        !isBlank staged.extractionResult.summary &&
        projectionFingerprintForBoundary platform group.segmentId target.boundary
          staged.extractionResult.summary target.projectionVersion ==
            some staged.summaryCommitFingerprint

/-! ### Ownership -/

/-- What the ownership check reads of a row; a table without a column has `none`. -/
structure OwnedRow where
  sessionId : Option JsString
  startUserMessageId : Option (Option JsString)
  boundary : ExactBoundary
  projectionVersion : Nat
  sourceFingerprint : JsString
  payload : Option PersistedIngestRequest

def JobRow.owned (job : JobRow) : OwnedRow :=
  { sessionId := some job.sessionId
    startUserMessageId := some job.startUserMessageId
    boundary := job.boundary
    projectionVersion := job.projectionVersion
    sourceFingerprint := job.sourceFingerprint
    payload := job.payload }

def TargetRow.owned (target : TargetRow) : OwnedRow :=
  { sessionId := none
    startUserMessageId := none
    boundary := target.boundary
    projectionVersion := target.projectionVersion
    sourceFingerprint := target.sourceFingerprint
    payload := some target.payload }

def SegmentRow.owned (segment : SegmentRow) : OwnedRow :=
  { sessionId := some segment.sessionId
    startUserMessageId := some segment.startUserMessageId
    boundary := segment.boundary
    projectionVersion := segment.projectionVersion
    sourceFingerprint := segment.sourceFingerprint
    payload := none }

/-- The body of the loop of `validateSegmentOwnership` for one row. -/
def validateRow (row : OwnedRow) : Except QueueError Unit :=
  match row.payload with
  | none =>
      if row.boundary.sourceBoundaryVersion == 3 && !group.source.isNative then
        .error (.ownership .nativeRow)
      else .ok ()
  | some payload =>
      match decodePersistedIngestSegment payload group.source.id with
      | .error _ => .error (.ownership .invalidPayload)
      | .ok request =>
          let persisted := persistedRequest request
          if persisted.boundary.sourceBoundaryVersion ≠ row.boundary.sourceBoundaryVersion then
            .error (.ownership .boundaryVersion)
          else if persisted.boundary.sourceBoundaryVersion == 3 && !group.source.isNative then
            .error (.ownership .nativePayload)
          else
            match ingestSegmentIdForRequest request group.source with
            | .error error => .error (.identity error)
            | .ok segmentId =>
                if segmentId ≠ group.segmentId then .error (.ownership .segmentIdentity)
                else if row.sessionId.any (· ≠ persisted.sessionId) ||
                    row.startUserMessageId.any (· ≠ persisted.startUserMessageId) ||
                    row.boundary ≠ persisted.boundary ||
                    row.projectionVersion ≠ persisted.projectionVersion then
                  .error (.ownership .requestIdentity)
                else if row.sourceFingerprint ≠ ingestSourceFingerprint platform.sha256 request then
                  .error (.ownership .fingerprint)
                else .ok ()

def validateSegmentOwnership (queue : Queue) : Except QueueError Unit := do
  queue.segment.toList.forM fun segment => validateRow platform group segment.owned
  queue.jobs.forM fun job => validateRow platform group job.owned
  queue.target.toList.forM fun target => do
    validateRow platform group target.owned
    if (queue.job? target.jobId).isNone then .error (.ownership .foreignJob) else .ok ()

end Comparing

end Reflection.Database
