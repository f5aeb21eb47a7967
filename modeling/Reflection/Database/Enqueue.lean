/-
Posting a snapshot of a segment.

A post leaves through one of four exits: a lower projection version is recorded and
ignored, the current target is met again, the committed row already settles it, or a new
generation replaces the target and supersedes what still waited for the old one.
-/

import Reflection.Database.Rows

namespace Reflection.Database

section Enqueue

variable (platform : Platform) (group : Group) (queue : Queue) (request : IngestSegmentCreate)

/-- `jobs.find((item) => boundaryMatchesRequest(item, request))`. -/
def boundaryJob : Option JobRow :=
  queue.jobs.find? fun job => job.boundary == (persistedRequest request).boundary

def lowerVersion : Bool :=
  let version := (persistedRequest request).projectionVersion
  queue.segment.any (fun segment => decide (version < segment.projectionVersion)) ||
    queue.target.any (fun target => decide (version < target.projectionVersion)) ||
    (boundaryJob queue request).any fun job => decide (version < job.projectionVersion)

/-- The key of the unique indexes of extraction_jobs: user cursors in version 1, source cursors
in versions 2 and 3. -/
def boundaryKey (job : JobRow) : JsString × Nat × Option JsString × Option JsString :=
  if job.boundary.sourceBoundaryVersion = 1 then
    (job.sessionId, 1, job.startUserMessageId, job.boundary.endUserMessageId)
  else
    (job.sessionId, job.boundary.sourceBoundaryVersion, job.boundary.startSourceMessageId,
      job.boundary.endSourceMessageId)

/-- A plain INSERT, which the unique indexes may reject. -/
def insertJob (row : JobRow) : Except QueueError Queue :=
  if queue.jobs.any (fun job => boundaryKey job == boundaryKey row) then .error .uniqueViolation
  else .ok { queue with jobs := queue.jobs ++ [row] }

/-- The row an INSERT of the request writes. -/
def insertedJob (freshId : Nat) (payload : Option PersistedIngestRequest) (status : JobStatus)
    (generation : Nat) : JobRow :=
  let persisted := persistedRequest request
  { id := freshId
    sessionId := persisted.sessionId
    startUserMessageId := persisted.startUserMessageId
    boundary := persisted.boundary
    projectionVersion := persisted.projectionVersion
    payload := payload
    status := status
    attempts := 0
    leaseId := none
    sourceGeneration := generation
    sourceFingerprint := ingestSourceFingerprint platform.sha256 request
    processingPriority := persisted.processingPriority }

/-- The column default of source_generation. -/
def defaultGeneration : Nat := 0

def enqueueIgnored (freshId : Nat) : Except QueueError (Queue × Nat) :=
  match boundaryJob queue request with
  | some job => .ok (queue, job.id)
  | none => do
      let inserted ← insertJob queue
        (insertedJob platform request freshId none .superseded defaultGeneration)
      .ok (inserted, freshId)

/-- The target's failed job holds an extraction that is no longer eligible. -/
def resetStaleExtraction (target : TargetRow) : Bool :=
  target.staged.isSome && !stagedEligible platform group target &&
    (queue.job? target.jobId).any fun job => job.status == .failed

/-- The current target is posted again: only priorities rise, unless a stale extraction is
dropped and its failed job starts over. -/
def enqueueExact (target : TargetRow) : Queue × Nat :=
  let reset := resetStaleExtraction platform group queue target
  let priority := max target.processingPriority (persistedRequest request).processingPriority
  let exactPayload := (persistedRequest request).withPriority priority
  let reprioritised := queue.updateJobs (fun job => job.id == target.jobId) fun job =>
    { job with
      payload := if job.status = .running then job.payload else some exactPayload
      processingPriority := if job.status = .running then job.processingPriority else priority
      status := if reset then .pending else job.status
      attempts := if reset then 0 else job.attempts
      leaseId := if reset then none else job.leaseId }
  ({ reprioritised with
      target := some
        { target with
          payload := exactPayload
          processingPriority := priority
          staged := if reset then none else target.staged } }, target.jobId)

/-- The committed row was made from exactly this request and is safe to show. -/
def settledBy (segment : SegmentRow) : Bool :=
  let persisted := persistedRequest request
  segment.startUserMessageId == persisted.startUserMessageId &&
    segment.boundary == persisted.boundary &&
    segment.sourceFingerprint == ingestSourceFingerprint platform.sha256 request &&
    segment.projectionVersion == persisted.projectionVersion &&
    (decide (persisted.projectionVersion < PROJECTION_SAFE_VERSION) ||
      projectionFingerprintForBoundary platform group.segmentId segment.boundary segment.summary
        segment.projectionVersion == some segment.projectionCommitFingerprint) &&
    !JsString.isBlank segment.summary

def enqueueSettled (freshId : Nat) (segment : SegmentRow) : Except QueueError (Queue × Nat) :=
  let persisted := persistedRequest request
  match boundaryJob queue request with
  | none => do
      let inserted ← insertJob queue
        (insertedJob platform request freshId none .succeeded segment.sourceGeneration)
      .ok (inserted, freshId)
  | some settled =>
      .ok (queue.updateJobs (fun job => job.id == settled.id && !(job.status == .running))
        fun job =>
          { job with
            status := .succeeded
            leaseId := none
            payload := none
            boundary := persisted.boundary
            projectionVersion := persisted.projectionVersion
            sourceGeneration := segment.sourceGeneration
            sourceFingerprint := ingestSourceFingerprint platform.sha256 request
            processingPriority := max job.processingPriority persisted.processingPriority },
        settled.id)

/-- One more than every generation in the group. -/
def nextGeneration : Nat :=
  (((queue.segment.map (·.sourceGeneration)).getD 0 ::
    (queue.target.map (·.sourceGeneration)).getD 0 ::
    queue.jobs.map (·.sourceGeneration)).foldl max 0) + 1

/-- INSERT ... ON CONFLICT DO UPDATE ... WHERE status <> 'running'. A conflict with a running
row returns no id. -/
def upsertJob (freshId generation : Nat) : Queue × Option Nat :=
  let row := insertedJob platform request freshId (some (persistedRequest request)) .pending
    generation
  match queue.jobs.find? (fun job => boundaryKey job == boundaryKey row) with
  | none => ({ queue with jobs := queue.jobs ++ [row] }, some freshId)
  | some conflict =>
      if conflict.status = .running then (queue, none)
      else
        (queue.updateJobs (fun job => job.id == conflict.id) fun job => { row with id := job.id },
          some conflict.id)

def supersedeOthers (jobId : Nat) : Queue :=
  queue.updateJobs (fun job => !(job.id == jobId) &&
      (job.status == .pending || job.status == .failed)) fun job =>
    { job with
      status := .superseded
      payload := none
      leaseId := none }

def enqueueGeneration (freshId : Nat) : Except QueueError (Queue × Nat) := do
  let persisted := persistedRequest request
  let generation := nextGeneration queue
  let (upserted, written) := upsertJob platform queue request freshId generation
  let jobId ←
    match written.or ((boundaryJob queue request).map (·.id)) with
    | some jobId => .ok jobId
    | none => .error .runningBoundaryJobDisappeared
  let target : TargetRow :=
    { jobId := jobId
      boundary := persisted.boundary
      projectionVersion := persisted.projectionVersion
      payload := persisted
      sourceGeneration := generation
      sourceFingerprint := ingestSourceFingerprint platform.sha256 request
      staged := none
      processingPriority := persisted.processingPriority }
  .ok (supersedeOthers { upserted with target := some target } jobId, jobId)

/-- The exit a validated request takes. -/
def enqueueParsed (freshId : Nat) : Except QueueError (Queue × Nat) :=
  if lowerVersion queue request then enqueueIgnored platform queue request freshId
  else
    match queue.target with
    | some target =>
        if targetMatchesRequest platform group target (persistedRequest request) group.segmentId
            (ingestSourceFingerprint platform.sha256 request) then
          .ok (enqueueExact platform group queue request target)
        else enqueueGeneration platform queue request freshId
    | none =>
        match queue.segment with
        | some segment =>
            if settledBy platform group request segment then
              enqueueSettled platform queue request freshId segment
            else enqueueGeneration platform queue request freshId
        | none => enqueueGeneration platform queue request freshId

/-- `Database.enqueue` for a request of this group; `freshId` is what the id sequence returns. -/
def enqueue (freshId : Nat) : Except QueueError (Queue × Nat) := do
  let parsed ← contractQueue (parseIngestSegmentCreate request)
  if parsed.sourceId ≠ group.source.id then .error .unknownSource
  else if parsed.isNative && !group.source.isNative then .error .nativeSource
  else do
    let segmentId ← identityQueue (ingestSegmentIdForRequest parsed group.source)
    if segmentId ≠ group.segmentId then .error .otherSegment
    else do
      validateSegmentOwnership platform group queue
      enqueueParsed platform group queue parsed freshId

end Enqueue

end Reflection.Database
