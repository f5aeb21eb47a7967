/-
The other steps of the queue: claims, what a worker reports back, retries and recovery.

Every operation runs in one transaction under the segment's lock. It returns the rows it
leaves, or throws and leaves none of its writes.
-/

import Reflection.Database.Enqueue

namespace Reflection.Database

/-- SET of the target's snapshot on a job, as retries, requeues and recovery write it. -/
def JobRow.adopt (job : JobRow) (target : TargetRow) (payload : PersistedIngestRequest)
    (attempts : Nat) : JobRow :=
  { job with
    boundary := target.boundary
    projectionVersion := target.projectionVersion
    payload := some payload
    status := .pending
    attempts := attempts
    leaseId := none
    sourceGeneration := target.sourceGeneration
    sourceFingerprint := target.sourceFingerprint
    processingPriority := target.processingPriority }

/-- SET status = 'superseded' with the columns that go with it. -/
def JobRow.supersede (job : JobRow) : JobRow :=
  { job with
    status := .superseded
    payload := none
    leaseId := none }

def JobRow.succeed (job : JobRow) : JobRow :=
  { job with
    status := .succeeded
    payload := none
    leaseId := none }

/-- `WHERE id = $1 AND status = 'running' AND lease_id = $2`. -/
def ClaimedJob.leases (claim : ClaimedJob) (job : JobRow) : Bool :=
  job.id == claim.id && job.status == .running && job.leaseId == some claim.leaseId

section Operations

variable (platform : Platform) (group : Group) (queue : Queue)

/-! ### Retrying and superseding failed work -/

def lockCurrentFailedTargetJob (jobId : Nat) : Except QueueError (Option (JobRow × TargetRow)) :=
  match queue.job? jobId with
  | none => .ok none
  | some job => do
      validateSegmentOwnership platform group queue
      if job.status = .superseded then .error .jobNotRetryable
      else if job.status ≠ .failed ∨ job.leaseId ≠ none then .error .jobNotRetryable
      else
        match queue.target with
        | none => .error .jobNotRetryable
        | some target =>
            if failedTargetMatchesJob platform group target job then .ok (some (job, target))
            else .error .jobNotRetryable

def retryFailedJob (jobId : Nat) (restartExtraction : Bool) : Except QueueError Queue := do
  match ← lockCurrentFailedTargetJob platform group queue jobId with
  | none => .ok queue
  | some (_, target) => do
      let restarted : Queue :=
        { queue with
          target := some { target with staged := if restartExtraction then none else target.staged } }
      let payload ← contractQueue (persistedPayload group target.payload)
      restarted.updateJob .failedJobChanged
        (fun row => row.id == jobId && row.status == .failed && row.leaseId == none)
        fun row => row.adopt target payload 0

def supersedeFailedJob (jobId : Nat) : Except QueueError Queue := do
  match ← lockCurrentFailedTargetJob platform group queue jobId with
  | none => .ok queue
  | some _ => do
      let superseded ← queue.updateJob .failedJobChanged
        (fun row => row.id == jobId && row.status == .failed && row.leaseId == none)
        JobRow.supersede
      .ok { superseded with target := none }

/-! ### Recovery and claims -/

def quarantinePersistedGroup : Queue :=
  queue.updateJobs (fun job => job.status == .pending || job.status == .running) fun job =>
    { job with
      status := .failed
      leaseId := none }

/-- The attempts of a recovered job start over when its target has moved on. -/
def recoveredAttempts (target : TargetRow) (job : JobRow) : Nat :=
  if target.sourceGeneration ≠ job.sourceGeneration ∨
      target.sourceFingerprint ≠ job.sourceFingerprint ∨
      target.projectionVersion ≠ job.projectionVersion ∨ target.boundary ≠ job.boundary then 0
  else job.attempts

/-- The CASE of the recovery update for one running job. -/
def recoverJob (job : JobRow) : JobRow :=
  match queue.target with
  | some target =>
      if target.jobId = job.id then job.adopt target target.payload (recoveredAttempts target job)
      else job.supersede
  | none => job.supersede

/-- The transaction of `recoverRunningJobs` for a segment with a running job. -/
def recoverRunningJobs : Except QueueError Queue :=
  if !queue.anyRunning then .ok queue
  else
    match validateSegmentOwnership platform group queue with
    | .error (.ownership _) => .ok (quarantinePersistedGroup queue)
    | .error error => .error error
    | .ok () => .ok (queue.updateJobs (fun job => job.status == .running) (recoverJob queue))

/-- The group's candidate of the claim query: pending, joined by the target, nothing running. -/
def eligibleJob : Option (JobRow × TargetRow) :=
  match queue.target with
  | none => none
  | some target =>
      if queue.anyRunning then none
      else
        (queue.jobs.find? fun job => job.status == .pending && targetJoins target job).map
          fun job => (job, target)

/-- SET status = 'failed', attempts = attempts + 1 of a job whose payload is invalid. -/
def failPending (jobId : Nat) : Queue :=
  queue.updateJobs (fun job => job.id == jobId && job.status == .pending) fun job =>
    { job with
      status := .failed
      attempts := job.attempts + 1
      leaseId := none }

/-- The payload names the same snapshot as the columns. -/
def payloadMatchesJob (request : IngestSegmentCreate) (job : JobRow) : Bool :=
  let persisted := persistedRequest request
  persisted.sessionId == job.sessionId &&
    persisted.startUserMessageId == job.startUserMessageId &&
    persisted.boundary == job.boundary &&
    persisted.projectionVersion == job.projectionVersion &&
    persisted.processingPriority == job.processingPriority &&
    identifies group request group.segmentId &&
    ingestSourceFingerprint platform.sha256 request == job.sourceFingerprint

/-- The staged result handed to the worker: absent, or parsed again. -/
def claimedExtraction (target : TargetRow) :
    Except ContractValidationError (Option ExtractionResult) :=
  match target.staged with
  | none => .ok none
  | some staged =>
      if stagedEligible platform group target then do
        let result ← parseExtractionResult staged.extractionResult
        .ok (some result)
      else .ok none

/-- `Database.claimOldestJob` when this group's job is the oldest due one. -/
def claimOldestJob (leaseId : Nat) : Except QueueError (Queue × Option ClaimedJob) :=
  match eligibleJob queue with
  | none => .ok (queue, none)
  | some (job, target) =>
      match validateSegmentOwnership platform group queue with
      | .error (.ownership _) => .ok (quarantinePersistedGroup queue, none)
      | .error error => .error error
      | .ok () =>
          match job.payload with
          | none => .ok (failPending queue job.id, none)
          | some payload =>
              match decodePersistedIngestSegment payload group.source.id with
              | .error _ => .ok (failPending queue job.id, none)
              | .ok request =>
                  if payloadMatchesJob platform group request job then
                    match claimedExtraction platform group target with
                    | .error _ => .ok (failPending queue job.id, none)
                    | .ok extractionResult =>
                        .ok (queue.updateJobs
                          (fun row => row.id == job.id && row.status == .pending) fun row =>
                            { row with
                              status := .running
                              attempts := row.attempts + 1
                              leaseId := some leaseId },
                          some
                            { id := job.id
                              segmentId := group.segmentId
                              leaseId := leaseId
                              sourceGeneration := job.sourceGeneration
                              sourceFingerprint := job.sourceFingerprint
                              attempts := job.attempts + 1
                              sourceId := group.source.id
                              request := persistedRequest request
                              extractionResult := extractionResult })
                  else .ok (failPending queue job.id, none)

/-! ### What a worker reports back -/

def validateClaim (claim : ClaimedJob) : Except QueueError Unit :=
  if claim.sourceId ≠ group.source.id then .error .otherSegment
  else do
    let request ← contractQueue (ownedIngestRequest claim.request group.source.id)
    let segmentId ← identityQueue (ingestSegmentIdForRequest request group.source)
    if segmentId ≠ claim.segmentId ∨
        ingestSourceFingerprint platform.sha256 request ≠ claim.sourceFingerprint then
      .error .claimedSourceIdentityMismatch
    else if (queue.job? claim.id).isNone ∨ claim.segmentId ≠ group.segmentId then
      .error .claimDoesNotMatchOwnership
    else validateSegmentOwnership platform group queue

/-- Give up the claim's job and let the current target's job run next. -/
def requeueLatestTarget (claim : ClaimedJob) : Except QueueError Queue :=
  match queue.target with
  | none => queue.updateJob .leaseChanged claim.leases JobRow.supersede
  | some target =>
      if target.jobId = claim.id then do
        let payload ← contractQueue (persistedPayload group target.payload)
        queue.updateJob .leaseChanged claim.leases fun job => job.adopt target payload 0
      else do
        let superseded ← queue.updateJob .leaseChanged claim.leases JobRow.supersede
        let payload ← contractQueue (persistedPayload group target.payload)
        .ok (superseded.updateJobs
          (fun job => job.id == target.jobId && !(job.status == .running)) fun job =>
            job.adopt target payload 0)

/-- DELETE of a target whose snapshot the committed row already holds. -/
def dropSettledTarget : Queue :=
  match queue.target, queue.segment with
  | some target, some segment =>
      if target.staged = none ∧ segment.sourceGeneration = target.sourceGeneration ∧
          segment.sourceFingerprint = target.sourceFingerprint ∧
          segment.boundary = target.boundary ∧
          target.projectionVersion ≤ segment.projectionVersion ∧
          projectionFingerprintForBoundary platform group.segmentId segment.boundary
            segment.summary segment.projectionVersion =
              some segment.projectionCommitFingerprint then
        { queue with target := none }
      else queue
  | _, _ => queue

/-- `Database.finishFailedAttempt`; a failure without a retry delay is terminal. -/
def finishFailedAttempt (claim : ClaimedJob) (terminal : Bool) :
    Except QueueError (Queue × Bool) := do
  validateClaim platform group queue claim
  match queue.job? claim.id with
  | none => .ok (queue, false)
  | some current =>
      if !claim.leases current || !persistedJobMatchesClaim current claim then .ok (queue, false)
      else if !queue.target.any (fun target => targetMatchesJob platform group target claim) then do
        let requeued ← requeueLatestTarget group queue claim
        .ok (requeued, true)
      else
        let finished := queue.updateJobs claim.leases fun job =>
          { job with
            status := if terminal then .failed else .pending
            leaseId := none }
        .ok (if terminal then dropSettledTarget platform group finished else finished, true)

def extractionResultForPersistence (result : ExtractionResult) :
    Except QueueError ExtractionResult := do
  let parsed ← contractQueue (parseExtractionResult result)
  if JsString.isBlank parsed.summary then .error .blankSummary else .ok parsed

def publishExtraction (claim : ClaimedJob) (result : ExtractionResult) :
    Except QueueError (Queue × Bool) := do
  let extractionResult ← extractionResultForPersistence result
  match projectionFingerprintForBoundary platform claim.segmentId claim.request.boundary
      extractionResult.summary claim.request.projectionVersion with
  | none => .error .invalidProjectionBoundary
  | some summaryFingerprint => do
      validateClaim platform group queue claim
      match queue.job? claim.id with
      | none => .ok (queue, false)
      | some current =>
          if !claim.leases current || !persistedJobMatchesClaim current claim then
            .ok (queue, false)
          else
            match queue.target with
            | some target =>
                if targetMatchesJob platform group target claim then
                  .ok ({ queue with
                    target := some
                      { target with
                        staged := some
                          { extractionResult := extractionResult
                            validationVersion := EXTRACTION_VALIDATION_VERSION
                            validationFingerprint := extractionValidationFingerprint platform
                              extractionResult EXTRACTION_VALIDATION_VERSION
                              target.sourceFingerprint
                            summaryCommitFingerprint := summaryFingerprint } } }, true)
                else do
                  let requeued ← requeueLatestTarget group queue claim
                  .ok (requeued, false)
            | none => do
                let requeued ← requeueLatestTarget group queue claim
                .ok (requeued, false)

/-- The resolution describes exactly the claimed source and the extracted summary. -/
def preparedMatches (claim : ClaimedJob) (result : ExtractionResult) (prepared : PreparedSegment) :
    Bool :=
  prepared.id == claim.segmentId && prepared.sessionId == claim.request.sessionId &&
    prepared.startUserMessageId == claim.request.startUserMessageId &&
    prepared.boundary == claim.request.boundary && prepared.summary == result.summary &&
    prepared.projectionVersion == claim.request.projectionVersion

/-- The staged extraction may be committed under this projection fingerprint. -/
def commitStaged (target : TargetRow) (result : ExtractionResult) (commitFingerprint : JsString) :
    Except QueueError Unit :=
  match target.staged with
  | none => .error .stagedMissing
  | some staged =>
      if !stagedEligible platform group target ∨
          staged.summaryCommitFingerprint ≠ commitFingerprint then .error .stagedMissing
      else do
        let persisted ← contractQueue (parseExtractionResult staged.extractionResult)
        if persisted ≠ result then .error .stagedChanged else .ok ()

/-- The WHERE clause that deletes the committed target. -/
def deletesTarget (claim : ClaimedJob) (result : ExtractionResult) (commitFingerprint : JsString)
    (target : TargetRow) : Bool :=
  target.jobId == claim.id && target.sourceGeneration == claim.sourceGeneration &&
    target.sourceFingerprint == claim.sourceFingerprint &&
    target.projectionVersion == claim.request.projectionVersion &&
    target.boundary == claim.request.boundary &&
    match target.staged with
    | none => false
    | some staged =>
        staged.extractionResult == result &&
          staged.validationVersion == EXTRACTION_VALIDATION_VERSION &&
          staged.validationFingerprint == extractionValidationFingerprint platform
            staged.extractionResult staged.validationVersion target.sourceFingerprint &&
          staged.summaryCommitFingerprint == commitFingerprint

/-- The claim's snapshot is still the job's. -/
def ClaimedJob.snapshots (claim : ClaimedJob) (job : JobRow) : Bool :=
  job.sourceGeneration == claim.sourceGeneration &&
    job.sourceFingerprint == claim.sourceFingerprint &&
    job.projectionVersion == claim.request.projectionVersion &&
    job.boundary == claim.request.boundary

/-- The writes of a commit that passed every check. A committed row of a higher projection
version is kept. -/
def commitWrites (claim : ClaimedJob) (result : ExtractionResult) (prepared : PreparedSegment)
    (commitFingerprint : JsString) : Except QueueError Queue :=
  if queue.segment.any fun existing => decide (prepared.projectionVersion < existing.projectionVersion)
  then do
    let succeeded ← queue.updateJob .leaseChanged claim.leases JobRow.succeed
    .ok
      { succeeded with
        target := queue.target.filter fun target =>
          !deletesTarget platform claim result commitFingerprint target }
  else do
    let succeeded ← queue.updateJob .leaseChanged
      (fun job => claim.leases job && claim.snapshots job) JobRow.succeed
    if queue.target.any (deletesTarget platform claim result commitFingerprint) then
      .ok
        { succeeded with
          target := none
          segment := some
            { sessionId := prepared.sessionId
              startUserMessageId := prepared.startUserMessageId
              boundary := prepared.boundary
              summary := result.summary
              projectionVersion := prepared.projectionVersion
              projectionCommitFingerprint := commitFingerprint
              sourceGeneration := claim.sourceGeneration
              sourceFingerprint := claim.sourceFingerprint } }
    else .error .targetChanged

def commitResolution (claim : ClaimedJob) (result : ExtractionResult) (prepared : PreparedSegment) :
    Except QueueError (Queue × Bool) := do
  let extractionResult ← extractionResultForPersistence result
  if !preparedMatches claim extractionResult prepared then .error .preparedMismatch
  else
    match projectionFingerprintForBoundary platform prepared.id prepared.boundary
        extractionResult.summary prepared.projectionVersion with
    | none => .error .invalidProjectionBoundary
    | some commitFingerprint => do
        validateClaim platform group queue claim
        match queue.job? claim.id with
        | none => .error .leaseChanged
        | some current =>
            if !claim.leases current then .error .leaseChanged
            else if !persistedJobMatchesClaim current claim then .ok (queue, false)
            else
              match queue.target with
              | some target =>
                  if targetMatchesJob platform group target claim then do
                    commitStaged platform group target extractionResult commitFingerprint
                    let committed ← commitWrites platform queue claim extractionResult prepared
                      commitFingerprint
                    .ok (committed, true)
                  else do
                    let requeued ← requeueLatestTarget group queue claim
                    .ok (requeued, false)
              | none => do
                  let requeued ← requeueLatestTarget group queue claim
                  .ok (requeued, false)

end Operations

end Reflection.Database
