/-
What the claim query selects is always claimed.

The identity of a job is stored in its columns, in its payload and in its target. Every
operation keeps the copies equal, so the checks a claim and a recovery make of persisted
rows never fail, and no job is failed or quarantined by them.
-/

import Reflection.Database.Fencing

namespace Reflection.Database

variable {platform : Platform} {group : Group} {system : System} {queue after : Queue}

/-! ### Staged results -/

/-- A staged result was parsed before it was stored. -/
def StagedParses (queue : Queue) : Prop :=
  ∀ target ∈ queue.target, ∀ staged ∈ target.staged,
    parseExtractionResult staged.extractionResult = .ok staged.extractionResult

theorem StagedParses.frame (parses : StagedParses queue) (frame : Frame queue after) :
    StagedParses after := by
  intro target present staged isStaged
  rcases frame.staged target present staged isStaged with ⟨old, oldPresent, kept, _⟩
  exact parses old oldPresent staged kept

theorem extractionResultForPersistence_parsed {result persisted : ExtractionResult}
    (persistable : extractionResultForPersistence result = .ok persisted) :
    parseExtractionResult result = .ok result := by
  rcases except_bind_ok persistable with ⟨parsed, isParsed, _⟩
  unfold contractQueue at isParsed
  split at isParsed
  · rename_i accepted
    cases isParsed
    have same := (parse_ok_iff.mp accepted).1
    rw [← same] at accepted
    exact accepted
  · cases isParsed

theorem publishExtraction_parses {claim : ClaimedJob} {result : ExtractionResult} {staged : Bool}
    (parses : StagedParses queue)
    (reported : publishExtraction platform group queue claim result = .ok (after, staged)) :
    StagedParses after := by
  rcases publishExtraction_cases reported with ⟨_, same | requeued⟩ | ⟨_, _, passed⟩
  · rw [same]
    exact parses
  · rcases requeueLatestTarget_frame requeued with ⟨target, segment⟩
    exact parses.frame (.of_same segment target)
  · rcases except_bind_ok reported with ⟨_, persistable, _⟩
    have parsed := extractionResultForPersistence_parsed persistable
    rcases passed with ⟨_, _, extraction, _, isResult, same⟩
    intro target present one isStaged
    rw [same] at present
    cases present
    cases isStaged
    rw [isResult]
    exact parsed

theorem commitResolution_parses {claim : ClaimedJob} {result : ExtractionResult}
    {prepared : PreparedSegment} {committed : Bool} (parses : StagedParses queue)
    (reported : commitResolution platform group queue claim result prepared =
      .ok (after, committed)) : StagedParses after := by
  rcases commitResolution_cases reported with ⟨_, same | requeued⟩ | ⟨_, passed⟩
  · rw [same]
    exact parses
  · rcases requeueLatestTarget_frame requeued with ⟨target, segment⟩
    exact parses.frame (.of_same segment target)
  · rcases passed with ⟨_, _, _, _, _, _, _, _, written⟩
    intro target present
    rcases written with ⟨_, same⟩ | ⟨_, same⟩
    · rw [same] at present
      cases present
    · rw [same] at present
      cases present

theorem stagedParses_step {label : Label} {next : System} (parses : StagedParses system.queue)
    (step : Step platform group system label next) : StagedParses next.queue := by
  cases step with
  | enqueue _ posted => exact parses.frame (enqueue_frame posted)
  | claim _ taken => exact parses.frame (claimOldestJob_frame taken)
  | publish _ reported => exact publishExtraction_parses parses reported
  | commit _ reported => exact commitResolution_parses parses reported
  | finish _ reported => exact parses.frame (finishFailedAttempt_frame reported)
  | retry retried => exact parses.frame (retryFailedJob_frame retried)
  | supersede superseded => exact parses.frame (supersedeFailedJob_frame superseded)
  | recover recovered => exact parses.frame (recoverRunningJobs_frame recovered)

theorem Reachable.stagedParses (reached : Reachable platform group system) :
    StagedParses system.queue := by
  apply @Reaches.invariant System Label (Step platform group) (fun _ _ => True)
    (fun system => StagedParses system.queue)
    (fun _ _ _ parses step _ => stagedParses_step parses step) _ _ reached
  intro target present
  cases present

theorem StagedParses.claimedExtraction {target : TargetRow} (parses : StagedParses queue)
    (isTarget : queue.target = some target) :
    ∃ extraction, claimedExtraction platform group target = .ok extraction := by
  unfold Database.claimedExtraction
  cases isStaged : target.staged with
  | none => exact ⟨none, rfl⟩
  | some staged =>
      dsimp only
      split
      · rw [parses target isTarget staged isStaged]
        exact ⟨some staged.extractionResult, rfl⟩
      · exact ⟨none, rfl⟩

/-! ### Claims -/

/-- The payload of a waiting job decodes and agrees with every column of its row. -/
structure PayloadAgrees (platform : Platform) (group : Group) (job : JobRow)
    (request : IngestSegmentCreate) : Prop where
  stored : job.payload = some (persistedRequest request)
  decodes : decodePersistedIngestSegment (persistedRequest request) group.source.id = .ok request
  session : (persistedRequest request).sessionId = job.sessionId
  startUser : (persistedRequest request).startUserMessageId = job.startUserMessageId
  boundary : (persistedRequest request).boundary = job.boundary
  version : (persistedRequest request).projectionVersion = job.projectionVersion
  segmentId : ingestSegmentIdForRequest request group.source = .ok group.segmentId
  fingerprint : ingestSourceFingerprint platform.sha256 request = job.sourceFingerprint
  priority : (persistedRequest request).processingPriority = job.processingPriority

theorem JobOk.payloadAgrees {job : JobRow} (ok : JobOk platform group job)
    (present : job.payload.isSome = true) :
    ∃ request, Accepted group request ∧ PayloadAgrees platform group job request := by
  rcases Option.isSome_iff_exists.mp present with ⟨payload, stored⟩
  rcases ok.payload payload stored with
    ⟨request, accepted, same, boundary, version, fingerprint, priority⟩
  rcases ok.named with ⟨naming, namingAccepted, session, startUser, namedBoundary⟩
  have cursors := namingAccepted.same_session accepted (namedBoundary.symm.trans boundary)
  refine ⟨request, accepted, ?_⟩
  constructor
  · rw [stored, same]
  · exact accepted.decodes
  · rw [session, cursors.1]
  · rw [startUser, cursors.2]
  · exact boundary.symm
  · exact version.symm
  · exact accepted.identified
  · exact fingerprint.symm
  · exact priority.symm

theorem PayloadAgrees.matchesJob {job : JobRow} {request : IngestSegmentCreate}
    (agrees : PayloadAgrees platform group job request) :
    payloadMatchesJob platform group request job = true := by
  have identified : identifies group request group.segmentId = true := by
    unfold identifies
    rw [agrees.segmentId]
    exact beq_self_eq_true _
  unfold payloadMatchesJob
  dsimp only
  rw [agrees.session, agrees.startUser, agrees.boundary, agrees.version, agrees.priority,
    agrees.fingerprint, identified]
  simp only [beq_self_eq_true, Bool.and_self]

/-- The rows after a claim of this job. -/
def leasedQueue (queue : Queue) (job : JobRow) (leaseId : Nat) : Queue :=
  queue.updateJobs (fun row => row.id == job.id && row.status == .pending) fun row =>
    { row with
      status := .running
      attempts := row.attempts + 1
      leaseId := some leaseId }

/-- A selected job passes every check and is handed out with its own request. -/
theorem Invariant.claims {job : JobRow} {target : TargetRow} (holds : Invariant platform group queue)
    (parses : StagedParses queue) (eligible : eligibleJob queue = some (job, target))
    (leaseId : Nat) :
    ∃ request extraction, PayloadAgrees platform group job request ∧
      claimOldestJob platform group queue leaseId =
        .ok (leasedQueue queue job leaseId, some
          { id := job.id
            segmentId := group.segmentId
            leaseId := leaseId
            sourceGeneration := job.sourceGeneration
            sourceFingerprint := job.sourceFingerprint
            attempts := job.attempts + 1
            sourceId := group.source.id
            request := persistedRequest request
            extractionResult := extraction }) := by
  rcases eligibleJob_some eligible with ⟨isTarget, member, pending, _, _⟩
  have ok := holds.jobs job member
  rcases ok.payloadAgrees (ok.present (.inr (.inl pending))) with ⟨request, _, agrees⟩
  rcases @StagedParses.claimedExtraction platform group _ _ parses isTarget with
    ⟨extraction, extracted⟩
  refine ⟨request, extraction, agrees, ?_⟩
  unfold claimOldestJob
  rw [eligible]
  dsimp only
  rw [holds.owned]
  dsimp only
  rw [agrees.stored]
  dsimp only
  rw [agrees.decodes]
  dsimp only
  rw [if_pos agrees.matchesJob, extracted]
  rfl

/-- A failed job that a claim or a recovery leaves behind had failed before. -/
def FailsNothing (before after : Queue) : Prop :=
  ∀ job ∈ after.jobs, job.status = .failed → job ∈ before.jobs

theorem claimOldestJob_failsNothing {leaseId : Nat} {claimed : Option ClaimedJob}
    (holds : Invariant platform group queue) (parses : StagedParses queue)
    (taken : claimOldestJob platform group queue leaseId = .ok (after, claimed)) :
    FailsNothing queue after := by
  intro job member failed
  cases selected : eligibleJob queue with
  | none =>
      unfold claimOldestJob at taken
      rw [selected] at taken
      cases taken
      exact member
  | some row =>
      rcases holds.claims parses selected leaseId with ⟨request, extraction, _, claims⟩
      rw [claims] at taken
      cases taken
      rcases mem_updateJobs.mp member with ⟨old, oldIn, rfl⟩
      split at failed
      · cases failed
      · rename_i unchosen
        rw [if_neg unchosen]
        exact oldIn

theorem recoverRunningJobs_failsNothing (holds : Invariant platform group queue)
    (recovered : recoverRunningJobs platform group queue = .ok after) :
    FailsNothing queue after := by
  intro job member failed
  unfold recoverRunningJobs at recovered
  split at recovered
  · cases recovered
    exact member
  · rw [holds.owned] at recovered
    cases recovered
    rcases mem_updateJobs.mp member with ⟨old, oldIn, rfl⟩
    split at failed
    · unfold recoverJob at failed
      split at failed
      · split at failed
        · cases failed
        · cases failed
      · cases failed
    · rename_i unchosen
      rw [if_neg unchosen]
      exact oldIn

/-- The checks of persisted identity pass in every reachable state. The pending row may come
from one reachable state and the ownership check from a later one, as in a claim that waits
for the segment's lock. -/
theorem persisted_identity_holds (reached : Reachable platform group system) :
    validateSegmentOwnership platform group system.queue = .ok () ∧
    (∀ job target, eligibleJob system.queue = some (job, target) → ∀ leaseId,
      ∃ request extraction, PayloadAgrees platform group job request ∧
        payloadMatchesJob platform group request job = true ∧
        claimedExtraction platform group target = .ok extraction ∧
        ∃ claim, claimOldestJob platform group system.queue leaseId =
          .ok (leasedQueue system.queue job leaseId, some claim)) ∧
    -- the payload's priority is the column's, on jobs and on the target
    (∀ job ∈ system.queue.jobs, ∀ payload ∈ job.payload,
      payload.processingPriority = job.processingPriority) ∧
    (∀ target ∈ system.queue.target,
      target.payload.processingPriority = target.processingPriority) ∧
    -- no claim and no recovery fails or quarantines a job
    (∀ leaseId claimed after,
      claimOldestJob platform group system.queue leaseId = .ok (after, claimed) →
        FailsNothing system.queue after) ∧
    (∀ after, recoverRunningJobs platform group system.queue = .ok after →
      FailsNothing system.queue after) := by
  have holds := reached.invariant
  have parses := reached.stagedParses
  refine ⟨holds.owned, ?_, ?_, ?_, ?_, ?_⟩
  · intro job target eligible leaseId
    rcases holds.claims parses eligible leaseId with ⟨request, _, agrees, claims⟩
    rcases @StagedParses.claimedExtraction platform group _ _ parses
      (eligibleJob_some eligible).1 with ⟨extraction, extracted⟩
    exact ⟨request, extraction, agrees, agrees.matchesJob, extracted, _, claims⟩
  · intro job member payload stored
    rcases (holds.jobs job member).payload payload stored with ⟨_, _, same, _, _, _, priority⟩
    rw [same, priority]
  · intro target present
    rcases (holds.target target present).carried with ⟨_, _, carries⟩
    rw [carries.payload, carries.priority]
  · intro leaseId claimed after taken
    exact claimOldestJob_failsNothing holds parses taken
  · intro after recovered
    exact recoverRunningJobs_failsNothing holds recovered

/-! ### A recovered run -/

def sampleRecoveredJob : JobRow :=
  { sampleJob with attempts := 1 }

/-- The worker of the sample died after its publication. -/
def sampleRecovered : System :=
  { sampleSystem with queue := { sampleSystem.queue with jobs := [sampleRecoveredJob] } }

theorem sampleRecovered_reachable : Reachable samplePlatform sampleGroup sampleRecovered := by
  have recovered : recoverRunningJobs samplePlatform sampleGroup sampleSystem.queue =
      .ok sampleRecovered.queue := by
    decide +kernel
  have step : Step samplePlatform sampleGroup sampleSystem .recover sampleRecovered :=
    Step.recover recovered
  exact sampleSystem_reachable.snoc _ step trivial

theorem persisted_identity_holds_recovered : ∃ request extraction,
    PayloadAgrees samplePlatform sampleGroup sampleRecoveredJob request ∧
      payloadMatchesJob samplePlatform sampleGroup request sampleRecoveredJob = true ∧
      claimedExtraction samplePlatform sampleGroup
        { sampleTarget with staged := some sampleStaged } = .ok extraction ∧
      ∃ claim, claimOldestJob samplePlatform sampleGroup sampleRecovered.queue 8 =
        .ok (leasedQueue sampleRecovered.queue sampleRecoveredJob 8, some claim) :=
  (persisted_identity_holds sampleRecovered_reachable).2.1 _ _ (by decide +kernel) 8

end Reflection.Database
