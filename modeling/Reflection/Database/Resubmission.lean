/-
Posting the same request again.

After a post its request is settled in one of three ways: it is ignored under a known job,
it is the current target, or the committed row settles it. Each of these is kept by a
second post, which changes nothing, and by a post with another priority, which changes
priorities only.
-/

import Reflection.Database.Claiming

namespace Reflection.Database

variable {platform : Platform} {group : Group} {queue after : Queue} {request : IngestSegmentCreate}

/-! ### Requests that differ in their priority -/

theorem persistedRequest_priority (request : IngestSegmentCreate) :
    (persistedRequest request).withPriority (persistedRequest request).processingPriority =
      persistedRequest request := by
  cases request <;> rfl

theorem withPriority_withPriority (payload : PersistedIngestRequest) (one two : Nat) :
    (payload.withPriority one).withPriority two = payload.withPriority two := by
  cases payload <;> rfl

theorem request_withPriority_withPriority (request : IngestSegmentCreate) (one two : Nat) :
    (request.withPriority one).withPriority two = request.withPriority two := by
  cases request <;> rfl

theorem request_withPriority_self (request : IngestSegmentCreate) :
    request.withPriority (persistedRequest request).processingPriority = request := by
  cases request <;> rfl

theorem withPriority_names (request : IngestSegmentCreate) (priority : Nat) :
    (persistedRequest (request.withPriority priority)).boundary =
        (persistedRequest request).boundary ∧
      (persistedRequest (request.withPriority priority)).projectionVersion =
        (persistedRequest request).projectionVersion ∧
      (persistedRequest (request.withPriority priority)).sessionId =
        (persistedRequest request).sessionId ∧
      (persistedRequest (request.withPriority priority)).startUserMessageId =
        (persistedRequest request).startUserMessageId := by
  cases request <;> exact ⟨rfl, rfl, rfl, rfl⟩

/-- The columns of a stored request give back its fingerprint. -/
theorem columnSourceFingerprint_request (request : IngestSegmentCreate) :
    columnSourceFingerprint platform (persistedRequest request).boundary
      (persistedRequest request) = some (ingestSourceFingerprint platform.sha256 request) := by
  cases request with
  | native request =>
      unfold columnSourceFingerprint
      exact if_pos ⟨rfl, rfl⟩
  | source sourceId request =>
      rcases request with ⟨sessionId, boundary, version, priority, messages⟩
      cases boundary with
      | v1 startUser endUser => rfl
      | v2 startUser endUser startSource endSource => rfl

/-- Parsing does not look at the priority beyond its bound. -/
theorem parseIngestSegmentCreate_withPriority {parsed raised : IngestSegmentCreate} {priority : Nat}
    (accepted : parseIngestSegmentCreate request = .ok parsed)
    (again : parseIngestSegmentCreate (request.withPriority priority) = .ok raised) :
    raised = parsed.withPriority priority ∧ priority ≤ 100 := by
  cases request with
  | native request =>
      rcases except_bind_ok accepted with ⟨one, isOne, same⟩
      cases same
      rcases except_bind_ok again with ⟨two, isTwo, same⟩
      cases same
      rcases parse_ok_iff.mp isOne with ⟨normal, _⟩
      rcases parse_ok_iff.mp isTwo with ⟨normalRaised, valid⟩
      constructor
      · rw [← normalRaised, ← normal]
        rfl
      · simp only [nativeSegmentAccepted, Bool.and_eq_true, decide_eq_true_eq] at valid
        have bound : two.processingPriority ≤ 100 := by tauto
        rw [← normalRaised] at bound
        exact bound
  | source sourceId request =>
      rcases except_bind_ok accepted with ⟨owner, isOwner, rest⟩
      rcases except_bind_ok rest with ⟨one, isOne, same⟩
      cases same
      rcases except_bind_ok again with ⟨ownerAgain, isOwnerAgain, restAgain⟩
      rcases except_bind_ok restAgain with ⟨two, isTwo, same⟩
      cases same
      rcases parse_ok_iff.mp isOne with ⟨normal, _⟩
      rcases parse_ok_iff.mp isTwo with ⟨normalRaised, valid⟩
      rw [isOwner] at isOwnerAgain
      cases isOwnerAgain
      constructor
      · rw [← normalRaised, ← normal]
        rfl
      · simp only [segmentCreateAccepted, Bool.and_eq_true, decide_eq_true_eq] at valid
        have bound : two.processingPriority ≤ 100 := by tauto
        rw [← normalRaised] at bound
        exact bound

/-! ### Rows without priorities -/

def JobRow.unprioritised (job : JobRow) : JobRow :=
  { job with
    payload := job.payload.map fun payload => payload.withPriority 0
    processingPriority := 0 }

def TargetRow.unprioritised (target : TargetRow) : TargetRow :=
  { target with
    payload := target.payload.withPriority 0
    processingPriority := 0 }

/-- The rows up to their priority columns and the priority copies in their payloads. -/
def Queue.unprioritised (queue : Queue) : Queue :=
  { jobs := queue.jobs.map JobRow.unprioritised
    target := queue.target.map TargetRow.unprioritised
    segment := queue.segment }

theorem mem_updateJobs_chosen {selected : JobRow → Bool} {change : JobRow → JobRow} {job : JobRow}
    (member : job ∈ queue.jobs) (chosen : selected job = true) :
    change job ∈ (queue.updateJobs selected change).jobs :=
  mem_updateJobs.mpr ⟨job, member, if_pos chosen⟩

theorem mem_updateJobs_unchosen {selected : JobRow → Bool} {change : JobRow → JobRow}
    {job : JobRow} (member : job ∈ queue.jobs) (unchosen : ¬ selected job = true) :
    job ∈ (queue.updateJobs selected change).jobs :=
  mem_updateJobs.mpr ⟨job, member, if_neg unchosen⟩

theorem updateJobs_self {selected : JobRow → Bool} {change : JobRow → JobRow}
    (same : ∀ job ∈ queue.jobs, selected job = true → change job = job) :
    queue.updateJobs selected change = queue := by
  have jobs : queue.jobs.map (fun job => if selected job = true then change job else job) =
      queue.jobs := by
    conv_rhs => rw [← List.map_id queue.jobs]
    apply List.map_congr_left
    intro job member
    split
    · rename_i chosen
      exact same job member chosen
    · rfl
  unfold Queue.updateJobs
  rw [jobs]

theorem updateJobs_unprioritised {selected : JobRow → Bool} {change : JobRow → JobRow}
    (same : ∀ job ∈ queue.jobs, selected job = true →
      (change job).unprioritised = job.unprioritised) :
    (queue.updateJobs selected change).jobs.map JobRow.unprioritised =
      queue.jobs.map JobRow.unprioritised := by
  unfold Queue.updateJobs
  rw [List.map_map]
  apply List.map_congr_left
  intro job member
  change (if selected job = true then change job else job).unprioritised = job.unprioritised
  split
  · rename_i chosen
    exact same job member chosen
  · rfl

/-! ### Lower versions and boundary jobs -/

/-- The exact boundary determines the job. -/
theorem Invariant.boundaryJob_eq {job : JobRow} (holds : Invariant platform group queue)
    (member : job ∈ queue.jobs) (boundary : job.boundary = (persistedRequest request).boundary) :
    boundaryJob queue request = some job := by
  cases found : boundaryJob queue request with
  | none =>
      have none := List.find?_eq_none.mp found job member
      rw [boundary, beq_self_eq_true] at none
      exact absurd rfl none
  | some other =>
      rcases boundaryJob_some found with ⟨otherIn, otherBoundary⟩
      have same := (holds.jobs other otherIn).key_eq (holds.jobs job member)
        (otherBoundary.trans boundary.symm)
      rw [holds.keys other otherIn job member same]

theorem lowerVersion_eq_false : lowerVersion queue request = false ↔
    (∀ segment ∈ queue.segment,
      segment.projectionVersion ≤ (persistedRequest request).projectionVersion) ∧
    (∀ target ∈ queue.target,
      target.projectionVersion ≤ (persistedRequest request).projectionVersion) ∧
    ∀ job ∈ boundaryJob queue request,
      job.projectionVersion ≤ (persistedRequest request).projectionVersion := by
  unfold lowerVersion
  simp only [Bool.or_eq_false_iff, Option.any_eq_false, decide_eq_false_iff_not, Nat.not_lt,
    and_assoc, Option.mem_def]

theorem lowerVersion_withPriority (priority : Nat) :
    lowerVersion queue (request.withPriority priority) = lowerVersion queue request := by
  unfold lowerVersion boundaryJob
  dsimp only
  rw [(withPriority_names request priority).1, (withPriority_names request priority).2.1]

theorem boundaryJob_withPriority (priority : Nat) :
    boundaryJob queue (request.withPriority priority) = boundaryJob queue request := by
  unfold boundaryJob
  rw [(withPriority_names request priority).1]

/-! ### Settled requests -/

/-- The row of a job that carries exactly the target's payload, or runs for an earlier claim. -/
def CarriesPayload (target : TargetRow) (job : JobRow) : Prop :=
  job.status = .running ∨
    job.payload = some target.payload ∧ job.processingPriority = target.processingPriority

/-- A post of the request met this state or left it. -/
inductive Posted (platform : Platform) (group : Group) (queue : Queue)
    (request : IngestSegmentCreate) (jobId : Nat) : Prop
  | ignored {job : JobRow} (lower : lowerVersion queue request = true)
      (known : boundaryJob queue request = some job) (named : job.id = jobId)
  | target {target : TargetRow} (current : lowerVersion queue request = false)
      (isTarget : queue.target = some target) (named : target.jobId = jobId)
      (payload : target.payload =
        (persistedRequest request).withPriority target.processingPriority)
      (higher : (persistedRequest request).processingPriority ≤ target.processingPriority)
      (fingerprint : target.sourceFingerprint = ingestSourceFingerprint platform.sha256 request)
      (fresh : resetStaleExtraction platform group queue target = false)
      (carried : ∀ job ∈ queue.jobs, job.id = jobId → CarriesPayload target job)
  | settled {segment : SegmentRow} {job : JobRow} (current : lowerVersion queue request = false)
      (untargeted : queue.target = none) (committed : queue.segment = some segment)
      (settles : settledBy platform group request segment = true)
      (known : boundaryJob queue request = some job) (named : job.id = jobId)
      (idle : job.status = .running ∨
        job.status = .succeeded ∧ job.leaseId = none ∧ job.payload = none ∧
          job.projectionVersion = (persistedRequest request).projectionVersion ∧
          job.sourceGeneration = segment.sourceGeneration ∧
          job.sourceFingerprint = ingestSourceFingerprint platform.sha256 request ∧
          (persistedRequest request).processingPriority ≤ job.processingPriority)

theorem settledBy_withPriority {segment : SegmentRow} (priority : Nat) :
    settledBy platform group (request.withPriority priority) segment =
      settledBy platform group request segment := by
  rcases withPriority_names request priority with ⟨boundary, version, _, startUser⟩
  unfold settledBy
  dsimp only
  rw [boundary, version, startUser, (@withPriority_columns platform request priority).2.2.2]

/-- A target with this request's payload is met again under any priority. -/
theorem targetMatchesRequest_posted {target : TargetRow} (accepted : Accepted group request)
    (bound : target.processingPriority ≤ 100)
    (payload : target.payload = (persistedRequest request).withPriority target.processingPriority)
    (boundary : target.boundary = target.payload.boundary)
    (version : target.projectionVersion = target.payload.projectionVersion)
    (fingerprint : target.sourceFingerprint = ingestSourceFingerprint platform.sha256 request)
    (priority : Nat) :
    targetMatchesRequest platform group target (persistedRequest (request.withPriority priority))
      group.segmentId
      (ingestSourceFingerprint platform.sha256 (request.withPriority priority)) = true := by
  have stored := accepted.withPriority bound
  rw [← persistedRequest_withPriority] at payload
  have decoded : targetRequest group target =
      .ok (request.withPriority target.processingPriority) := by
    unfold targetRequest
    rw [payload]
    exact stored.decodes
  rcases withPriority_names request priority with ⟨raisedBoundary, raisedVersion, session, startUser⟩
  rcases withPriority_names request target.processingPriority with
    ⟨storedBoundary, storedVersion, storedSession, storedStartUser⟩
  have raisedFingerprint := (@withPriority_columns platform request priority).2.2.2
  have storedFingerprint := (@withPriority_columns platform request
    target.processingPriority).2.2.2
  unfold targetMatchesRequest
  rw [decoded]
  dsimp only
  rw [boundary, version, payload, raisedBoundary, raisedVersion, session, startUser,
    storedBoundary, storedVersion, storedSession, storedStartUser, raisedFingerprint,
    storedFingerprint, fingerprint, stored.identifies]
  simp only [beq_self_eq_true, Bool.and_self]

/-- The change a post of the current target makes to its job when nothing is reset. -/
theorem exact_job_unprioritised {target : TargetRow} {job : JobRow} {priority : Nat}
    (payload : target.payload =
      (persistedRequest request).withPriority target.processingPriority)
    (carries : CarriesPayload target job) :
    JobRow.unprioritised
        { job with
          payload := if job.status = .running then job.payload
            else some ((persistedRequest request).withPriority priority)
          processingPriority := if job.status = .running then job.processingPriority
            else priority } = job.unprioritised := by
  by_cases running : job.status = .running
  · simp only [if_pos running]
  · rcases carries with runs | ⟨stored, _⟩
    · exact absurd runs running
    · unfold JobRow.unprioritised
      simp only [if_neg running, stored, payload, Option.map_some, withPriority_withPriority]

theorem exact_job_self {target : TargetRow} {job : JobRow} (carries : CarriesPayload target job) :
    { job with
      payload := if job.status = .running then job.payload else some target.payload
      processingPriority := if job.status = .running then job.processingPriority
        else target.processingPriority } = job := by
  by_cases running : job.status = .running
  · simp only [if_pos running]
  · rcases carries with runs | ⟨stored, priority⟩
    · exact absurd runs running
    · simp only [if_neg running, ← stored, ← priority]

theorem enqueueExact_posted {target : TargetRow} {priority : Nat}
    (isTarget : queue.target = some target)
    (payload : target.payload = (persistedRequest request).withPriority target.processingPriority)
    (higher : (persistedRequest request).processingPriority ≤ target.processingPriority)
    (fresh : resetStaleExtraction platform group queue target = false)
    (carried : ∀ job ∈ queue.jobs, job.id = target.jobId → CarriesPayload target job) :
    ∃ later, enqueueExact platform group queue (request.withPriority priority) target =
        (later, target.jobId) ∧
      later.unprioritised = queue.unprioritised ∧
      (priority ≤ (persistedRequest request).processingPriority → later = queue) := by
  refine ⟨_, rfl, ?_, ?_⟩
  · unfold Queue.unprioritised
    dsimp only
    rw [fresh, isTarget]
    simp only [Bool.false_eq_true, if_false, Option.map_some]
    congr 1
    · apply updateJobs_unprioritised
      intro job member chosen
      rw [persistedRequest_withPriority, withPriority_withPriority]
      exact exact_job_unprioritised payload (carried job member (beq_iff_eq.mp chosen))
    · unfold TargetRow.unprioritised
      rw [payload, persistedRequest_withPriority]
      simp only [withPriority_withPriority]
  · intro lower
    have raised := (@withPriority_columns platform request priority).2.2.1
    have kept : max target.processingPriority
        (persistedRequest (request.withPriority priority)).processingPriority =
          target.processingPriority := by
      rw [raised]
      omega
    have samePayload : (persistedRequest (request.withPriority priority)).withPriority
        target.processingPriority = target.payload := by
      rw [persistedRequest_withPriority, withPriority_withPriority, ← payload]
    rw [fresh, kept, samePayload]
    simp only [Bool.false_eq_true, if_false]
    rw [updateJobs_self]
    · rw [← isTarget]
    · intro job member chosen
      exact exact_job_self (carried job member (beq_iff_eq.mp chosen))

/-- A posted request meets its exit again under any priority. -/
theorem Posted.again {jobId priority : Nat} (holds : Invariant platform group queue)
    (accepted : Accepted group request) (posted : Posted platform group queue request jobId)
    (freshId : Nat) :
    ∃ later, enqueueParsed platform group queue (request.withPriority priority) freshId =
        .ok (later, jobId) ∧
      later.unprioritised = queue.unprioritised ∧
      (priority ≤ (persistedRequest request).processingPriority → later = queue) := by
  unfold enqueueParsed
  rw [lowerVersion_withPriority]
  cases posted with
  | @ignored job lower known named =>
      rw [if_pos lower]
      unfold enqueueIgnored
      rw [boundaryJob_withPriority, known]
      exact ⟨queue, by rw [← named], rfl, fun _ => rfl⟩
  | @target target current isTarget named payload higher fingerprint fresh carried =>
      rcases (holds.target target isTarget).carried with ⟨stored, storedAccepted, carries⟩
      have matched := targetMatchesRequest_posted accepted
        (carries.priority ▸ storedAccepted.priority_le) payload
        (carries.boundary.trans (by rw [carries.payload]))
        (carries.version.trans (by rw [carries.payload])) fingerprint priority
      rw [current, if_neg Bool.false_ne_true, isTarget]
      dsimp only
      rw [if_pos matched]
      rw [← named] at carried
      rcases @enqueueExact_posted platform group queue request target priority isTarget payload
        higher fresh carried with ⟨later, same, unprioritised, self⟩
      rw [same, named]
      exact ⟨later, rfl, unprioritised, self⟩
  | @settled segment job current untargeted committed settles known named idle =>
      rw [current, if_neg Bool.false_ne_true, untargeted]
      dsimp only
      rw [committed]
      dsimp only
      rw [settledBy_withPriority, if_pos settles]
      unfold enqueueSettled
      rw [boundaryJob_withPriority, known]
      rcases boundaryJob_some known with ⟨jobIn, boundary⟩
      rcases withPriority_names request priority with ⟨raisedBoundary, raisedVersion, _, _⟩
      rcases @withPriority_columns platform request priority with
        ⟨_, _, raisedPriority, raisedFingerprint⟩
      have only {row : JobRow} (member : row ∈ queue.jobs)
          (chosen : (row.id == job.id && !(row.status == .running)) = true) :
          row = job ∧ ¬ job.status = .running := by
        rw [Bool.and_eq_true, beq_iff_eq, Bool.not_eq_true', beq_eq_false_iff_ne] at chosen
        have same := holds.distinct row member job jobIn chosen.1
        exact ⟨same, same ▸ chosen.2⟩
      subst named
      refine ⟨_, rfl, ?_, ?_⟩
      · unfold Queue.unprioritised
        congr 1
        apply updateJobs_unprioritised
        intro row member chosen
        rcases only member chosen with ⟨rfl, waits⟩
        rcases idle with running | ⟨status, lease, payload, version, generation, fingerprint, _⟩
        · exact absurd running waits
        · unfold JobRow.unprioritised
          rw [raisedBoundary, raisedVersion, raisedFingerprint, ← boundary, ← version,
            ← generation, ← fingerprint, ← status]
          simp only [lease, payload]
      · intro lower
        apply updateJobs_self
        intro row member chosen
        rcases only member chosen with ⟨rfl, waits⟩
        rcases idle with running |
          ⟨status, lease, payload, version, generation, fingerprint, higher⟩
        · exact absurd running waits
        · have kept : max row.processingPriority
              (persistedRequest (request.withPriority priority)).processingPriority =
                row.processingPriority := by
            rw [raisedPriority]
            omega
          rw [kept, raisedBoundary, raisedVersion, raisedFingerprint, ← boundary, ← version,
            ← generation, ← fingerprint, ← status, ← lease, ← payload]

/-! ### Every post settles its request -/

/-- Only a failed job is reset. -/
theorem resetStaleExtraction_failed {target : TargetRow} {job : JobRow}
    (holds : Invariant platform group queue) (member : job ∈ queue.jobs)
    (named : job.id = target.jobId)
    (resets : resetStaleExtraction platform group queue target = true) : job.status = .failed := by
  rw [resetStaleExtraction, Bool.and_eq_true] at resets
  rcases (Option.any_eq_true_iff_get _ _).mp resets.2 with ⟨present, failed⟩
  have found := (Option.some_get present).symm
  rw [holds.distinct job member _ (job?_some found).1 (named.trans (job?_some found).2.symm)]
  exact beq_iff_eq.mp failed

/-- A job of the segment, found by its id. -/
theorem Invariant.job?_eq {job : JobRow} (holds : Invariant platform group queue)
    (member : job ∈ queue.jobs) : queue.job? job.id = some job := by
  cases found : queue.job? job.id with
  | none =>
      have none := List.find?_eq_none.mp found job member
      rw [beq_self_eq_true] at none
      exact absurd rfl none
  | some other =>
      rcases job?_some found with ⟨otherIn, sameId⟩
      rw [holds.distinct other otherIn job member sameId]

theorem insertJob_ok {row : JobRow} (inserted : insertJob queue row = .ok after) :
    after = { queue with jobs := queue.jobs ++ [row] } := by
  unfold insertJob at inserted
  split at inserted
  · cases inserted
  · cases inserted
    rfl

theorem enqueueIgnored_posted {freshId jobId : Nat} (holds : Invariant platform group after)
    (lower : lowerVersion queue request = true)
    (posted : enqueueIgnored platform queue request freshId = .ok (after, jobId)) :
    Posted platform group after request jobId := by
  unfold enqueueIgnored at posted
  cases known : boundaryJob queue request with
  | some job =>
      rw [known] at posted
      cases posted
      exact .ignored lower known rfl
  | none =>
      rw [known] at posted
      rcases except_bind_ok posted with ⟨inserted, isInserted, same⟩
      cases same
      cases insertJob_ok isInserted
      have isRow := holds.boundaryJob_eq (List.mem_append_right _ (List.mem_singleton.mpr rfl)) rfl
      refine .ignored ?_ isRow rfl
      unfold lowerVersion at lower ⊢
      rw [known] at lower
      simp only [Option.any_none, Bool.or_false] at lower
      simp only [lower, Bool.true_or]

theorem enqueueSettled_posted {freshId jobId : Nat} {segment : SegmentRow}
    (holdsAfter : Invariant platform group after)
    (current : lowerVersion queue request = false) (untargeted : queue.target = none)
    (committed : queue.segment = some segment)
    (settles : settledBy platform group request segment = true)
    (posted : enqueueSettled platform queue request freshId segment = .ok (after, jobId)) :
    Posted platform group after request jobId := by
  rcases lowerVersion_eq_false.mp current with ⟨segmentLower, _, jobLower⟩
  have notLower {after : Queue} {job : JobRow} (sameSegment : after.segment = queue.segment)
      (sameTarget : after.target = none) (known : boundaryJob after request = some job)
      (version : job.projectionVersion ≤ (persistedRequest request).projectionVersion) :
      lowerVersion after request = false := by
    apply lowerVersion_eq_false.mpr
    refine ⟨by rw [sameSegment]; exact segmentLower, by simp [sameTarget], ?_⟩
    intro other isOther
    rw [known] at isOther
    cases isOther
    exact version
  unfold enqueueSettled at posted
  cases known : boundaryJob queue request with
  | none =>
      rw [known] at posted
      rcases except_bind_ok posted with ⟨inserted, isInserted, same⟩
      cases same
      cases insertJob_ok isInserted
      have isRow := holdsAfter.boundaryJob_eq
        (List.mem_append_right _ (List.mem_singleton.mpr rfl)) rfl
      exact .settled (notLower rfl untargeted isRow (Nat.le_refl _)) untargeted committed settles
        isRow rfl (.inr ⟨rfl, rfl, rfl, rfl, rfl, rfl, Nat.le_refl _⟩)
  | some settled =>
      rw [known] at posted
      cases posted
      rcases boundaryJob_some known with ⟨settledIn, boundary⟩
      by_cases running : settled.status = .running
      · have isRow := holdsAfter.boundaryJob_eq
          (mem_updateJobs_unchosen settledIn (by simp [running])) boundary
        exact .settled (notLower rfl untargeted isRow (jobLower settled known)) untargeted committed
          settles isRow rfl (.inl running)
      · have isRow := holdsAfter.boundaryJob_eq
          (mem_updateJobs_chosen settledIn (by simp [running])) rfl
        exact .settled (notLower rfl untargeted isRow (Nat.le_refl _)) untargeted committed settles
          isRow rfl (.inr ⟨rfl, rfl, rfl, rfl, rfl, rfl, Nat.le_max_right _ _⟩)

theorem resetStaleExtraction_unstaged {target : TargetRow} (unstaged : target.staged = none) :
    resetStaleExtraction platform group queue target = false := by
  unfold resetStaleExtraction
  rw [unstaged]
  rfl

theorem resetStaleExtraction_congr {target new : TargetRow} (staged : new.staged = target.staged)
    (eligible : stagedEligible platform group new = stagedEligible platform group target)
    (status : (after.job? new.jobId).map (·.status) = (queue.job? target.jobId).map (·.status)) :
    resetStaleExtraction platform group after new =
      resetStaleExtraction platform group queue target := by
  have failed := congrArg (fun found : Option JobStatus => found.any (· == .failed)) status
  simp only [Option.any_map] at failed
  unfold resetStaleExtraction
  rw [staged, eligible]
  exact congrArg _ failed

/-- Dropping a stale extraction leaves nothing to drop. -/
theorem enqueueExact_posted_target {target : TargetRow} (holds : Invariant platform group queue)
    (isTarget : queue.target = some target)
    (matched : targetMatchesRequest platform group target (persistedRequest request)
      group.segmentId (ingestSourceFingerprint platform.sha256 request) = true)
    (holdsAfter : Invariant platform group (enqueueExact platform group queue request target).1)
    (current : lowerVersion queue request = false) :
    Posted platform group (enqueueExact platform group queue request target).1 request
      target.jobId := by
  rcases targetMatchesRequest_iff matched with ⟨version, fingerprint, boundary⟩
  rcases (holds.target target isTarget).carried with ⟨stored, _, carries⟩
  rcases lowerVersion_eq_false.mp current with ⟨segmentLower, targetLower, jobLower⟩
  have sources : columnSourceFingerprint platform target.boundary target.payload =
      some target.sourceFingerprint := by
    rw [carries.payload, carries.boundary, carries.fingerprint]
    exact columnSourceFingerprint_request stored
  have raisedSources (priority : Nat) : columnSourceFingerprint platform target.boundary
      ((persistedRequest request).withPriority priority) = some target.sourceFingerprint := by
    have raised := @columnSourceFingerprint_request platform (request.withPriority priority)
    rw [(withPriority_names request priority).1, persistedRequest_withPriority,
      (@withPriority_columns platform request priority).2.2.2, ← boundary, ← fingerprint] at raised
    exact raised
  refine .target ?_ rfl rfl rfl (Nat.le_max_right _ _) fingerprint ?_ ?_
  · apply lowerVersion_eq_false.mpr
    refine ⟨segmentLower, ?_, ?_⟩
    · intro one present
      cases present
      exact targetLower target isTarget
    · intro job known
      rcases boundaryJob_some known with ⟨member, sameBoundary⟩
      rcases mem_updateJobs.mp member with ⟨old, oldIn, rfl⟩
      split at sameBoundary
      · rename_i chosen
        rw [if_pos chosen]
        exact jobLower old (holds.boundaryJob_eq oldIn sameBoundary)
      · rename_i unchosen
        rw [if_neg unchosen]
        exact jobLower old (holds.boundaryJob_eq oldIn sameBoundary)
  · by_cases resets : resetStaleExtraction platform group queue target = true
    · exact resetStaleExtraction_unstaged (if_pos resets)
    · rw [Bool.not_eq_true] at resets
      rcases (holds.target target isTarget).found with ⟨job, jobIn, named⟩
      have before := holds.job?_eq jobIn
      have after := holdsAfter.job?_eq (mem_updateJobs_chosen jobIn (beq_iff_eq.mpr named))
      dsimp only at after
      rw [named] at before after
      rw [← resets]
      apply resetStaleExtraction_congr
      · change (if resetStaleExtraction platform group queue target = true then none
          else target.staged) = target.staged
        rw [resets, if_neg Bool.false_ne_true]
      · unfold stagedEligible
        dsimp only
        rw [raisedSources, sources, resets]
        rfl
      · dsimp only
        rw [after, before, resets]
        rfl
  · intro job member named
    rcases mem_updateJobs.mp member with ⟨old, oldIn, rfl⟩
    by_cases chosen : (old.id == target.jobId) = true
    · rw [if_pos chosen]
      by_cases running : old.status = .running
      · left
        have noReset : ¬ resetStaleExtraction platform group queue target = true := by
          intro resets
          rw [resetStaleExtraction_failed holds oldIn (beq_iff_eq.mp chosen) resets] at running
          cases running
        dsimp only
        rw [if_neg noReset]
        exact running
      · right
        dsimp only
        rw [if_neg running, if_neg running]
        exact ⟨rfl, rfl⟩
    · rw [if_neg chosen] at named
      exact absurd (beq_iff_eq.mpr named) chosen

/-- The job a new generation points at was just written, or runs with the same boundary. -/
theorem upsertJob_carries {freshId jobId generation : Nat} {job : JobRow}
    (holds : Invariant platform group queue) (accepted : Accepted group request)
    (fresh : ∀ job ∈ queue.jobs, job.id ≠ freshId)
    (written : (upsertJob platform queue request freshId generation).2.or
      ((boundaryJob queue request).map (·.id)) = some jobId)
    (member : job ∈ (upsertJob platform queue request freshId generation).1.jobs)
    (named : job.id = jobId) :
    job ∈ queue.jobs ∧ job.status = .running ∨
      job.payload = some (persistedRequest request) ∧
        job.processingPriority = (persistedRequest request).processingPriority := by
  have rowOk : JobOk platform group (insertedJob platform request freshId
      (some (persistedRequest request)) .pending generation) :=
    insertedJob_ok accepted (.inl rfl)
  revert written member
  unfold upsertJob
  dsimp only
  split
  · intro written member
    have sameId : freshId = jobId := Option.some.inj written
    rcases List.mem_append.mp member with old | new
    · exact absurd (named.trans sameId.symm) (fresh job old)
    · rw [List.mem_singleton.mp new]
      exact .inr ⟨rfl, rfl⟩
  · rename_i conflict isConflict
    have conflictIn : conflict ∈ queue.jobs := List.mem_of_find?_eq_some isConflict
    intro written member
    by_cases running : conflict.status = .running
    · rw [if_pos running] at written member
      rw [Option.none_or] at written
      rcases Option.map_eq_some_iff.mp written with ⟨found, isFound, foundId⟩
      rcases boundaryJob_some isFound with ⟨foundIn, boundary⟩
      have sameKey := List.find?_some isConflict
      rw [beq_iff_eq] at sameKey
      have isConflictJob : found = conflict := by
        apply holds.keys found foundIn conflict conflictIn
        rw [sameKey]
        exact (holds.jobs found foundIn).key_eq rowOk boundary
      have same := holds.distinct job member found foundIn (named.trans foundId.symm)
      rw [same, isConflictJob]
      exact .inl ⟨conflictIn, running⟩
    · rw [if_neg running] at written member
      have sameId : conflict.id = jobId := Option.some.inj written
      rcases mem_updateJobs.mp member with ⟨old, oldIn, rfl⟩
      by_cases chosen : (old.id == conflict.id) = true
      · rw [if_pos chosen]
        exact .inr ⟨rfl, rfl⟩
      · rw [if_neg chosen] at named
        exact absurd (beq_iff_eq.mpr (named.trans sameId.symm)) chosen

theorem enqueueGeneration_posted {freshId jobId : Nat} (holds : Invariant platform group queue)
    (holdsAfter : Invariant platform group after) (accepted : Accepted group request)
    (fresh : ∀ job ∈ queue.jobs, job.id ≠ freshId)
    (current : lowerVersion queue request = false)
    (posted : enqueueGeneration platform queue request freshId = .ok (after, jobId)) :
    Posted platform group after request jobId := by
  rcases enqueueGeneration_ok posted with ⟨written, same⟩
  rcases lowerVersion_eq_false.mp current with ⟨segmentLower, _, jobLower⟩
  have isTarget : after.target = some (generationTarget platform queue request jobId) := by
    rw [same]
    rfl
  have segment : after.segment = queue.segment := by
    rw [same]
    exact (@upsertJob_frame platform queue request freshId (nextGeneration queue)).1
  have carried {job : JobRow} (member : job ∈ after.jobs) (named : job.id = jobId) :
      job ∈ queue.jobs ∧ job.status = .running ∨
        job.payload = some (persistedRequest request) ∧
          job.processingPriority = (persistedRequest request).processingPriority := by
    rw [same] at member
    rcases mem_updateJobs.mp member with ⟨old, oldIn, isJob⟩
    split at isJob
    · rename_i chosen
      rw [Bool.and_eq_true, Bool.not_eq_true', beq_eq_false_iff_ne] at chosen
      rw [← isJob] at named
      exact absurd named chosen.1
    · subst isJob
      exact upsertJob_carries holds accepted fresh written oldIn named
  refine .target ?_ isTarget rfl (persistedRequest_priority request).symm (Nat.le_refl _) rfl
    (resetStaleExtraction_unstaged rfl) ?_
  · apply lowerVersion_eq_false.mpr
    refine ⟨by rw [segment]; exact segmentLower, ?_, ?_⟩
    · intro one present
      rw [isTarget] at present
      cases present
      exact Nat.le_refl _
    · intro job known
      rcases boundaryJob_some known with ⟨jobIn, boundary⟩
      have aimed := holdsAfter.target _ isTarget
      rcases aimed.found with ⟨own, ownIn, ownNamed⟩
      have isOwn := holdsAfter.boundaryJob_eq ownIn (aimed.linked own ownIn ownNamed).boundary
      have sameJob : own = job := Option.some.inj (isOwn.symm.trans known)
      subst sameJob
      rcases carried ownIn ownNamed with ⟨old, _⟩ | ⟨payload, _⟩
      · exact jobLower own (holds.boundaryJob_eq old boundary)
      · rcases (holdsAfter.jobs own ownIn).payload _ payload with ⟨stored, _, isStored, _, version, _⟩
        rw [version, ← isStored]
  · intro job member named
    rcases carried member named with ⟨_, running⟩ | stored
    · exact .inl running
    · exact .inr stored

theorem enqueueParsed_posted {freshId jobId : Nat} (holds : Invariant platform group queue)
    (accepted : Accepted group request) (fresh : ∀ job ∈ queue.jobs, job.id ≠ freshId)
    (posted : enqueueParsed platform group queue request freshId = .ok (after, jobId)) :
    Posted platform group after request jobId := by
  have holdsAfter := enqueueParsed_invariant holds accepted fresh posted
  unfold enqueueParsed at posted
  split at posted
  · rename_i lower
    exact enqueueIgnored_posted holdsAfter lower posted
  · rename_i notLower
    have current := Bool.eq_false_iff.mpr notLower
    split at posted
    · rename_i target isTarget
      split at posted
      · rename_i matched
        have result := Except.ok.inj posted
        have sameQueue := congrArg Prod.fst result
        have sameId := congrArg Prod.snd result
        change (enqueueExact platform group queue request target).1 = after at sameQueue
        change target.jobId = jobId at sameId
        subst sameQueue sameId
        exact enqueueExact_posted_target holds isTarget matched holdsAfter current
      · exact enqueueGeneration_posted holds holdsAfter accepted fresh current posted
    · rename_i untargeted
      split at posted
      · rename_i segment committed
        split at posted
        · rename_i settles
          exact enqueueSettled_posted holdsAfter current untargeted committed settles posted
        · exact enqueueGeneration_posted holds holdsAfter accepted fresh current posted
      · exact enqueueGeneration_posted holds holdsAfter accepted fresh current posted

/-! ### Idempotence -/

/-- What a post checks before it chooses an exit. -/
theorem enqueue_of_accepted {parsed : IngestSegmentCreate} {freshId : Nat}
    (holds : Invariant platform group queue)
    (isParsed : parseIngestSegmentCreate request = .ok parsed) (accepted : Accepted group parsed) :
    enqueue platform group queue request freshId =
      enqueueParsed platform group queue parsed freshId := by
  have registered : ¬ (parsed.isNative && !group.source.isNative) = true := by
    intro foreign
    rw [Bool.and_eq_true] at foreign
    rw [accepted.native foreign.1] at foreign
    cases foreign.2
  unfold enqueue
  rw [isParsed, contractQueue, except_ok_bind, if_neg (not_not.mpr accepted.owned),
    if_neg registered, accepted.identified, identityQueue, except_ok_bind,
    if_neg (not_not.mpr rfl), holds.owned, except_ok_bind]

/-- For every reachable queue: posting the request again returns the same job and changes no
row, and posting it under another accepted priority changes nothing but priorities. -/
theorem enqueue_idempotent {system : System} (reached : Reachable platform group system)
    {request : IngestSegmentCreate} {freshId jobId : Nat} {after : Queue}
    (fresh : ∀ job ∈ system.queue.jobs, job.id ≠ freshId)
    (posted : enqueue platform group system.queue request freshId = .ok (after, jobId))
    (nextId : Nat) :
    enqueue platform group after request nextId = .ok (after, jobId) ∧
      ∀ priority raised,
        parseIngestSegmentCreate (request.withPriority priority) = .ok raised →
        ∃ later, enqueue platform group after (request.withPriority priority) nextId =
            .ok (later, jobId) ∧
          later.unprioritised = after.unprioritised := by
  have holds := reached.invariant
  rcases enqueue_parsed posted with ⟨parsed, isParsed, accepted, entered⟩
  have holdsAfter := enqueueParsed_invariant holds accepted fresh entered
  have settled := enqueueParsed_posted holds accepted fresh entered
  constructor
  · rcases settled.again holdsAfter accepted nextId with ⟨later, again, _, self⟩
    rw [enqueue_of_accepted holdsAfter isParsed accepted,
      ← request_withPriority_self parsed, again, self (Nat.le_refl _)]
  · intro priority raised isRaised
    rcases parseIngestSegmentCreate_withPriority isParsed isRaised with ⟨same, bound⟩
    subst same
    rcases settled.again holdsAfter accepted nextId with ⟨later, again, unprioritised, _⟩
    refine ⟨later, ?_, unprioritised⟩
    rw [enqueue_of_accepted holdsAfter isRaised (accepted.withPriority bound), again]

/-- The sample's request is posted to the sample again, with the highest priority. -/
theorem enqueue_idempotent_sample :
    enqueue samplePlatform sampleGroup samplePosted sampleRequest 2 = .ok (samplePosted, 1) ∧
      ∀ priority raised,
        parseIngestSegmentCreate (sampleRequest.withPriority priority) = .ok raised →
        ∃ later, enqueue samplePlatform sampleGroup samplePosted
            (sampleRequest.withPriority priority) 2 = .ok (later, 1) ∧
          later.unprioritised = samplePosted.unprioritised := by
  have start : Reachable samplePlatform sampleGroup System.initial := Reaches.refl _
  exact enqueue_idempotent start (fun job absent => by cases absent)
    (by decide +kernel : enqueue samplePlatform sampleGroup Queue.empty sampleRequest 1 =
      .ok (samplePosted, 1)) 2

end Reflection.Database
