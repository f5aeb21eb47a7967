/-
The guarantees of a segment's queue over all its runs.

In every reachable state a desired target can still be met. Only the holder of the current
lease, with the snapshot the target has at that moment, stages a result or commits one, and
what is staged was made from exactly the target's source.
-/

import Reflection.Database.Posting

namespace Reflection.Database

variable {platform : Platform} {group : Group} {system : System}

theorem invariant_step {label : Label} {next : System}
    (holds : Invariant platform group system.queue) (step : Step platform group system label next) :
    Invariant platform group next.queue := by
  cases step with
  | enqueue fresh posted => exact enqueue_invariant holds fresh posted
  | claim _ taken => exact claimOldestJob_invariant holds taken
  | publish _ reported => exact publishExtraction_invariant holds reported
  | commit _ reported => exact commitResolution_invariant holds reported
  | finish _ reported => exact finishFailedAttempt_invariant holds reported
  | retry retried => exact retryFailedJob_invariant holds retried
  | supersede superseded => exact supersedeFailedJob_invariant holds superseded
  | recover recovered => exact recoverRunningJobs_invariant holds recovered

theorem Reachable.invariant (reached : Reachable platform group system) :
    Invariant platform group system.queue :=
  @Reaches.invariant System Label (Step platform group) (fun _ _ => True)
    (fun system => Invariant platform group system.queue)
    (fun _ _ _ holds step _ => invariant_step holds step) _ _ reached Invariant.empty

/-! ### Desired targets -/

/-- Job and target name the same snapshot and the same exact boundary. -/
structure Agrees (target : TargetRow) (job : JobRow) : Prop where
  generation : job.sourceGeneration = target.sourceGeneration
  fingerprint : job.sourceFingerprint = target.sourceFingerprint
  version : job.projectionVersion = target.projectionVersion
  boundary : job.boundary = target.boundary

theorem agrees_of_joins {target : TargetRow} {job : JobRow}
    (joins : targetJoins target job = true) : Agrees target job := by
  rcases targetJoins_iff.mp joins with ⟨_, generation, fingerprint, version, boundary⟩
  exact ⟨generation.symm, fingerprint.symm, version.symm, boundary.symm⟩

/-- A pending linked job is what the claim query selects once nothing runs. -/
theorem Invariant.eligible {queue : Queue} {target : TargetRow} {job : JobRow}
    (holds : Invariant platform group queue) (isTarget : queue.target = some target)
    (member : job ∈ queue.jobs) (pending : job.status = .pending)
    (joins : targetJoins target job = true) (idle : queue.anyRunning = false) :
    eligibleJob queue = some (job, target) := by
  have chosen : (queue.jobs.find? fun row => row.status == .pending && targetJoins target row) =
      some job := by
    cases found : queue.jobs.find? fun row => row.status == .pending && targetJoins target row with
    | none =>
        have none := List.find?_eq_none.mp found job member
        rw [joins, pending, beq_self_eq_true] at none
        exact absurd rfl none
    | some other =>
        have matched := List.find?_some found
        rw [Bool.and_eq_true] at matched
        have sameId : other.id = job.id := by
          rw [← (targetJoins_iff.mp matched.2).1, ← (targetJoins_iff.mp joins).1]
        rw [holds.distinct other (List.mem_of_find?_eq_some found) job member sameId]
  unfold eligibleJob
  rw [isTarget]
  dsimp only
  rw [idle, if_neg Bool.false_ne_true, chosen]
  rfl

/-- A failed linked job is what retries accept. -/
theorem Invariant.retryable {queue : Queue} {target : TargetRow} {job : JobRow}
    (holds : Invariant platform group queue) (isTarget : queue.target = some target)
    (found : queue.job? target.jobId = some job) (failed : job.status = .failed)
    (joins : targetJoins target job = true) :
    lockCurrentFailedTargetJob platform group queue job.id = .ok (some (job, target)) := by
  rcases job?_some found with ⟨member, named⟩
  rcases (holds.target target isTarget).carried with ⟨request, accepted, carries⟩
  have ok := holds.jobs job member
  rcases ok.named with ⟨naming, namingAccepted, session, startUser, boundary⟩
  rcases targetJoins_iff.mp joins with ⟨targetId, generation, fingerprint, version, sameBoundary⟩
  have cursors := namingAccepted.same_session accepted
    (boundary.symm.trans (sameBoundary.symm.trans carries.boundary))
  have decoded : targetRequest group target = .ok request := by
    unfold targetRequest
    rw [carries.payload]
    exact accepted.decodes
  have matched : failedTargetMatchesJob platform group target job = true := by
    unfold failedTargetMatchesJob
    rw [decoded]
    simp only [Bool.and_eq_true, beq_iff_eq]
    refine ⟨⟨⟨⟨targetId, generation⟩, fingerprint⟩, version⟩, ?_⟩
    refine ⟨⟨⟨⟨⟨⟨carries.boundary, ?_⟩, ?_⟩, ?_⟩, ?_⟩, accepted.identifies⟩, ?_⟩
    · exact sameBoundary.symm.trans carries.boundary
    · exact carries.version.symm.trans version
    · rw [session, cursors.1]
    · rw [startUser, cursors.2]
    · exact carries.fingerprint.symm.trans fingerprint
  have unleased : job.leaseId = none := by
    apply ok.leased
    rw [failed]
    intro running
    cases running
  unfold lockCurrentFailedTargetJob
  rw [named, found]
  dsimp only
  rw [holds.owned, except_ok_bind, failed, unleased, isTarget]
  dsimp only
  rw [if_neg (by decide), if_neg (by simp), matched, if_pos rfl]

/-- A desired target's job runs, or is pending or failed with exactly the target's snapshot, so
that the next claim selects it or a retry accepts it. -/
theorem no_target_stranded (reached : Reachable platform group system) {target : TargetRow}
    (desired : system.queue.target = some target) :
    ∃ job, system.queue.job? target.jobId = some job ∧
      (job.status = .running ∨
        job.status = .pending ∧ Agrees target job ∧
          (system.queue.anyRunning = false → eligibleJob system.queue = some (job, target)) ∨
        job.status = .failed ∧ Agrees target job ∧
          lockCurrentFailedTargetJob platform group system.queue job.id =
            .ok (some (job, target))) := by
  have holds := reached.invariant
  have aimed := holds.target target desired
  rcases aimed.found with ⟨row, rowIn, rowNamed⟩
  have present : (system.queue.job? target.jobId).isSome = true := by
    rw [Queue.job?, List.find?_isSome]
    exact ⟨row, rowIn, beq_iff_eq.mpr rowNamed⟩
  rcases Option.isSome_iff_exists.mp present with ⟨job, found⟩
  rcases job?_some found with ⟨member, named⟩
  refine ⟨job, found, ?_⟩
  rcases (aimed.linked job member named).live with running | ⟨pending | failed, joins⟩
  · exact .inl running
  · exact .inr (.inl ⟨pending, agrees_of_joins joins, holds.eligible desired member pending joins⟩)
  · exact .inr (.inr ⟨failed, agrees_of_joins joins, holds.retryable desired found failed joins⟩)

/-! ### What steps leave alone -/

/-- The committed row stays, and what is still staged is staged for the same source. -/
structure Frame (before after : Queue) : Prop where
  segment : after.segment = before.segment
  staged : ∀ target ∈ after.target, ∀ staged ∈ target.staged, ∃ old ∈ before.target,
    old.staged = some staged ∧ old.sourceFingerprint = target.sourceFingerprint

theorem Frame.of_same {before after : Queue} (segment : after.segment = before.segment)
    (target : after.target = before.target) : Frame before after := by
  refine ⟨segment, fun one present staged isStaged => ?_⟩
  rw [target] at present
  exact ⟨one, present, isStaged, rfl⟩

theorem Frame.of_none {before after : Queue} (segment : after.segment = before.segment)
    (target : after.target = none) : Frame before after := by
  refine ⟨segment, fun one present => ?_⟩
  rw [target] at present
  cases present

theorem Frame.of_some {before after : Queue} {old : TargetRow}
    (segment : after.segment = before.segment) (oldTarget : before.target = some old)
    (targets : ∀ new ∈ after.target, (new.staged = none ∨ new.staged = old.staged) ∧
      new.sourceFingerprint = old.sourceFingerprint) : Frame before after := by
  refine ⟨segment, fun new present staged isStaged => ?_⟩
  rcases targets new present with ⟨cleared | kept, fingerprint⟩
  · rw [cleared] at isStaged
    cases isStaged
  · rw [kept] at isStaged
    exact ⟨old, oldTarget, isStaged, fingerprint.symm⟩

variable {queue after : Queue}

theorem insertJob_frame {row : JobRow} (inserted : insertJob queue row = .ok after) :
    Frame queue after := by
  unfold insertJob at inserted
  split at inserted
  · cases inserted
  · cases inserted
    exact .of_same rfl rfl

theorem enqueueGeneration_frame {request : IngestSegmentCreate} {freshId jobId : Nat}
    (posted : enqueueGeneration platform queue request freshId = .ok (after, jobId)) :
    Frame queue after := by
  rcases enqueueGeneration_ok posted with ⟨_, same⟩
  have segment : after.segment = queue.segment := by
    rw [same]
    exact (@upsertJob_frame platform queue request freshId (nextGeneration queue)).1
  refine ⟨segment, fun target present staged isStaged => ?_⟩
  rw [same] at present
  cases present
  cases isStaged

theorem enqueue_frame {request : IngestSegmentCreate} {freshId jobId : Nat}
    (posted : enqueue platform group queue request freshId = .ok (after, jobId)) :
    Frame queue after := by
  rcases enqueue_ok posted with ⟨parsed, _, entered⟩
  unfold enqueueParsed at entered
  split at entered
  · unfold enqueueIgnored at entered
    split at entered
    · cases entered
      exact .of_same rfl rfl
    · rcases except_bind_ok entered with ⟨inserted, isInserted, same⟩
      cases same
      exact insertJob_frame isInserted
  · split at entered
    · rename_i target isTarget
      split at entered
      · have same := congrArg Prod.fst (Except.ok.inj entered)
        change (enqueueExact platform group queue parsed target).1 = after at same
        rw [← same]
        refine Frame.of_some rfl isTarget ?_
        intro new present
        cases present
        refine ⟨?_, rfl⟩
        by_cases resets : resetStaleExtraction platform group queue target = true
        · left
          exact if_pos resets
        · right
          exact if_neg resets
      · exact enqueueGeneration_frame entered
    · split at entered
      · split at entered
        · unfold enqueueSettled at entered
          dsimp only at entered
          split at entered
          · rcases except_bind_ok entered with ⟨inserted, isInserted, same⟩
            cases same
            exact insertJob_frame isInserted
          · cases entered
            exact .of_same rfl rfl
        · exact enqueueGeneration_frame entered
      · exact enqueueGeneration_frame entered

theorem claimOldestJob_frame {leaseId : Nat} {claimed : Option ClaimedJob}
    (taken : claimOldestJob platform group queue leaseId = .ok (after, claimed)) :
    Frame queue after := by
  unfold claimOldestJob at taken
  repeat' split at taken
  all_goals cases taken
  all_goals exact .of_same rfl rfl

theorem finishFailedAttempt_frame {claim : ClaimedJob} {terminal updated : Bool}
    (reported : finishFailedAttempt platform group queue claim terminal = .ok (after, updated)) :
    Frame queue after := by
  rcases finishFailedAttempt_cases reported with same | requeued | ⟨_, same⟩
  · rw [same]
    exact .of_same rfl rfl
  · rcases requeueLatestTarget_frame requeued with ⟨target, segment⟩
    exact .of_same segment target
  · rw [same]
    unfold finishedQueue
    dsimp only
    split
    · unfold dropSettledTarget
      split
      · split
        · exact .of_none rfl rfl
        · exact .of_same rfl rfl
      · exact .of_same rfl rfl
    · exact .of_same rfl rfl

theorem retryFailedJob_frame {jobId : Nat} {restartExtraction : Bool}
    (retried : retryFailedJob platform group queue jobId restartExtraction = .ok after) :
    Frame queue after := by
  rcases except_bind_ok retried with ⟨context, locked, rest⟩
  cases context with
  | none =>
      cases rest
      exact .of_same rfl rfl
  | some context =>
      rcases context with ⟨job, target⟩
      rcases lockCurrentFailedTargetJob_some locked with ⟨_, isTarget, _, _⟩
      rcases except_bind_ok rest with ⟨payload, _, updated⟩
      rw [updateJob_ok updated]
      refine Frame.of_some rfl isTarget ?_
      intro new present
      cases present
      refine ⟨?_, rfl⟩
      cases restartExtraction
      · exact .inr rfl
      · exact .inl rfl

theorem supersedeFailedJob_frame {jobId : Nat}
    (superseded : supersedeFailedJob platform group queue jobId = .ok after) :
    Frame queue after := by
  rcases except_bind_ok superseded with ⟨context, _, rest⟩
  cases context with
  | none =>
      cases rest
      exact .of_same rfl rfl
  | some context =>
      rcases except_bind_ok rest with ⟨updated, isUpdated, same⟩
      cases same
      rw [updateJob_ok isUpdated]
      exact .of_none rfl rfl

theorem recoverRunningJobs_frame
    (recovered : recoverRunningJobs platform group queue = .ok after) : Frame queue after := by
  unfold recoverRunningJobs at recovered
  repeat' split at recovered
  all_goals cases recovered
  all_goals exact .of_same rfl rfl

/-! ### Fencing -/

/-- The committed row of a later generation and no lower projection version. -/
def Advances (before after : Option SegmentRow) : Prop :=
  ∃ new, after = some new ∧ ∀ old ∈ before,
    old.sourceGeneration < new.sourceGeneration ∧ old.projectionVersion ≤ new.projectionVersion

/-- Every commit that took effect wrote a row of a later generation. -/
theorem commitResolution_advances {claim : ClaimedJob} {result : ExtractionResult}
    {prepared : PreparedSegment} (holds : Invariant platform group queue)
    (reported : commitResolution platform group queue claim result prepared = .ok (after, true)) :
    (∃ job target, Current queue claim job target) ∧ Advances queue.segment after.segment ∧
      after.target = none := by
  rcases commitResolution_cases reported with ⟨never, _⟩ | ⟨_, passed⟩
  · cases never
  · rcases passed with ⟨job, target, selected, commitFingerprint, current, _, version, _, written⟩
    have newer := (holds.target target current.isTarget).newer
    rcases written with ⟨⟨existing, present, higher⟩, _⟩ | ⟨_, same⟩
    · have bound := (newer existing present).2
      rw [version, ← current.version] at higher
      omega
    · rw [same]
      refine ⟨⟨job, target, current⟩, ⟨_, rfl, ?_⟩, rfl⟩
      intro old present
      rcases newer old present with ⟨generation, lower⟩
      rw [current.generation] at generation
      rw [current.version, ← version] at lower
      exact ⟨generation, lower⟩

/-- A call that left no trace, or requeued, held the current lease only in the second case. -/
theorem stale_report_unchanged {claim : ClaimedJob}
    (outdated : ∀ job ∈ queue.jobs, job.id = claim.id → job.leaseId ≠ some claim.leaseId)
    (effect : after = queue ∨ requeueLatestTarget group queue claim = .ok after) : after = queue := by
  rcases effect with same | requeued
  · exact same
  · rcases requeueLatestTarget_leased requeued with ⟨job, member, leased⟩
    rcases leases_iff.mp leased with ⟨id, _, lease⟩
    exact absurd lease (outdated job member id)

theorem Current.not_outdated {claim : ClaimedJob} {job : JobRow} {target : TargetRow}
    (current : Current queue claim job target)
    (outdated : ∀ job ∈ queue.jobs, job.id = claim.id → job.leaseId ≠ some claim.leaseId) : False :=
  outdated job current.member current.id current.lease

/-- The staged extraction is the last one published, by a claim of the target's own source. -/
def Provenance (platform : Platform) (group : Group) (system : System) : Prop :=
  ∀ target ∈ system.queue.target, ∀ staged ∈ target.staged,
    ∃ claim request, system.published = some (claim, staged.extractionResult) ∧
      claim.sourceFingerprint = target.sourceFingerprint ∧
      ownedIngestRequest claim.request group.source.id = .ok request ∧
      ingestSourceFingerprint platform.sha256 request = target.sourceFingerprint

theorem Provenance.frame {next : System} (made : Provenance platform group system)
    (frame : Frame system.queue next.queue) (published : next.published = system.published) :
    Provenance platform group next := by
  intro target present staged isStaged
  rcases frame.staged target present staged isStaged with ⟨old, oldPresent, kept, fingerprint⟩
  rw [published, ← fingerprint]
  exact made old oldPresent staged kept

theorem validateClaim_request {claim : ClaimedJob}
    (valid : validateClaim platform group queue claim = .ok ()) :
    ∃ request, ownedIngestRequest claim.request group.source.id = .ok request ∧
      ingestSourceFingerprint platform.sha256 request = claim.sourceFingerprint := by
  unfold validateClaim at valid
  split at valid
  · cases valid
  · rcases except_bind_ok valid with ⟨request, owned, identified⟩
    rcases except_bind_ok identified with ⟨segmentId, _, matched⟩
    split at matched
    · cases matched
    · rename_i same
      rw [not_or, not_not, not_not] at same
      refine ⟨request, ?_, same.2⟩
      unfold contractQueue at owned
      split at owned
      · rename_i parsed
        cases owned
        exact parsed
      · cases owned

theorem provenance_step {label : Label} {next : System} (made : Provenance platform group system)
    (step : Step platform group system label next) : Provenance platform group next := by
  cases step with
  | enqueue _ posted => exact made.frame (enqueue_frame posted) rfl
  | claim _ taken => exact made.frame (claimOldestJob_frame taken) rfl
  | publish _ reported =>
      rcases publishExtraction_cases reported with ⟨unstaged, effect⟩ | ⟨staged, valid, passed⟩
      · rw [unstaged]
        rcases effect with same | requeued
        · exact made.frame (.of_same (by rw [same]) (by rw [same])) rfl
        · rcases requeueLatestTarget_frame requeued with ⟨target, segment⟩
          exact made.frame (.of_same segment target) rfl
      · rcases passed with ⟨job, target, stagedExtraction, current, isResult, same⟩
        rcases validateClaim_request valid with ⟨request, owned, fingerprint⟩
        intro one present extraction isStaged
        rw [same] at present
        cases present
        cases isStaged
        refine ⟨_, request, ?_, current.fingerprint.symm, owned, ?_⟩
        · rw [staged, isResult]
          rfl
        · exact fingerprint.trans current.fingerprint.symm
  | commit _ reported =>
      rcases commitResolution_cases reported with ⟨_, effect⟩ | ⟨_, passed⟩
      · rcases effect with same | requeued
        · exact made.frame (.of_same (by rw [same]) (by rw [same])) rfl
        · rcases requeueLatestTarget_frame requeued with ⟨target, segment⟩
          exact made.frame (.of_same segment target) rfl
      · rcases passed with ⟨_, _, _, _, _, _, _, _, written⟩
        intro one present
        rcases written with ⟨_, same⟩ | ⟨_, same⟩
        · rw [same] at present
          cases present
        · rw [same] at present
          cases present
  | finish _ reported => exact made.frame (finishFailedAttempt_frame reported) rfl
  | retry retried => exact made.frame (retryFailedJob_frame retried) rfl
  | supersede superseded => exact made.frame (supersedeFailedJob_frame superseded) rfl
  | recover recovered => exact made.frame (recoverRunningJobs_frame recovered) rfl

theorem Reachable.provenance (reached : Reachable platform group system) :
    Provenance platform group system := by
  apply Reaches.invariant (fun _ _ _ made step _ => provenance_step made step) reached
  intro target present
  cases present

theorem segment_step {label : Label} {next : System}
    (holds : Invariant platform group system.queue) (step : Step platform group system label next) :
    next.queue.segment = system.queue.segment ∨
      Advances system.queue.segment next.queue.segment := by
  cases step with
  | enqueue _ posted => exact .inl (enqueue_frame posted).segment
  | claim _ taken => exact .inl (claimOldestJob_frame taken).segment
  | publish _ reported =>
      left
      rcases publishExtraction_cases reported with ⟨_, same | requeued⟩ | ⟨_, _, passed⟩
      · rw [same]
      · exact (requeueLatestTarget_frame requeued).2
      · rcases passed with ⟨_, _, _, _, _, same⟩
        rw [same]
  | @commit claim result prepared after committed _ reported =>
      cases committed with
      | true => exact .inr (commitResolution_advances holds reported).2.1
      | false =>
          left
          rcases commitResolution_cases reported with ⟨_, same | requeued⟩ | ⟨never, _⟩
          · rw [same]
          · exact (requeueLatestTarget_frame requeued).2
          · cases never
  | finish _ reported => exact .inl (finishFailedAttempt_frame reported).segment
  | retry retried => exact .inl (retryFailedJob_frame retried).segment
  | supersede superseded => exact .inl (supersedeFailedJob_frame superseded).segment
  | recover recovered => exact .inl (recoverRunningJobs_frame recovered).segment

/-- No stale worker stages or commits anything, whatever the interleaving. -/
theorem stale_work_fenced (reached : Reachable platform group system) :
    -- what takes effect was reported under the current lease for the current target
    (∀ claim result after staged,
      publishExtraction platform group system.queue claim result = .ok (after, staged) →
        staged = true ∨ after.target ≠ system.queue.target →
          ∃ job target, Current system.queue claim job target) ∧
    (∀ claim result prepared after committed,
      commitResolution platform group system.queue claim result prepared = .ok (after, committed) →
        committed = true ∨ after.segment ≠ system.queue.segment →
          ∃ job target, Current system.queue claim job target) ∧
    -- an outdated lease changes no row
    (∀ claim,
      (∀ job ∈ system.queue.jobs, job.id = claim.id → job.leaseId ≠ some claim.leaseId) →
        (∀ result after staged,
          publishExtraction platform group system.queue claim result = .ok (after, staged) →
            after = system.queue) ∧
        (∀ result prepared after committed,
          commitResolution platform group system.queue claim result prepared =
            .ok (after, committed) → after = system.queue) ∧
        (∀ terminal after updated,
          finishFailedAttempt platform group system.queue claim terminal = .ok (after, updated) →
            after = system.queue)) ∧
    -- the committed generation only grows
    (∀ claim result prepared after,
      commitResolution platform group system.queue claim result prepared = .ok (after, true) →
        Advances system.queue.segment after.segment) ∧
    (∀ label next, Step platform group system label next →
      next.queue.segment = system.queue.segment ∨
        Advances system.queue.segment next.queue.segment) ∧
    -- what is staged was made from the target's source
    Provenance platform group system := by
  have holds := reached.invariant
  refine ⟨?_, ?_, ?_, ?_, ?_, reached.provenance⟩
  · intro claim result after staged reported effect
    rcases publishExtraction_cases reported with ⟨unstaged, same | requeued⟩ | ⟨_, _, passed⟩
    · rcases effect with isStaged | changed
      · rw [isStaged] at unstaged
        cases unstaged
      · rw [same] at changed
        exact absurd rfl changed
    · rcases effect with isStaged | changed
      · rw [isStaged] at unstaged
        cases unstaged
      · exact absurd (requeueLatestTarget_frame requeued).1 changed
    · rcases passed with ⟨job, target, _, current, _⟩
      exact ⟨job, target, current⟩
  · intro claim result prepared after committed reported effect
    rcases commitResolution_cases reported with ⟨uncommitted, same | requeued⟩ | ⟨_, passed⟩
    · rcases effect with isCommitted | changed
      · rw [isCommitted] at uncommitted
        cases uncommitted
      · rw [same] at changed
        exact absurd rfl changed
    · rcases effect with isCommitted | changed
      · rw [isCommitted] at uncommitted
        cases uncommitted
      · exact absurd (requeueLatestTarget_frame requeued).2 changed
    · rcases passed with ⟨job, target, _, _, current, _⟩
      exact ⟨job, target, current⟩
  · intro claim outdated
    refine ⟨?_, ?_, ?_⟩
    · intro result after staged reported
      rcases publishExtraction_cases reported with ⟨_, effect⟩ | ⟨_, _, passed⟩
      · exact stale_report_unchanged outdated effect
      · rcases passed with ⟨_, _, _, current, _⟩
        exact absurd outdated current.not_outdated
    · intro result prepared after committed reported
      rcases commitResolution_cases reported with ⟨_, effect⟩ | ⟨_, passed⟩
      · exact stale_report_unchanged outdated effect
      · rcases passed with ⟨_, _, _, _, current, _⟩
        exact absurd outdated current.not_outdated
    · intro terminal after updated reported
      rcases finishFailedAttempt_cases reported with same | requeued | ⟨⟨_, _, current⟩, _⟩
      · exact same
      · exact stale_report_unchanged outdated (.inr requeued)
      · exact absurd outdated current.not_outdated
  · intro claim result prepared after reported
    exact (commitResolution_advances holds reported).2.1
  · intro label next step
    exact segment_step holds step

/-! ### A run -/

/-- A platform whose digests are the digested texts. -/
def samplePlatform : Platform :=
  { sha256 := fun text => text
    uuidv5 := fun text => text
    jsonbText := fun result => result.summary }

def sampleGroup : Group :=
  { source :=
      { id := JsString.ofString "s"
        kind := .opencodeV1
        identityScheme := .legacy }
    registered := by decide +kernel
    segmentId := .legacyV1 (JsString.ofString "session") (JsString.ofString "u1") }

def sampleRequest : IngestSegmentCreate :=
  .source (JsString.ofString "s")
    { sessionId := JsString.ofString "session"
      boundary := .v1 (JsString.ofString "u1") (JsString.ofString "u1")
      projectionVersion := 2
      processingPriority := 0
      messages := [{ role := .user, text := JsString.ofString "hi" }] }

def sampleJob : JobRow :=
  insertedJob samplePlatform sampleRequest 1 (some (persistedRequest sampleRequest)) .pending 1

def sampleTarget : TargetRow := generationTarget samplePlatform Queue.empty sampleRequest 1

def sampleClaim : ClaimedJob :=
  { id := 1
    segmentId := sampleGroup.segmentId
    leaseId := 7
    sourceGeneration := 1
    sourceFingerprint := ingestSourceFingerprint samplePlatform.sha256 sampleRequest
    attempts := 1
    sourceId := JsString.ofString "s"
    request := persistedRequest sampleRequest
    extractionResult := none }

def sampleResult : ExtractionResult :=
  { summary := JsString.ofString "greeting"
    claims := [] }

def sampleStaged : StagedExtraction :=
  { extractionResult := sampleResult
    validationVersion := EXTRACTION_VALIDATION_VERSION
    validationFingerprint := extractionValidationFingerprint samplePlatform sampleResult
      EXTRACTION_VALIDATION_VERSION sampleTarget.sourceFingerprint
    summaryCommitFingerprint := projectionFingerprint samplePlatform
      (samplePlatform.uuidv5 sampleGroup.segmentId.text) (JsString.ofString "u1")
      sampleResult.summary 2 }

def samplePosted : Queue :=
  { jobs := [sampleJob]
    target := some sampleTarget
    segment := none }

def sampleRunning : Queue :=
  { jobs :=
      [{ sampleJob with
          status := .running
          attempts := 1
          leaseId := some 7 }]
    target := some sampleTarget
    segment := none }

/-- One request was posted, claimed under lease 7, extracted and published. -/
def sampleSystem : System :=
  { queue := { sampleRunning with target := some { sampleTarget with staged := some sampleStaged } }
    claims := [sampleClaim]
    published := some (sampleClaim, sampleResult) }

theorem sampleSystem_reachable : Reachable samplePlatform sampleGroup sampleSystem := by
  have posted : enqueue samplePlatform sampleGroup Queue.empty sampleRequest 1 =
      .ok (samplePosted, 1) := by
    decide +kernel
  have taken : claimOldestJob samplePlatform sampleGroup samplePosted 7 =
      .ok (sampleRunning, some sampleClaim) := by
    decide +kernel
  have published : publishExtraction samplePlatform sampleGroup sampleRunning sampleClaim
      sampleResult = .ok (sampleSystem.queue, true) := by
    decide +kernel
  have first : Step samplePlatform sampleGroup System.initial (.enqueue 1 sampleRequest)
      { System.initial with queue := samplePosted } := by
    apply Step.enqueue
    · intro job absent
      cases absent
    · exact posted
  have second : Step samplePlatform sampleGroup { System.initial with queue := samplePosted }
      (.claim 7) { System.initial with queue := sampleRunning, claims := [sampleClaim] } := by
    apply @Step.claim _ _ { System.initial with queue := samplePosted } 7 sampleRunning
      (some sampleClaim)
    · intro claim absent
      cases absent
    · exact taken
  have third : Step samplePlatform sampleGroup
      { System.initial with queue := sampleRunning, claims := [sampleClaim] }
      (.publish sampleClaim sampleResult) sampleSystem := by
    apply @Step.publish _ _ { System.initial with queue := sampleRunning, claims := [sampleClaim] }
      sampleClaim sampleResult sampleSystem.queue true
    · exact List.mem_cons_self
    · exact published
  have start : Reachable samplePlatform sampleGroup System.initial := Reaches.refl _
  exact ((start.snoc _ first trivial).snoc _ second trivial).snoc _ third trivial

theorem no_target_stranded_sample : ∃ job, sampleSystem.queue.job? 1 = some job ∧
    (job.status = .running ∨
      job.status = .pending ∧ Agrees { sampleTarget with staged := some sampleStaged } job ∧
        (sampleSystem.queue.anyRunning = false → eligibleJob sampleSystem.queue =
          some (job, { sampleTarget with staged := some sampleStaged })) ∨
      job.status = .failed ∧ Agrees { sampleTarget with staged := some sampleStaged } job ∧
        lockCurrentFailedTargetJob samplePlatform sampleGroup sampleSystem.queue job.id =
          .ok (some (job, { sampleTarget with staged := some sampleStaged }))) :=
  no_target_stranded sampleSystem_reachable rfl

/-- What the sample staged was made from its target's source. -/
theorem stale_work_fenced_sample : ∃ claim request,
    sampleSystem.published = some (claim, sampleResult) ∧
      claim.sourceFingerprint = sampleTarget.sourceFingerprint ∧
      ownedIngestRequest claim.request sampleGroup.source.id = .ok request ∧
      ingestSourceFingerprint samplePlatform.sha256 request = sampleTarget.sourceFingerprint :=
  (stale_work_fenced sampleSystem_reachable).2.2.2.2.2 _ rfl sampleStaged rfl

end Reflection.Database
