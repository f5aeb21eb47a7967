/-
The manifest is coherent in every reachable state.

A target is newer than the committed row, so a row is shown either from the target's own
staged result or, without a target, from the committed row. What is staged was published by
a claim of exactly the target's snapshot.
-/

import Reflection.Database.Manifest

namespace Reflection.Database

variable {platform : Platform} {group : Group} {system : System} {queue after : Queue}

/-! ### Runs of all segments -/

theorem TablesReachable.segment {registry : Registry} {tables : Tables}
    (reached : TablesReachable platform registry tables) (registered : group ∈ registry.groups) :
    Reachable platform group (tables group.segmentId) := by
  have every := @Reaches.invariant Tables (Group × Label) (TablesStep platform registry)
    (fun _ _ => True)
    (fun tables => ∀ one ∈ registry.groups, Reachable platform one (tables one.segmentId))
    (by
      intro before label next holds step _ one oneIn
      cases step with
      | @segment group label next groupIn taken =>
          by_cases same : one.segmentId = group.segmentId
          · have sameGroup : one = group :=
              List.inj_on_of_nodup_map registry.distinct oneIn groupIn same
            rw [sameGroup, Function.update_self]
            exact (holds group groupIn).snoc _ taken trivial
          · rw [Function.update_of_ne same]
            exact holds one oneIn)
    _ _ reached (fun _ _ => Reaches.refl _)
  exact every group registered

/-- A run of one segment is a run of the database. -/
theorem Reachable.tables {registry : Registry} (registered : group ∈ registry.groups)
    (reached : Reachable platform group system) :
    TablesReachable platform registry (Function.update Tables.empty group.segmentId system) := by
  induction reached with
  | refl =>
      have same : Function.update Tables.empty group.segmentId System.initial = Tables.empty :=
        Function.update_eq_self _ _
      rw [same]
      exact Reaches.refl _
  | @tail before after _ next ih =>
      rcases next with ⟨label, taken, _⟩
      have current : Function.update Tables.empty group.segmentId before group.segmentId = before :=
        Function.update_self _ _ _
      have step := @TablesStep.segment platform registry
        (Function.update Tables.empty group.segmentId before) group label after registered
        (by rw [current]; exact taken)
      rw [Function.update_idem] at step
      exact Reaches.snoc ih _ step trivial

/-! ### Staged snapshots -/

structure SameSnapshot (one two : TargetRow) : Prop where
  jobId : one.jobId = two.jobId
  boundary : one.boundary = two.boundary
  version : one.projectionVersion = two.projectionVersion
  generation : one.sourceGeneration = two.sourceGeneration
  fingerprint : one.sourceFingerprint = two.sourceFingerprint

/-- What is still staged was staged for the same snapshot. -/
def Retains (before after : Queue) : Prop :=
  ∀ target ∈ after.target, ∀ staged ∈ target.staged,
    ∃ old ∈ before.target, old.staged = some staged ∧ SameSnapshot old target

theorem Retains.of_same (same : after.target = queue.target) : Retains queue after := by
  intro target present staged isStaged
  rw [same] at present
  exact ⟨target, present, isStaged, rfl, rfl, rfl, rfl, rfl⟩

theorem Retains.of_none (none : after.target = none) : Retains queue after := by
  intro target present
  rw [none] at present
  cases present

theorem Retains.of_restaged {target new : TargetRow} (isTarget : queue.target = some target)
    (isNew : after.target = some new) (same : SameSnapshot target new)
    (kept : new.staged = none ∨ new.staged = target.staged) : Retains queue after := by
  intro one present staged isStaged
  rw [isNew] at present
  cases present
  rcases kept with cleared | kept
  · rw [cleared] at isStaged
    cases isStaged
  · rw [kept] at isStaged
    exact ⟨target, isTarget, isStaged, same⟩

theorem insertJob_retains {row : JobRow} (inserted : insertJob queue row = .ok after) :
    Retains queue after := by
  unfold insertJob at inserted
  split at inserted
  · cases inserted
  · cases inserted
    exact .of_same rfl

theorem enqueueGeneration_retains {request : IngestSegmentCreate} {freshId jobId : Nat}
    (posted : enqueueGeneration platform queue request freshId = .ok (after, jobId)) :
    Retains queue after := by
  rcases enqueueGeneration_ok posted with ⟨_, same⟩
  intro target present staged isStaged
  rw [same] at present
  cases present
  cases isStaged

theorem enqueue_retains {request : IngestSegmentCreate} {freshId jobId : Nat}
    (posted : enqueue platform group queue request freshId = .ok (after, jobId)) :
    Retains queue after := by
  rcases enqueue_ok posted with ⟨parsed, _, entered⟩
  unfold enqueueParsed at entered
  split at entered
  · unfold enqueueIgnored at entered
    split at entered
    · cases entered
      exact .of_same rfl
    · rcases except_bind_ok entered with ⟨inserted, isInserted, same⟩
      cases same
      exact insertJob_retains isInserted
  · split at entered
    · rename_i target isTarget
      split at entered
      · have same := congrArg Prod.fst (Except.ok.inj entered)
        change (enqueueExact platform group queue parsed target).1 = after at same
        rw [← same]
        refine Retains.of_restaged isTarget rfl ⟨rfl, rfl, rfl, rfl, rfl⟩ ?_
        by_cases resets : resetStaleExtraction platform group queue target = true
        · exact .inl (if_pos resets)
        · exact .inr (if_neg resets)
      · exact enqueueGeneration_retains entered
    · split at entered
      · split at entered
        · unfold enqueueSettled at entered
          dsimp only at entered
          split at entered
          · rcases except_bind_ok entered with ⟨inserted, isInserted, same⟩
            cases same
            exact insertJob_retains isInserted
          · cases entered
            exact .of_same rfl
        · exact enqueueGeneration_retains entered
      · exact enqueueGeneration_retains entered

theorem claimOldestJob_retains {leaseId : Nat} {claimed : Option ClaimedJob}
    (taken : claimOldestJob platform group queue leaseId = .ok (after, claimed)) :
    Retains queue after := by
  unfold claimOldestJob at taken
  repeat' split at taken
  all_goals cases taken
  all_goals exact .of_same rfl

theorem dropSettledTarget_retains (queue : Queue) :
    Retains queue (dropSettledTarget platform group queue) := by
  unfold dropSettledTarget
  split
  · split
    · exact .of_none rfl
    · exact .of_same rfl
  · exact .of_same rfl

theorem finishFailedAttempt_retains {claim : ClaimedJob} {terminal updated : Bool}
    (reported : finishFailedAttempt platform group queue claim terminal = .ok (after, updated)) :
    Retains queue after := by
  rcases finishFailedAttempt_cases reported with same | requeued | ⟨_, same⟩
  · rw [same]
    exact .of_same rfl
  · exact .of_same (requeueLatestTarget_frame requeued).1
  · rw [same]
    unfold finishedQueue
    dsimp only
    split
    · exact dropSettledTarget_retains (queue.updateJobs claim.leases _)
    · exact .of_same rfl

theorem retryFailedJob_retains {jobId : Nat} {restartExtraction : Bool}
    (retried : retryFailedJob platform group queue jobId restartExtraction = .ok after) :
    Retains queue after := by
  rcases except_bind_ok retried with ⟨context, locked, rest⟩
  cases context with
  | none =>
      cases rest
      exact .of_same rfl
  | some context =>
      rcases context with ⟨job, target⟩
      rcases lockCurrentFailedTargetJob_some locked with ⟨_, isTarget, _, _⟩
      rcases except_bind_ok rest with ⟨payload, _, updated⟩
      rw [updateJob_ok updated]
      refine Retains.of_restaged isTarget rfl ⟨rfl, rfl, rfl, rfl, rfl⟩ ?_
      cases restartExtraction
      · exact .inr rfl
      · exact .inl rfl

theorem supersedeFailedJob_retains {jobId : Nat}
    (superseded : supersedeFailedJob platform group queue jobId = .ok after) :
    Retains queue after := by
  rcases except_bind_ok superseded with ⟨context, _, rest⟩
  cases context with
  | none =>
      cases rest
      exact .of_same rfl
  | some context =>
      rcases except_bind_ok rest with ⟨updated, _, same⟩
      cases same
      exact .of_none rfl

theorem recoverRunningJobs_retains
    (recovered : recoverRunningJobs platform group queue = .ok after) : Retains queue after := by
  unfold recoverRunningJobs at recovered
  repeat' split at recovered
  all_goals cases recovered
  all_goals exact .of_same rfl

/-- The last publication staged the result, under a claim of the target's snapshot. -/
structure StagedBy (platform : Platform) (group : Group) (system : System) (target : TargetRow)
    (result : ExtractionResult) (claim : ClaimedJob) (request : IngestSegmentCreate) : Prop where
  held : claim ∈ system.claims
  published : system.published = some (claim, result)
  job : claim.id = target.jobId
  generation : claim.sourceGeneration = target.sourceGeneration
  fingerprint : claim.sourceFingerprint = target.sourceFingerprint
  version : claim.request.projectionVersion = target.projectionVersion
  boundary : claim.request.boundary = target.boundary
  owned : ownedIngestRequest claim.request group.source.id = .ok request
  source : ingestSourceFingerprint platform.sha256 request = target.sourceFingerprint

def StagedSnapshots (platform : Platform) (group : Group) (system : System) : Prop :=
  ∀ target ∈ system.queue.target, ∀ staged ∈ target.staged,
    ∃ claim request, StagedBy platform group system target staged.extractionResult claim request

theorem StagedSnapshots.retained {next : System} (made : StagedSnapshots platform group system)
    (retains : Retains system.queue next.queue) (published : next.published = system.published)
    (claims : ∀ claim ∈ system.claims, claim ∈ next.claims) :
    StagedSnapshots platform group next := by
  intro target present staged isStaged
  rcases retains target present staged isStaged with ⟨old, oldPresent, kept, same⟩
  rcases made old oldPresent staged kept with ⟨claim, request, origin⟩
  refine ⟨claim, request, ?_⟩
  exact
    { held := claims claim origin.held
      published := published.trans origin.published
      job := origin.job.trans same.jobId
      generation := origin.generation.trans same.generation
      fingerprint := origin.fingerprint.trans same.fingerprint
      version := origin.version.trans same.version
      boundary := origin.boundary.trans same.boundary
      owned := origin.owned
      source := origin.source.trans same.fingerprint }

theorem stagedSnapshots_step {label : Label} {next : System}
    (made : StagedSnapshots platform group system) (step : Step platform group system label next) :
    StagedSnapshots platform group next := by
  have keep {claims : List ClaimedJob} (claim : ClaimedJob) (member : claim ∈ claims) :
      claim ∈ claims := member
  cases step with
  | enqueue _ posted => exact made.retained (enqueue_retains posted) rfl keep
  | claim _ taken =>
      exact made.retained (claimOldestJob_retains taken) rfl
        fun _ member => List.mem_append_right _ member
  | @publish claim result next staged held reported =>
      rcases publishExtraction_cases reported with ⟨unstaged, effect⟩ | ⟨isStaged, valid, passed⟩
      · rw [unstaged]
        rcases effect with same | requeued
        · exact made.retained (.of_same (by rw [same])) rfl keep
        · exact made.retained (.of_same (requeueLatestTarget_frame requeued).1) rfl keep
      · rcases passed with ⟨job, target, stagedExtraction, current, isResult, same⟩
        rcases validateClaim_request valid with ⟨request, owned, fingerprint⟩
        intro one present extraction extracted
        rw [same] at present
        cases present
        cases extracted
        refine ⟨claim, request, ?_⟩
        exact
          { held := held
            published := by
              rw [isStaged, isResult]
              rfl
            job := current.targetId.symm
            generation := current.generation.symm
            fingerprint := current.fingerprint.symm
            version := current.version.symm
            boundary := current.boundary.symm
            owned := owned
            source := fingerprint.trans current.fingerprint.symm }
  | commit _ reported =>
      rcases commitResolution_cases reported with ⟨_, effect⟩ | ⟨_, passed⟩
      · rcases effect with same | requeued
        · exact made.retained (.of_same (by rw [same])) rfl keep
        · exact made.retained (.of_same (requeueLatestTarget_frame requeued).1) rfl keep
      · rcases passed with ⟨_, _, _, _, _, _, _, _, ⟨_, same⟩ | ⟨_, same⟩⟩
        · exact made.retained (.of_none (by rw [same])) rfl keep
        · exact made.retained (.of_none (by rw [same])) rfl keep
  | finish _ reported => exact made.retained (finishFailedAttempt_retains reported) rfl keep
  | retry retried => exact made.retained (retryFailedJob_retains retried) rfl keep
  | supersede superseded => exact made.retained (supersedeFailedJob_retains superseded) rfl keep
  | recover recovered => exact made.retained (recoverRunningJobs_retains recovered) rfl keep

theorem Reachable.stagedSnapshots (reached : Reachable platform group system) :
    StagedSnapshots platform group system := by
  apply Reaches.invariant (fun _ _ _ made step _ => stagedSnapshots_step made step) reached
  intro target present
  cases present

/-! ### Committed rows -/

/-- The committed row names a request of the group and is safe to show. -/
structure CommittedOk (platform : Platform) (group : Group) (segment : SegmentRow) : Prop where
  named : ∃ request, Accepted group request ∧
    segment.sessionId = (persistedRequest request).sessionId ∧
    segment.startUserMessageId = (persistedRequest request).startUserMessageId ∧
    segment.boundary = (persistedRequest request).boundary
  content : JsString.isBlank segment.summary = false
  projected : projectionFingerprintForBoundary platform group.segmentId segment.boundary
    segment.summary segment.projectionVersion = some segment.projectionCommitFingerprint

theorem extractionResultForPersistence_ok {result persisted : ExtractionResult}
    (persistable : extractionResultForPersistence result = .ok persisted) :
    persisted = result ∧ JsString.isBlank result.summary = false := by
  have same := (parse_ok_iff.mp (extractionResultForPersistence_parsed persistable)).1
  rcases except_bind_ok persistable with ⟨parsed, isParsed, checked⟩
  split at checked
  · cases checked
  · rename_i content
    cases checked
    unfold contractQueue at isParsed
    split at isParsed
    · rename_i accepted
      cases isParsed
      have sameResult := (parse_ok_iff.mp accepted).1
      rw [← sameResult] at content
      exact ⟨sameResult.symm, Bool.eq_false_iff.mpr content⟩
    · cases isParsed

theorem validateClaim_segment {claim : ClaimedJob}
    (valid : validateClaim platform group queue claim = .ok ()) :
    claim.segmentId = group.segmentId := by
  unfold validateClaim at valid
  split at valid
  · cases valid
  · rcases except_bind_ok valid with ⟨_, _, identified⟩
    rcases except_bind_ok identified with ⟨_, _, matched⟩
    split at matched
    · cases matched
    · split at matched
      · cases matched
      · rename_i mine
        rw [not_or, not_not] at mine
        exact mine.2

/-- The row a commit writes, if it writes one. -/
theorem commitWrites_segment {claim : ClaimedJob} {result : ExtractionResult}
    {prepared : PreparedSegment} {commitFingerprint : JsString}
    (written : commitWrites platform queue claim result prepared commitFingerprint = .ok after) :
    after.segment = queue.segment ∨
      after.segment = some (committedSegment claim prepared result.summary commitFingerprint) := by
  unfold commitWrites at written
  split at written
  · rcases except_bind_ok written with ⟨succeeded, isSucceeded, same⟩
    cases same
    rw [updateJob_ok isSucceeded]
    exact .inl rfl
  · rcases except_bind_ok written with ⟨succeeded, _, same⟩
    split at same
    · cases same
      exact .inr rfl
    · cases same

theorem commitResolution_committedOk {claim : ClaimedJob} {result : ExtractionResult}
    {prepared : PreparedSegment} {committed : Bool} (holds : Invariant platform group queue)
    (shown : ∀ segment ∈ queue.segment, CommittedOk platform group segment)
    (reported : commitResolution platform group queue claim result prepared =
      .ok (after, committed)) :
    ∀ segment ∈ after.segment, CommittedOk platform group segment := by
  rcases except_bind_ok reported with ⟨extractionResult, persistable, afterResult⟩
  rcases extractionResultForPersistence_ok persistable with ⟨sameResult, content⟩
  cases sameResult
  split at afterResult
  · cases afterResult
  · rename_i prepares
    rw [Bool.not_eq_true', Bool.not_eq_false] at prepares
    simp only [preparedMatches, Bool.and_eq_true, beq_iff_eq] at prepares
    split at afterResult
    · cases afterResult
    · rename_i commitFingerprint isFingerprint
      rcases except_bind_ok afterResult with ⟨_, valid, checked⟩
      cases found : queue.job? claim.id with
      | none =>
          rw [found] at checked
          cases checked
      | some job =>
          rw [found] at checked
          dsimp only at checked
          split at checked
          · cases checked
          · split at checked
            · cases checked
              exact shown
            · rename_i snapshot
              rw [Bool.not_eq_true', Bool.not_eq_false] at snapshot
              simp only [persistedJobMatchesClaim, Bool.and_eq_true, beq_iff_eq] at snapshot
              split at checked
              · split at checked
                · rcases except_bind_ok checked with ⟨_, _, writing⟩
                  rcases except_bind_ok writing with ⟨written, isWritten, same⟩
                  cases same
                  rcases commitWrites_segment isWritten with kept | replaced
                  · rw [kept]
                    exact shown
                  · rw [replaced]
                    intro segment present
                    cases present
                    rcases (holds.jobs job (job?_some found).1).named with
                      ⟨request, accepted, session, startUser, boundary⟩
                    refine ⟨⟨request, accepted, ?_, ?_, ?_⟩, content, ?_⟩
                    · change prepared.sessionId = _
                      rw [prepares.1.1.1.1.2, ← snapshot.1.1.1.1.1, session]
                    · change prepared.startUserMessageId = _
                      rw [prepares.1.1.1.2, ← snapshot.1.1.1.1.2, startUser]
                    · change prepared.boundary = _
                      rw [prepares.1.1.2, ← snapshot.1.1.1.2, boundary]
                    · rw [prepares.1.1.1.1.1, validateClaim_segment valid] at isFingerprint
                      exact isFingerprint
                · rcases except_bind_ok checked with ⟨requeued, isRequeued, same⟩
                  cases same
                  rw [(requeueLatestTarget_frame isRequeued).2]
                  exact shown
              · rcases except_bind_ok checked with ⟨requeued, isRequeued, same⟩
                cases same
                rw [(requeueLatestTarget_frame isRequeued).2]
                exact shown

theorem committedOk_step {label : Label} {next : System}
    (holds : Invariant platform group system.queue)
    (shown : ∀ segment ∈ system.queue.segment, CommittedOk platform group segment)
    (step : Step platform group system label next) :
    ∀ segment ∈ next.queue.segment, CommittedOk platform group segment := by
  have framed {next : Queue} (frame : Frame system.queue next) :
      ∀ segment ∈ next.segment, CommittedOk platform group segment := by
    rw [frame.segment]
    exact shown
  cases step with
  | enqueue _ posted => exact framed (enqueue_frame posted)
  | claim _ taken => exact framed (claimOldestJob_frame taken)
  | publish _ reported =>
      rcases publishExtraction_cases reported with ⟨_, same | requeued⟩ | ⟨_, _, passed⟩
      · rw [same]
        exact shown
      · rw [(requeueLatestTarget_frame requeued).2]
        exact shown
      · rcases passed with ⟨_, _, _, _, _, same⟩
        rw [same]
        exact shown
  | commit _ reported => exact commitResolution_committedOk holds shown reported
  | finish _ reported => exact framed (finishFailedAttempt_frame reported)
  | retry retried => exact framed (retryFailedJob_frame retried)
  | supersede superseded => exact framed (supersedeFailedJob_frame superseded)
  | recover recovered => exact framed (recoverRunningJobs_frame recovered)

theorem Reachable.committedOk (reached : Reachable platform group system) :
    ∀ segment ∈ system.queue.segment, CommittedOk platform group segment := by
  have both := @Reaches.invariant System Label (Step platform group) (fun _ _ => True)
    (fun system => Invariant platform group system.queue ∧
      ∀ segment ∈ system.queue.segment, CommittedOk platform group segment)
    (fun _ _ _ held step _ =>
      ⟨invariant_step held.1 step, committedOk_step held.1 held.2 step⟩)
    _ _ reached ⟨Invariant.empty, fun _ absent => by cases absent⟩
  exact both.2

end Reflection.Database
