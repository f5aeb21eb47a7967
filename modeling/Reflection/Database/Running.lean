/-
What steps do to running jobs.

Only a claim lets a job run, and only the holder of its lease or a recovery stops it. Every other
step leaves the row of a running job exactly as it was.
-/

import Reflection.Database.Claiming
import Reflection.Database.Resubmission

namespace Reflection.Database

variable {platform : Platform} {group : Group} {queue middle after : Queue} {claim : ClaimedJob}
variable {touched : JobRow → Bool}

/-- No job starts to run, running jobs stay unless they are touched, and no job disappears. -/
structure RunningKept (touched : JobRow → Bool) (before after : Queue) : Prop where
  old : ∀ job ∈ after.jobs, job.status = .running → job ∈ before.jobs
  stays : ∀ job ∈ before.jobs, job.status = .running → touched job = false → job ∈ after.jobs
  named : ∀ job ∈ before.jobs, ∃ kept ∈ after.jobs, kept.id = job.id

namespace RunningKept

theorem of_same (same : after.jobs = queue.jobs) : RunningKept touched queue after := by
  constructor
  · intro job member _
    rwa [← same]
  · intro job member _ _
    rwa [same]
  · intro job member
    exact ⟨job, same.symm ▸ member, rfl⟩

theorem trans (first : RunningKept touched queue middle) (second : RunningKept touched middle after) :
    RunningKept touched queue after := by
  constructor
  · intro job member running
    exact first.old job (second.old job member running) running
  · intro job member running spared
    exact second.stays job (first.stays job member running spared) running spared
  · intro job member
    rcases first.named job member with ⟨kept, keptIn, same⟩
    rcases second.named kept keptIn with ⟨last, lastIn, again⟩
    exact ⟨last, lastIn, again.trans same⟩

theorem append {row : JobRow} (waits : row.status ≠ .running) :
    RunningKept touched queue { queue with jobs := queue.jobs ++ [row] } := by
  constructor
  · intro job member running
    rcases List.mem_append.mp member with old | new
    · exact old
    · rw [List.mem_singleton.mp new] at running
      exact absurd running waits
  · intro job member _ _
    exact List.mem_append_left _ member
  · intro job member
    exact ⟨job, List.mem_append_left _ member, rfl⟩

/-- An update in place: what it changes does not run afterwards, and did not run before unless it
is touched. -/
theorem updateJobs {selected : JobRow → Bool} {change : JobRow → JobRow}
    (same : after.jobs = (queue.updateJobs selected change).jobs)
    (ids : ∀ job ∈ queue.jobs, selected job = true → (change job).id = job.id)
    (stopped : ∀ job ∈ queue.jobs, selected job = true →
      change job = job ∨ (change job).status ≠ .running ∧ (job.status = .running → touched job = true)) :
    RunningKept touched queue after := by
  constructor
  · intro job member running
    rw [same] at member
    rcases mem_updateJobs.mp member with ⟨old, oldIn, isOld⟩
    split at isOld
    · rename_i chosen
      rcases stopped old oldIn chosen with unchanged | ⟨stops, _⟩
      · rw [← isOld, unchanged]
        exact oldIn
      · rw [isOld] at stops
        exact absurd running stops
    · rw [← isOld]
      exact oldIn
  · intro job member running spared
    rw [same]
    by_cases chosen : selected job = true
    · rcases stopped job member chosen with unchanged | ⟨_, isTouched⟩
      · exact mem_updateJobs.mpr ⟨job, member, by rw [if_pos chosen, unchanged]⟩
      · rw [isTouched running] at spared
        cases spared
    · exact mem_updateJobs_unchosen member chosen
  · intro job member
    rw [same]
    by_cases chosen : selected job = true
    · exact ⟨change job, mem_updateJobs_chosen member chosen, ids job member chosen⟩
    · exact ⟨job, mem_updateJobs_unchosen member chosen, rfl⟩

/-- An update of jobs that do not run. -/
theorem updateWaiting {selected : JobRow → Bool} {change : JobRow → JobRow}
    (same : after.jobs = (queue.updateJobs selected change).jobs)
    (ids : ∀ job, (change job).id = job.id) (stops : ∀ job, (change job).status ≠ .running)
    (waits : ∀ job, selected job = true → job.status ≠ .running) : RunningKept touched queue after :=
  updateJobs same (fun job _ _ => ids job) fun job _ chosen =>
    .inr ⟨stops job, fun running => absurd running (waits job chosen)⟩

end RunningKept

/-! ### Posts -/

theorem insertJob_running {row : JobRow} (waits : row.status ≠ .running)
    (inserted : insertJob queue row = .ok after) : RunningKept touched queue after := by
  rw [insertJob_ok inserted]
  exact .append waits

variable {request : IngestSegmentCreate}

theorem upsertJob_running (holds : Invariant platform group queue) (freshId generation : Nat) :
    RunningKept touched queue (upsertJob platform queue request freshId generation).1 := by
  unfold upsertJob
  dsimp only
  split
  · apply RunningKept.append
    intro running
    cases running
  · rename_i conflict found
    split
    · exact .of_same rfl
    · rename_i waits
      apply RunningKept.updateJobs rfl
      · intro _ _ _
        rfl
      · intro job member chosen
        right
        have same := holds.distinct job member conflict (List.mem_of_find?_eq_some found)
          (beq_iff_eq.mp chosen)
        rw [same]
        refine ⟨?_, fun running => absurd running waits⟩
        intro running
        cases running

theorem supersedeOthers_running (jobId : Nat)
    (same : after.jobs = (supersedeOthers queue jobId).jobs) : RunningKept touched queue after := by
  apply RunningKept.updateWaiting same
  · intro _
    rfl
  · intro _ running
    cases running
  · intro job chosen running
    rw [running] at chosen
    simp at chosen

theorem enqueueGeneration_running {freshId jobId : Nat} (holds : Invariant platform group queue)
    (posted : enqueueGeneration platform queue request freshId = .ok (after, jobId)) :
    RunningKept touched queue after := by
  rcases enqueueGeneration_ok posted with ⟨_, same⟩
  rw [same]
  have upserted := @upsertJob_running platform group queue touched request holds freshId (nextGeneration queue)
  exact upserted.trans (supersedeOthers_running jobId rfl)

theorem enqueueExact_running {target : TargetRow} (holds : Invariant platform group queue) :
    RunningKept touched queue (enqueueExact platform group queue request target).1 := by
  refine @RunningKept.updateJobs queue _ touched (fun job => job.id == target.jobId) _ rfl ?_ ?_
  · intro _ _ _
    rfl
  · intro job member chosen
    by_cases resets : resetStaleExtraction platform group queue target = true
    · -- Only a failed job is reset.
      have failed := resetStaleExtraction_failed holds member (beq_iff_eq.mp chosen) resets
      right
      rw [resets, failed]
      exact ⟨by simp, by simp⟩
    · by_cases running : job.status = .running
      · left
        simp only [if_neg resets, if_pos running]
      · right
        simp [resets, running]

theorem enqueueSettled_running {freshId jobId : Nat} {segment : SegmentRow}
    (posted : enqueueSettled platform queue request freshId segment = .ok (after, jobId)) :
    RunningKept touched queue after := by
  unfold enqueueSettled at posted
  dsimp only at posted
  split at posted
  · rcases except_bind_ok posted with ⟨inserted, isInserted, same⟩
    cases same
    apply insertJob_running _ isInserted
    intro running
    cases running
  · cases posted
    apply RunningKept.updateWaiting rfl
    · intro _
      rfl
    · intro _ running
      cases running
    · intro job chosen running
      rw [running] at chosen
      simp at chosen

theorem enqueue_running {freshId jobId : Nat} (holds : Invariant platform group queue)
    (posted : enqueue platform group queue request freshId = .ok (after, jobId)) :
    RunningKept touched queue after := by
  rcases enqueue_ok posted with ⟨parsed, _, entered⟩
  unfold enqueueParsed at entered
  split at entered
  · unfold enqueueIgnored at entered
    split at entered
    · cases entered
      exact .of_same rfl
    · rcases except_bind_ok entered with ⟨inserted, isInserted, same⟩
      cases same
      apply insertJob_running _ isInserted
      intro running
      cases running
  · split at entered
    · split at entered
      · have same := congrArg Prod.fst (Except.ok.inj entered)
        change (enqueueExact platform group queue parsed _).1 = after at same
        rw [← same]
        exact enqueueExact_running holds
      · exact enqueueGeneration_running holds entered
    · split at entered
      · split at entered
        · exact enqueueSettled_running entered
        · exact enqueueGeneration_running holds entered
      · exact enqueueGeneration_running holds entered

/-! ### Failed jobs -/

theorem retryFailedJob_running {jobId : Nat} {restartExtraction : Bool}
    (retried : retryFailedJob platform group queue jobId restartExtraction = .ok after) :
    RunningKept touched queue after := by
  rcases except_bind_ok retried with ⟨context, locked, rest⟩
  cases context with
  | none =>
      cases rest
      exact .of_same rfl
  | some context =>
      rcases context with ⟨job, target⟩
      rcases except_bind_ok rest with ⟨payload, _, updated⟩
      rw [updateJob_ok updated]
      refine @RunningKept.updateWaiting queue _ touched
        (fun row => row.id == jobId && row.status == .failed && row.leaseId == none)
        (fun row => row.adopt target payload 0) rfl ?_ ?_ ?_
      · intro _
        rfl
      · intro _ running
        cases running
      · intro row chosen running
        rw [running] at chosen
        simp at chosen

theorem supersedeFailedJob_running {jobId : Nat}
    (superseded : supersedeFailedJob platform group queue jobId = .ok after) :
    RunningKept touched queue after := by
  rcases except_bind_ok superseded with ⟨context, _, rest⟩
  cases context with
  | none =>
      cases rest
      exact .of_same rfl
  | some context =>
      rcases except_bind_ok rest with ⟨updated, isUpdated, same⟩
      cases same
      rw [updateJob_ok isUpdated]
      refine @RunningKept.updateWaiting queue _ touched
        (fun row => row.id == jobId && row.status == .failed && row.leaseId == none) JobRow.supersede rfl ?_ ?_ ?_
      · intro _
        rfl
      · intro _ running
        cases running
      · intro row chosen running
        rw [running] at chosen
        simp at chosen

/-! ### Recoveries and claims -/

theorem recoverRunningJobs_running (recovered : recoverRunningJobs platform group queue = .ok after) :
    RunningKept (fun _ => true) queue after := by
  unfold recoverRunningJobs at recovered
  split at recovered
  · cases recovered
    exact .of_same rfl
  · split at recovered
    · cases recovered
      apply RunningKept.updateJobs rfl
      · intro _ _ _
        rfl
      · intro job _ _
        right
        refine ⟨?_, fun _ => rfl⟩
        intro running
        cases running
    · cases recovered
    · cases recovered
      apply RunningKept.updateJobs rfl
      · intro job _ _
        unfold recoverJob
        split
        · split
          · rfl
          · rfl
        · rfl
      · intro job _ _
        right
        refine ⟨?_, fun _ => rfl⟩
        intro running
        unfold recoverJob at running
        split at running
        · split at running
          · cases running
          · cases running
        · cases running

/-- A claim hands out nothing and changes nothing, or leases the job it selected. -/
theorem claimOldestJob_cases {leaseId : Nat} {claimed : Option ClaimedJob}
    (holds : Invariant platform group queue) (parses : StagedParses queue)
    (taken : claimOldestJob platform group queue leaseId = .ok (after, claimed)) :
    after = queue ∧ claimed = none ∨
      ∃ job target request extraction, eligibleJob queue = some (job, target) ∧
        PayloadAgrees platform group job request ∧ after = leasedQueue queue job leaseId ∧
        claimed = some
          { id := job.id
            segmentId := group.segmentId
            leaseId := leaseId
            sourceGeneration := job.sourceGeneration
            sourceFingerprint := job.sourceFingerprint
            attempts := job.attempts + 1
            sourceId := group.source.id
            request := persistedRequest request
            extractionResult := extraction } := by
  cases selected : eligibleJob queue with
  | none =>
      unfold claimOldestJob at taken
      rw [selected] at taken
      cases taken
      exact .inl ⟨rfl, rfl⟩
  | some pair =>
      rcases pair with ⟨job, target⟩
      rcases holds.claims parses selected leaseId with ⟨request, extraction, agrees, claims⟩
      rw [claims] at taken
      cases taken
      exact .inr ⟨job, target, request, extraction, rfl, agrees, rfl, rfl⟩

/-- The jobs of a leased queue: the selected job under its new lease and the others as before. -/
theorem mem_leasedQueue {job row : JobRow} {leaseId : Nat} (holds : Invariant platform group queue)
    (member : job ∈ queue.jobs) (inside : row ∈ (leasedQueue queue job leaseId).jobs) :
    row ∈ queue.jobs ∨
      row =
        { job with
          status := .running
          attempts := job.attempts + 1
          leaseId := some leaseId } := by
  rcases mem_updateJobs.mp inside with ⟨old, oldIn, same⟩
  split at same
  · rename_i chosen
    rw [Bool.and_eq_true, beq_iff_eq] at chosen
    right
    rw [← same, holds.distinct old oldIn job member chosen.1]
  · left
    rwa [← same]

/-! ### Reports -/

/-- No job runs under the claim's lease. -/
def Released (queue : Queue) (claim : ClaimedJob) : Prop := ∀ job ∈ queue.jobs, claim.leases job = false

/-- The claim's job, if it still runs under the claim's lease, carries the claimed snapshot. -/
def Snapshots (queue : Queue) (claim : ClaimedJob) : Prop :=
  ∀ job ∈ queue.jobs, claim.leases job = true → persistedJobMatchesClaim job claim = true

theorem not_leases_of_stopped {job : JobRow} (stopped : job.status ≠ .running) : claim.leases job = false := by
  rw [← Bool.not_eq_true, leases_iff]
  rintro ⟨_, running, _⟩
  exact stopped running

theorem Released.kept (kept : RunningKept touched queue after) (released : Released queue claim) :
    Released after claim := by
  intro job member
  by_cases running : job.status = .running
  · exact released job (kept.old job member running)
  · exact not_leases_of_stopped running

theorem Snapshots.kept (kept : RunningKept touched queue after) (snapshots : Snapshots queue claim) :
    Snapshots after claim := fun job member leased =>
  snapshots job (kept.old job member (leases_iff.mp leased).2.1) leased

/-- An update that stops every job under the lease. -/
theorem released_updateJobs {selected : JobRow → Bool} {change : JobRow → JobRow}
    (same : after.jobs = (queue.updateJobs selected change).jobs)
    (all : ∀ job ∈ queue.jobs, claim.leases job = true → selected job = true)
    (stops : ∀ job, (change job).status ≠ .running) : Released after claim := by
  intro job member
  rw [same] at member
  rcases mem_updateJobs.mp member with ⟨old, oldIn, isOld⟩
  split at isOld
  · rw [← isOld]
    exact not_leases_of_stopped (stops old)
  · rename_i unchosen
    rw [← isOld, ← Bool.not_eq_true]
    exact fun leased => unchosen (all old oldIn leased)

theorem stopLeased_running {change : JobRow → JobRow}
    (same : after.jobs = (queue.updateJobs claim.leases change).jobs)
    (ids : ∀ job, (change job).id = job.id) (stops : ∀ job, (change job).status ≠ .running) :
    RunningKept claim.leases queue after ∧ Released after claim :=
  ⟨.updateJobs same (fun job _ _ => ids job) fun job _ chosen => .inr ⟨stops job, fun _ => chosen⟩,
    released_updateJobs same (fun _ _ leased => leased) stops⟩

theorem requeueLatestTarget_running (requeued : requeueLatestTarget group queue claim = .ok after) :
    RunningKept claim.leases queue after ∧ Released after claim := by
  have superseded : ∀ job : JobRow, job.supersede.status ≠ .running := by
    intro job running
    cases running
  unfold requeueLatestTarget at requeued
  split at requeued
  · rw [updateJob_ok requeued]
    exact stopLeased_running rfl (fun _ => rfl) superseded
  · rename_i target _
    split at requeued
    · rcases except_bind_ok requeued with ⟨payload, _, updated⟩
      rw [updateJob_ok updated]
      refine stopLeased_running rfl (fun _ => rfl) ?_
      intro job running
      cases running
    · rcases except_bind_ok requeued with ⟨given, isGiven, rest⟩
      rcases except_bind_ok rest with ⟨payload, _, same⟩
      cases same
      rw [updateJob_ok isGiven]
      rcases @stopLeased_running queue (queue.updateJobs claim.leases JobRow.supersede) claim
        JobRow.supersede rfl (fun _ => rfl) superseded with ⟨kept, released⟩
      have woken : RunningKept claim.leases (queue.updateJobs claim.leases JobRow.supersede)
          ((queue.updateJobs claim.leases JobRow.supersede).updateJobs
            (fun job => job.id == target.jobId && !(job.status == .running)) fun job =>
              job.adopt target payload 0) := by
        refine RunningKept.updateWaiting rfl (fun _ => rfl) ?_ ?_
        · intro job running
          cases running
        · intro job chosen running
          rw [running] at chosen
          simp at chosen
      exact ⟨kept.trans woken, released.kept woken⟩

/-- A report that takes no effect: the job's fence refused it, or the job was requeued. -/
inductive GaveUp (group : Group) (queue : Queue) (claim : ClaimedJob) (after : Queue) : Prop
  | outdated (fence : ∀ job, queue.job? claim.id = some job →
      (!claim.leases job || !persistedJobMatchesClaim job claim) = true) (same : after = queue)
  | requeued (given : requeueLatestTarget group queue claim = .ok after)

theorem GaveUp.running (gaveUp : GaveUp group queue claim after) : RunningKept claim.leases queue after := by
  cases gaveUp with
  | outdated _ same =>
      rw [same]
      exact .of_same rfl
  | requeued given => exact (requeueLatestTarget_running given).1

theorem GaveUp.released (holds : Invariant platform group queue) (snapshots : Snapshots queue claim)
    (gaveUp : GaveUp group queue claim after) : Released after claim := by
  cases gaveUp with
  | outdated fence same =>
      intro job member
      rw [same] at member
      by_contra leased
      rw [Bool.not_eq_false] at leased
      have found := holds.job?_eq member
      rw [(leases_iff.mp leased).1] at found
      have refused := fence job found
      rw [leased, snapshots job member leased] at refused
      cases refused
  | requeued given => exact (requeueLatestTarget_running given).2

theorem publishExtraction_gaveUp {result : ExtractionResult}
    (reported : publishExtraction platform group queue claim result = .ok (after, false)) :
    GaveUp group queue claim after := by
  rcases except_bind_ok reported with ⟨extractionResult, _, afterResult⟩
  split at afterResult
  · cases afterResult
  · rcases except_bind_ok afterResult with ⟨_, _, checked⟩
    cases found : queue.job? claim.id with
    | none =>
        rw [found] at checked
        cases checked
        exact .outdated (fun job isFound => by rw [found] at isFound; cases isFound) rfl
    | some job =>
        rw [found] at checked
        dsimp only at checked
        split at checked
        · rename_i fence
          cases checked
          refine .outdated (fun other isFound => ?_) rfl
          rw [found] at isFound
          cases isFound
          exact fence
        · split at checked
          · split at checked
            · cases checked
            · rcases except_bind_ok checked with ⟨given, isGiven, same⟩
              cases same
              exact .requeued isGiven
          · rcases except_bind_ok checked with ⟨given, isGiven, same⟩
            cases same
            exact .requeued isGiven

theorem commitResolution_gaveUp {result : ExtractionResult} {prepared : PreparedSegment}
    (reported : commitResolution platform group queue claim result prepared = .ok (after, false)) :
    GaveUp group queue claim after := by
  rcases except_bind_ok reported with ⟨extractionResult, _, afterResult⟩
  split at afterResult
  · cases afterResult
  · split at afterResult
    · cases afterResult
    · rcases except_bind_ok afterResult with ⟨_, _, checked⟩
      cases found : queue.job? claim.id with
      | none =>
          rw [found] at checked
          cases checked
      | some job =>
          rw [found] at checked
          dsimp only at checked
          split at checked
          · cases checked
          · split at checked
            · rename_i snapshot
              cases checked
              refine .outdated (fun other isFound => ?_) rfl
              rw [found] at isFound
              cases isFound
              rw [snapshot, Bool.or_true]
            · split at checked
              · split at checked
                · rcases except_bind_ok checked with ⟨_, _, writing⟩
                  rcases except_bind_ok writing with ⟨written, _, same⟩
                  cases same
                · rcases except_bind_ok checked with ⟨given, isGiven, same⟩
                  cases same
                  exact .requeued isGiven
              · rcases except_bind_ok checked with ⟨given, isGiven, same⟩
                cases same
                exact .requeued isGiven

theorem finishFailedAttempt_gaveUp {terminal updated : Bool}
    (reported : finishFailedAttempt platform group queue claim terminal = .ok (after, updated)) :
    GaveUp group queue claim after ∨ after = finishedQueue platform group queue claim terminal := by
  rcases except_bind_ok reported with ⟨_, _, checked⟩
  cases found : queue.job? claim.id with
  | none =>
      rw [found] at checked
      cases checked
      exact .inl (.outdated (fun job isFound => by rw [found] at isFound; cases isFound) rfl)
  | some job =>
      rw [found] at checked
      dsimp only at checked
      split at checked
      · rename_i fence
        cases checked
        refine .inl (.outdated (fun other isFound => ?_) rfl)
        rw [found] at isFound
        cases isFound
        exact fence
      · split at checked
        · rcases except_bind_ok checked with ⟨given, isGiven, same⟩
          cases same
          exact .inl (.requeued isGiven)
        · cases checked
          exact .inr rfl

theorem publishExtraction_running {result : ExtractionResult} {staged : Bool}
    (reported : publishExtraction platform group queue claim result = .ok (after, staged)) :
    RunningKept claim.leases queue after := by
  cases staged with
  | false => exact (publishExtraction_gaveUp reported).running
  | true =>
      rcases publishExtraction_cases reported with ⟨never, _⟩ | ⟨_, _, passed⟩
      · cases never
      · rcases passed with ⟨_, _, _, _, _, same⟩
        rw [same]
        exact .of_same rfl

/-- A commit stops the job it succeeds. -/
theorem succeed_running {missing : QueueError} {selected : JobRow → Bool} {succeeded : Queue}
    (holds : Invariant platform group queue)
    (leased : ∀ job, selected job = true → claim.leases job = true)
    (updated : queue.updateJob missing selected JobRow.succeed = .ok succeeded)
    (same : after.jobs = succeeded.jobs) :
    RunningKept claim.leases queue after ∧ Released after claim := by
  have stops : ∀ job : JobRow, job.succeed.status ≠ .running := by
    intro job running
    cases running
  have chosen : ∃ job ∈ queue.jobs, selected job = true := by
    unfold Queue.updateJob at updated
    split at updated
    · rename_i present
      exact List.any_eq_true.mp present
    · cases updated
  rcases chosen with ⟨job, member, isChosen⟩
  have only : ∀ other ∈ queue.jobs, claim.leases other = true → selected other = true := by
    intro other otherIn otherLeased
    have sameId : other.id = job.id :=
      (leases_iff.mp otherLeased).1.trans (leases_iff.mp (leased job isChosen)).1.symm
    rwa [holds.distinct other otherIn job member sameId]
  rw [updateJob_ok updated] at same
  constructor
  · exact .updateJobs same (fun _ _ _ => rfl) fun row _ isLeased =>
      .inr ⟨stops row, fun _ => leased row isLeased⟩
  · exact released_updateJobs same only stops

theorem commitResolution_running {result : ExtractionResult} {prepared : PreparedSegment}
    (holds : Invariant platform group queue)
    (reported : commitResolution platform group queue claim result prepared = .ok (after, true)) :
    RunningKept claim.leases queue after ∧ Released after claim := by
  rcases except_bind_ok reported with ⟨extractionResult, _, afterResult⟩
  split at afterResult
  · cases afterResult
  · split at afterResult
    · cases afterResult
    · rcases except_bind_ok afterResult with ⟨_, _, checked⟩
      cases found : queue.job? claim.id with
      | none =>
          rw [found] at checked
          cases checked
      | some job =>
          rw [found] at checked
          dsimp only at checked
          split at checked
          · cases checked
          · split at checked
            · cases checked
            · split at checked
              · split at checked
                · rcases except_bind_ok checked with ⟨_, _, writing⟩
                  rcases except_bind_ok writing with ⟨written, isWritten, same⟩
                  cases same
                  unfold commitWrites at isWritten
                  split at isWritten
                  · rcases except_bind_ok isWritten with ⟨succeeded, isSucceeded, same⟩
                    cases same
                    exact succeed_running holds (fun _ chosen => chosen) isSucceeded rfl
                  · rcases except_bind_ok isWritten with ⟨succeeded, isSucceeded, same⟩
                    split at same
                    · cases same
                      refine succeed_running holds (fun row chosen => ?_) isSucceeded rfl
                      rw [Bool.and_eq_true] at chosen
                      exact chosen.1
                    · cases same
                · rcases except_bind_ok checked with ⟨given, isGiven, same⟩
                  cases same
              · rcases except_bind_ok checked with ⟨given, isGiven, same⟩
                cases same

theorem finishedQueue_running (terminal : Bool) :
    RunningKept claim.leases queue (finishedQueue platform group queue claim terminal) ∧
      Released (finishedQueue platform group queue claim terminal) claim := by
  have jobs : (finishedQueue platform group queue claim terminal).jobs =
      (queue.updateJobs claim.leases fun job =>
        { job with
          status := if terminal then .failed else .pending
          leaseId := none }).jobs := by
    unfold finishedQueue dropSettledTarget
    cases terminal with
    | false => rfl
    | true =>
        dsimp only
        rw [if_pos rfl]
        split
        · split
          · rfl
          · rfl
        · rfl
  apply stopLeased_running jobs (fun _ => rfl)
  intro job running
  cases terminal with
  | false => cases running
  | true => cases running

theorem finishFailedAttempt_running {terminal updated : Bool}
    (reported : finishFailedAttempt platform group queue claim terminal = .ok (after, updated)) :
    RunningKept claim.leases queue after := by
  rcases finishFailedAttempt_gaveUp reported with gaveUp | same
  · exact gaveUp.running
  · rw [same]
    exact (finishedQueue_running terminal).1

/-- A failed attempt that is written down leaves its lease. -/
theorem finishFailedAttempt_released {terminal updated : Bool} (holds : Invariant platform group queue)
    (snapshots : Snapshots queue claim)
    (reported : finishFailedAttempt platform group queue claim terminal = .ok (after, updated)) :
    Released after claim := by
  rcases finishFailedAttempt_gaveUp reported with gaveUp | same
  · exact gaveUp.released holds snapshots
  · rw [same]
    exact (finishedQueue_running terminal).2

end Reflection.Database
