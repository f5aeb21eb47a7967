/-
Every operation but a post keeps the invariant.

Each operation that gets past its checks is one or two updates in place, so what is left to
show is which columns the changed rows carry and whether the target's job stays linked.
-/

import Reflection.Database.Invariant

namespace Reflection.Database

variable {platform : Platform} {group : Group} {queue after : Queue}

/-! ### Changed rows -/

theorem adopt_key {job : JobRow} {target : TargetRow} (same : job.boundary = target.boundary)
    (payload : PersistedIngestRequest) (attempts : Nat) :
    boundaryKey (job.adopt target payload attempts) = boundaryKey job := by
  unfold boundaryKey JobRow.adopt
  dsimp only
  rw [same]

theorem adopt_linked {job : JobRow} {target : TargetRow} (named : job.id = target.jobId)
    (payload : PersistedIngestRequest) (attempts : Nat) :
    LinkedJob target (job.adopt target payload attempts) :=
  ⟨rfl, .inr ⟨.inl rfl, targetJoins_iff.mpr ⟨named.symm, rfl, rfl, rfl, rfl⟩⟩⟩

theorem JobOk.adopt {job : JobRow} {target : TargetRow} {request : IngestSegmentCreate}
    (ok : JobOk platform group job) (accepted : Accepted group request)
    (carries : TargetCarries platform request target) (same : job.boundary = target.boundary)
    (attempts : Nat) : JobOk platform group (job.adopt target target.payload attempts) := by
  refine ⟨?_, ?_, ?_, fun _ => rfl⟩
  · rcases ok.named with ⟨naming, namingAccepted, session, startUser, boundary⟩
    exact ⟨naming, namingAccepted, session, startUser, same.symm.trans boundary⟩
  · intro payload stored
    cases stored
    exact ⟨request, accepted, carries.payload, carries.boundary, carries.version,
      carries.fingerprint, carries.priority⟩
  · intro absent
    cases absent

/-- A row that keeps its snapshot and payload may change status, attempts and lease. -/
theorem JobOk.restatus {job : JobRow} (ok : JobOk platform group job) {status : JobStatus}
    {attempts : Nat} {leaseId : Option Nat} (present : job.payload.isSome = true)
    (leased : status ≠ .running → leaseId = none) :
    JobOk platform group
      { job with
        status := status
        attempts := attempts
        leaseId := leaseId } := by
  refine ⟨ok.named, ok.payload, ?_, leased⟩
  intro absent
  rw [absent] at present
  cases present

theorem JobOk.supersede {job : JobRow} (ok : JobOk platform group job) :
    JobOk platform group job.supersede := by
  refine ⟨ok.named, ?_, fun _ => .inr rfl, fun _ => rfl⟩
  intro payload absent
  cases absent

theorem JobOk.succeed {job : JobRow} (ok : JobOk platform group job) :
    JobOk platform group job.succeed := by
  refine ⟨ok.named, ?_, fun _ => .inl rfl, fun _ => rfl⟩
  intro payload absent
  cases absent

theorem JobOk.present {job : JobRow} (ok : JobOk platform group job)
    (live : job.status = .running ∨ job.status = .pending ∨ job.status = .failed) :
    job.payload.isSome = true := by
  rw [Option.isSome_iff_ne_none]
  intro absent
  rcases ok.carries absent with succeeded | superseded
  · rw [succeeded] at live
    simp at live
  · rw [superseded] at live
    simp at live

/-- A linked job that waits joins its target. -/
theorem LinkedJob.joins {target : TargetRow} {job : JobRow} (linked : LinkedJob target job)
    (waits : job.status ≠ .running) : targetJoins target job = true := by
  rcases linked.live with running | waiting
  · exact absurd running waits
  · exact waiting.2

/-- The target's payload decodes to itself, so a requeue stores it unchanged. -/
theorem Aimed.persistedPayload {jobs : List JobRow} {segment : Option SegmentRow}
    {target : TargetRow} (aimed : Aimed platform group jobs segment target)
    {payload : PersistedIngestRequest}
    (stored : contractQueue (persistedPayload group target.payload) = .ok payload) :
    payload = target.payload := by
  rcases aimed.carried with ⟨request, accepted, carries⟩
  rw [carries.payload, accepted.persistedPayload] at stored
  rw [carries.payload]
  exact (Except.ok.inj stored).symm

/-- Adopting the target's snapshot on rows it names. -/
theorem Invariant.adopt {target : TargetRow} {selected : JobRow → Bool} {attempts : JobRow → Nat}
    (holds : Invariant platform group queue) (isTarget : queue.target = some target)
    (names : ∀ job ∈ queue.jobs, selected job = true → job.id = target.jobId) :
    Invariant platform group
      (queue.updateJobs selected fun job => job.adopt target target.payload (attempts job)) := by
  have aimed := holds.target target isTarget
  rcases aimed.carried with ⟨request, accepted, carries⟩
  have boundary {job : JobRow} (member : job ∈ queue.jobs) (chosen : selected job = true) :
      job.boundary = target.boundary :=
    (aimed.linked job member (names job member chosen)).boundary
  apply holds.updateJobs
  · constructor
    · intro job _ _
      rfl
    · intro job member chosen
      exact adopt_key (boundary member chosen) _ _
  · intro job member chosen
    exact (holds.jobs job member).adopt accepted carries (boundary member chosen) _
  · intro other present job member chosen named
    rw [isTarget] at present
    cases present
    exact adopt_linked named _ _

/-- Giving up rows the target does not name. -/
theorem Invariant.supersede {selected : JobRow → Bool} (holds : Invariant platform group queue)
    (spares : ∀ target ∈ queue.target, ∀ job ∈ queue.jobs, selected job = true →
      job.id ≠ target.jobId) :
    Invariant platform group (queue.updateJobs selected JobRow.supersede) := by
  apply holds.updateJobs
  · exact ⟨fun _ _ _ => rfl, fun _ _ _ => rfl⟩
  · intro job member _
    exact (holds.jobs job member).supersede
  · intro target present job member chosen named
    exact absurd named (spares target present job member chosen)

/-! ### Failed work -/

theorem lockCurrentFailedTargetJob_some {jobId : Nat} {job : JobRow} {target : TargetRow}
    (locked : lockCurrentFailedTargetJob platform group queue jobId = .ok (some (job, target))) :
    queue.job? jobId = some job ∧ queue.target = some target ∧ job.status = .failed ∧
      failedTargetMatchesJob platform group target job = true := by
  unfold lockCurrentFailedTargetJob at locked
  cases found : queue.job? jobId with
  | none =>
      rw [found] at locked
      cases locked
  | some row =>
      rw [found] at locked
      rcases except_bind_ok locked with ⟨_, _, checked⟩
      split at checked
      · cases checked
      · split at checked
        · cases checked
        · rename_i failed
          rw [not_or, not_not, not_not] at failed
          cases isTarget : queue.target with
          | none =>
              rw [isTarget] at checked
              cases checked
          | some row' =>
              rw [isTarget] at checked
              dsimp only at checked
              split at checked
              · rename_i matched
                cases checked
                exact ⟨rfl, rfl, failed.1, matched⟩
              · cases checked

theorem failedTargetMatchesJob_names {target : TargetRow} {job : JobRow}
    (matched : failedTargetMatchesJob platform group target job = true) : job.id = target.jobId := by
  unfold failedTargetMatchesJob at matched
  simp only [Bool.and_eq_true, beq_iff_eq] at matched
  exact matched.1.1.1.1.symm

theorem retryFailedJob_invariant {jobId : Nat} {restartExtraction : Bool}
    (holds : Invariant platform group queue)
    (retried : retryFailedJob platform group queue jobId restartExtraction = .ok after) :
    Invariant platform group after := by
  rcases except_bind_ok retried with ⟨context, locked, rest⟩
  cases context with
  | none =>
      cases rest
      exact holds
  | some context =>
      rcases context with ⟨job, target⟩
      rcases lockCurrentFailedTargetJob_some locked with ⟨found, isTarget, _, matched⟩
      rcases except_bind_ok rest with ⟨payload, stored, updated⟩
      have restarted := holds.restage isTarget (if restartExtraction then none else target.staged)
      rw [updateJob_ok updated, (holds.target target isTarget).persistedPayload stored]
      have adopted := @Invariant.adopt platform group _ _
        (fun row => row.id == jobId && row.status == .failed && row.leaseId == none) (fun _ => 0)
        restarted rfl (by
          intro row _ chosen
          simp only [Bool.and_eq_true, beq_iff_eq] at chosen
          change row.id = target.jobId
          rw [← failedTargetMatchesJob_names matched, (job?_some found).2]
          exact chosen.1.1)
      exact adopted

theorem supersedeFailedJob_invariant {jobId : Nat} (holds : Invariant platform group queue)
    (superseded : supersedeFailedJob platform group queue jobId = .ok after) :
    Invariant platform group after := by
  rcases except_bind_ok superseded with ⟨context, locked, rest⟩
  cases context with
  | none =>
      cases rest
      exact holds
  | some context =>
      rcases except_bind_ok rest with ⟨updated, isUpdated, same⟩
      cases same
      rw [updateJob_ok isUpdated]
      apply holds.update
      · exact ⟨fun _ _ _ => rfl, fun _ _ _ => rfl⟩
      · intro job member _
        exact (holds.jobs job member).supersede
      · intro target absent
        cases absent

/-! ### Recovery -/

theorem recoverRunningJobs_invariant (holds : Invariant platform group queue)
    (recovered : recoverRunningJobs platform group queue = .ok after) :
    Invariant platform group after := by
  unfold recoverRunningJobs at recovered
  split at recovered
  · cases recovered
    exact holds
  · rw [holds.owned] at recovered
    cases recovered
    cases isTarget : queue.target with
    | none =>
        have same : recoverJob queue = JobRow.supersede := by
          funext job
          rw [recoverJob, isTarget]
        rw [same]
        apply holds.supersede
        intro target present
        rw [isTarget] at present
        cases present
    | some target =>
        have aimed := holds.target target isTarget
        rcases aimed.carried with ⟨request, accepted, carries⟩
        have moved (job : JobRow) : recoverJob queue job =
            if target.jobId = job.id then
              job.adopt target target.payload (recoveredAttempts target job)
            else job.supersede := by
          rw [recoverJob, isTarget]
        apply holds.updateJobs
        · constructor
          · intro job _ _
            rw [moved]
            split <;> rfl
          · intro job member _
            rw [moved]
            split
            · rename_i named
              exact adopt_key (aimed.linked job member named.symm).boundary _ _
            · rfl
        · intro job member _
          rw [moved]
          split
          · rename_i named
            exact (holds.jobs job member).adopt accepted carries
              (aimed.linked job member named.symm).boundary _
          · exact (holds.jobs job member).supersede
        · intro other present job _ _ named
          rw [isTarget] at present
          cases present
          rw [moved, if_pos named.symm]
          exact adopt_linked named _ _

/-! ### Claims -/

theorem eligibleJob_some {job : JobRow} {target : TargetRow}
    (eligible : eligibleJob queue = some (job, target)) :
    queue.target = some target ∧ job ∈ queue.jobs ∧ job.status = .pending ∧
      targetJoins target job = true ∧ queue.anyRunning = false := by
  unfold eligibleJob at eligible
  cases isTarget : queue.target with
  | none =>
      rw [isTarget] at eligible
      cases eligible
  | some row =>
      rw [isTarget] at eligible
      dsimp only at eligible
      split at eligible
      · cases eligible
      · rename_i idle
        rcases Option.map_eq_some_iff.mp eligible with ⟨found, isFound, same⟩
        cases same
        have matched := List.find?_some isFound
        rw [Bool.and_eq_true, beq_iff_eq] at matched
        exact ⟨rfl, List.mem_of_find?_eq_some isFound, matched.1, matched.2,
          Bool.eq_false_iff.mpr idle⟩

/-- Changing status, attempts and lease of a pending job keeps the invariant. -/
theorem Invariant.restatus {jobId : Nat} {status : JobStatus} {leaseId : Option Nat}
    (holds : Invariant platform group queue) (leased : status ≠ .running → leaseId = none)
    (live : status = .running ∨ status = .pending ∨ status = .failed) :
    Invariant platform group
      (queue.updateJobs (fun job => job.id == jobId && job.status == .pending) fun job =>
        { job with
          status := status
          attempts := job.attempts + 1
          leaseId := leaseId }) := by
  have pending {job : JobRow} (chosen : (job.id == jobId && job.status == .pending) = true) :
      job.status = .pending := by
    rw [Bool.and_eq_true, beq_iff_eq, beq_iff_eq] at chosen
    exact chosen.2
  apply holds.updateJobs
  · exact ⟨fun _ _ _ => rfl, fun _ _ _ => rfl⟩
  · intro job member chosen
    have ok := holds.jobs job member
    exact ok.restatus (ok.present (.inr (.inl (pending chosen)))) leased
  · intro target present job member chosen named
    have linked := (holds.target target present).linked job member named
    have joins : targetJoins target job = true := by
      apply linked.joins
      rw [pending chosen]
      intro running
      cases running
    refine ⟨linked.boundary, ?_⟩
    rcases live with running | waiting
    · exact .inl running
    · exact .inr ⟨waiting, joins⟩

theorem claimOldestJob_invariant {leaseId : Nat} {claimed : Option ClaimedJob}
    (holds : Invariant platform group queue)
    (taken : claimOldestJob platform group queue leaseId = .ok (after, claimed)) :
    Invariant platform group after := by
  have failed (jobId : Nat) : Invariant platform group (failPending queue jobId) :=
    holds.restatus (fun _ => rfl) (.inr (.inr rfl))
  unfold claimOldestJob at taken
  split at taken
  · cases taken
    exact holds
  · rw [holds.owned] at taken
    dsimp only at taken
    split at taken
    · cases taken
      exact failed _
    · split at taken
      · cases taken
        exact failed _
      · split at taken
        · split at taken
          · cases taken
            exact failed _
          · cases taken
            exact holds.restatus (fun waits => absurd rfl waits) (.inl rfl)
        · cases taken
          exact failed _

end Reflection.Database
