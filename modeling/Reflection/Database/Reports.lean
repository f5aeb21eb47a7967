/-
What a worker's report can do.

A report does nothing, or hands the segment to its latest target, or passes every fence and
then takes effect. The fences are the lease, the job's snapshot and the target's snapshot.
-/

import Reflection.Database.Preservation

namespace Reflection.Database

variable {platform : Platform} {group : Group} {queue after : Queue} {claim : ClaimedJob}

/-- The claim's lease is its job's lease, and the job and the target carry the claimed
snapshot. -/
structure Current (queue : Queue) (claim : ClaimedJob) (job : JobRow) (target : TargetRow) :
    Prop where
  member : job ∈ queue.jobs
  id : job.id = claim.id
  running : job.status = .running
  lease : job.leaseId = some claim.leaseId
  jobGeneration : job.sourceGeneration = claim.sourceGeneration
  jobFingerprint : job.sourceFingerprint = claim.sourceFingerprint
  jobVersion : job.projectionVersion = claim.request.projectionVersion
  jobBoundary : job.boundary = claim.request.boundary
  isTarget : queue.target = some target
  targetId : target.jobId = claim.id
  generation : target.sourceGeneration = claim.sourceGeneration
  fingerprint : target.sourceFingerprint = claim.sourceFingerprint
  version : target.projectionVersion = claim.request.projectionVersion
  boundary : target.boundary = claim.request.boundary

theorem leases_iff {job : JobRow} : claim.leases job = true ↔
    job.id = claim.id ∧ job.status = .running ∧ job.leaseId = some claim.leaseId := by
  simp only [ClaimedJob.leases, Bool.and_eq_true, beq_iff_eq, and_assoc]

theorem current_of_fences {job : JobRow} {target : TargetRow}
    (found : queue.job? claim.id = some job)
    (fenced : ¬ (!claim.leases job || !persistedJobMatchesClaim job claim) = true)
    (isTarget : queue.target = some target)
    (matched : targetMatchesJob platform group target claim = true) :
    Current queue claim job target := by
  simp only [Bool.or_eq_true, Bool.not_eq_true', not_or, Bool.not_eq_false] at fenced
  rcases leases_iff.mp fenced.1 with ⟨id, running, lease⟩
  have job := fenced.2
  simp only [persistedJobMatchesClaim, Bool.and_eq_true, beq_iff_eq] at job
  simp only [targetMatchesJob, Bool.and_eq_true, beq_iff_eq] at matched
  exact
    { member := (job?_some found).1
      id := id
      running := running
      lease := lease
      jobGeneration := job.1.2
      jobFingerprint := job.2
      jobVersion := job.1.1.2
      jobBoundary := job.1.1.1.2
      isTarget := isTarget
      targetId := matched.1.1.1.1.1
      generation := matched.1.1.1.2
      fingerprint := matched.1.1.2
      version := matched.1.1.1.1.2
      boundary := matched.1.2 }

theorem Current.joins {job : JobRow} {target : TargetRow}
    (current : Current queue claim job target) : targetJoins target job = true :=
  targetJoins_iff.mpr
    ⟨current.targetId.trans current.id.symm, current.generation.trans current.jobGeneration.symm,
      current.fingerprint.trans current.jobFingerprint.symm,
      current.version.trans current.jobVersion.symm, current.boundary.trans current.jobBoundary.symm⟩

/-! ### Requeueing -/

theorem requeueLatestTarget_invariant (holds : Invariant platform group queue)
    (requeued : requeueLatestTarget group queue claim = .ok after) :
    Invariant platform group after := by
  have leased {job : JobRow} (chosen : claim.leases job = true) : job.id = claim.id :=
    (leases_iff.mp chosen).1
  unfold requeueLatestTarget at requeued
  cases isTarget : queue.target with
  | none =>
      rw [isTarget] at requeued
      rw [updateJob_ok requeued]
      apply holds.supersede
      intro target present
      rw [isTarget] at present
      cases present
  | some target =>
      have aimed := holds.target target isTarget
      rw [isTarget] at requeued
      dsimp only at requeued
      split at requeued
      · rename_i own
        rcases except_bind_ok requeued with ⟨payload, stored, updated⟩
        rw [updateJob_ok updated, aimed.persistedPayload stored]
        apply holds.adopt isTarget
        intro job _ chosen
        exact (leased chosen).trans own.symm
      · rename_i other
        rcases except_bind_ok requeued with ⟨superseded, isSuperseded, rest⟩
        rcases except_bind_ok rest with ⟨payload, stored, same⟩
        cases same
        rw [updateJob_ok isSuperseded, aimed.persistedPayload stored]
        have given : Invariant platform group (queue.updateJobs claim.leases JobRow.supersede) := by
          apply holds.supersede
          intro row present job _ chosen named
          rw [isTarget] at present
          cases present
          exact other (named.symm.trans (leased chosen))
        apply given.adopt isTarget
        intro job _ chosen
        rw [Bool.and_eq_true, beq_iff_eq] at chosen
        exact chosen.1

theorem requeueLatestTarget_frame (requeued : requeueLatestTarget group queue claim = .ok after) :
    after.target = queue.target ∧ after.segment = queue.segment := by
  unfold requeueLatestTarget at requeued
  cases isTarget : queue.target with
  | none =>
      rw [isTarget] at requeued
      rw [updateJob_ok requeued]
      exact ⟨isTarget, rfl⟩
  | some target =>
      rw [isTarget] at requeued
      dsimp only at requeued
      split at requeued
      · rcases except_bind_ok requeued with ⟨payload, _, updated⟩
        rw [updateJob_ok updated]
        exact ⟨isTarget, rfl⟩
      · rcases except_bind_ok requeued with ⟨superseded, isSuperseded, rest⟩
        rcases except_bind_ok rest with ⟨payload, _, same⟩
        cases same
        rw [updateJob_ok isSuperseded]
        exact ⟨isTarget, rfl⟩

/-- A requeue finds the claim's lease on its job. -/
theorem requeueLatestTarget_leased (requeued : requeueLatestTarget group queue claim = .ok after) :
    ∃ job ∈ queue.jobs, claim.leases job = true := by
  have found {missing : QueueError} {change : JobRow → JobRow} {result : Queue}
      (updated : queue.updateJob missing claim.leases change = .ok result) :
      ∃ job ∈ queue.jobs, claim.leases job = true := by
    unfold Queue.updateJob at updated
    split at updated
    · rename_i present
      exact List.any_eq_true.mp present
    · cases updated
  unfold requeueLatestTarget at requeued
  split at requeued
  · exact found requeued
  · split at requeued
    · rcases except_bind_ok requeued with ⟨_, _, updated⟩
      exact found updated
    · rcases except_bind_ok requeued with ⟨_, updated, _⟩
      exact found updated

/-! ### Failed attempts -/

/-- What the last update of a failed attempt leaves. -/
def finishedQueue (platform : Platform) (group : Group) (queue : Queue) (claim : ClaimedJob)
    (terminal : Bool) : Queue :=
  let finished := queue.updateJobs claim.leases fun job =>
    { job with
      status := if terminal then .failed else .pending
      leaseId := none }
  if terminal then dropSettledTarget platform group finished else finished

theorem finishFailedAttempt_cases {terminal updated : Bool}
    (reported : finishFailedAttempt platform group queue claim terminal = .ok (after, updated)) :
    after = queue ∨ requeueLatestTarget group queue claim = .ok after ∨
      (∃ job target, Current queue claim job target) ∧
        after = finishedQueue platform group queue claim terminal := by
  rcases except_bind_ok reported with ⟨_, _, checked⟩
  cases found : queue.job? claim.id with
  | none =>
      rw [found] at checked
      cases checked
      exact .inl rfl
  | some job =>
      rw [found] at checked
      dsimp only at checked
      split at checked
      · cases checked
        exact .inl rfl
      · rename_i fenced
        split at checked
        · rcases except_bind_ok checked with ⟨requeued, isRequeued, same⟩
          cases same
          exact .inr (.inl isRequeued)
        · rename_i matched
          rw [Bool.not_eq_true', Bool.not_eq_false, Option.any_eq_true_iff_get] at matched
          rcases matched with ⟨present, matched⟩
          cases checked
          exact .inr (.inr ⟨⟨job, _, current_of_fences found fenced (Option.some_get present).symm
            matched⟩, rfl⟩)

theorem Invariant.dropSettledTarget (holds : Invariant platform group queue) :
    Invariant platform group (dropSettledTarget platform group queue) := by
  unfold Database.dropSettledTarget
  split
  · split
    · exact holds.dropTarget
    · exact holds
  · exact holds

theorem finishedQueue_invariant {terminal : Bool} {job : JobRow} {target : TargetRow}
    (holds : Invariant platform group queue) (current : Current queue claim job target) :
    Invariant platform group (finishedQueue platform group queue claim terminal) := by
  have finished : Invariant platform group (queue.updateJobs claim.leases fun row =>
      { row with
        status := if terminal then .failed else .pending
        leaseId := none }) := by
    have only {row : JobRow} (member : row ∈ queue.jobs) (chosen : claim.leases row = true) :
        row = job :=
      holds.distinct row member job current.member
        ((leases_iff.mp chosen).1.trans current.id.symm)
    apply holds.updateJobs
    · exact ⟨fun _ _ _ => rfl, fun _ _ _ => rfl⟩
    · intro row member chosen
      have ok := holds.jobs row member
      exact ok.restatus (ok.present (.inl (leases_iff.mp chosen).2.1)) (fun _ => rfl)
    · intro other present row member chosen named
      rw [current.isTarget] at present
      cases present
      have linked := (holds.target target current.isTarget).linked row member named
      refine ⟨linked.boundary, .inr ⟨?_, ?_⟩⟩
      · cases terminal
        · exact .inl rfl
        · exact .inr rfl
      · change targetJoins target row = true
        rw [only member chosen]
        exact current.joins
  cases terminal with
  | false => exact finished
  | true => exact finished.dropSettledTarget

theorem finishFailedAttempt_invariant {terminal updated : Bool}
    (holds : Invariant platform group queue)
    (reported : finishFailedAttempt platform group queue claim terminal = .ok (after, updated)) :
    Invariant platform group after := by
  rcases finishFailedAttempt_cases reported with same | requeued | ⟨⟨job, target, current⟩, same⟩
  · rw [same]
    exact holds
  · exact requeueLatestTarget_invariant holds requeued
  · rw [same]
    exact finishedQueue_invariant holds current

/-! ### Publications -/

theorem publishExtraction_cases {result : ExtractionResult} {staged : Bool}
    (reported : publishExtraction platform group queue claim result = .ok (after, staged)) :
    staged = false ∧ (after = queue ∨ requeueLatestTarget group queue claim = .ok after) ∨
      staged = true ∧ validateClaim platform group queue claim = .ok () ∧
        ∃ job target stagedExtraction, Current queue claim job target ∧
          stagedExtraction.extractionResult = result ∧
          after = { queue with target := some { target with staged := some stagedExtraction } } := by
  rcases except_bind_ok reported with ⟨extractionResult, persistable, afterResult⟩
  have sameResult : extractionResult = result := by
    rcases except_bind_ok persistable with ⟨parsed, isParsed, checked⟩
    split at checked
    · cases checked
    · cases checked
      unfold contractQueue at isParsed
      split at isParsed
      · rename_i accepted
        cases isParsed
        exact (parse_ok_iff.mp accepted).1.symm
      · cases isParsed
  split at afterResult
  · cases afterResult
  · rename_i summaryFingerprint _
    rcases except_bind_ok afterResult with ⟨_, valid, checked⟩
    cases found : queue.job? claim.id with
    | none =>
        rw [found] at checked
        cases checked
        exact .inl ⟨rfl, .inl rfl⟩
    | some job =>
        rw [found] at checked
        dsimp only at checked
        split at checked
        · cases checked
          exact .inl ⟨rfl, .inl rfl⟩
        · rename_i fenced
          split at checked
          · rename_i target isTarget
            split at checked
            · rename_i matched
              cases checked
              exact .inr ⟨rfl, valid, job, target, _,
                current_of_fences found fenced isTarget matched, sameResult, rfl⟩
            · rcases except_bind_ok checked with ⟨requeued, isRequeued, same⟩
              cases same
              exact .inl ⟨rfl, .inr isRequeued⟩
          · rcases except_bind_ok checked with ⟨requeued, isRequeued, same⟩
            cases same
            exact .inl ⟨rfl, .inr isRequeued⟩

theorem publishExtraction_invariant {result : ExtractionResult} {staged : Bool}
    (holds : Invariant platform group queue)
    (reported : publishExtraction platform group queue claim result = .ok (after, staged)) :
    Invariant platform group after := by
  rcases publishExtraction_cases reported with ⟨_, same | requeued⟩ | ⟨_, _, passed⟩
  · rw [same]
    exact holds
  · exact requeueLatestTarget_invariant holds requeued
  · rcases passed with ⟨job, target, stagedExtraction, current, _, same⟩
    rw [same]
    exact holds.restage current.isTarget _

/-! ### Commits -/

/-- A staged extraction that passed the checks of a commit is what the DELETE looks for. -/
theorem commitStaged_deletes {job : JobRow} {target : TargetRow} {result : ExtractionResult}
    {commitFingerprint : JsString} (current : Current queue claim job target)
    (checked : commitStaged platform group target result commitFingerprint = .ok ()) :
    deletesTarget platform claim result commitFingerprint target = true := by
  unfold commitStaged at checked
  cases isStaged : target.staged with
  | none =>
      rw [isStaged] at checked
      cases checked
  | some staged =>
      rw [isStaged] at checked
      dsimp only at checked
      split at checked
      · cases checked
      · rename_i eligible
        rw [not_or, Bool.not_eq_true', Bool.not_eq_false, not_not] at eligible
        rcases except_bind_ok checked with ⟨persisted, parsed, compared⟩
        have samePersisted : staged.extractionResult = persisted := by
          unfold contractQueue at parsed
          split at parsed
          · rename_i accepted
            cases parsed
            exact (parse_ok_iff.mp accepted).1
          · cases parsed
        split at compared
        · cases compared
        · rename_i same
          rw [not_not] at same
          have valid := eligible.1
          simp only [stagedEligible, isStaged, Bool.and_eq_true, beq_iff_eq] at valid
          simp only [deletesTarget, isStaged, current.targetId, current.generation,
            current.fingerprint, current.version, current.boundary, samePersisted, same,
            eligible.2, beq_self_eq_true, Bool.true_and, Bool.and_true, Bool.and_eq_true,
            beq_iff_eq]
          refine ⟨valid.1.1.1.2, ?_⟩
          rw [← same, ← samePersisted, ← current.fingerprint]
          exact valid.1.1.2

/-- The row a commit writes. -/
def committedSegment (claim : ClaimedJob) (prepared : PreparedSegment) (summary : JsString)
    (commitFingerprint : JsString) : SegmentRow :=
  { sessionId := prepared.sessionId
    startUserMessageId := prepared.startUserMessageId
    boundary := prepared.boundary
    summary := summary
    projectionVersion := prepared.projectionVersion
    projectionCommitFingerprint := commitFingerprint
    sourceGeneration := claim.sourceGeneration
    sourceFingerprint := claim.sourceFingerprint }

theorem commitResolution_cases {result : ExtractionResult} {prepared : PreparedSegment}
    {committed : Bool}
    (reported : commitResolution platform group queue claim result prepared =
      .ok (after, committed)) :
    committed = false ∧ (after = queue ∨ requeueLatestTarget group queue claim = .ok after) ∨
      committed = true ∧ ∃ job target selected commitFingerprint, Current queue claim job target ∧
        prepared.boundary = claim.request.boundary ∧
        prepared.projectionVersion = claim.request.projectionVersion ∧
        (∀ row, selected row = true → claim.leases row = true) ∧
        ((∃ existing ∈ queue.segment, prepared.projectionVersion < existing.projectionVersion) ∧
            after = { queue.updateJobs selected JobRow.succeed with target := none } ∨
          (∀ existing ∈ queue.segment, existing.projectionVersion ≤ prepared.projectionVersion) ∧
            after =
              { queue.updateJobs selected JobRow.succeed with
                target := none
                segment := some (committedSegment claim prepared result.summary
                  commitFingerprint) }) := by
  rcases except_bind_ok reported with ⟨extractionResult, persistable, afterResult⟩
  have sameResult : extractionResult = result := by
    rcases except_bind_ok persistable with ⟨parsed, isParsed, checked⟩
    split at checked
    · cases checked
    · cases checked
      unfold contractQueue at isParsed
      split at isParsed
      · rename_i accepted
        cases isParsed
        exact (parse_ok_iff.mp accepted).1.symm
      · cases isParsed
  cases sameResult
  split at afterResult
  · cases afterResult
  · rename_i prepares
    rw [Bool.not_eq_true', Bool.not_eq_false] at prepares
    simp only [preparedMatches, Bool.and_eq_true, beq_iff_eq] at prepares
    split at afterResult
    · cases afterResult
    · rename_i commitFingerprint _
      rcases except_bind_ok afterResult with ⟨_, _, checked⟩
      cases found : queue.job? claim.id with
      | none =>
          rw [found] at checked
          cases checked
      | some job =>
          rw [found] at checked
          dsimp only at checked
          split at checked
          · cases checked
          · rename_i leased
            split at checked
            · cases checked
              exact .inl ⟨rfl, .inl rfl⟩
            · rename_i snapshot
              split at checked
              · rename_i target isTarget
                split at checked
                · rename_i matched
                  rcases except_bind_ok checked with ⟨_, isStaged, writing⟩
                  rcases except_bind_ok writing with ⟨written, isWritten, same⟩
                  cases same
                  have fenced :
                      ¬ (!claim.leases job || !persistedJobMatchesClaim job claim) = true := by
                    rw [Bool.or_eq_true, not_or]
                    exact ⟨leased, snapshot⟩
                  have current := current_of_fences found fenced isTarget matched
                  have deletes := commitStaged_deletes current isStaged
                  right
                  unfold commitWrites at isWritten
                  rw [isTarget] at isWritten
                  split at isWritten
                  · rename_i newer
                    rcases (Option.any_eq_true_iff_get _ _).mp newer with ⟨present, higher⟩
                    rcases except_bind_ok isWritten with ⟨succeeded, isSucceeded, same⟩
                    rw [Option.filter_some, deletes, if_neg (by decide)] at same
                    cases same
                    rw [updateJob_ok isSucceeded]
                    exact ⟨rfl, job, target, _, commitFingerprint, current, prepares.1.1.2,
                      prepares.2, fun _ chosen => chosen,
                      .inl ⟨⟨_, (Option.some_get present).symm, of_decide_eq_true higher⟩, rfl⟩⟩
                  · rename_i older
                    rcases except_bind_ok isWritten with ⟨succeeded, isSucceeded, same⟩
                    rw [Option.any_some, deletes, if_pos rfl] at same
                    cases same
                    rw [updateJob_ok isSucceeded]
                    refine ⟨rfl, job, target, _, commitFingerprint, current, prepares.1.1.2,
                      prepares.2, ?_, .inr ⟨?_, rfl⟩⟩
                    · intro row chosen
                      rw [Bool.and_eq_true] at chosen
                      exact chosen.1
                    · intro existing present
                      rw [Option.mem_def.mp present, Option.any_some, decide_eq_true_eq,
                        Nat.not_lt] at older
                      exact older
                · rcases except_bind_ok checked with ⟨requeued, isRequeued, same⟩
                  cases same
                  exact .inl ⟨rfl, .inr isRequeued⟩
              · rcases except_bind_ok checked with ⟨requeued, isRequeued, same⟩
                cases same
                exact .inl ⟨rfl, .inr isRequeued⟩

theorem commitResolution_invariant {result : ExtractionResult} {prepared : PreparedSegment}
    {committed : Bool} (holds : Invariant platform group queue)
    (reported : commitResolution platform group queue claim result prepared =
      .ok (after, committed)) :
    Invariant platform group after := by
  rcases commitResolution_cases reported with ⟨_, same | requeued⟩ | ⟨_, passed⟩
  · rw [same]
    exact holds
  · exact requeueLatestTarget_invariant holds requeued
  · rcases passed with ⟨job, target, selected, commitFingerprint, current, boundary, _, _, written⟩
    have succeeded : Invariant platform group
        { queue.updateJobs selected JobRow.succeed with target := none } := by
      apply holds.update
      · exact ⟨fun _ _ _ => rfl, fun _ _ _ => rfl⟩
      · intro row member _
        exact (holds.jobs row member).succeed
      · intro one absent
        cases absent
    rcases written with ⟨_, same⟩ | ⟨_, same⟩
    · rw [same]
      exact succeeded
    · rw [same]
      refine ⟨succeeded.distinct, succeeded.keys, succeeded.jobs, ?_, ?_⟩
      · intro segment present version
        cases present
        rcases (holds.target target current.isTarget).carried with ⟨request, accepted, carries⟩
        apply accepted.native_of_version
        change prepared.boundary.sourceBoundaryVersion = 3 at version
        rw [boundary, ← current.boundary, carries.boundary] at version
        exact version
      · intro one absent
        cases absent

end Reflection.Database
