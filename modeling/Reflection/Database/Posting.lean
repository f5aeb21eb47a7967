/-
A post keeps the invariant, whatever exit it takes.

Ignored and settled posts add or settle a row no target depends on. Posting the target again
changes priorities on both copies. A new generation points the target at the row it wrote,
or at the running job with the same exact boundary, and spares that row when it supersedes
the others.
-/

import Reflection.Database.Reports

namespace Reflection.Database

variable {platform : Platform} {group : Group} {queue after : Queue} {request : IngestSegmentCreate}

theorem boundaryJob_some {job : JobRow} (found : boundaryJob queue request = some job) :
    job ∈ queue.jobs ∧ job.boundary = (persistedRequest request).boundary := by
  constructor
  · exact List.mem_of_find?_eq_some found
  · have matched := List.find?_some found
    exact beq_iff_eq.mp matched

/-- Two rows of the group with one exact boundary have one key. -/
theorem JobOk.key_eq {one two : JobRow} (oneOk : JobOk platform group one)
    (twoOk : JobOk platform group two) (same : one.boundary = two.boundary) :
    boundaryKey one = boundaryKey two := by
  rcases oneOk.named with ⟨first, firstAccepted, session, startUser, boundary⟩
  rcases twoOk.named with ⟨second, secondAccepted, session', startUser', boundary'⟩
  have cursors := firstAccepted.same_session secondAccepted
    (boundary.symm.trans (same.trans boundary'))
  unfold boundaryKey
  rw [same, session, startUser, session', startUser', cursors.1, cursors.2]

/-- The row an INSERT writes belongs to its request. -/
theorem insertedJob_ok {freshId generation : Nat} {payload : Option PersistedIngestRequest}
    {status : JobStatus} (accepted : Accepted group request)
    (stored : payload = some (persistedRequest request) ∨
      payload = none ∧ (status = .succeeded ∨ status = .superseded)) :
    JobOk platform group (insertedJob platform request freshId payload status generation) := by
  refine ⟨⟨request, accepted, rfl, rfl, rfl⟩, ?_, ?_, fun _ => rfl⟩
  · intro carried present
    rcases stored with same | ⟨none, _⟩
    · change payload = some carried at present
      rw [same] at present
      cases present
      exact ⟨request, accepted, rfl, rfl, rfl, rfl, rfl⟩
    · change payload = some carried at present
      rw [none] at present
      cases present
  · intro absent
    change payload = none at absent
    rcases stored with same | ⟨_, settled⟩
    · rw [same] at absent
      cases absent
    · exact settled

/-- A plain insert that succeeded keeps the invariant. -/
theorem insertJob_invariant {row : JobRow} (holds : Invariant platform group queue)
    (fresh : ∀ job ∈ queue.jobs, job.id ≠ row.id) (ok : JobOk platform group row)
    (inserted : insertJob queue row = .ok after) : Invariant platform group after := by
  unfold insertJob at inserted
  split at inserted
  · cases inserted
  · rename_i unique
    cases inserted
    apply holds.insert fresh _ ok
    intro job member same
    apply unique
    exact List.any_eq_true.mpr ⟨job, member, beq_iff_eq.mpr same⟩

/-! ### Ignored and settled posts -/

theorem enqueueIgnored_invariant {freshId jobId : Nat} (holds : Invariant platform group queue)
    (accepted : Accepted group request) (fresh : ∀ job ∈ queue.jobs, job.id ≠ freshId)
    (posted : enqueueIgnored platform queue request freshId = .ok (after, jobId)) :
    Invariant platform group after := by
  unfold enqueueIgnored at posted
  split at posted
  · cases posted
    exact holds
  · rcases except_bind_ok posted with ⟨inserted, isInserted, same⟩
    cases same
    exact insertJob_invariant holds fresh
      (insertedJob_ok accepted (.inr ⟨rfl, .inr rfl⟩)) isInserted

theorem enqueueSettled_invariant {freshId jobId : Nat} {segment : SegmentRow}
    (holds : Invariant platform group queue) (untargeted : queue.target = none)
    (accepted : Accepted group request) (fresh : ∀ job ∈ queue.jobs, job.id ≠ freshId)
    (posted : enqueueSettled platform queue request freshId segment = .ok (after, jobId)) :
    Invariant platform group after := by
  unfold enqueueSettled at posted
  dsimp only at posted
  split at posted
  · rcases except_bind_ok posted with ⟨inserted, isInserted, same⟩
    cases same
    exact insertJob_invariant holds fresh
      (insertedJob_ok accepted (.inr ⟨rfl, .inl rfl⟩)) isInserted
  · rename_i settled found
    rcases boundaryJob_some found with ⟨settledIn, boundary⟩
    cases posted
    have only {job : JobRow} (member : job ∈ queue.jobs)
        (chosen : (job.id == settled.id && !(job.status == .running)) = true) : job = settled := by
      rw [Bool.and_eq_true, beq_iff_eq] at chosen
      exact holds.distinct job member settled settledIn chosen.1
    apply holds.updateJobs
    · constructor
      · intro job _ _
        rfl
      · intro job member chosen
        rw [only member chosen]
        unfold boundaryKey
        dsimp only
        rw [boundary]
    · intro job member chosen
      rw [only member chosen]
      rcases (holds.jobs settled settledIn).named with
        ⟨naming, namingAccepted, session, startUser, settledBoundary⟩
      refine ⟨⟨naming, namingAccepted, session, startUser, boundary.symm.trans settledBoundary⟩, ?_,
        fun _ => .inl rfl, fun _ => rfl⟩
      intro payload absent
      cases absent
    · intro target present
      rw [untargeted] at present
      cases present

/-! ### The same target again -/

theorem targetMatchesRequest_iff {target : TargetRow} {persisted : PersistedIngestRequest}
    {segmentId : SegmentName} {fingerprint : JsString}
    (matched : targetMatchesRequest platform group target persisted segmentId fingerprint = true) :
    target.projectionVersion = persisted.projectionVersion ∧
      target.sourceFingerprint = fingerprint ∧ target.boundary = persisted.boundary := by
  simp only [targetMatchesRequest, Bool.and_eq_true, beq_iff_eq] at matched
  exact ⟨matched.1.1.1, matched.1.1.2, matched.1.2⟩

theorem persistedRequest_withPriority (request : IngestSegmentCreate) (priority : Nat) :
    persistedRequest (request.withPriority priority) =
      (persistedRequest request).withPriority priority := by
  cases request <;> rfl

theorem withPriority_columns (request : IngestSegmentCreate) (priority : Nat) :
    (persistedRequest (request.withPriority priority)).boundary =
        (persistedRequest request).boundary ∧
      (persistedRequest (request.withPriority priority)).projectionVersion =
        (persistedRequest request).projectionVersion ∧
      (persistedRequest (request.withPriority priority)).processingPriority = priority ∧
      ingestSourceFingerprint platform.sha256 (request.withPriority priority) =
        ingestSourceFingerprint platform.sha256 request := by
  cases request <;> exact ⟨rfl, rfl, rfl, rfl⟩

theorem enqueueExact_invariant {target : TargetRow} (holds : Invariant platform group queue)
    (accepted : Accepted group request) (isTarget : queue.target = some target)
    (matched : targetMatchesRequest platform group target (persistedRequest request)
      group.segmentId (ingestSourceFingerprint platform.sha256 request) = true) :
    Invariant platform group (enqueueExact platform group queue request target).1 := by
  have aimed := holds.target target isTarget
  rcases targetMatchesRequest_iff matched with ⟨version, fingerprint, boundary⟩
  unfold enqueueExact
  generalize isReset : resetStaleExtraction platform group queue target = reset
  generalize isPriority : max target.processingPriority (persistedRequest request).processingPriority
    = priority
  dsimp only
  rw [← persistedRequest_withPriority]
  have bound : priority ≤ 100 := by
    rcases aimed.carried with ⟨stored, storedAccepted, carries⟩
    rw [← isPriority, carries.priority]
    exact max_le storedAccepted.priority_le accepted.priority_le
  have raised := accepted.withPriority bound
  rcases @withPriority_columns platform request priority with
    ⟨raisedBoundary, raisedVersion, raisedPriority, raisedFingerprint⟩
  have resetFailed {job : JobRow} (member : job ∈ queue.jobs) (named : job.id = target.jobId)
      (resets : reset = true) : job.status = .failed := by
    rw [← isReset, resetStaleExtraction, Bool.and_eq_true] at resets
    rcases (Option.any_eq_true_iff_get _ _).mp resets.2 with ⟨present, failed⟩
    have found := (Option.some_get present).symm
    rw [holds.distinct job member _ (job?_some found).1 (named.trans (job?_some found).2.symm)]
    exact beq_iff_eq.mp failed
  have linkedJob {job : JobRow} (member : job ∈ queue.jobs) (named : job.id = target.jobId) :=
    aimed.linked job member named
  have inPlace : InPlace queue (fun job => job.id == target.jobId) fun job =>
      { job with
        payload := if job.status = .running then job.payload
          else some (persistedRequest (request.withPriority priority))
        processingPriority := if job.status = .running then job.processingPriority else priority
        status := if reset = true then .pending else job.status
        attempts := if reset = true then 0 else job.attempts
        leaseId := if reset = true then none else job.leaseId } :=
    ⟨fun _ _ _ => rfl, fun _ _ _ => rfl⟩
  apply holds.update inPlace
  · intro job member chosen
    rw [beq_iff_eq] at chosen
    have ok := holds.jobs job member
    have linked := linkedJob member chosen
    by_cases running : job.status = .running
    · have noReset : ¬ reset = true := by
        intro resets
        rw [resetFailed member chosen resets] at running
        cases running
      simp only [if_pos running, if_neg noReset]
      exact ok
    · have joins := targetJoins_iff.mp (linked.joins running)
      simp only [if_neg running]
      refine ⟨ok.named, ?_, ?_, ?_⟩
      · intro payload stored
        cases stored
        refine ⟨_, raised, rfl, ?_, ?_, ?_, raisedPriority.symm⟩
        · change job.boundary = _
          rw [linked.boundary, boundary, raisedBoundary]
        · change job.projectionVersion = _
          rw [← joins.2.2.2.1, version, raisedVersion]
        · change job.sourceFingerprint = _
          rw [← joins.2.2.1, fingerprint, raisedFingerprint]
      · intro absent
        cases absent
      · intro _
        change (if reset = true then none else job.leaseId) = none
        rw [ok.leased running, ite_self]
  · intro one present
    cases present
    refine ⟨⟨_, raised, rfl, ?_, ?_, ?_, raisedPriority.symm⟩, ?_, ?_, aimed.newer⟩
    · exact boundary.trans raisedBoundary.symm
    · exact version.trans raisedVersion.symm
    · exact fingerprint.trans raisedFingerprint.symm
    · rcases aimed.found with ⟨job, member, named⟩
      refine ⟨_, mem_updateJobs.mpr ⟨job, member, rfl⟩, ?_⟩
      rw [inPlace.id_eq member]
      exact named
    · intro job member named
      rcases mem_updateJobs.mp member with ⟨old, oldIn, rfl⟩
      rw [inPlace.id_eq oldIn] at named
      have linked := linkedJob oldIn named
      rw [if_pos (beq_iff_eq.mpr named)]
      refine ⟨linked.boundary, ?_⟩
      by_cases resets : reset = true
      · right
        refine ⟨.inl (if_pos resets), linked.joins ?_⟩
        rw [resetFailed oldIn named resets]
        intro running
        cases running
      · change (if reset = true then JobStatus.pending else old.status) = .running ∨
          ((if reset = true then JobStatus.pending else old.status) = .pending ∨
            (if reset = true then JobStatus.pending else old.status) = .failed) ∧ _
        rw [if_neg resets]
        exact linked.live

/-! ### A new generation -/

private theorem le_foldl_max (values : List Nat) (first : Nat) :
    first ≤ values.foldl max first ∧ ∀ value ∈ values, value ≤ values.foldl max first := by
  induction values generalizing first with
  | nil =>
      constructor
      · exact Nat.le_refl _
      · intro value member
        cases member
  | cons head rest ih =>
      rw [List.foldl_cons]
      rcases ih (max first head) with ⟨atStart, inRest⟩
      constructor
      · exact Nat.le_trans (Nat.le_max_left _ _) atStart
      · intro value member
        rcases List.mem_cons.mp member with rfl | later
        · exact Nat.le_trans (Nat.le_max_right _ _) atStart
        · exact inRest value later

theorem segment_lt_nextGeneration {segment : SegmentRow} (committed : queue.segment = some segment) :
    segment.sourceGeneration < nextGeneration queue := by
  unfold nextGeneration
  rw [committed]
  apply Nat.lt_succ_of_le
  exact (le_foldl_max _ 0).2 _ List.mem_cons_self

/-- The written row, or the running row in its way, is linked to the new target. -/
structure Upserted (platform : Platform) (group : Group) (upserted : Queue) (target : TargetRow) :
    Prop where
  holds : Invariant platform group upserted
  found : ∃ job ∈ upserted.jobs, job.id = target.jobId
  linked : ∀ job ∈ upserted.jobs, job.id = target.jobId → LinkedJob target job

theorem insertedJob_linked {target : TargetRow} {jobId freshId generation : Nat}
    {payload : Option PersistedIngestRequest} {status : JobStatus} (named : target.jobId = jobId)
    (pending : status = .pending) (generations : target.sourceGeneration = generation)
    (carries : TargetCarries platform request target) :
    LinkedJob target
      { insertedJob platform request freshId payload status generation with id := jobId } := by
  refine ⟨carries.boundary.symm, .inr ⟨.inl pending, targetJoins_iff.mpr ?_⟩⟩
  exact ⟨named, generations, carries.fingerprint, carries.version, carries.boundary⟩

theorem upsertJob_spec {freshId jobId generation : Nat} {target : TargetRow}
    (holds : Invariant platform group queue) (untargeted : queue.target = none)
    (accepted : Accepted group request) (fresh : ∀ job ∈ queue.jobs, job.id ≠ freshId)
    (carries : TargetCarries platform request target) (named : target.jobId = jobId)
    (generations : target.sourceGeneration = generation)
    (written : (upsertJob platform queue request freshId generation).2.or
      ((boundaryJob queue request).map (·.id)) = some jobId) :
    Upserted platform group (upsertJob platform queue request freshId generation).1 target := by
  have rowOk : JobOk platform group (insertedJob platform request freshId
      (some (persistedRequest request)) .pending generation) :=
    insertedJob_ok accepted (.inl rfl)
  unfold upsertJob at written ⊢
  dsimp only at written ⊢
  split at written
  · rename_i noConflict
    have sameId : freshId = jobId := Option.some.inj written
    refine ⟨?_, ?_, ?_⟩
    · apply holds.insert fresh _ rowOk
      intro job member same
      have clash := List.find?_eq_none.mp noConflict job member
      exact clash (beq_iff_eq.mpr same)
    · exact ⟨_, List.mem_append_right _ (List.mem_singleton.mpr rfl), sameId.trans named.symm⟩
    · intro job member jobNamed
      rcases List.mem_append.mp member with old | new
      · exact absurd (jobNamed.trans (named.trans sameId.symm)) (fresh job old)
      · rw [List.mem_singleton.mp new]
        exact @insertedJob_linked platform request target freshId freshId generation _ _
          (named.trans sameId.symm) rfl generations carries
  · rename_i conflict isConflict
    have conflictIn : conflict ∈ queue.jobs := List.mem_of_find?_eq_some isConflict
    have sameKey := List.find?_some isConflict
    rw [beq_iff_eq] at sameKey
    by_cases running : conflict.status = .running
    · rw [if_pos running] at written ⊢
      rw [Option.none_or] at written
      rcases Option.map_eq_some_iff.mp written with ⟨found, isFound, foundId⟩
      rcases boundaryJob_some isFound with ⟨foundIn, boundary⟩
      have same : found = conflict := by
        apply holds.keys found foundIn conflict conflictIn
        rw [sameKey]
        exact (holds.jobs found foundIn).key_eq rowOk boundary
      refine ⟨holds, ⟨found, foundIn, foundId.trans named.symm⟩, ?_⟩
      intro job member jobNamed
      have isConflictJob : job = conflict := by
        rw [← same]
        exact holds.distinct job member found foundIn (jobNamed.trans (named.trans foundId.symm))
      rw [isConflictJob]
      refine ⟨?_, .inl running⟩
      rw [← same, boundary]
      exact carries.boundary.symm
    · rw [if_neg running] at written ⊢
      have sameId : conflict.id = jobId := Option.some.inj written
      have only {job : JobRow} (member : job ∈ queue.jobs)
          (chosen : (job.id == conflict.id) = true) : job = conflict :=
        holds.distinct job member conflict conflictIn (beq_iff_eq.mp chosen)
      have inPlace : InPlace queue (fun job => job.id == conflict.id) fun job =>
          { insertedJob platform request freshId (some (persistedRequest request)) .pending
              generation with id := job.id } := by
        constructor
        · intro job _ _
          rfl
        · intro job member chosen
          rw [only member chosen]
          exact sameKey.symm
      refine ⟨?_, ?_, ?_⟩
      · apply holds.updateJobs inPlace
        · intro job _ _
          exact ⟨rowOk.named, rowOk.payload, rowOk.carries, rowOk.leased⟩
        · intro other present
          rw [untargeted] at present
          cases present
      · refine ⟨_, mem_updateJobs.mpr ⟨conflict, conflictIn, rfl⟩, ?_⟩
        rw [inPlace.id_eq conflictIn, sameId, named]
      · intro job member jobNamed
        rcases mem_updateJobs.mp member with ⟨old, oldIn, rfl⟩
        rw [inPlace.id_eq oldIn] at jobNamed
        have chosen : (old.id == conflict.id) = true :=
          beq_iff_eq.mpr (jobNamed.trans (named.trans sameId.symm))
        rw [if_pos chosen]
        exact insertedJob_linked jobNamed.symm rfl generations carries

theorem upsertJob_frame (freshId generation : Nat) :
    (upsertJob platform queue request freshId generation).1.segment = queue.segment ∧
      (upsertJob platform { queue with target := none } request freshId generation).1.jobs =
        (upsertJob platform queue request freshId generation).1.jobs ∧
      (upsertJob platform { queue with target := none } request freshId generation).2 =
        (upsertJob platform queue request freshId generation).2 := by
  unfold upsertJob
  dsimp only
  split
  · exact ⟨rfl, rfl, rfl⟩
  · split
    · exact ⟨rfl, rfl, rfl⟩
    · exact ⟨rfl, rfl, rfl⟩

/-- The target a new generation writes. -/
def generationTarget (platform : Platform) (queue : Queue) (request : IngestSegmentCreate)
    (jobId : Nat) : TargetRow :=
  { jobId := jobId
    boundary := (persistedRequest request).boundary
    projectionVersion := (persistedRequest request).projectionVersion
    payload := persistedRequest request
    sourceGeneration := nextGeneration queue
    sourceFingerprint := ingestSourceFingerprint platform.sha256 request
    staged := none
    processingPriority := (persistedRequest request).processingPriority }

theorem enqueueGeneration_ok {freshId jobId : Nat}
    (posted : enqueueGeneration platform queue request freshId = .ok (after, jobId)) :
    (upsertJob platform queue request freshId (nextGeneration queue)).2.or
        ((boundaryJob queue request).map (·.id)) = some jobId ∧
      after = supersedeOthers
        { (upsertJob platform queue request freshId (nextGeneration queue)).1 with
          target := some (generationTarget platform queue request jobId) } jobId := by
  unfold enqueueGeneration at posted
  dsimp only at posted
  split at posted
  · rename_i written isWritten
    cases posted
    exact ⟨isWritten, rfl⟩
  · cases posted

theorem enqueueGeneration_invariant {freshId jobId : Nat} (holds : Invariant platform group queue)
    (accepted : Accepted group request) (fresh : ∀ job ∈ queue.jobs, job.id ≠ freshId)
    (current : lowerVersion queue request = false)
    (posted : enqueueGeneration platform queue request freshId = .ok (after, jobId)) :
    Invariant platform group after := by
  rcases enqueueGeneration_ok posted with ⟨written, same⟩
  rcases @upsertJob_frame platform queue request freshId (nextGeneration queue) with
    ⟨sameSegment, sameJobs, sameWritten⟩
  have carries : TargetCarries platform request (generationTarget platform queue request jobId) :=
    ⟨rfl, rfl, rfl, rfl, rfl⟩
  have upserted := @upsertJob_spec platform group { queue with target := none } request freshId
    jobId (nextGeneration queue) (generationTarget platform queue request jobId) holds.dropTarget rfl
    accepted fresh carries rfl rfl (by rw [sameWritten]; exact written)
  have spared {job : JobRow} (chosen : (!(job.id == jobId) &&
      (job.status == .pending || job.status == .failed)) = true) : job.id ≠ jobId := by
    rw [Bool.and_eq_true, Bool.not_eq_true', beq_eq_false_iff_ne] at chosen
    exact chosen.1
  have inPlace (queue : Queue) : InPlace queue (fun job => !(job.id == jobId) &&
      (job.status == .pending || job.status == .failed)) JobRow.supersede :=
    ⟨fun _ _ _ => rfl, fun _ _ _ => rfl⟩
  have superseded := @Invariant.update platform group _ _ _
    (some (generationTarget platform queue request jobId)) upserted.holds (inPlace _)
    (fun job member _ => (upserted.holds.jobs job member).supersede) (by
      intro one present
      cases present
      have aimed : Aimed platform group
          (upsertJob platform { queue with target := none } request freshId
            (nextGeneration queue)).1.jobs
          (upsertJob platform { queue with target := none } request freshId
            (nextGeneration queue)).1.segment
          (generationTarget platform queue request jobId) := by
        refine ⟨⟨request, accepted, carries⟩, upserted.found, upserted.linked, ?_⟩
        intro segment committed
        rw [(@upsertJob_frame platform { queue with target := none } request freshId
          (nextGeneration queue)).1] at committed
        refine ⟨segment_lt_nextGeneration committed, ?_⟩
        unfold lowerVersion at current
        rw [Option.mem_def.mp committed] at current
        simp only [Option.any_some, Bool.or_eq_false_iff, decide_eq_false_iff_not,
          Nat.not_lt] at current
        exact current.1.1
      apply aimed.update (inPlace _)
      intro job _ chosen named
      exact absurd named (spared chosen))
  rw [same]
  unfold supersedeOthers
  unfold Queue.updateJobs at superseded ⊢
  dsimp only at superseded ⊢
  rw [sameJobs, (@upsertJob_frame platform { queue with target := none } request freshId
    (nextGeneration queue)).1] at superseded
  rw [sameSegment]
  exact superseded

/-! ### Posts -/

theorem enqueueParsed_invariant {freshId jobId : Nat} (holds : Invariant platform group queue)
    (accepted : Accepted group request) (fresh : ∀ job ∈ queue.jobs, job.id ≠ freshId)
    (posted : enqueueParsed platform group queue request freshId = .ok (after, jobId)) :
    Invariant platform group after := by
  unfold enqueueParsed at posted
  split at posted
  · exact enqueueIgnored_invariant holds accepted fresh posted
  · rename_i notLower
    have current := Bool.eq_false_iff.mpr notLower
    split at posted
    · rename_i target isTarget
      split at posted
      · rename_i matched
        have same := congrArg Prod.fst (Except.ok.inj posted)
        change (enqueueExact platform group queue request target).1 = after at same
        rw [← same]
        exact enqueueExact_invariant holds accepted isTarget matched
      · exact enqueueGeneration_invariant holds accepted fresh current posted
    · rename_i untargeted
      split at posted
      · split at posted
        · exact enqueueSettled_invariant holds untargeted accepted fresh posted
        · exact enqueueGeneration_invariant holds accepted fresh current posted
      · exact enqueueGeneration_invariant holds accepted fresh current posted

/-- The request an accepted post was made for. -/
theorem enqueue_parsed {freshId jobId : Nat}
    (posted : enqueue platform group queue request freshId = .ok (after, jobId)) :
    ∃ parsed, parseIngestSegmentCreate request = .ok parsed ∧ Accepted group parsed ∧
      enqueueParsed platform group queue parsed freshId = .ok (after, jobId) := by
  rcases except_bind_ok posted with ⟨parsed, isParsed, checked⟩
  have made : parseIngestSegmentCreate request = .ok parsed := by
    unfold contractQueue at isParsed
    split at isParsed
    · rename_i isMade
      rw [isMade, Except.ok.inj isParsed]
    · cases isParsed
  split at checked
  · cases checked
  · rename_i owned
    rw [not_not] at owned
    split at checked
    · cases checked
    · rename_i registered
      rcases except_bind_ok checked with ⟨segmentId, identified, here⟩
      split at here
      · cases here
      · rename_i named
        rw [not_not] at named
        rcases except_bind_ok here with ⟨_, _, entered⟩
        have accepted : Accepted group parsed := by
          refine ⟨parseIngestSegmentCreate_parsed made, owned, ?_, ?_⟩
          · intro isNative
            rw [isNative, Bool.true_and, Bool.not_eq_true', Bool.not_eq_false] at registered
            exact registered
          · unfold identityQueue at identified
            split at identified
            · rename_i identifiedHere
              cases identified
              rw [identifiedHere, named]
            · cases identified
        exact ⟨parsed, made, accepted, entered⟩

/-- A post that got through was made for an accepted request of the group. -/
theorem enqueue_ok {freshId jobId : Nat}
    (posted : enqueue platform group queue request freshId = .ok (after, jobId)) :
    ∃ parsed, Accepted group parsed ∧
      enqueueParsed platform group queue parsed freshId = .ok (after, jobId) := by
  rcases enqueue_parsed posted with ⟨parsed, _, accepted, entered⟩
  exact ⟨parsed, accepted, entered⟩

theorem enqueue_invariant {freshId jobId : Nat} (holds : Invariant platform group queue)
    (fresh : ∀ job ∈ queue.jobs, job.id ≠ freshId)
    (posted : enqueue platform group queue request freshId = .ok (after, jobId)) :
    Invariant platform group after := by
  rcases enqueue_ok posted with ⟨parsed, accepted, entered⟩
  exact enqueueParsed_invariant holds accepted fresh entered

end Reflection.Database
