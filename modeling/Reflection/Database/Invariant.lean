/-
What holds of a segment's rows between transactions.

Ids and boundary keys are unique, every stored payload is an accepted request with its
row's columns, and the target names a job that is running, or waits with exactly the
target's snapshot. Writes change rows in place, so one rule about such updates carries the
invariant through all of them.
-/

import Reflection.Database.Accepted
import Reflection.Database.System

namespace Reflection.Database

/-! ### Rows -/

/-- The columns of a job come from accepted requests of the group. -/
structure JobOk (platform : Platform) (group : Group) (job : JobRow) : Prop where
  named : ∃ request, Accepted group request ∧
    job.sessionId = (persistedRequest request).sessionId ∧
    job.startUserMessageId = (persistedRequest request).startUserMessageId ∧
    job.boundary = (persistedRequest request).boundary
  payload : ∀ payload ∈ job.payload, ∃ request, Accepted group request ∧
    payload = persistedRequest request ∧
    job.boundary = (persistedRequest request).boundary ∧
    job.projectionVersion = (persistedRequest request).projectionVersion ∧
    job.sourceFingerprint = ingestSourceFingerprint platform.sha256 request ∧
    job.processingPriority = (persistedRequest request).processingPriority
  carries : job.payload = none → job.status = .succeeded ∨ job.status = .superseded
  leased : job.status ≠ .running → job.leaseId = none

/-- The target stores this request. -/
structure TargetCarries (platform : Platform) (request : IngestSegmentCreate) (target : TargetRow) :
    Prop where
  payload : target.payload = persistedRequest request
  boundary : target.boundary = (persistedRequest request).boundary
  version : target.projectionVersion = (persistedRequest request).projectionVersion
  fingerprint : target.sourceFingerprint = ingestSourceFingerprint platform.sha256 request
  priority : target.processingPriority = (persistedRequest request).processingPriority

/-- A job its target can count on: running, or waiting with the target's snapshot. -/
structure LinkedJob (target : TargetRow) (job : JobRow) : Prop where
  boundary : job.boundary = target.boundary
  live : job.status = .running ∨
    (job.status = .pending ∨ job.status = .failed) ∧ targetJoins target job = true

/-- What a target needs of the other rows. -/
structure Aimed (platform : Platform) (group : Group) (jobs : List JobRow)
    (segment : Option SegmentRow) (target : TargetRow) : Prop where
  carried : ∃ request, Accepted group request ∧ TargetCarries platform request target
  found : ∃ job ∈ jobs, job.id = target.jobId
  linked : ∀ job ∈ jobs, job.id = target.jobId → LinkedJob target job
  newer : ∀ committed ∈ segment, committed.sourceGeneration < target.sourceGeneration ∧
    committed.projectionVersion ≤ target.projectionVersion

structure Invariant (platform : Platform) (group : Group) (queue : Queue) : Prop where
  distinct : ∀ one ∈ queue.jobs, ∀ two ∈ queue.jobs, one.id = two.id → one = two
  keys : ∀ one ∈ queue.jobs, ∀ two ∈ queue.jobs, boundaryKey one = boundaryKey two → one = two
  jobs : ∀ job ∈ queue.jobs, JobOk platform group job
  segment : ∀ segment ∈ queue.segment, segment.boundary.sourceBoundaryVersion = 3 →
    group.source.isNative = true
  target : ∀ target ∈ queue.target, Aimed platform group queue.jobs queue.segment target

variable {platform : Platform} {group : Group} {queue : Queue}

theorem Invariant.empty : Invariant platform group Queue.empty := by
  constructor
  · intro one member
    cases member
  · intro one member
    cases member
  · intro job member
    cases member
  · intro segment present
    cases present
  · intro target present
    cases present

theorem targetJoins_iff {target : TargetRow} {job : JobRow} :
    targetJoins target job = true ↔ target.jobId = job.id ∧
      target.sourceGeneration = job.sourceGeneration ∧
      target.sourceFingerprint = job.sourceFingerprint ∧
      target.projectionVersion = job.projectionVersion ∧ target.boundary = job.boundary := by
  simp only [targetJoins, Bool.and_eq_true, beq_iff_eq, and_assoc]

theorem job?_some {id : Nat} {job : JobRow} (found : queue.job? id = some job) :
    job ∈ queue.jobs ∧ job.id = id := by
  constructor
  · exact List.mem_of_find?_eq_some found
  · exact beq_iff_eq.mp (List.find?_some (p := fun job : JobRow => job.id == id) found)

/-- Under the invariant no ownership check fires. -/
theorem Invariant.owned (holds : Invariant platform group queue) :
    validateSegmentOwnership platform group queue = .ok () := by
  have segments : queue.segment.toList.forM
      (fun segment => validateRow platform group segment.owned) = .ok () := by
    apply forM_ok
    intro segment member
    exact validateRow_empty rfl (holds.segment segment (Option.mem_toList.mp member))
  have jobs : queue.jobs.forM (fun job => validateRow platform group job.owned) = .ok () := by
    apply forM_ok
    intro job member
    have ok := holds.jobs job member
    rcases ok.named with ⟨naming, namingAccepted, session, startUser, boundary⟩
    cases stored : job.payload with
    | none =>
        apply validateRow_empty stored
        intro version
        apply namingAccepted.native_of_version
        change job.boundary.sourceBoundaryVersion = 3 at version
        rw [boundary] at version
        exact version
    | some payload =>
        rcases ok.payload payload stored with
          ⟨request, accepted, same, sameBoundary, version, fingerprint, _⟩
        have cursors := namingAccepted.same_session accepted (boundary.symm.trans sameBoundary)
        apply accepted.validateRow
        · change job.payload = _
          rw [stored, same]
        · intro id isSession
          cases isSession
          rw [session, cursors.1]
        · intro id isStart
          cases isStart
          rw [startUser, cursors.2]
        · exact sameBoundary
        · exact version
        · exact fingerprint
  have targets : queue.target.toList.forM (fun target => do
      validateRow platform group target.owned
      if (queue.job? target.jobId).isNone then .error (.ownership .foreignJob) else .ok ()) =
        .ok () := by
    apply forM_ok
    intro target member
    have aimed := holds.target target (Option.mem_toList.mp member)
    rcases aimed.carried with ⟨request, accepted, carries⟩
    have checked : validateRow platform group target.owned = .ok () := by
      apply accepted.validateRow
      · exact congrArg some carries.payload
      · intro id absent
        cases absent
      · intro id absent
        cases absent
      · exact carries.boundary
      · exact carries.version
      · exact carries.fingerprint
    rw [checked, except_ok_bind]
    rcases aimed.found with ⟨job, jobIn, named⟩
    have present : (queue.job? target.jobId).isSome = true := by
      rw [Queue.job?, List.find?_isSome]
      exact ⟨job, jobIn, beq_iff_eq.mpr named⟩
    rw [Option.isNone_eq_false_iff.mpr present, if_neg Bool.false_ne_true]
  unfold validateSegmentOwnership
  rw [segments, except_ok_bind, jobs, except_ok_bind]
  exact targets

/-! ### The update rule -/

theorem mem_updateJobs {selected : JobRow → Bool} {change : JobRow → JobRow} {job : JobRow} :
    job ∈ (queue.updateJobs selected change).jobs ↔
      ∃ old ∈ queue.jobs, (if selected old = true then change old else old) = job :=
  List.mem_map

theorem updateJob_ok {missing : QueueError} {selected : JobRow → Bool}
    {change : JobRow → JobRow} {after : Queue}
    (updated : queue.updateJob missing selected change = .ok after) :
    after = queue.updateJobs selected change := by
  unfold Queue.updateJob at updated
  split at updated
  · exact (Except.ok.inj updated).symm
  · cases updated

/-- An update in place that keeps ids and boundary keys. -/
structure InPlace (queue : Queue) (selected : JobRow → Bool) (change : JobRow → JobRow) : Prop where
  id : ∀ job ∈ queue.jobs, selected job = true → (change job).id = job.id
  key : ∀ job ∈ queue.jobs, selected job = true → boundaryKey (change job) = boundaryKey job

theorem InPlace.id_eq {selected : JobRow → Bool} {change : JobRow → JobRow}
    (inPlace : InPlace queue selected change) {job : JobRow} (member : job ∈ queue.jobs) :
    (if selected job = true then change job else job).id = job.id := by
  split
  · rename_i chosen
    exact inPlace.id job member chosen
  · rfl

theorem InPlace.key_eq {selected : JobRow → Bool} {change : JobRow → JobRow}
    (inPlace : InPlace queue selected change) {job : JobRow} (member : job ∈ queue.jobs) :
    boundaryKey (if selected job = true then change job else job) = boundaryKey job := by
  split
  · rename_i chosen
    exact inPlace.key job member chosen
  · rfl

/-- A target stays aimed when the update leaves its own job linked. -/
theorem Aimed.update {target : TargetRow} {selected : JobRow → Bool} {change : JobRow → JobRow}
    (aimed : Aimed platform group queue.jobs queue.segment target) (inPlace : InPlace queue selected change)
    (kept : ∀ job ∈ queue.jobs, selected job = true → job.id = target.jobId →
      LinkedJob target (change job)) :
    Aimed platform group (queue.updateJobs selected change).jobs queue.segment target := by
  refine ⟨aimed.carried, ?_, ?_, aimed.newer⟩
  · rcases aimed.found with ⟨job, member, named⟩
    refine ⟨_, mem_updateJobs.mpr ⟨job, member, rfl⟩, ?_⟩
    rw [inPlace.id_eq member, named]
  · intro job member named
    rcases mem_updateJobs.mp member with ⟨old, oldIn, rfl⟩
    rw [inPlace.id_eq oldIn] at named
    split
    · rename_i chosen
      exact kept old oldIn chosen named
    · exact aimed.linked old oldIn named

/-- Rows changed in place and any target that is aimed afterwards. -/
theorem Invariant.update {selected : JobRow → Bool} {change : JobRow → JobRow}
    {target : Option TargetRow} (holds : Invariant platform group queue)
    (inPlace : InPlace queue selected change)
    (ok : ∀ job ∈ queue.jobs, selected job = true → JobOk platform group (change job))
    (targets : ∀ one ∈ target,
      Aimed platform group (queue.updateJobs selected change).jobs queue.segment one) :
    Invariant platform group { queue.updateJobs selected change with target := target } := by
  refine ⟨?_, ?_, ?_, holds.segment, targets⟩
  · intro one oneIn two twoIn same
    rcases mem_updateJobs.mp oneIn with ⟨oldOne, oldOneIn, rfl⟩
    rcases mem_updateJobs.mp twoIn with ⟨oldTwo, oldTwoIn, rfl⟩
    rw [inPlace.id_eq oldOneIn, inPlace.id_eq oldTwoIn] at same
    rw [holds.distinct oldOne oldOneIn oldTwo oldTwoIn same]
  · intro one oneIn two twoIn same
    rcases mem_updateJobs.mp oneIn with ⟨oldOne, oldOneIn, rfl⟩
    rcases mem_updateJobs.mp twoIn with ⟨oldTwo, oldTwoIn, rfl⟩
    rw [inPlace.key_eq oldOneIn, inPlace.key_eq oldTwoIn] at same
    rw [holds.keys oldOne oldOneIn oldTwo oldTwoIn same]
  · intro job member
    rcases mem_updateJobs.mp member with ⟨old, oldIn, rfl⟩
    split
    · rename_i chosen
      exact ok old oldIn chosen
    · exact holds.jobs old oldIn

/-- Rows changed in place under the same target. -/
theorem Invariant.updateJobs {selected : JobRow → Bool} {change : JobRow → JobRow}
    (holds : Invariant platform group queue) (inPlace : InPlace queue selected change)
    (ok : ∀ job ∈ queue.jobs, selected job = true → JobOk platform group (change job))
    (kept : ∀ target ∈ queue.target, ∀ job ∈ queue.jobs, selected job = true →
      job.id = target.jobId → LinkedJob target (change job)) :
    Invariant platform group (queue.updateJobs selected change) :=
  holds.update inPlace ok fun target present =>
    (holds.target target present).update inPlace (kept target present)

theorem Invariant.dropTarget (holds : Invariant platform group queue) :
    Invariant platform group { queue with target := none } :=
  ⟨holds.distinct, holds.keys, holds.jobs, holds.segment, fun _ absent => by cases absent⟩

theorem Aimed.restage {target : TargetRow} (aimed : Aimed platform group queue.jobs queue.segment target)
    (staged : Option StagedExtraction) :
    Aimed platform group queue.jobs queue.segment { target with staged := staged } := by
  refine ⟨?_, aimed.found, ?_, aimed.newer⟩
  · rcases aimed.carried with ⟨request, accepted, carries⟩
    exact ⟨request, accepted, carries.payload, carries.boundary, carries.version,
      carries.fingerprint, carries.priority⟩
  · intro job member named
    have linked := aimed.linked job member named
    exact ⟨linked.boundary, linked.live⟩

theorem Invariant.restage {target : TargetRow} (holds : Invariant platform group queue)
    (isTarget : queue.target = some target) (staged : Option StagedExtraction) :
    Invariant platform group { queue with target := some { target with staged := staged } } := by
  refine ⟨holds.distinct, holds.keys, holds.jobs, holds.segment, ?_⟩
  intro restaged present
  cases present
  exact (holds.target target isTarget).restage staged

/-- A new row with a fresh id and a fresh key. -/
theorem Invariant.insert {row : JobRow} (holds : Invariant platform group queue)
    (freshId : ∀ job ∈ queue.jobs, job.id ≠ row.id)
    (freshKey : ∀ job ∈ queue.jobs, boundaryKey job ≠ boundaryKey row)
    (ok : JobOk platform group row) :
    Invariant platform group { queue with jobs := queue.jobs ++ [row] } := by
  have members {job : JobRow} (member : job ∈ queue.jobs ++ [row]) :
      job ∈ queue.jobs ∨ job = row := by
    rcases List.mem_append.mp member with old | new
    · exact .inl old
    · exact .inr (List.mem_singleton.mp new)
  refine ⟨?_, ?_, ?_, holds.segment, ?_⟩
  · intro one oneIn two twoIn same
    rcases members oneIn with oneOld | rfl
    · rcases members twoIn with twoOld | rfl
      · exact holds.distinct one oneOld two twoOld same
      · exact absurd same (freshId one oneOld)
    · rcases members twoIn with twoOld | rfl
      · exact absurd same.symm (freshId two twoOld)
      · rfl
  · intro one oneIn two twoIn same
    rcases members oneIn with oneOld | rfl
    · rcases members twoIn with twoOld | rfl
      · exact holds.keys one oneOld two twoOld same
      · exact absurd same (freshKey one oneOld)
    · rcases members twoIn with twoOld | rfl
      · exact absurd same.symm (freshKey two twoOld)
      · rfl
  · intro job member
    rcases members member with old | rfl
    · exact holds.jobs job old
    · exact ok
  · intro target present
    have aimed := holds.target target present
    refine ⟨aimed.carried, ?_, ?_, aimed.newer⟩
    · rcases aimed.found with ⟨job, member, named⟩
      exact ⟨job, List.mem_append_left _ member, named⟩
    · intro job member named
      rcases members member with old | rfl
      · exact aimed.linked job old named
      · rcases aimed.found with ⟨other, otherIn, otherNamed⟩
        exact absurd (otherNamed.trans named.symm) (freshId other otherIn)

end Reflection.Database
