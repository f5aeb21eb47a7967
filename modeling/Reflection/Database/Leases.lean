/-
What a worker may rely on while it holds a claim.

The job of every claim handed out still exists, and as long as it runs under the claim's lease it
carries the claimed snapshot. So a failed attempt can always be written down, and whatever the
worker reports ends its lease.
-/

import Reflection.Database.Running

namespace Reflection.Database

variable {platform : Platform} {group : Group} {queue after : Queue} {claim : ClaimedJob}
variable {system next : System}

/-- A claim that was handed out. -/
structure Held (platform : Platform) (group : Group) (queue : Queue) (claim : ClaimedJob) : Prop where
  owner : claim.sourceId = group.source.id
  segment : claim.segmentId = group.segmentId
  source : ∃ request, ownedIngestRequest claim.request group.source.id = .ok request ∧
    ingestSegmentIdForRequest request group.source = .ok group.segmentId ∧
    ingestSourceFingerprint platform.sha256 request = claim.sourceFingerprint
  present : ∃ job ∈ queue.jobs, job.id = claim.id
  snapshots : Snapshots queue claim

theorem ownedIngestRequest_of_decoded {payload : PersistedIngestRequest} {sourceId : JsString}
    {request : IngestSegmentCreate}
    (decoded : decodePersistedIngestSegment payload sourceId = .ok request) :
    ownedIngestRequest payload sourceId = .ok request := by
  cases payload with
  | legacy legacy => exact decoded
  | native native =>
      rcases except_bind_ok decoded with ⟨parsed, isParsed, rest⟩
      rcases except_bind_ok rest with ⟨owner, isOwner, checked⟩
      split at checked
      · cases checked
      · rename_i same
        cases checked
        unfold ownedIngestRequest
        dsimp only
        rw [isParsed, except_ok_bind, isOwner, except_ok_bind, if_neg same]

theorem Held.kept {touched : JobRow → Bool} (kept : RunningKept touched queue after)
    (held : Held platform group queue claim) : Held platform group after claim := by
  rcases held.present with ⟨job, member, named⟩
  rcases kept.named job member with ⟨last, lastIn, same⟩
  exact
    { owner := held.owner
      segment := held.segment
      source := held.source
      present := ⟨last, lastIn, same.trans named⟩
      snapshots := held.snapshots.kept kept }

/-- The claim made of a selected job. -/
theorem PayloadAgrees.held {job : JobRow} {target : TargetRow} {request : IngestSegmentCreate}
    {leaseId : Nat} (holds : Invariant platform group queue)
    (eligible : eligibleJob queue = some (job, target)) (agrees : PayloadAgrees platform group job request)
    (id : claim.id = job.id) (segment : claim.segmentId = group.segmentId)
    (owner : claim.sourceId = group.source.id) (payload : claim.request = persistedRequest request)
    (generation : claim.sourceGeneration = job.sourceGeneration)
    (fingerprint : claim.sourceFingerprint = job.sourceFingerprint) :
    Held platform group (leasedQueue queue job leaseId) claim := by
  rcases eligibleJob_some eligible with ⟨_, member, pending, _, _⟩
  have chosen : (job.id == job.id && job.status == .pending) = true := by simp [pending]
  refine ⟨owner, segment, ⟨request, ?_, agrees.segmentId, ?_⟩, ?_, ?_⟩
  · rw [payload]
    exact ownedIngestRequest_of_decoded agrees.decodes
  · rw [fingerprint]
    exact agrees.fingerprint
  · exact ⟨_, mem_updateJobs_chosen member chosen, id.symm⟩
  · intro row inside leased
    rcases leases_iff.mp leased with ⟨rowId, running, _⟩
    rcases mem_leasedQueue holds member inside with old | isLeased
    · rw [holds.distinct row old job member (rowId.trans id), pending] at running
      cases running
    · rw [isLeased]
      simp [persistedJobMatchesClaim, payload, agrees.session, agrees.startUser, agrees.boundary,
        agrees.version, generation, fingerprint]

/-- A claim that was handed out before keeps what it had. -/
theorem Held.leased {job : JobRow} {target : TargetRow} {leaseId : Nat}
    (holds : Invariant platform group queue) (eligible : eligibleJob queue = some (job, target))
    (fresh : claim.leaseId ≠ leaseId) (held : Held platform group queue claim) :
    Held platform group (leasedQueue queue job leaseId) claim := by
  rcases eligibleJob_some eligible with ⟨_, member, _, _, _⟩
  rcases held.present with ⟨row, rowIn, named⟩
  refine ⟨held.owner, held.segment, held.source, ?_, ?_⟩
  · by_cases chosen : (row.id == job.id && row.status == .pending) = true
    · exact ⟨_, mem_updateJobs_chosen rowIn chosen, named⟩
    · exact ⟨row, mem_updateJobs_unchosen rowIn chosen, named⟩
  · intro other inside leased
    rcases mem_leasedQueue holds member inside with old | isLeased
    · exact held.snapshots other old leased
    · have lease := (leases_iff.mp leased).2.2
      rw [isLeased] at lease
      exact absurd (Option.some.inj lease).symm fresh

/-- The running jobs a step may stop. -/
def touchedBy : Label → JobRow → Bool
  | .publish claim _ => claim.leases
  | .commit claim _ _ => claim.leases
  | .finish claim _ => claim.leases
  | .recover => fun _ => true
  | _ => fun _ => false

/-- A step leaves running jobs alone but for those it touches, or leases the job it selected. -/
theorem step_cases {label : Label} (holds : Invariant platform group system.queue)
    (parses : StagedParses system.queue) (step : Step platform group system label next) :
    RunningKept (touchedBy label) system.queue next.queue ∧ next.claims = system.claims ∨
      ∃ leaseId job target claim, (∀ old ∈ system.claims, old.leaseId ≠ leaseId) ∧
        eligibleJob system.queue = some (job, target) ∧
        Held platform group (leasedQueue system.queue job leaseId) claim ∧
        next.queue = leasedQueue system.queue job leaseId ∧ next.claims = claim :: system.claims := by
  cases step with
  | enqueue _ posted => exact .inl ⟨enqueue_running holds posted, rfl⟩
  | claim fresh taken =>
      rcases claimOldestJob_cases holds parses taken with ⟨same, none⟩ |
        ⟨job, target, request, extraction, eligible, agrees, same, isClaimed⟩
      · rw [none, same]
        exact .inl ⟨.of_same rfl, rfl⟩
      · rw [isClaimed, same]
        exact .inr ⟨_, job, target, _, fresh, eligible,
          agrees.held holds eligible rfl rfl rfl rfl rfl rfl, rfl, rfl⟩
  | publish _ reported => exact .inl ⟨publishExtraction_running reported, rfl⟩
  | @commit claim result prepared after committed _ reported =>
      cases committed with
      | true => exact .inl ⟨(commitResolution_running holds reported).1, rfl⟩
      | false => exact .inl ⟨(commitResolution_gaveUp reported).running, rfl⟩
  | finish _ reported => exact .inl ⟨finishFailedAttempt_running reported, rfl⟩
  | retry retried => exact .inl ⟨retryFailedJob_running retried, rfl⟩
  | supersede superseded => exact .inl ⟨supersedeFailedJob_running superseded, rfl⟩
  | recover recovered => exact .inl ⟨recoverRunningJobs_running recovered, rfl⟩

theorem held_step {label : Label} (holds : Invariant platform group system.queue)
    (parses : StagedParses system.queue) (step : Step platform group system label next)
    (held : ∀ claim ∈ system.claims, Held platform group system.queue claim) :
    ∀ claim ∈ next.claims, Held platform group next.queue claim := by
  intro claim inside
  rcases step_cases holds parses step with ⟨kept, same⟩ |
    ⟨leaseId, job, target, made, fresh, eligible, isHeld, queue, claims⟩
  · rw [same] at inside
    exact (held claim inside).kept kept
  · rw [claims] at inside
    rw [queue]
    rcases List.mem_cons.mp inside with isNew | old
    · rw [isNew]
      exact isHeld
    · exact (held claim old).leased holds eligible (fresh claim old)

/-- Every claim a worker was handed, in every state. -/
theorem Reachable.held (reached : Reachable platform group system) :
    ∀ claim ∈ system.claims, Held platform group system.queue claim := by
  induction reached with
  | refl =>
      intro claim inside
      cases inside
  | tail run next ih =>
      rcases next with ⟨label, step, _⟩
      have before : Reachable platform group _ := run
      exact held_step before.invariant before.stagedParses step ih

theorem Held.valid (holds : Invariant platform group queue) (held : Held platform group queue claim) :
    validateClaim platform group queue claim = .ok () := by
  rcases held.source with ⟨request, owned, identified, fingerprint⟩
  rcases held.present with ⟨job, member, named⟩
  have found := holds.job?_eq member
  rw [named] at found
  unfold validateClaim
  rw [if_neg (not_not.mpr held.owner), owned]
  change (identityQueue (ingestSegmentIdForRequest request group.source) >>= _) = _
  rw [identified]
  change (if group.segmentId ≠ claim.segmentId ∨ _ then _ else _) = _
  rw [held.segment, fingerprint, if_neg (by simp), found, if_neg (by simp)]
  exact holds.owned

/-- A job that runs under the claim can be handed to the latest target. -/
theorem requeueLatestTarget_ok {job : JobRow} (holds : Invariant platform group queue)
    (member : job ∈ queue.jobs) (leased : claim.leases job = true) :
    ∃ after, requeueLatestTarget group queue claim = .ok after := by
  have found (missing : QueueError) (change : JobRow → JobRow) :
      queue.updateJob missing claim.leases change = .ok (queue.updateJobs claim.leases change) :=
    if_pos (List.any_eq_true.mpr ⟨job, member, leased⟩)
  unfold requeueLatestTarget
  cases isTarget : queue.target with
  | none => exact ⟨_, found _ _⟩
  | some target =>
      rcases (holds.target target isTarget).carried with ⟨request, accepted, carries⟩
      have stored : contractQueue (persistedPayload group target.payload) =
          .ok (persistedRequest request) := by
        rw [carries.payload, accepted.persistedPayload]
        rfl
      dsimp only
      split
      · rw [stored]
        exact ⟨_, found _ _⟩
      · rw [found, except_ok_bind, stored]
        exact ⟨_, rfl⟩

/-- A failed attempt of a claim that was handed out is always written down. -/
theorem Held.finishes (holds : Invariant platform group queue) (held : Held platform group queue claim)
    (terminal : Bool) :
    ∃ after updated, finishFailedAttempt platform group queue claim terminal = .ok (after, updated) := by
  unfold finishFailedAttempt
  rw [held.valid holds, except_ok_bind]
  cases found : queue.job? claim.id with
  | none => exact ⟨_, _, rfl⟩
  | some job =>
      dsimp only
      split
      · exact ⟨_, _, rfl⟩
      · rename_i fence
        rw [Bool.or_eq_true, not_or, Bool.not_eq_true', Bool.not_eq_false] at fence
        split
        · rcases requeueLatestTarget_ok holds (job?_some found).1 fence.1 with ⟨given, isGiven⟩
          rw [isGiven]
          exact ⟨_, _, rfl⟩
        · exact ⟨_, _, rfl⟩

end Reflection.Database
