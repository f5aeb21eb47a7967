/-
How processing a plan confirms its segments.

A segment is confirmed by the manifest its plan was made from, or by a job of its span and its
fingerprint that succeeded at no lower a projection version and was found in a manifest read
later. A segment that is skipped or given up has a failure recorded in the run instead.
-/

import Reflection.Scripts.BackfillSteps

namespace Reflection.Backfill

open JsString

/-! ### Confirmation by jobs -/

/-- The job has the span and the fingerprint of the segment. -/
def Matches (segment : PlannedSegment) (job : ReflectionJob) : Prop :=
  job.key = segment.key ∧ job.sourceFingerprint = some segment.sourceFingerprint

/-- The job was answered, and a manifest read later has the segment beside it. -/
def Revalidated (log : List Event) (segment : PlannedSegment) (job : ReflectionJob) : Prop :=
  Matches segment job ∧ ∃ before manifest after, log = before ++ .manifestRead manifest :: after ∧
    .answered job ∈ before ∧ manifestHasExpectedSnapshot manifest segment true job.projectionVersion = true

/-- The job succeeded at no lower a projection version and was revalidated. -/
def JobConfirms (log : List Event) (segment : PlannedSegment) (job : ReflectionJob) : Prop :=
  job.status = .succeeded ∧ segment.submission.projectionVersion ≤ job.projectionVersion ∧
    Revalidated log segment job

def Confirmed (log : List Event) (manifest : SegmentManifest) (segment : PlannedSegment) : Prop :=
  PlanConfirms manifest segment ∨ ∃ job, JobConfirms log segment job

theorem Revalidated.append {log more : List Event} {segment : PlannedSegment} {job : ReflectionJob}
    (revalidated : Revalidated log segment job) : Revalidated (log ++ more) segment job := by
  obtain ⟨matching, before, manifest, after, rfl, answered, expected⟩ := revalidated
  refine ⟨matching, before, manifest, after ++ more, ?_, answered, expected⟩
  rw [List.append_assoc, List.cons_append]

theorem JobConfirms.append {log more : List Event} {segment : PlannedSegment} {job : ReflectionJob}
    (confirms : JobConfirms log segment job) : JobConfirms (log ++ more) segment job :=
  ⟨confirms.1, confirms.2.1, confirms.2.2.append⟩

theorem Confirmed.append {log more : List Event} {manifest : SegmentManifest} {segment : PlannedSegment}
    (confirmed : Confirmed log manifest segment) : Confirmed (log ++ more) manifest segment := by
  rcases confirmed with plan | ⟨job, confirms⟩
  · exact .inl plan
  · exact .inr ⟨job, confirms.append⟩

/-- The segment carries the id and the fingerprint that its submission has. -/
structure WellPlanned {library : Segmentation} (context : ProcessingContext library)
    (segment : PlannedSegment) : Prop where
  named : sourceSegmentIdForRequest context.source.id segment.submission context.source =
    .ok segment.segmentId
  fingerprint : segment.sourceFingerprint = sourceFingerprint context.sha256 segment.submission

section Jobs

variable {library : Segmentation} {context : ProcessingContext library} {segment : PlannedSegment}

/-- Whatever is left to run keeps what the log already shows. -/
theorem wp_steady {α : Type} {program : Script α} (steady : Keeps Steady program) {world : World}
    {ok : α → World → Prop} {fail : BackfillError → World → Prop} (holds : wp program ok fail world) :
    wp program (fun result after => ok result after ∧ Steady world after)
      (fun error after => fail error after ∧ Steady world after) world :=
  wp_and holds (steady world)

/-- A postcondition of a log that only grows. -/
theorem wp_grows {α : Type} {program : Script α} (steady : Keeps Steady program) {world : World}
    {holds : List Event → Prop} (mono : ∀ log more, holds log → holds (log ++ more))
    (now : holds world.log) :
    wp program (fun _ after => holds after.log) (fun _ _ => True) world := by
  refine wp_mono (steady world) (fun _ after reached => ?_) fun _ _ _ => trivial
  obtain ⟨more, isMore, _⟩ := reached.log
  rw [isMore]
  exact mono _ _ now

theorem wp_answered {α : Type} {program : Script α} (steady : Keeps Steady program) {world : World}
    {job : ReflectionJob} (answered : .answered job ∈ world.log) :
    wp program (fun _ after => .answered job ∈ after.log) (fun _ _ => True) world :=
  @wp_grows _ _ steady _ (fun log => .answered job ∈ log)
    (fun _ _ inside => List.mem_append_left _ inside) answered

theorem wp_revalidated {α : Type} {program : Script α} (steady : Keeps Steady program) {world : World}
    {job : ReflectionJob} (revalidated : Revalidated world.log segment job) :
    wp program (fun _ after => Revalidated after.log segment job) (fun _ _ => True) world :=
  @wp_grows _ _ steady _ (fun log => Revalidated log segment job) (fun _ _ holds => holds.append)
    revalidated

theorem wp_trivial {α : Type} (program : Script α) (world : World) :
    wp program (fun _ _ => True) (fun _ _ => True) world := by
  unfold wp
  split <;> trivial

theorem validateJobForSubmission_matches (wellPlanned : WellPlanned context segment)
    (job : ReflectionJob) (world : World) :
    wp (validateJobForSubmission context job segment.submission)
      (fun _ after => Matches segment job ∧ after = world) (fun _ _ => True) world := by
  unfold validateJobForSubmission
  rw [wellPlanned.named, wp_bind]
  change wp (if jobMatchesSubmission context.sha256 job segment.submission segment.segmentId then pure ()
    else throw BackfillError.replanRequired) _ _ world
  split
  · rename_i isMatch
    simp only [jobMatchesSubmission, Bool.and_eq_true, beq_iff_eq] at isMatch
    rw [wp_pure]
    exact ⟨⟨isMatch.1, by rw [isMatch.2, wellPlanned.fingerprint]⟩, rfl⟩
  · rw [wp_throw]
    trivial

/-- A job that is answered and then checked. -/
theorem answered_matches (wellPlanned : WellPlanned context segment)
    {answer : Nat → Except BackfillError ReflectionJob} {revalidate : Script Unit}
    (steady : Keeps Steady revalidate) (world : World) :
    wp (do
        let job ← (do
          let job ← attempt answer
          note (.answered job)
          pure job)
        validateJobForSubmission context job segment.submission
        revalidate
        pure job)
      (fun job after => Matches segment job ∧ .answered job ∈ after.log) (fun _ _ => True) world := by
  rw [wp_bind, wp_bind]
  refine wp_mono (wp_trivial (attempt answer) world) (fun job middle _ => ?_) fun _ _ _ => trivial
  rw [wp_bind, note, wp_modify, wp_pure, wp_bind]
  refine wp_mono (validateJobForSubmission_matches wellPlanned job _) ?_ fun _ _ _ => trivial
  rintro _ after ⟨matching, rfl⟩
  rw [wp_bind]
  have shown : .answered job ∈ middle.log ++ [.answered job] :=
    List.mem_append_right _ (List.mem_singleton.mpr rfl)
  refine wp_mono (wp_answered steady shown)
    (fun _ later inside => ?_) fun _ _ _ => trivial
  rw [wp_pure]
  exact ⟨matching, inside⟩

theorem submitSegment_matches (wellPlanned : WellPlanned context segment) (world : World) :
    wp (submitSegment context segment.submission)
      (fun job after => Matches segment job ∧ .answered job ∈ after.log) (fun _ _ => True) world := by
  unfold submitSegment
  rw [wp_bind]
  refine wp_mono (wp_trivial _ world) (fun answer asked _ => ?_) fun _ _ _ => trivial
  rw [wp_bind]
  refine wp_mono (wp_trivial _ asked) (fun job middle _ => ?_) fun _ _ _ => trivial
  rw [wp_bind, note, wp_modify, wp_bind]
  refine wp_mono (validateJobForSubmission_matches wellPlanned job _) ?_ fun _ _ _ => trivial
  rintro _ after ⟨matching, rfl⟩
  rw [wp_pure]
  exact ⟨matching, List.mem_append_right _ (List.mem_singleton.mpr rfl)⟩

/-- A reading that passes puts the manifest behind the answer it checks. -/
theorem revalidateExpectedSnapshot_revalidates {revalidate : Script Unit}
    (steady : Keeps Steady revalidate) {job : ReflectionJob} (succeeded : job.status = .succeeded)
    (matching : Matches segment job) {world : World} (answered : .answered job ∈ world.log) :
    wp (revalidateExpectedSnapshot context segment revalidate job)
      (fun _ after => Revalidated after.log segment job) (fun _ _ => True) world := by
  unfold revalidateExpectedSnapshot
  rw [wp_bind]
  refine wp_mono (wp_answered steady answered) (fun _ first inFirst => ?_) fun _ _ _ => trivial
  rw [wp_bind]
  refine wp_mono (wp_answered (attempt_steady _) inFirst) (fun answer second inSecond => ?_)
    fun _ _ _ => trivial
  rw [wp_bind]
  refine wp_mono (wp_answered (manifestLifted_steady _) inSecond) (fun manifest third inThird => ?_)
    fun _ _ _ => trivial
  rw [wp_bind, note, wp_modify, wp_bind]
  have shown : ∃ before after, third.log ++ [.manifestRead manifest] =
      before ++ .manifestRead manifest :: after ∧ .answered job ∈ before :=
    ⟨third.log, [], rfl, inThird⟩
  -- The manifest may still be refused; what is shown is where it stands in the log.
  have grown := @wp_grows _ _ steady { third with log := third.log ++ [.manifestRead manifest] }
    (fun log => ∃ before after,
      log = before ++ .manifestRead manifest :: after ∧ .answered job ∈ before)
    (fun log more => by
      rintro ⟨before, after, rfl, inside⟩
      exact ⟨before, after ++ more, by rw [List.append_assoc, List.cons_append], inside⟩) shown
  refine wp_mono grown (fun _ last isLast => ?_) fun _ _ _ => trivial
  obtain ⟨before, after, isLog, inside⟩ := isLast
  split
  · rename_i expected
    rw [wp_pure]
    rw [succeeded] at expected
    exact ⟨matching, before, manifest, after, isLog, inside, expected⟩
  · rw [wp_throw]
    trivial

/-- A job of a segment that is completed as succeeded was revalidated. -/
theorem completeJobFrom_revalidates (wellPlanned : WellPlanned context segment)
    {revalidate : Script Unit} (steady : Keeps Steady revalidate) (fuel nonProviderRounds
      providerFailures : Nat) {current : ReflectionJob} (matching : Matches segment current)
    {world : World} (answered : .answered current ∈ world.log) :
    wp (completeJobFrom (segmentJobContext context segment revalidate) fuel nonProviderRounds
        providerFailures current)
      (fun result after => result.status = .succeeded → Revalidated after.log segment result)
      (fun _ _ => True) world := by
  have jobs := segmentJobContext_steady context segment steady
  induction fuel generalizing nonProviderRounds providerFailures current world with
  | zero => exact trivial
  | succ fuel ih =>
      have awaits : ∀ (job : ReflectionJob) (rounds failures : Nat) (start : World),
          wp (do
              let next ← awaitJob (segmentJobContext context segment revalidate) job
              completeJobFrom (segmentJobContext context segment revalidate) fuel rounds failures next)
            (fun result after => result.status = .succeeded → Revalidated after.log segment result)
            (fun _ _ => True) start := by
        intro job rounds failures start
        rw [wp_bind]
        have next : wp (awaitJob (segmentJobContext context segment revalidate) job)
            (fun job after => Matches segment job ∧ .answered job ∈ after.log) (fun _ _ => True)
            start := by
          unfold awaitJob
          rw [wp_bind]
          exact wp_mono (wp_trivial _ start)
            (fun _ middle _ => answered_matches wellPlanned steady middle) fun _ _ _ => trivial
        exact wp_mono next (fun result after both => ih rounds failures both.1 both.2)
          fun _ _ _ => trivial
      have retries : ∀ (rounds failures : Nat) (start : World),
          wp (do
              let retried ← retryFailedJob (segmentJobContext context segment revalidate) current
              let next ← awaitJob (segmentJobContext context segment revalidate) retried
              completeJobFrom (segmentJobContext context segment revalidate) fuel rounds failures next)
            (fun result after => result.status = .succeeded → Revalidated after.log segment result)
            (fun _ _ => True) start := by
        intro rounds failures start
        rw [wp_bind]
        exact wp_mono (wp_trivial _ start) (fun retried middle _ => awaits retried rounds failures middle)
          fun _ _ _ => trivial
      unfold completeJobFrom
      split
      · rename_i succeeded
        rw [wp_bind]
        have checked : wp (revalidateJobContext (segmentJobContext context segment revalidate) current)
            (fun _ after => Revalidated after.log segment current) (fun _ _ => True) world := by
          unfold revalidateJobContext
          rw [wp_bind]
          refine wp_mono (wp_answered steady answered) (fun _ middle inside => ?_) fun _ _ _ => trivial
          rw [wp_bind]
          refine wp_mono (revalidateExpectedSnapshot_revalidates steady succeeded matching inside)
            (fun _ later revalidated => ?_) fun _ _ _ => trivial
          exact wp_revalidated steady revalidated
        refine wp_mono checked (fun _ middle revalidated => ?_) fun _ _ _ => trivial
        rw [wp_bind]
        refine wp_mono (wp_revalidated forgetProvider_steady revalidated)
          (fun _ later holds => ?_) fun _ _ _ => trivial
        rw [wp_pure]
        exact fun _ => holds
      · exact trivial
      · rename_i failed
        rw [wp_bind]
        refine wp_mono (wp_trivial _ world) (fun _ middle _ => ?_) fun _ _ _ => trivial
        split
        · rw [wp_bind]
          exact wp_mono (wp_trivial _ middle) (fun _ later _ => retries _ _ later) fun _ _ _ => trivial
        · split
          · rw [wp_bind]
            refine wp_mono (wp_trivial _ middle) (fun _ later _ => ?_) fun _ _ _ => trivial
            rw [wp_pure]
            intro succeeded
            rw [failed] at succeeded
            cases succeeded
          · exact retries _ _ middle
      · exact awaits current _ _ world
      · exact awaits current _ _ world

theorem completeJob_revalidates (wellPlanned : WellPlanned context segment)
    {revalidate : Script Unit} (steady : Keeps Steady revalidate) (fuel : Nat)
    {job : ReflectionJob} (matching : Matches segment job) {world : World}
    (answered : .answered job ∈ world.log) :
    wp (completeJob fuel (segmentJobContext context segment revalidate) job)
      (fun result after => result.status = .succeeded → Revalidated after.log segment result)
      (fun _ _ => True) world := by
  unfold completeJob
  rw [wp_bind]
  refine wp_mono (wp_answered ((segmentJobContext_steady context segment steady).validateJob job)
    answered)
    (fun _ middle inside => ?_) fun _ _ _ => trivial
  exact completeJobFrom_revalidates wellPlanned steady fuel 0 0 matching inside

end Jobs

/-! ### Segments of a plan -/

section Segments

variable {library : Segmentation} {context : ProcessingContext library} {segment : PlannedSegment}

theorem attemptRecorded {sessionId : Option JsString} {job : Option ReflectionJob} {key : SnapshotKey}
    {world : World} {α : Type} {next : Script α} {ok : α → World → Prop}
    {fail : BackfillError → World → Prop}
    (later : ∀ after : World, 0 < after.state.segmentsFailed → wp next ok fail after) :
    wp (do
      addAttempted key
      recordFailure sessionId (some segment) job
      next) ok fail world := by
  rw [wp_bind, addAttempted, wp_modify, wp_bind, recordFailure, updateState, wp_modify]
  exact later _ (Nat.succ_pos _)

/-- A projection upgrade ends with a recorded failure or with the job it was given or replayed. -/
theorem upgradeProjection_revalidates (wellPlanned : WellPlanned context segment) (fuel : Nat)
    (session : SessionRow) (observedUpdatedAt : Int) (replays : Nat) {completed : ReflectionJob}
    (wasAlreadySucceeded : Bool) {world : World}
    (known : completed.status = .succeeded → Revalidated world.log segment completed) :
    wp (upgradeProjection context fuel session observedUpdatedAt segment replays completed
        wasAlreadySucceeded)
      (fun result after =>
        if result.2.2 then 0 < after.state.segmentsFailed
        else result.1.status = .succeeded → JobConfirms after.log segment result.1)
      (fun _ _ => True) world := by
  have done : ∀ job : ReflectionJob, ∀ already : Bool, ∀ start : World,
      (job.status = .succeeded → Revalidated start.log segment job) →
      ¬ (job.status = .succeeded ∧ job.projectionVersion < segment.submission.projectionVersion) →
      wp (pure (job, already, false) : Script (ReflectionJob × Bool × Bool))
        (fun result after =>
          if result.2.2 then 0 < after.state.segmentsFailed
          else result.1.status = .succeeded → JobConfirms after.log segment result.1)
        (fun _ _ => True) start := by
    intro job already start holds notLower
    rw [wp_pure, if_neg Bool.false_ne_true]
    intro succeeded
    exact ⟨succeeded, not_lt.mp fun lower => notLower ⟨succeeded, lower⟩, holds succeeded⟩
  have revalidates := revalidateSession_steady context session.id observedUpdatedAt
  induction replays generalizing completed wasAlreadySucceeded world with
  | zero =>
      unfold upgradeProjection
      split
      · exact attemptRecorded fun after recorded => recorded
      · rename_i notLower
        exact done completed wasAlreadySucceeded world known notLower
  | succ replays ih =>
      unfold upgradeProjection
      split
      · rw [wp_bind]
        refine wp_mono (wp_trivial _ world) (fun _ first _ => ?_) fun _ _ _ => trivial
        rw [wp_bind]
        refine wp_mono (submitSegment_matches wellPlanned first) (fun job second submitted => ?_)
          fun _ _ _ => trivial
        rw [wp_bind]
        exact wp_mono (completeJob_revalidates wellPlanned revalidates fuel submitted.1 submitted.2)
          (fun next third revalidated => ih _ revalidated) fun _ _ _ => trivial
      · rename_i notLower
        exact done completed wasAlreadySucceeded world known notLower

/-- Submitting a segment ends with a job that confirms it or with a recorded failure. -/
theorem submitAndComplete_confirms (wellPlanned : WellPlanned context segment) (fuel : Nat)
    (session : SessionRow) (observedUpdatedAt : Int) (world : World) :
    wp (submitAndComplete context fuel session observedUpdatedAt segment)
      (fun _ after => after.state.segmentsFailed = 0 → ∃ job, JobConfirms after.log segment job)
      (fun _ _ => True) world := by
  have revalidates := revalidateSession_steady context session.id observedUpdatedAt
  have failed : ∀ start : World, 0 < start.state.segmentsFailed →
      wp (revalidateSession context session.id observedUpdatedAt)
        (fun _ after => after.state.segmentsFailed = 0 → ∃ job, JobConfirms after.log segment job)
        (fun _ _ => True) start := by
    intro start recorded
    refine wp_mono (revalidates start) (fun _ after reached none => ?_) fun _ _ _ => trivial
    have more := reached.failed
    omega
  unfold submitAndComplete
  rw [wp_bind]
  refine wp_mono (submitSegment_matches wellPlanned world) (fun job first submitted => ?_)
    fun _ _ _ => trivial
  rw [wp_bind]
  refine wp_mono (completeJob_revalidates wellPlanned revalidates fuel submitted.1 submitted.2)
    (fun completed second revalidated => ?_) fun _ _ _ => trivial
  rw [wp_bind]
  refine wp_mono (upgradeProjection_revalidates wellPlanned fuel session observedUpdatedAt _ _
    revalidated) (fun result third upgraded => ?_) fun _ _ _ => trivial
  obtain ⟨last, already, upgradeFailed⟩ := result
  dsimp only at upgraded ⊢
  split
  · rename_i isFailed
    rw [if_pos isFailed] at upgraded
    exact failed third upgraded
  · rename_i notFailed
    rw [if_neg notFailed] at upgraded
    split
    · rename_i succeeded
      have confirms := upgraded succeeded
      rw [wp_bind, updateState, wp_modify, wp_bind, addCompleted, wp_modify]
      have kept := @wp_grows _ _ revalidates { third with
          state := if already then
              { third.state with
                segmentsAlreadySucceeded := third.state.segmentsAlreadySucceeded + 1 }
            else { third.state with segmentsSucceeded := third.state.segmentsSucceeded + 1 }
          completedSnapshots := snapshotKey segment :: third.completedSnapshots }
        (fun log => JobConfirms log segment last) (fun _ _ holds => holds.append) confirms
      exact wp_mono kept (fun _ after holds _ => ⟨last, holds⟩) fun _ _ _ => trivial
    · exact attemptRecorded fun after recorded => failed after recorded

/-- A processed segment needs no work, or a job confirms it, unless a failure was recorded. -/
theorem processSegment_confirms (wellPlanned : WellPlanned context segment) (fuel : Nat)
    (session : SessionRow) (observedUpdatedAt : Int) (index : Nat) {world : World}
    (counted : AttemptedCounted world) :
    wp (processSegment context fuel session observedUpdatedAt index segment)
      (fun _ after => after.state.segmentsFailed = 0 →
        isDone segment = true ∨ ∃ job, JobConfirms after.log segment job)
      (fun _ _ => True) world := by
  unfold processSegment
  rw [wp_bind, wp_get]
  split
  · rename_i skipped
    rw [wp_pure]
    exact fun _ => .inl (Bool.and_eq_true_iff.mp skipped).2
  · rw [wp_bind, deleteCompleted, wp_modify, wp_bind, wp_get]
    split
    · rename_i attempted
      rw [wp_pure]
      intro none
      have found := (Bool.and_eq_true_iff.mp attempted).1
      have nonempty : world.attemptedSnapshots ≠ [] := by
        intro empty
        change world.attemptedSnapshots.contains (snapshotKey segment) = true at found
        rw [empty] at found
        cases found
      have recorded := counted nonempty
      change world.state.segmentsFailed = 0 at none
      omega
    · rw [wp_bind, deleteAttempted, wp_modify, wp_bind, wp_modify, wp_bind, updateState, wp_modify, wp_bind]
      refine wp_mono (wp_trivial _ _) (fun _ after _ => ?_) fun _ _ _ => trivial
      split
      · rename_i done
        rw [wp_bind, updateState, wp_modify, addCompleted, wp_modify]
        exact fun _ => .inl done
      · exact wp_mono (submitAndComplete_confirms wellPlanned fuel session observedUpdatedAt after)
          (fun _ last confirms none => .inr (confirms none)) fun _ _ _ => trivial

/-- Where no segment had to be deferred, each needs no work or has a job that confirms it. -/
theorem processSegments_confirms (fuel : Nat) (session : SessionRow) (observedUpdatedAt : Int)
    (index : Nat) {segments : List PlannedSegment}
    (wellPlanned : ∀ segment ∈ segments, WellPlanned context segment) {world : World}
    (counted : AttemptedCounted world) :
    wp (processSegments context fuel session observedUpdatedAt index segments)
      (fun result after => result = none → after.state.segmentsFailed = 0 →
        ∀ segment ∈ segments, isDone segment = true ∨ ∃ job, JobConfirms after.log segment job)
      (fun _ _ => True) world := by
  induction segments generalizing index world with
  | nil =>
      intro _ _ segment inside
      cases inside
  | cons segment rest ih =>
      unfold processSegments
      split
      · rw [wp_pure]
        exact nofun
      · rw [wp_bind]
        have first := wp_steady (processSegment_steady context fuel session observedUpdatedAt index segment)
          (processSegment_confirms (wellPlanned segment List.mem_cons_self) fuel session observedUpdatedAt
            index counted)
        refine wp_mono first (fun _ middle both => ?_) fun _ _ _ => trivial
        obtain ⟨own, reached⟩ := both
        have others := wp_steady (processSegments_steady context fuel session observedUpdatedAt (index + 1)
          rest) (ih (index + 1) (fun other inside => wellPlanned other (List.mem_cons_of_mem _ inside))
            (reached.counted counted))
        refine wp_mono others (fun result after both isNone none => ?_) fun _ _ _ => trivial
        obtain ⟨confirmed, later⟩ := both
        have earlier : middle.state.segmentsFailed = 0 := by
          have more := later.failed
          omega
        refine List.forall_mem_cons.mpr ⟨?_, confirmed isNone none⟩
        rcases own earlier with done | ⟨job, confirms⟩
        · exact .inl done
        · obtain ⟨more, isMore, _⟩ := later.log
          rw [isMore]
          exact .inr ⟨job, confirms.append⟩

end Segments

end Reflection.Backfill
