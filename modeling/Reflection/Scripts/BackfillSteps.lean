/-
What every step of the backfill script keeps.

Whichever way a step ends, it only adds to the log, forgets no failure, and leaves a snapshot
among the attempted ones only when a failure was recorded. Steps inside a session add nothing to
the log but answers and readings and count no session as visited.
-/

import Reflection.Scripts.Backfill

namespace Reflection.Backfill

open JsString

/-- An answer of the service or a manifest that was read. -/
def Event.Quiet : Event → Prop
  | .answered _ => True
  | .manifestRead _ => True
  | _ => False

/-- A snapshot is only attempted where a failure was recorded. -/
def AttemptedCounted (world : World) : Prop :=
  world.attemptedSnapshots ≠ [] → 0 < world.state.segmentsFailed

/-- The relation of the worlds before and behind a step inside a session. -/
structure Steady (before after : World) : Prop where
  log : ∃ more, after.log = before.log ++ more ∧ ∀ event ∈ more, event.Quiet
  failed : before.state.segmentsFailed ≤ after.state.segmentsFailed
  visited : after.state.sessionsVisited = before.state.sessionsVisited
  counted : AttemptedCounted before → AttemptedCounted after

namespace Steady

theorem of_same {before after : World} (log : after.log = before.log)
    (failed : before.state.segmentsFailed ≤ after.state.segmentsFailed)
    (visited : after.state.sessionsVisited = before.state.sessionsVisited)
    (counted : AttemptedCounted before → AttemptedCounted after) : Steady before after :=
  { log := ⟨[], by rw [log, List.append_nil], fun event inside => (nomatch inside)⟩
    failed := failed
    visited := visited
    counted := counted }

instance : Std.Refl Steady := ⟨fun _ => of_same rfl (Nat.le_refl _) rfl id⟩

instance : IsTrans World Steady where
  trans before middle after first second := by
    obtain ⟨early, isEarly, quietEarly⟩ := first.log
    obtain ⟨late, isLate, quietLate⟩ := second.log
    refine
      { log := ⟨early ++ late, by rw [isLate, isEarly, List.append_assoc], fun event inside => ?_⟩
        failed := first.failed.trans second.failed
        visited := second.visited.trans first.visited
        counted := fun holds => second.counted (first.counted holds) }
    rcases List.mem_append.mp inside with one | other
    · exact quietEarly event one
    · exact quietLate event other

end Steady

/-! ### Effects -/

section Effects

variable {α : Type}

theorem ask_steady (answer : Nat → α) : Keeps Steady (ask answer) := by
  intro world
  exact Steady.of_same rfl (Nat.le_refl _) rfl id

theorem lift_steady (result : Except BackfillError α) : Keeps Steady (lift result) := by
  cases result with
  | ok value => exact Keeps.pure value
  | error error => exact Keeps.throw error

theorem attempt_steady (answer : Nat → Except BackfillError α) : Keeps Steady (attempt answer) :=
  Keeps.bind (ask_steady answer) lift_steady

theorem note_steady {event : Event} (quiet : event.Quiet) : Keeps Steady (note event) := by
  intro world
  refine
    { log := ⟨[event], rfl, fun other inside => ?_⟩
      failed := Nat.le_refl _
      visited := rfl
      counted := id }
  rw [List.mem_singleton.mp inside]
  exact quiet

theorem updateState_steady {change : BackfillState → BackfillState}
    (failed : ∀ state, state.segmentsFailed ≤ (change state).segmentsFailed)
    (visited : ∀ state, (change state).sessionsVisited = state.sessionsVisited) :
    Keeps Steady (updateState change) := by
  intro world
  refine Steady.of_same rfl (failed world.state) (visited world.state) fun counted attempted => ?_
  exact lt_of_lt_of_le (counted attempted) (failed world.state)

theorem contractLifted_steady (result : Except ContractValidationError α) :
    Keeps Steady (contractLifted result) := by
  cases result with
  | ok value => exact Keeps.pure value
  | error error => exact Keeps.throw _

theorem identityLifted_steady (result : Except IdentityError α) :
    Keeps Steady (identityLifted result) := by
  cases result with
  | ok value => exact Keeps.pure value
  | error error => exact Keeps.throw _

theorem manifestLifted_steady (result : Except PlanError α) :
    Keeps Steady (manifestLifted result) := by
  cases result with
  | ok value => exact Keeps.pure value
  | error error => exact Keeps.throw _

theorem recordFailure_steady (sessionId : Option JsString) (segment : Option PlannedSegment)
    (job : Option ReflectionJob) : Keeps Steady (recordFailure sessionId segment job) :=
  updateState_steady (fun _ => Nat.le_succ _) fun _ => rfl

theorem addCompleted_steady (key : SnapshotKey) : Keeps Steady (addCompleted key) :=
  Keeps.modify fun _ => Steady.of_same rfl (Nat.le_refl _) rfl id

theorem deleteCompleted_steady (key : SnapshotKey) : Keeps Steady (deleteCompleted key) :=
  Keeps.modify fun _ => Steady.of_same rfl (Nat.le_refl _) rfl id

theorem deleteAttempted_steady (key : SnapshotKey) : Keeps Steady (deleteAttempted key) := by
  refine Keeps.modify fun world => Steady.of_same rfl (Nat.le_refl _) rfl fun counted attempted => ?_
  refine counted fun empty => attempted ?_
  change world.attemptedSnapshots.filter _ = []
  rw [empty]
  rfl

/-- A snapshot is attempted and its failure recorded before anything else happens. -/
theorem addAttempted_steady (key : SnapshotKey) (sessionId : Option JsString)
    (segment : Option PlannedSegment) (job : Option ReflectionJob) {next : Script α}
    (later : Keeps Steady next) :
    Keeps Steady (do
      addAttempted key
      recordFailure sessionId segment job
      next) := by
  intro world
  rw [wp_bind, addAttempted, wp_modify, wp_bind, recordFailure, updateState, wp_modify]
  have recorded : Steady world
      { world with
        attemptedSnapshots := key :: world.attemptedSnapshots
        state := recordFailureInState sessionId segment job world.state } :=
    Steady.of_same rfl (Nat.le_succ _) rfl fun _ _ => Nat.succ_pos _
  exact wp_mono (later _) (fun _ after reached => IsTrans.trans world _ after recorded reached)
    (fun _ after reached => IsTrans.trans world _ after recorded reached)

end Effects

/-! ### Jobs -/

theorem clearProvider_steady : Keeps Steady clearProvider :=
  updateState_steady (fun _ => Nat.le_refl _) fun _ => rfl

theorem forgetProvider_steady : Keeps Steady forgetProvider :=
  Keeps.bind Keeps.get fun _ => Keeps.ite (fun _ => clearProvider_steady) fun _ => Keeps.pure _

/-- The checks of a job and the service keep what every step keeps. -/
structure CompleteJobContext.IsSteady (context : CompleteJobContext) : Prop where
  retryJob : ∀ jobId, Keeps Steady (context.retryJob jobId)
  waitForJob : ∀ job, Keeps Steady (context.waitForJob job)
  validateJob : ∀ job, Keeps Steady (context.validateJob job)
  revalidateSession : Keeps Steady context.revalidateSession
  revalidateExpectedSnapshot : ∀ job, Keeps Steady (context.revalidateExpectedSnapshot job)

section Jobs

variable {context : CompleteJobContext} (steady : context.IsSteady)

include steady

theorem revalidateJobContext_steady (job : ReflectionJob) :
    Keeps Steady (revalidateJobContext context job) :=
  Keeps.bind steady.revalidateSession fun _ =>
    Keeps.bind (steady.revalidateExpectedSnapshot job) fun _ => steady.revalidateSession

theorem waitRemaining_steady (interval rounds remaining : Nat) :
    Keeps Steady (waitRemaining context.revalidateSession interval rounds remaining) := by
  induction rounds generalizing remaining with
  | zero => exact Keeps.pure ()
  | succ rounds ih =>
      refine Keeps.ite (fun _ => Keeps.pure ()) fun _ => ?_
      refine Keeps.bind ?_ fun _ => ih _
      exact Keeps.bind steady.revalidateSession fun _ =>
        Keeps.bind (ask_steady _) fun _ => steady.revalidateSession

theorem waitForUnavailableProvider_steady (job : ReflectionJob) :
    Keeps Steady (waitForUnavailableProvider context job) := by
  have waited : Keeps Steady (waitForProvider context job) :=
    Keeps.bind (waitRemaining_steady steady _ _ _) fun _ => revalidateJobContext_steady steady job
  refine Keeps.bind (updateState_steady (fun _ => Nat.le_refl _) fun _ => rfl) fun _ => ?_
  refine Keeps.bind ?_ fun _ => clearProvider_steady
  exact Keeps.tryCatch waited fun error => Keeps.bind clearProvider_steady fun _ => Keeps.throw error

theorem waitForRepeatedFailure_steady (providerFailures : Nat) (job : ReflectionJob) :
    Keeps Steady (waitForRepeatedFailure context providerFailures job) :=
  Keeps.ite (fun _ => waitForUnavailableProvider_steady steady job) fun _ => Keeps.pure ()

theorem retryFailedJob_steady (job : ReflectionJob) : Keeps Steady (retryFailedJob context job) :=
  Keeps.bind (steady.retryJob job.id) fun current =>
    Keeps.bind (steady.validateJob current) fun _ =>
      Keeps.bind steady.revalidateSession fun _ => Keeps.pure current

theorem awaitJob_steady (job : ReflectionJob) : Keeps Steady (awaitJob context job) :=
  Keeps.bind steady.revalidateSession fun _ =>
    Keeps.bind (steady.waitForJob job) fun current =>
      Keeps.bind (steady.validateJob current) fun _ =>
        Keeps.bind steady.revalidateSession fun _ => Keeps.pure current

theorem completeJobFrom_steady (fuel nonProviderRounds providerFailures : Nat) (current : ReflectionJob) :
    Keeps Steady (completeJobFrom context fuel nonProviderRounds providerFailures current) := by
  induction fuel generalizing nonProviderRounds providerFailures current with
  | zero => exact Keeps.throw _
  | succ fuel ih =>
      have again : ∀ rounds failures, Keeps Steady (do
          let retried ← retryFailedJob context current
          let next ← awaitJob context retried
          completeJobFrom context fuel rounds failures next) := fun rounds failures =>
        Keeps.bind (retryFailedJob_steady steady current) fun retried =>
          Keeps.bind (awaitJob_steady steady retried) fun next => ih rounds failures next
      unfold completeJobFrom
      split
      · exact Keeps.bind (revalidateJobContext_steady steady current) fun _ =>
          Keeps.bind forgetProvider_steady fun _ => Keeps.pure current
      · exact Keeps.throw _
      · refine Keeps.bind (revalidateJobContext_steady steady current) fun _ => ?_
        refine Keeps.ite (fun _ => ?_) fun _ => Keeps.ite (fun _ => ?_) fun _ => again _ _
        · exact Keeps.bind (waitForRepeatedFailure_steady steady _ current) fun _ => again _ _
        · exact Keeps.bind (revalidateJobContext_steady steady current) fun _ => Keeps.pure current
      · exact Keeps.bind (awaitJob_steady steady current) fun next => ih _ _ next
      · exact Keeps.bind (awaitJob_steady steady current) fun next => ih _ _ next

theorem completeJob_steady (fuel : Nat) (job : ReflectionJob) :
    Keeps Steady (completeJob fuel context job) :=
  Keeps.bind (steady.validateJob job) fun _ => completeJobFrom_steady steady fuel 0 0 job

end Jobs

/-! ### Sessions and segments -/

section Processing

variable {library : Segmentation} (context : ProcessingContext library)

theorem retryJob_steady (jobId : Int) : Keeps Steady (retryJob context jobId) :=
  Keeps.bind (attempt_steady _) fun job => Keeps.bind (note_steady trivial) fun _ => Keeps.pure job

theorem waitForJob_steady (current : ReflectionJob) : Keeps Steady (waitForJob context current) :=
  Keeps.bind (attempt_steady _) fun job => Keeps.bind (note_steady trivial) fun _ => Keeps.pure job

theorem validateJobForSubmission_steady (job : ReflectionJob) (submission : SegmentCreate) :
    Keeps Steady (validateJobForSubmission context job submission) :=
  Keeps.bind (identityLifted_steady _) fun _ =>
    Keeps.ite (fun _ => Keeps.pure ()) fun _ => Keeps.throw _

theorem validatedJob_steady (answer : Option ReflectionJob) :
    Keeps Steady (validatedJob context answer) := by
  cases answer with
  | none => exact Keeps.throw _
  | some job =>
      exact Keeps.bind (contractLifted_steady _) fun _ =>
        Keeps.ite (fun _ => Keeps.pure job) fun _ => Keeps.throw _

theorem submitSegment_steady (submission : SegmentCreate) :
    Keeps Steady (submitSegment context submission) :=
  Keeps.bind (attempt_steady _) fun answer =>
    Keeps.bind (validatedJob_steady context answer) fun job =>
      Keeps.bind (note_steady trivial) fun _ =>
        Keeps.bind (validateJobForSubmission_steady context job submission) fun _ => Keeps.pure job

theorem sessionRemainsStable_steady (sessionId : JsString) (observedUpdatedAt : Int) :
    Keeps Steady (sessionRemainsStable context sessionId observedUpdatedAt) := by
  refine Keeps.bind (ask_steady _) fun current => ?_
  cases current with
  | none => exact Keeps.pure false
  | some currentUpdatedAt =>
      exact Keeps.ite (fun _ => Keeps.bind (ask_steady _) fun _ => Keeps.pure _) fun _ => Keeps.pure _

theorem revalidateSession_steady (sessionId : JsString) (observedUpdatedAt : Int) :
    Keeps Steady (revalidateSession context sessionId observedUpdatedAt) :=
  Keeps.bind (sessionRemainsStable_steady context sessionId observedUpdatedAt) fun _ =>
    Keeps.ite (fun _ => Keeps.pure ()) fun _ => Keeps.throw _

theorem stableSessionSnapshot_steady (sessionId : JsString) :
    Keeps Steady (stableSessionSnapshot context sessionId) := by
  refine Keeps.bind (ask_steady _) fun before => ?_
  cases before with
  | none => exact Keeps.pure _
  | some beforeUpdatedAt =>
      refine Keeps.bind (ask_steady _) fun now => Keeps.ite (fun _ => Keeps.pure _) fun _ => ?_
      refine Keeps.bind (attempt_steady _) fun messages => Keeps.bind (ask_steady _) fun after => ?_
      cases after with
      | none => exact Keeps.pure _
      | some afterUpdatedAt =>
          refine Keeps.ite (fun _ => Keeps.pure _) fun _ => Keeps.bind (ask_steady _) fun later => ?_
          exact Keeps.ite (fun _ => Keeps.pure _) fun _ => Keeps.pure _

theorem revalidateExpectedSnapshot_steady (segment : PlannedSegment) {revalidate : Script Unit}
    (steady : Keeps Steady revalidate) (job : ReflectionJob) :
    Keeps Steady (revalidateExpectedSnapshot context segment revalidate job) :=
  Keeps.bind steady fun _ => Keeps.bind (attempt_steady _) fun _ =>
    Keeps.bind (manifestLifted_steady _) fun _ => Keeps.bind (note_steady trivial) fun _ =>
      Keeps.bind steady fun _ => Keeps.ite (fun _ => Keeps.pure ()) fun _ => Keeps.throw _

theorem segmentJobContext_steady (segment : PlannedSegment) {revalidate : Script Unit}
    (steady : Keeps Steady revalidate) : (segmentJobContext context segment revalidate).IsSteady :=
  { retryJob := retryJob_steady context
    waitForJob := waitForJob_steady context
    validateJob := fun job => validateJobForSubmission_steady context job segment.submission
    revalidateSession := steady
    revalidateExpectedSnapshot := revalidateExpectedSnapshot_steady context segment steady }

theorem priorityJobContext_steady : (priorityJobContext context).IsSteady :=
  { retryJob := retryJob_steady context
    waitForJob := waitForJob_steady context
    validateJob := fun _ => Keeps.pure ()
    revalidateSession := Keeps.pure ()
    revalidateExpectedSnapshot := fun _ => Keeps.pure () }

theorem processPriorityJob_steady (fuel : Nat) (jobId : Int) :
    Keeps Steady (processPriorityJob context fuel jobId) := by
  have added : ∀ key : Option SnapshotKey, Keeps Steady (key.forM addCompleted) := by
    intro key
    cases key with
    | none => exact Keeps.pure _
    | some key => exact addCompleted_steady key
  refine Keeps.bind (attempt_steady _) fun job => Keeps.ite (fun _ => added _) fun _ => ?_
  refine Keeps.bind (completeJob_steady (priorityJobContext_steady context) fuel job) fun completed => ?_
  refine Keeps.ite (fun _ => ?_) fun _ => added _
  cases priorityKey job with
  | none => exact Keeps.bind (Keeps.pure _) fun _ => recordFailure_steady _ _ _
  | some key => exact addAttempted_steady key none none (some completed) (Keeps.pure _)

theorem processPriorityJobs_steady (fuel : Nat) (jobIds : List Int) :
    Keeps Steady (processPriorityJobs context fuel jobIds) := by
  induction jobIds with
  | nil => exact Keeps.pure ()
  | cons jobId rest ih =>
      refine Keeps.bind (Keeps.tryCatch (processPriorityJob_steady context fuel jobId) fun error => ?_)
        fun _ => ih
      exact Keeps.ite (fun _ => Keeps.pure _) fun _ => Keeps.throw _

theorem upgradeProjection_steady (fuel : Nat) (session : SessionRow) (observedUpdatedAt : Int)
    (segment : PlannedSegment) (replays : Nat) (completed : ReflectionJob) (wasAlreadySucceeded : Bool) :
    Keeps Steady (upgradeProjection context fuel session observedUpdatedAt segment replays completed
      wasAlreadySucceeded) := by
  have revalidates := revalidateSession_steady context session.id observedUpdatedAt
  induction replays generalizing completed wasAlreadySucceeded with
  | zero =>
      unfold upgradeProjection
      exact Keeps.ite (fun _ => addAttempted_steady _ _ _ _ (Keeps.pure _)) fun _ => Keeps.pure _
  | succ replays ih =>
      unfold upgradeProjection
      refine Keeps.ite (fun _ => ?_) fun _ => Keeps.pure _
      exact Keeps.bind revalidates fun _ => Keeps.bind (submitSegment_steady context _) fun job =>
        Keeps.bind (completeJob_steady (segmentJobContext_steady context segment revalidates) fuel job)
          fun next => ih next _

theorem submitAndComplete_steady (fuel : Nat) (session : SessionRow) (observedUpdatedAt : Int)
    (segment : PlannedSegment) :
    Keeps Steady (submitAndComplete context fuel session observedUpdatedAt segment) := by
  have revalidates := revalidateSession_steady context session.id observedUpdatedAt
  refine Keeps.bind (submitSegment_steady context _) fun job => Keeps.bind
    (completeJob_steady (segmentJobContext_steady context segment revalidates) fuel job) fun first => ?_
  refine Keeps.bind (upgradeProjection_steady context fuel session observedUpdatedAt segment _ first _)
    fun result => ?_
  refine Keeps.ite (fun _ => revalidates) fun _ => Keeps.ite (fun _ => ?_) fun _ => ?_
  · refine Keeps.bind (updateState_steady (fun state => ?_) fun state => ?_) fun _ =>
      Keeps.bind (addCompleted_steady _) fun _ => revalidates
    · split <;> exact Nat.le_refl _
    · split <;> rfl
  · exact addAttempted_steady _ _ _ _ revalidates

theorem processSegment_steady (fuel : Nat) (session : SessionRow) (observedUpdatedAt : Int) (index : Nat)
    (segment : PlannedSegment) :
    Keeps Steady (processSegment context fuel session observedUpdatedAt index segment) := by
  refine Keeps.bind Keeps.get fun _ => Keeps.ite (fun _ => Keeps.pure ()) fun _ => ?_
  refine Keeps.bind (deleteCompleted_steady _) fun _ => Keeps.bind Keeps.get fun _ => ?_
  refine Keeps.ite (fun _ => Keeps.pure ()) fun _ => Keeps.bind (deleteAttempted_steady _) fun _ => ?_
  refine Keeps.bind (Keeps.modify fun _ => Steady.of_same rfl (Nat.le_refl _) rfl id) fun _ => ?_
  refine Keeps.bind (updateState_steady (fun _ => Nat.le_refl _) fun _ => rfl) fun _ => ?_
  refine Keeps.bind (revalidateSession_steady context session.id observedUpdatedAt) fun _ => ?_
  refine Keeps.ite (fun _ => ?_) fun _ =>
    submitAndComplete_steady context fuel session observedUpdatedAt segment
  exact Keeps.bind (updateState_steady (fun _ => Nat.le_refl _) fun _ => rfl) fun _ =>
    addCompleted_steady _

theorem processSegments_steady (fuel : Nat) (session : SessionRow) (observedUpdatedAt : Int) (index : Nat)
    (segments : List PlannedSegment) :
    Keeps Steady (processSegments context fuel session observedUpdatedAt index segments) := by
  induction segments generalizing index with
  | nil => exact Keeps.pure none
  | cons segment rest ih =>
      refine Keeps.ite (fun _ => Keeps.pure _) fun _ => ?_
      exact Keeps.bind (processSegment_steady context fuel session observedUpdatedAt index segment)
        fun _ => ih _

end Processing

end Reflection.Backfill
