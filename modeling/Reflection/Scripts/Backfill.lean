/-
The backfill script as a program over its surroundings.

Everything the run meets is an answer of its surroundings that may differ from one moment to the
next: the update times and messages of a session, the clock, and what the service returns or
fails with. A moment is the number of answers so far. The log of the run is not the script's: it
keeps what was answered and decided, in order, for the results to speak about. Loops that only the
surroundings end take fuel, and a run that spends it has not finished. The texts of errors and
what is written for display are left out.
-/

import Reflection.Foundation.Effects
import Reflection.Scripts.SegmentPlan

namespace Reflection.Backfill

open JsString

def INACTIVE_MS : Int := 600000

def MAX_PROJECTION_UPGRADE_REPLAYS : Nat := 2

def MAX_NON_PROVIDER_JOB_ROUNDS : Nat := 2

/-! ### Data -/

structure SessionRow where
  id : JsString
  title : Option JsString
  timeUpdated : Int
deriving DecidableEq

inductive BackfillStatus
  | starting
  | running
  | waitingForProvider
  | waitingForSessionInactivity
  | completed
  | completedWithFailures
  | failed
deriving DecidableEq

structure BackfillFailure where
  sessionId : Option JsString
  segment : Option (SpanKey × JsString)
  jobId : Option Int
deriving DecidableEq

inductive BackfillError
  /-- SessionRevisionChangedError -/
  | revisionChanged (sessionId : JsString)
  /-- SessionReplanRequiredError -/
  | replanRequired
  /-- SupersededJobError, a SessionReplanRequiredError -/
  | superseded (jobId : Int)
  /-- SessionPlanningError -/
  | planning (sessionId : JsString) (cause : PlanError)
  /-- ReflectionHttpError -/
  | http (status : Nat)
  | contract (error : ContractValidationError)
  | identity (error : IdentityError)
  | manifest (error : PlanError)
  | other
  /-- no error of the script: the fuel of a loop is spent -/
  | unfinished
deriving DecidableEq

def BackfillError.isReplanRequired : BackfillError → Bool
  | .replanRequired => true
  | .superseded _ => true
  | _ => false

structure BackfillState where
  status : BackfillStatus
  sessionsTotal : Nat
  sessionsVisited : Nat
  segmentsDiscovered : Nat
  segmentsSucceeded : Nat
  segmentsAlreadySucceeded : Nat
  segmentsFailed : Nat
  currentSessionId : Option JsString
  currentSessionTitle : Option JsString
  currentSegment : Option (Nat × PlannedSegment)
  providerStatus : Option ReflectionJob
  failures : List BackfillFailure
  deferredSessions : Nat
  fatalError : Option BackfillError

def createInitialState : BackfillState :=
  { status := .starting
    sessionsTotal := 0
    sessionsVisited := 0
    segmentsDiscovered := 0
    segmentsSucceeded := 0
    segmentsAlreadySucceeded := 0
    segmentsFailed := 0
    currentSessionId := none
    currentSessionTitle := none
    currentSegment := none
    providerStatus := none
    failures := []
    deferredSessions := 0
    fatalError := none }

inductive ProcessSessionOutcome
  | completed
  | deferred
  | deferredSource
  | replan
  | failed
deriving DecidableEq

/-- A segment, its fingerprint and its projection version. The ids are UUIDs, so that the text
that joins the three with colons is the triple. -/
abbrev SnapshotKey := SegmentName × JsString × Int

inductive Event
  /-- a plan was made for a session from a manifest -/
  | planned (sessionId : JsString) (manifest : SegmentManifest) (segments : List PlannedSegment)
  /-- the service answered a job -/
  | answered (job : ReflectionJob)
  /-- a manifest was read to check a job against it -/
  | manifestRead (manifest : SegmentManifest)
  /-- processing a session ended; the flag says that the session still existed -/
  | outcome (sessionId : JsString) (outcome : ProcessSessionOutcome) (exist : Bool)
  /-- the final cleanup was scheduled -/
  | cleanup

structure World where
  moment : Nat
  state : BackfillState
  completedSnapshots : List SnapshotKey
  attemptedSnapshots : List SnapshotKey
  /-- A local variable of processing a session that its handler reads. -/
  activeSegment : Option PlannedSegment
  log : List Event

/-- A program of the script: it ends in a result or an error and leaves a world. -/
abbrev Script := EStateM BackfillError World

/-- The service answers with a body or fails; a body of another shape is none. -/
structure Surroundings (library : Segmentation) where
  sessionUpdatedAt : Nat → JsString → Option Int
  sessionMessages : Nat → JsString → Except BackfillError (List library.Message)
  nowMs : Nat → Int
  requestSegments : Nat → JsString → Except BackfillError (Option SegmentManifest)
  postSegment : Nat → SegmentCreate → Except BackfillError (Option ReflectionJob)
  getJob : Nat → Int → Except BackfillError ReflectionJob
  retryJob : Nat → Int → Except BackfillError ReflectionJob
  waitForJob : Nat → ReflectionJob → Except BackfillError ReflectionJob
  acquireLock : Except BackfillError Unit
  scheduleLaunchAgentCleanup : Except BackfillError Unit

structure ProcessingContext (library : Segmentation) where
  sha256 : JsString → JsString
  surroundings : Surroundings library
  sessions : List SessionRow
  source : SourceInfo
  providerPollMs : Nat
  jobPollMs : Nat
  priorityJobIds : List Int
  maxMutableSourceDeferralMs : Int
  allowFailures : Bool

/-! ### Effects -/

/-- One answer of the surroundings. -/
def ask {α : Type} (answer : Nat → α) : Script α := do
  let world ← get
  set { world with moment := world.moment + 1 }
  pure (answer world.moment)

def lift {α : Type} : Except BackfillError α → Script α
  | .ok value => pure value
  | .error error => throw error

def attempt {α : Type} (answer : Nat → Except BackfillError α) : Script α := do
  lift (← ask answer)

def note (event : Event) : Script Unit :=
  modify fun world => { world with log := world.log ++ [event] }

def updateState (change : BackfillState → BackfillState) : Script Unit :=
  modify fun world => { world with state := change world.state }

/-- Time passes. -/
def sleep : Script Unit := ask fun _ => ()

def contractLifted {α : Type} : Except ContractValidationError α → Script α
  | .ok value => pure value
  | .error error => throw (.contract error)

def identityLifted {α : Type} : Except IdentityError α → Script α
  | .ok value => pure value
  | .error error => throw (.identity error)

def manifestLifted {α : Type} : Except PlanError α → Script α
  | .ok value => pure value
  | .error error => throw (.manifest error)

section Sets

def addCompleted (key : SnapshotKey) : Script Unit :=
  modify fun world => { world with completedSnapshots := key :: world.completedSnapshots }

def deleteCompleted (key : SnapshotKey) : Script Unit :=
  modify fun world =>
    { world with completedSnapshots := world.completedSnapshots.filter fun kept => kept != key }

def addAttempted (key : SnapshotKey) : Script Unit :=
  modify fun world => { world with attemptedSnapshots := key :: world.attemptedSnapshots }

def deleteAttempted (key : SnapshotKey) : Script Unit :=
  modify fun world =>
    { world with attemptedSnapshots := world.attemptedSnapshots.filter fun kept => kept != key }

end Sets

def recordFailureInState (sessionId : Option JsString) (segment : Option PlannedSegment)
    (job : Option ReflectionJob) (state : BackfillState) : BackfillState :=
  let failures := state.failures ++
    [{ sessionId := sessionId
       segment := segment.map fun planned => (planned.key, planned.sourceFingerprint)
       jobId := job.map (·.id) }]
  { state with
    segmentsFailed := state.segmentsFailed + 1
    failures := failures.drop (failures.length - 100) }

def recordFailure (sessionId : Option JsString) (segment : Option PlannedSegment)
    (job : Option ReflectionJob) : Script Unit :=
  updateState (recordFailureInState sessionId segment job)

/-! ### Jobs -/

/-- What completing a job is given: the checks between its steps, and how to retry and to wait. -/
structure CompleteJobContext where
  retryJob : Int → Script ReflectionJob
  waitForJob : ReflectionJob → Script ReflectionJob
  validateJob : ReflectionJob → Script Unit
  revalidateSession : Script Unit
  revalidateExpectedSnapshot : ReflectionJob → Script Unit
  providerPollMs : Nat
  jobPollMs : Nat

def revalidateJobContext (context : CompleteJobContext) (job : ReflectionJob) : Script Unit := do
  context.revalidateSession
  context.revalidateExpectedSnapshot job
  context.revalidateSession

def waitWithRevalidation (revalidate : Script Unit) : Script Unit := do
  revalidate
  sleep
  revalidate

/-- Waits of the interval until nothing remains; the interval is positive, so that as many rounds
as milliseconds are enough. -/
def waitRemaining (revalidate : Script Unit) (interval : Nat) : Nat → Nat → Script Unit
  | 0, _ => pure ()
  | rounds + 1, remaining =>
      if remaining = 0 then pure ()
      else do
        waitWithRevalidation revalidate
        waitRemaining revalidate interval rounds (remaining - min interval remaining)

def waitForProvider (context : CompleteJobContext) (job : ReflectionJob) : Script Unit := do
  waitRemaining context.revalidateSession (min context.jobPollMs context.providerPollMs)
    context.providerPollMs context.providerPollMs
  revalidateJobContext context job

/-- `String(job.error).includes("402 Payment Required")`. -/
def isProviderBalanceFailure (job : ReflectionJob) : Bool :=
  job.status == .failed &&
    decide (ofString "402 Payment Required" <:+: job.error.getD (ofString "null"))

def clearProvider : Script Unit :=
  updateState fun state =>
    { state with
      status := .running
      providerStatus := none }

/-- The provider was out of balance before: wait, and run again however the wait ends. -/
def waitForUnavailableProvider (context : CompleteJobContext) (job : ReflectionJob) :
    Script Unit := do
  updateState fun state =>
    { state with
      status := .waitingForProvider
      providerStatus := some job }
  try
    waitForProvider context job
  catch error =>
    clearProvider
    throw error
  clearProvider

def waitForRepeatedFailure (context : CompleteJobContext) (providerFailures : Nat)
    (job : ReflectionJob) : Script Unit :=
  if 0 < providerFailures then waitForUnavailableProvider context job else pure ()

def forgetProvider : Script Unit := do
  if (← get).state.providerStatus.isSome then clearProvider

def retryFailedJob (context : CompleteJobContext) (job : ReflectionJob) : Script ReflectionJob := do
  let current ← context.retryJob job.id
  context.validateJob current
  context.revalidateSession
  pure current

def awaitJob (context : CompleteJobContext) (job : ReflectionJob) : Script ReflectionJob := do
  context.revalidateSession
  let current ← context.waitForJob job
  context.validateJob current
  context.revalidateSession
  pure current

/-- One case a status; every job that is retried or waited for comes back to the top. -/
def completeJobFrom (context : CompleteJobContext) :
    Nat → Nat → Nat → ReflectionJob → Script ReflectionJob
  | 0, _, _, _ => throw .unfinished
  | fuel + 1, nonProviderRounds, providerFailures, current =>
      match current.status with
      | .succeeded => do
          revalidateJobContext context current
          forgetProvider
          pure current
      | .superseded => throw (.superseded current.id)
      | .failed => do
          revalidateJobContext context current
          if isProviderBalanceFailure current then do
            waitForRepeatedFailure context providerFailures current
            let retried ← retryFailedJob context current
            let next ← awaitJob context retried
            completeJobFrom context fuel nonProviderRounds (providerFailures + 1) next
          else if nonProviderRounds + 1 ≥ MAX_NON_PROVIDER_JOB_ROUNDS then do
            revalidateJobContext context current
            pure current
          else do
            let retried ← retryFailedJob context current
            let next ← awaitJob context retried
            completeJobFrom context fuel (nonProviderRounds + 1) providerFailures next
      | .pending | .running => do
          let next ← awaitJob context current
          completeJobFrom context fuel nonProviderRounds providerFailures next

def completeJob (fuel : Nat) (context : CompleteJobContext) (job : ReflectionJob) :
    Script ReflectionJob := do
  context.validateJob job
  completeJobFrom context fuel 0 0 job

section Processing

variable {library : Segmentation} (context : ProcessingContext library)

/-! ### The service -/

def retryJob (jobId : Int) : Script ReflectionJob := do
  let job ← attempt fun moment => context.surroundings.retryJob moment jobId
  note (.answered job)
  pure job

def waitForJob (current : ReflectionJob) : Script ReflectionJob := do
  let job ← attempt fun moment => context.surroundings.waitForJob moment current
  note (.answered job)
  pure job

def validateJobForSubmission (job : ReflectionJob) (submission : SegmentCreate) : Script Unit := do
  let expectedSegmentId ← identityLifted
    (sourceSegmentIdForRequest context.source.id submission context.source)
  if jobMatchesSubmission context.sha256 job submission expectedSegmentId then pure ()
  else throw .replanRequired

/-- `validatedJob` on an answer. -/
def validatedJob (answer : Option ReflectionJob) : Script ReflectionJob :=
  match answer with
  | none => throw (.contract ⟨"source job response"⟩)
  | some job => do
      contractLifted (ownedBy job.sourceId context.source.id "source job response")
      if usersAgree job.boundary then pure job else throw (.contract ⟨"job response"⟩)

/-- Post a segment and check the job that is answered. -/
def submitSegment (submission : SegmentCreate) : Script ReflectionJob := do
  let answer ← attempt fun moment => context.surroundings.postSegment moment submission
  let job ← validatedJob context answer
  note (.answered job)
  validateJobForSubmission context job submission
  pure job

/-! ### Sessions -/

def sessionRemainsStable (sessionId : JsString) (observedUpdatedAt : Int) : Script Bool := do
  match ← ask fun moment => context.surroundings.sessionUpdatedAt moment sessionId with
  | none => pure false
  | some currentUpdatedAt =>
      if currentUpdatedAt = observedUpdatedAt then do
        let now ← ask context.surroundings.nowMs
        pure (decide (observedUpdatedAt + INACTIVE_MS ≤ now))
      else pure false

inductive StableSessionSnapshot (library : Segmentation)
  | notReady (retryAt : Int)
  | ready (messages : List library.Message) (observedUpdatedAt : Option Int)

def stableSessionSnapshot (sessionId : JsString) : Script (StableSessionSnapshot library) := do
  match ← ask fun moment => context.surroundings.sessionUpdatedAt moment sessionId with
  | none => pure (.ready [] none)
  | some beforeUpdatedAt =>
      let now ← ask context.surroundings.nowMs
      if beforeUpdatedAt + INACTIVE_MS > now then pure (.notReady (beforeUpdatedAt + INACTIVE_MS))
      else
        let messages ← attempt fun moment => context.surroundings.sessionMessages moment sessionId
        match ← ask fun moment => context.surroundings.sessionUpdatedAt moment sessionId with
        | none => pure (.ready [] none)
        | some afterUpdatedAt =>
            if afterUpdatedAt ≠ beforeUpdatedAt then
              pure (.notReady (afterUpdatedAt + INACTIVE_MS))
            else
              let later ← ask context.surroundings.nowMs
              if afterUpdatedAt + INACTIVE_MS > later then
                pure (.notReady (afterUpdatedAt + INACTIVE_MS))
              else pure (.ready messages (some afterUpdatedAt))

def revalidateSession (sessionId : JsString) (observedUpdatedAt : Int) : Script Unit := do
  if ← sessionRemainsStable context sessionId observedUpdatedAt then pure ()
  else throw (.revisionChanged sessionId)

def revalidateExpectedSnapshot (segment : PlannedSegment) (revalidate : Script Unit)
    (job : ReflectionJob) : Script Unit := do
  revalidate
  let answer ← attempt fun moment =>
    context.surroundings.requestSegments moment segment.submission.sessionId
  let manifest ← manifestLifted
    (validateSegmentManifest answer segment.submission.sessionId context.source)
  note (.manifestRead manifest)
  revalidate
  if manifestHasExpectedSnapshot manifest segment (job.status == .succeeded) job.projectionVersion then
    pure ()
  else throw .replanRequired

/-- Jobs of a segment are checked against its submission and its session. -/
def segmentJobContext (segment : PlannedSegment) (revalidate : Script Unit) : CompleteJobContext :=
  { retryJob := retryJob context
    waitForJob := waitForJob context
    validateJob := fun job => validateJobForSubmission context job segment.submission
    revalidateSession := revalidate
    revalidateExpectedSnapshot := revalidateExpectedSnapshot context segment revalidate
    providerPollMs := context.providerPollMs
    jobPollMs := context.jobPollMs }

/-- A priority job belongs to no plan and is not checked. -/
def priorityJobContext : CompleteJobContext :=
  { retryJob := retryJob context
    waitForJob := waitForJob context
    validateJob := fun _ => pure ()
    revalidateSession := pure ()
    revalidateExpectedSnapshot := fun _ => pure ()
    providerPollMs := context.providerPollMs
    jobPollMs := context.jobPollMs }

def segmentPlan (sessionId : JsString) (messages : List library.Message) :
    Script (List PlannedSegment) := do
  let source ← contractLifted (parseSourceInfo context.source)
  let answer ← attempt fun moment => context.surroundings.requestSegments moment sessionId
  match validateSegmentManifest answer sessionId source with
  | .error cause => throw (.planning sessionId cause)
  | .ok manifest =>
      match planSessionSegments context.sha256 library sessionId messages manifest MAX_SEGMENT_CHARS
        source with
      | .error cause => throw (.planning sessionId cause)
      | .ok segments => do
          note (.planned sessionId manifest segments)
          pure segments

/-! ### Priority jobs -/

def priorityKey (job : ReflectionJob) : Option SnapshotKey :=
  -- An empty fingerprint is no key either.
  match job.sourceFingerprint with
  | none => none
  | some [] => none
  | some fingerprint => some (job.segmentId, fingerprint, job.projectionVersion)

def processPriorityJob (fuel : Nat) (jobId : Int) : Script Unit := do
  let job ← attempt fun moment => context.surroundings.getJob moment jobId
  let snapshotKey := priorityKey job
  if job.status = .succeeded then snapshotKey.forM addCompleted
  else do
    let completed ← completeJob fuel (priorityJobContext context) job
    if completed.status ≠ .succeeded then do
      snapshotKey.forM addAttempted
      recordFailure none none (some completed)
    else snapshotKey.forM addCompleted

def isUnavailable : BackfillError → Bool
  | .superseded _ => true
  | .http status => status == 404
  | _ => false

def processPriorityJobs (fuel : Nat) : List Int → Script Unit
  | [] => pure ()
  | jobId :: rest => do
      try
        processPriorityJob context fuel jobId
      catch error =>
        if isUnavailable error then pure () else throw error
      processPriorityJobs fuel rest

/-! ### Segments -/

def snapshotKey (segment : PlannedSegment) : SnapshotKey :=
  (segment.segmentId, segment.sourceFingerprint, segment.submission.projectionVersion)

def isDone (segment : PlannedSegment) : Bool :=
  segment.status == .eligibleCommitted || segment.status == .targetSucceeded

/-- Replays until the job has the projection version of the segment. The flags say whether every
job had succeeded already and whether the upgrade failed. -/
def upgradeProjection (fuel : Nat) (session : SessionRow) (observedUpdatedAt : Int)
    (segment : PlannedSegment) : Nat → ReflectionJob → Bool → Script (ReflectionJob × Bool × Bool)
  | replays, completed, wasAlreadySucceeded =>
      if completed.status = .succeeded ∧
          completed.projectionVersion < segment.submission.projectionVersion then
        match replays with
        | 0 => do
            addAttempted (snapshotKey segment)
            recordFailure (some session.id) (some segment) (some completed)
            pure (completed, wasAlreadySucceeded, true)
        | replays + 1 => do
            revalidateSession context session.id observedUpdatedAt
            let job ← submitSegment context segment.submission
            let next ← completeJob fuel
              (segmentJobContext context segment (revalidateSession context session.id observedUpdatedAt))
              job
            upgradeProjection fuel session observedUpdatedAt segment replays next
              (wasAlreadySucceeded && job.status == .succeeded)
      else pure (completed, wasAlreadySucceeded, false)

/-- A segment that has to be submitted. -/
def submitAndComplete (fuel : Nat) (session : SessionRow) (observedUpdatedAt : Int)
    (segment : PlannedSegment) : Script Unit := do
  let job ← submitSegment context segment.submission
  let first ← completeJob fuel
    (segmentJobContext context segment (revalidateSession context session.id observedUpdatedAt)) job
  let (completed, wasAlreadySucceeded, upgradeFailed) ← upgradeProjection context fuel session
    observedUpdatedAt segment MAX_PROJECTION_UPGRADE_REPLAYS first (job.status == .succeeded)
  if upgradeFailed then revalidateSession context session.id observedUpdatedAt
  else do
    if completed.status = .succeeded then do
      updateState fun state =>
        if wasAlreadySucceeded then
          { state with segmentsAlreadySucceeded := state.segmentsAlreadySucceeded + 1 }
        else { state with segmentsSucceeded := state.segmentsSucceeded + 1 }
      addCompleted (snapshotKey segment)
    else do
      addAttempted (snapshotKey segment)
      recordFailure (some session.id) (some segment) (some completed)
    revalidateSession context session.id observedUpdatedAt

def processSegment (fuel : Nat) (session : SessionRow) (observedUpdatedAt : Int) (index : Nat)
    (segment : PlannedSegment) : Script Unit := do
  if (← get).completedSnapshots.contains (snapshotKey segment) && isDone segment then pure ()
  else do
    deleteCompleted (snapshotKey segment)
    if (← get).attemptedSnapshots.contains (snapshotKey segment) && segment.status == .targetFailed then
      pure ()
    else do
      deleteAttempted (snapshotKey segment)
      modify fun world => { world with activeSegment := some segment }
      updateState fun state =>
        { state with
          segmentsDiscovered := state.segmentsDiscovered + 1
          currentSegment := some (index, segment) }
      revalidateSession context session.id observedUpdatedAt
      if isDone segment then do
        updateState fun state =>
          { state with segmentsAlreadySucceeded := state.segmentsAlreadySucceeded + 1 }
        addCompleted (snapshotKey segment)
      else submitAndComplete context fuel session observedUpdatedAt segment

/-- The segments in order, up to the first that has to be deferred. -/
def processSegments (fuel : Nat) (session : SessionRow) (observedUpdatedAt : Int) :
    Nat → List PlannedSegment → Script (Option PlannedSegment)
  | _, [] => pure none
  | index, segment :: rest =>
      if segment.disposition = .deferredMutableSource then pure (some segment)
      else do
        processSegment context fuel session observedUpdatedAt index segment
        processSegments fuel session observedUpdatedAt (index + 1) rest

/-! ### Runs -/

def countVisited : Script Unit :=
  updateState fun state => { state with sessionsVisited := state.sessionsVisited + 1 }

def clearSegment : Script Unit :=
  updateState fun state => { state with currentSegment := none }

/-- What processing a session attempts. -/
def processPlan (fuel : Nat) (session : SessionRow) (messages : List library.Message)
    (observedUpdatedAt : Int) : Script ProcessSessionOutcome := do
  revalidateSession context session.id observedUpdatedAt
  let segments ← segmentPlan context session.id messages
  revalidateSession context session.id observedUpdatedAt
  updateState fun state =>
    { state with
      status := .running
      currentSessionId := some session.id
      currentSessionTitle := session.title }
  match ← processSegments context fuel session observedUpdatedAt 0 segments with
  | some deferredSegment => do
      let now ← ask context.surroundings.nowMs
      if now - observedUpdatedAt ≥ context.maxMutableSourceDeferralMs then do
        updateState fun state => { state with segmentsDiscovered := state.segmentsDiscovered + 1 }
        recordFailure (some session.id) (some deferredSegment) none
        countVisited
        clearSegment
        pure .failed
      else do
        clearSegment
        pure .deferredSource
  | none => do
      countVisited
      pure .completed

/-- What becomes of an error while a session is processed. -/
def handleSessionError (session : SessionRow) (error : BackfillError) :
    Script ProcessSessionOutcome := do
  match error with
  | .revisionChanged _ => pure .deferred
  | .replanRequired | .superseded _ => pure .replan
  | .http status => do
      if (← get).activeSegment.isSome && status == 404 then pure .replan else throw error
  | .planning _ _ => do
      recordFailure (some session.id) none none
      countVisited
      pure .failed
  | _ => throw error

def processSession (fuel : Nat) (session : SessionRow) (messages : List library.Message) :
    Option Int → Script ProcessSessionOutcome
  | none => do
      countVisited
      pure .completed
  | some observedUpdatedAt => do
      modify fun world => { world with activeSegment := none }
      tryCatch (processPlan context fuel session messages observedUpdatedAt) (handleSessionError session)

/-- When a session that got no final outcome is due again. -/
def retryTime (session : SessionRow) (outcome : ProcessSessionOutcome) : Script Int := do
  let currentUpdatedAt ← ask fun moment => context.surroundings.sessionUpdatedAt moment session.id
  match outcome, currentUpdatedAt with
  | .replan, _ => do
      let now ← ask context.surroundings.nowMs
      pure (now + context.jobPollMs)
  | .deferredSource, _ => do
      let now ← ask context.surroundings.nowMs
      pure (now + 60000)
  | _, some updatedAt => pure (updatedAt + INACTIVE_MS)
  | _, none => do
      let now ← ask context.surroundings.nowMs
      pure (now + INACTIVE_MS)

/-- One pass over the queue: the sessions that have to be visited again. -/
def processQueue (fuel : Nat) : List SessionRow → Script (List (SessionRow × Int))
  | [] => pure []
  | session :: rest => do
      match ← stableSessionSnapshot context session.id with
      | .notReady retryAt => do
          let deferred ← processQueue fuel rest
          pure ((session, retryAt) :: deferred)
      | .ready messages observedUpdatedAt => do
          let outcome ← processSession context fuel session messages observedUpdatedAt
          note (.outcome session.id outcome observedUpdatedAt.isSome)
          if outcome = .completed ∨ outcome = .failed then processQueue fuel rest
          else do
            let retryAt ← retryTime context session outcome
            let deferred ← processQueue fuel rest
            pure ((session, retryAt) :: deferred)

/-- Passes until no session is left. -/
def processSessions (fuel : Nat) : Nat → List SessionRow → Script Unit
  | _, [] => pure ()
  | 0, _ :: _ => throw .unfinished
  | passes + 1, session :: rest => do
      let deferred ← processQueue context fuel (session :: rest)
      if deferred.isEmpty then pure ()
      else do
        updateState fun state =>
          { state with
            status := .waitingForSessionInactivity
            currentSessionId := none
            currentSessionTitle := none
            currentSegment := none
            deferredSessions := deferred.length }
        sleep
        processSessions fuel passes (deferred.map Prod.fst)

/-- Whether the final cleanup is due. -/
def cleanupAllowed (state : BackfillState) : Bool :=
  state.segmentsFailed == 0 || context.allowFailures

def scheduleCleanup : Script Unit := do
  if cleanupAllowed context (← get).state then do
    note .cleanup
    lift context.surroundings.scheduleLaunchAgentCleanup

def finish : Script Unit := do
  updateState fun state =>
    { state with
      status := if state.segmentsFailed = 0 then .completed else .completedWithFailures
      currentSessionId := none
      currentSessionTitle := none
      currentSegment := none
      deferredSessions := 0
      providerStatus := none }
  scheduleCleanup context

def runLocked (fuel : Nat) : Script Unit := do
  updateState fun state => { state with status := .running }
  processPriorityJobs context fuel context.priorityJobIds
  processSessions context fuel fuel context.sessions
  finish context

def runBackfill (fuel : Nat) : Script Unit := do
  lift context.surroundings.acquireLock
  try
    runLocked context fuel
  catch error =>
    updateState fun state =>
      { state with
        status := .failed
        fatalError := some error }
    throw error

/-- What a run starts from. -/
def initialWorld : World :=
  { moment := 0
    state := { createInitialState with sessionsTotal := context.sessions.length }
    completedSnapshots := []
    attemptedSnapshots := []
    activeSegment := none
    log := [] }

end Processing

end Reflection.Backfill
