/-
Submitting planned segments and retrying their failed jobs.

A submission is an asynchronous call. One step runs a call from an await to the next one, so between
two steps any other call may run. When a reply comes and what it says, when a call is aborted, when a
session is cleared and when a request that was sent takes effect are left open.
-/

import Mathlib
import Reflection.Shared.JsString

namespace Reflection.Plugin

namespace Ingestion

inductive JobStatus
  | pending
  | running
  | succeeded
  | failed
  | superseded
deriving DecidableEq

def JobStatus.live : JobStatus → Bool
  | .pending => true
  | .running => true
  | .succeeded => true
  | _ => false

structure NativeJobResponse where
  id : Int
  segmentId : JsString
  sourceFingerprint : Option JsString
  projectionVersion : Int
  startSourceMessageId : JsString
  endSourceMessageId : JsString
  status : JobStatus
  attempts : Int
  startedAt : Option JsString
  finishedAt : Option JsString
deriving DecidableEq

structure NativePlannedSegment where
  id : JsString
  fingerprint : JsString
  closed : Bool
  sessionId : JsString
  sourceId : JsString
  startSourceMessageId : JsString
  endSourceMessageId : JsString
deriving DecidableEq

/-- What targets and boundaries share. -/
structure ManifestEntry where
  id : JsString
  sourceBoundaryVersion : Int
  sourceFingerprint : Option JsString
  projectionVersion : Int
  startSourceMessageId : JsString
  endSourceMessageId : JsString

structure SegmentTarget extends ManifestEntry where
  status : JobStatus

structure SegmentBoundary extends ManifestEntry where
  sourceEligible : Bool

structure Manifest where
  sessionId : JsString
  targets : List SegmentTarget
  boundaries : List SegmentBoundary

structure SubmitKey where
  sessionId : JsString
  segmentId : JsString
deriving DecidableEq

structure RetryKey where
  sessionId : JsString
  segmentId : JsString
  fingerprint : JsString
deriving DecidableEq

structure Sent where
  hash : JsString
  priority : Nat

/-- A pending retry; calls share it by its place in the list of attempts. -/
structure Attempt where
  original : NativeJobResponse
  httpFailure : Bool

/-- How the request of a retry ended for the caller. -/
inductive RetryOutcome
  /-- an error that carries an HTTP status -/
  | rejected
  /-- a timeout, a lost connection, a cancellation or an unreadable body -/
  | unknown
  /-- a value, which may be no job of this source -/
  | answered (job : Option NativeJobResponse)
deriving DecidableEq

/-- A retry request that was sent, with the number of clears of its session before it. -/
structure RetryPost where
  key : RetryKey
  attempt : Nat
  period : Nat
  outcome : Option RetryOutcome
  appliedIn : Option Nat

/-- The variables of the loop over the segments. -/
structure Frame where
  segment : NativePlannedSegment
  rest : List NativePlannedSegment
  priority : Nat
  confirmed : Bool
  sent : Option Sent

def NativePlannedSegment.key (segment : NativePlannedSegment) : SubmitKey :=
  { sessionId := segment.sessionId
    segmentId := segment.id }

def NativePlannedSegment.retryKey (segment : NativePlannedSegment) : RetryKey :=
  { sessionId := segment.sessionId
    segmentId := segment.id
    fingerprint := segment.fingerprint }

/-- Where the result of a reconciliation goes. -/
inductive Caller
  | beforeRetry
  | afterFailure
  | afterAnswer
deriving DecidableEq

/-- The await where a call stands. -/
inductive Point
  /-- the request that submits the segment -/
  | posting (frame : Frame)
  /-- the read of the job in reconcile -/
  | reconciling (frame : Frame) (attempt : Nat) (caller : Caller)
  /-- the promise of reconcile; `none` is a rejected one -/
  | reconciled (frame : Frame) (attempt : Nat) (caller : Caller) (result : Option NativeJobResponse)
  /-- the request of the retry, unless the signal kept it from being sent -/
  | retryPosting (frame : Frame) (attempt : Nat) (post : Option Nat)
  /-- the promise of retryJob, resolved -/
  | retryDone (frame : Frame) (job : NativeJobResponse)
  | ended

structure SubmitCall where
  manifest : Manifest
  requestedPriority : Nat
  aborted : Bool
  point : Point

/-- An entry made in submitted, with the job it was made for. -/
structure Recording where
  call : Nat
  segment : NativePlannedSegment
  job : NativeJobResponse

end Ingestion

open Ingestion in
/-- The maps of an ingestion, its calls, and what a reader of all its traffic would know. -/
structure Ingestion where
  sourceId : JsString
  submitted : SubmitKey → Option Sent
  retried : RetryKey → Bool
  retrying : RetryKey → Bool
  pendingRetries : RetryKey → Option Nat
  attempts : List Attempt
  calls : List SubmitCall
  posts : List RetryPost
  clears : JsString → Nat
  responses : List (Nat × NativeJobResponse)
  recorded : List Recording

namespace Ingestion

def initial (sourceId : JsString) : Ingestion :=
  { sourceId := sourceId
    submitted := fun _ => none
    retried := fun _ => false
    retrying := fun _ => false
    pendingRetries := fun _ => none
    attempts := []
    calls := []
    posts := []
    clears := fun _ => 0
    responses := []
    recorded := [] }

/-! ### Checks -/

def exact (segment : NativePlannedSegment) (entry : ManifestEntry) : Bool :=
  entry.sourceBoundaryVersion == 3 && entry.sourceFingerprint == some segment.fingerprint &&
    entry.projectionVersion == 3 && entry.startSourceMessageId == segment.startSourceMessageId &&
    entry.endSourceMessageId == segment.endSourceMessageId

/-- A target owns the current range; boundaries decide only where there is none. -/
def confirmed (manifest : Manifest) (segment : NativePlannedSegment) : Bool :=
  let targets := manifest.targets.filter fun target => target.id == segment.id
  let boundaries := manifest.boundaries.filter fun boundary => boundary.id == segment.id
  if 0 < targets.length then
    targets.all fun target => exact segment target.toManifestEntry && target.status.live
  else
    0 < boundaries.length &&
      boundaries.all fun boundary => exact segment boundary.toManifestEntry && boundary.sourceEligible

def jobMatches (segment : NativePlannedSegment) (job : NativeJobResponse) : Bool :=
  job.segmentId == segment.id && job.sourceFingerprint == some segment.fingerprint &&
    job.projectionVersion == 3 && job.startSourceMessageId == segment.startSourceMessageId &&
    job.endSourceMessageId == segment.endSourceMessageId

def validate (current original : NativeJobResponse) : Bool :=
  current.id == original.id && current.segmentId == original.segmentId &&
    current.sourceFingerprint == original.sourceFingerprint &&
    current.projectionVersion == original.projectionVersion &&
    current.startSourceMessageId == original.startSourceMessageId &&
    current.endSourceMessageId == original.endSourceMessageId

def sameSignature (job other : NativeJobResponse) : Bool :=
  job.status == other.status && job.attempts == other.attempts &&
    job.startedAt == other.startedAt && job.finishedAt == other.finishedAt

variable (ingestion : Ingestion)

/-! ### retryJob -/

/-- The end of retryJob, by return or by exception. -/
def leaveRetry (key : RetryKey) (point : Point) : Ingestion × Point :=
  ({ ingestion with retrying := Function.update ingestion.retrying key false }, point)

/-- The error of a failed observation is `none`. -/
def observe (key : RetryKey) (current : NativeJobResponse) (pending : Attempt) :
    Ingestion × Option NativeJobResponse :=
  if current.status.live ||
      (current.status == .failed && !sameSignature current pending.original) then
    ({ ingestion with
        retried := Function.update ingestion.retried key true
        pendingRetries := Function.update ingestion.pendingRetries key none }, some current)
  else if current.status == .failed && pending.httpFailure then
    ({ ingestion with
        pendingRetries := Function.update ingestion.pendingRetries key none }, some current)
  else (ingestion, none)

/-- A job that is no longer failed is returned; a failed one is retried unless it was before. -/
def attemptRetry (aborted : Bool) (frame : Frame) (job : NativeJobResponse) : Ingestion × Point :=
  let key := frame.segment.retryKey
  if job.status ≠ .failed then ingestion.leaveRetry key (.retryDone frame job)
  else if ingestion.retried key then ingestion.leaveRetry key .ended
  else
    let place := ingestion.attempts.length
    let attempted : Ingestion :=
      { ingestion with
        attempts := ingestion.attempts ++
          [{ original := job
             httpFailure := false }]
        pendingRetries := Function.update ingestion.pendingRetries key (some place) }
    if aborted then (attempted, .retryPosting frame place none)
    else
      ({ attempted with
          posts := attempted.posts ++
            [{ key := key
               attempt := place
               period := ingestion.clears key.sessionId
               outcome := none
               appliedIn := none }] },
        .retryPosting frame place (some ingestion.posts.length))

def enterRetry (aborted : Bool) (frame : Frame) (job : NativeJobResponse) : Ingestion × Point :=
  let key := frame.segment.retryKey
  if ingestion.retrying key then (ingestion, .ended)
  else
    let entered : Ingestion :=
      { ingestion with retrying := Function.update ingestion.retrying key true }
    match ingestion.pendingRetries key with
    | some attempt => (entered, .reconciling frame attempt .beforeRetry)
    | none => entered.attemptRetry aborted frame job

def reconcileAnswered (frame : Frame) (place : Nat) (caller : Caller)
    (reply : Option NativeJobResponse) : Ingestion × Point :=
  match reply, ingestion.attempts[place]? with
  | some current, some pending =>
      if validate current pending.original then
        let seen := ingestion.observe frame.segment.retryKey current pending
        (seen.1, .reconciled frame place caller seen.2)
      else (ingestion, .reconciled frame place caller none)
  | _, _ => (ingestion, .reconciled frame place caller none)

def reconcileResumed (aborted : Bool) (frame : Frame) (caller : Caller)
    (result : Option NativeJobResponse) : Ingestion × Point :=
  let key := frame.segment.retryKey
  match result with
  | none => ingestion.leaveRetry key .ended
  | some job =>
      match caller with
      | .beforeRetry => ingestion.attemptRetry aborted frame job
      | .afterFailure =>
          if !ingestion.retried key || job.status == .failed then ingestion.leaveRetry key .ended
          else ingestion.leaveRetry key (.retryDone frame job)
      | .afterAnswer =>
          if job.status == .failed then ingestion.leaveRetry key .ended
          else ingestion.leaveRetry key (.retryDone frame job)

def retryFailed (aborted : Bool) (frame : Frame) (place : Nat) (httpFailure : Bool) :
    Ingestion × Point :=
  let marked : Ingestion :=
    { ingestion with
      attempts := ingestion.attempts.modify place fun attempt =>
        { attempt with httpFailure := httpFailure } }
  if aborted then marked.leaveRetry frame.segment.retryKey .ended
  else (marked, .reconciling frame place .afterFailure)

def retryAnswered (aborted : Bool) (frame : Frame) (place : Nat) (outcome : RetryOutcome) :
    Ingestion × Point :=
  let key := frame.segment.retryKey
  match outcome with
  | .rejected => ingestion.retryFailed aborted frame place true
  | .unknown => ingestion.retryFailed aborted frame place false
  | .answered reply =>
      match reply, ingestion.attempts[place]? with
      | some job, some attempt =>
          if !validate job attempt.original then ingestion.leaveRetry key .ended
          -- An unchanged job is no evidence that the retry was taken.
          else if job.status == .failed && sameSignature job attempt.original then
            (ingestion, .reconciling frame place .afterAnswer)
          else
            let seen := ingestion.observe key job attempt
            match seen.2 with
            | none => seen.1.leaveRetry key .ended
            | some current =>
                if current.status == .failed then seen.1.leaveRetry key .ended
                else seen.1.leaveRetry key (.retryDone frame current)
      | _, _ => ingestion.leaveRetry key .ended

/-! ### submit -/

/-- The loop up to the next request. -/
def submitLoop (call : SubmitCall) : Ingestion → List NativePlannedSegment → Ingestion × Point
  | ingestion, [] => (ingestion, .ended)
  | ingestion, segment :: rest =>
      if call.aborted then (ingestion, .ended)
      else if call.manifest.sessionId ≠ segment.sessionId ∨
          segment.sourceId ≠ ingestion.sourceId then (ingestion, .ended)
      else
        let sent := ingestion.submitted segment.key
        let priority := if segment.closed then call.requestedPriority else 0
        let isConfirmed := confirmed call.manifest segment
        if (sent.any fun entry => entry.hash == segment.fingerprint && priority ≤ entry.priority) &&
            isConfirmed && (ingestion.pendingRetries segment.retryKey).isNone then
          submitLoop call ingestion rest
        else
          let forgotten : Ingestion :=
            if isConfirmed then ingestion
            else { ingestion with submitted := Function.update ingestion.submitted segment.key none }
          (forgotten, .posting
            { segment := segment
              rest := rest
              priority := priority
              confirmed := isConfirmed
              sent := sent })

/-- The end of the loop's body. -/
def recordSubmitted (place : Nat) (call : SubmitCall) (frame : Frame) (job : NativeJobResponse) :
    Ingestion × Point :=
  if job.status = .superseded then (ingestion, .ended)
  else
    let priority :=
      match frame.sent with
      | some sent =>
          if frame.confirmed && sent.hash == frame.segment.fingerprint then
            max frame.priority sent.priority
          else frame.priority
      | none => frame.priority
    submitLoop call
      { ingestion with
        submitted := Function.update ingestion.submitted frame.segment.key
          (some
            { hash := frame.segment.fingerprint
              priority := priority })
        recorded := ingestion.recorded ++
          [{ call := place
             segment := frame.segment
             job := job }] }
      frame.rest

def segmentAnswered (place : Nat) (call : SubmitCall) (frame : Frame)
    (reply : Option NativeJobResponse) : Ingestion × Point :=
  match reply with
  | none => (ingestion, .ended)
  | some job =>
      if !jobMatches frame.segment job then (ingestion, .ended)
      else if job.status == .failed ||
          (ingestion.pendingRetries frame.segment.retryKey).isSome then
        ingestion.enterRetry call.aborted frame job
      else ingestion.recordSubmitted place call frame job

/-! ### Steps -/

inductive Event
  | submit (manifest : Manifest) (segments : List NativePlannedSegment) (requestedPriority : Nat)
  /-- the reply to the request of a call; `none` is an error or a value that does not parse -/
  | reply (call : Nat) (job : Option NativeJobResponse)
  /-- the end of a retry request -/
  | retryEnds (call : Nat) (outcome : RetryOutcome)
  /-- a settled promise reaches the call that awaits it -/
  | resume (call : Nat)
  | abort (call : Nat)
  | clear (sessionId : JsString)
  /-- a retry request takes effect -/
  | apply (post : Nat)

def clear (sessionId : JsString) : Ingestion :=
  { ingestion with
    submitted := fun key => if key.sessionId = sessionId then none else ingestion.submitted key
    retried := fun key => if key.sessionId = sessionId then false else ingestion.retried key
    pendingRetries := fun key =>
      if key.sessionId = sessionId then none else ingestion.pendingRetries key
    clears := Function.update ingestion.clears sessionId (ingestion.clears sessionId + 1) }

/-- The call goes to its next await. -/
def settle (place : Nat) (next : Ingestion × Point) : Ingestion :=
  { next.1 with calls := next.1.calls.modify place fun call => { call with point := next.2 } }

def received (place : Nat) (reply : Option NativeJobResponse) : Ingestion :=
  { ingestion with responses := ingestion.responses ++ reply.toList.map fun job => (place, job) }

/-- A request that was not sent fails without a status, and one that was applied has none. -/
def RetryOutcome.possible (outcome : RetryOutcome) : Option RetryPost → Bool
  | none => outcome == .unknown
  | some post => outcome != .rejected || post.appliedIn.isNone

def endPost (post : Option Nat) (outcome : RetryOutcome) : Ingestion :=
  match post with
  | none => ingestion
  | some place =>
      { ingestion with
        posts := ingestion.posts.modify place fun post => { post with outcome := some outcome } }

def RetryOutcome.reply : RetryOutcome → Option NativeJobResponse
  | .answered job => job
  | _ => none

def applyPost (place : Nat) : Ingestion :=
  { ingestion with
    posts := ingestion.posts.modify place fun post =>
      if post.outcome = some .rejected ∨ post.appliedIn.isSome then post
      else { post with appliedIn := some (ingestion.clears post.key.sessionId) } }

/-- An event that does not fit the state changes nothing. -/
def step : Event → Ingestion
  | .submit manifest segments requestedPriority =>
      let call : SubmitCall :=
        { manifest := manifest
          requestedPriority := requestedPriority
          aborted := false
          point := .ended }
      let next := submitLoop call ingestion segments
      { next.1 with calls := next.1.calls ++ [{ call with point := next.2 }] }
  | .reply place job =>
      match ingestion.calls[place]? with
      | none => ingestion
      | some call =>
          match call.point with
          | .posting frame =>
              settle place ((ingestion.received place job).segmentAnswered place call frame job)
          | .reconciling frame attempt caller =>
              settle place ((ingestion.received place job).reconcileAnswered frame attempt caller job)
          | _ => ingestion
  | .retryEnds place outcome =>
      match ingestion.calls[place]? with
      | none => ingestion
      | some call =>
          match call.point with
          | .retryPosting frame attempt post =>
              if outcome.possible (post.bind fun sent => ingestion.posts[sent]?) then
                settle place (((ingestion.endPost post outcome).received place
                  outcome.reply).retryAnswered call.aborted frame attempt outcome)
              else ingestion
          | _ => ingestion
  | .resume place =>
      match ingestion.calls[place]? with
      | none => ingestion
      | some call =>
          match call.point with
          | .reconciled frame _ caller result =>
              settle place (ingestion.reconcileResumed call.aborted frame caller result)
          | .retryDone frame job =>
              settle place (ingestion.recordSubmitted place call frame job)
          | _ => ingestion
  | .abort place =>
      { ingestion with calls := ingestion.calls.modify place fun call => { call with aborted := true } }
  | .clear sessionId => ingestion.clear sessionId
  | .apply place => ingestion.applyPost place

def run (events : List Event) : Ingestion := events.foldl step ingestion

end Ingestion

end Reflection.Plugin
