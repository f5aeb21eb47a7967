/-
Segment plans of the backfill script.

A plan compares the segments of a session with the manifest the service keeps for it. Cutting the
messages into segments is the library's work and a parameter here; a plan only names, fingerprints
and compares what was cut. A body that is not of the expected shape is answered as none.
-/

import Reflection.Foundation.Results
import Reflection.Shared.Identity

namespace Reflection.Backfill

open JsString

def MAX_SEGMENT_CHARS : Nat := 20000

def PROJECTION_VERSION : Nat := 1

/-! ### Data -/

inductive JobStatus
  | pending
  | running
  | succeeded
  | failed
  | superseded
deriving DecidableEq

inductive SegmentPlanStatus
  | eligibleCommitted
  | staleCommitted
  | targetPending
  | targetRunning
  | targetSucceeded
  | targetFailed
  | targetSuperseded
  | conflicting
  | new
deriving DecidableEq

inductive SegmentPlanDisposition
  | ready
  | deferredMutableSource
deriving DecidableEq

inductive SegmentPlanDrift
  | missingManifestFingerprint
  | sourceFingerprintMismatch
  | projectionVersionMismatch
  | conflictingManifestEntries
deriving DecidableEq

structure SegmentSummary where
  id : SegmentName
  boundary : LegacyBoundary
deriving DecidableEq

structure SegmentBoundary where
  id : SegmentName
  boundary : LegacyBoundary
  projectionVersion : Int
  sourceFingerprint : Option JsString
  sourceEligible : Bool
deriving DecidableEq

structure SegmentTargetBoundary where
  id : SegmentName
  boundary : LegacyBoundary
  projectionVersion : Int
  status : JobStatus
  sourceFingerprint : JsString
deriving DecidableEq

structure SegmentManifest where
  sourceId : JsString
  sessionId : JsString
  segments : List SegmentSummary
  boundaries : List SegmentBoundary
  targets : List SegmentTargetBoundary
deriving DecidableEq

structure ReflectionJob where
  id : Int
  sourceId : JsString
  segmentId : SegmentName
  boundary : LegacyBoundary
  sourceFingerprint : Option JsString
  projectionVersion : Int
  status : JobStatus
  error : Option JsString
deriving DecidableEq

inductive BoundaryVersion
  | v1
  | v2
deriving DecidableEq

/-- What the script reads of a segment that was cut. -/
structure ReflectionSegment where
  startUserMessageId : JsString
  endUserMessageId : JsString
  sourceBoundaryVersion : BoundaryVersion
  startSourceMessageId : Option JsString
  endSourceMessageId : Option JsString
  closed : Bool
  messages : List SourceMessage
  projectionVersion : Option Nat
deriving DecidableEq

/-- An anchor of the manifest as the library that cuts messages takes it. -/
structure CommittedSegmentBoundary where
  id : SegmentName
  boundary : LegacyBoundary
  projectionVersion : Int
  sourceEligible : Bool
  sourceFingerprint : Option JsString
deriving DecidableEq

/-- The library: cutting messages, which may fail, and whether a cut segment is final. -/
structure Segmentation where
  Message : Type
  segmentMessages : List Message → Nat → List CommittedSegmentBoundary → Option (List ReflectionSegment)
  isSafeSegmentSnapshot : ReflectionSegment → List Message → Bool

structure PlannedSegment where
  segment : ReflectionSegment
  segmentId : SegmentName
  sourceFingerprint : JsString
  submission : SegmentCreate
  status : SegmentPlanStatus
  drifts : List SegmentPlanDrift
  manifestSourceFingerprint : Option JsString
  targetStatus : Option JobStatus
  disposition : SegmentPlanDisposition
deriving DecidableEq

inductive PlanError
  | contract (error : ContractValidationError)
  | identity (error : IdentityError)
  /-- response session_id was another one -/
  | manifestSession (sessionId : JsString)
  /-- segment has non-deterministic identity -/
  | manifestIdentity (id : SegmentName)
  /-- the messages could not be cut -/
  | segmentation
  /-- V1 segment contains source cursors -/
  | v1Cursors
  /-- V2 segment is missing source cursors -/
  | v2Cursors
  /-- current target is superseded -/
  | supersededTarget (id : SegmentName)
  /-- targets have no local source span -/
  | unmatchedTargets (count : Nat)
deriving DecidableEq

def contractPlanned {α : Type} : Except ContractValidationError α → Except PlanError α
  | .ok value => .ok value
  | .error error => .error (.contract error)

def identityPlanned {α : Type} : Except IdentityError α → Except PlanError α
  | .ok value => .ok value
  | .error error => .error (.identity error)

/-! ### Spans -/

/-- The text of a span lists the id and the five fields of the boundary, so the pair is the key. -/
abbrev SpanKey := SegmentName × LegacyBoundary

def SegmentSummary.key (summary : SegmentSummary) : SpanKey := (summary.id, summary.boundary)

def SegmentBoundary.key (boundary : SegmentBoundary) : SpanKey := (boundary.id, boundary.boundary)

def SegmentTargetBoundary.key (target : SegmentTargetBoundary) : SpanKey := (target.id, target.boundary)

def PlannedSegment.key (segment : PlannedSegment) : SpanKey :=
  (segment.segmentId, segment.submission.boundary)

def ReflectionJob.key (job : ReflectionJob) : SpanKey := (job.segmentId, job.boundary)

/-- An exact span stays within one user turn. -/
def usersAgree : LegacyBoundary → Bool
  | .v1 .. => true
  | .v2 startUser endUser _ _ => startUser == endUser

/-- The owner of a response is the expected one. -/
def ownedBy (owner expected : JsString) (name : String) : Except ContractValidationError Unit := do
  let sourceId ← parseSourceId owner name
  let wanted ← parseSourceId expected name
  if sourceId ≠ wanted then .error ⟨name⟩ else .ok ()

/-! ### Manifests -/

/-- The id of the segment that starts at a boundary. -/
def segmentIdForBoundary (sessionId : JsString) (boundary : LegacyBoundary) (source : SourceInfo) :
    Except PlanError SegmentName :=
  identityPlanned (sourceSegmentIdForRequest source.id
    { sessionId := sessionId
      boundary := boundary
      projectionVersion := 0
      processingPriority := 0
      messages := [] } source)

def checkAnchors (sessionId : JsString) (source : SourceInfo) : List SpanKey → Except PlanError Unit
  | [] => .ok ()
  | (id, boundary) :: rest => do
      let expected ← segmentIdForBoundary sessionId boundary source
      if id ≠ expected then .error (.manifestIdentity id) else checkAnchors sessionId source rest

def manifestKeys (manifest : SegmentManifest) : List SpanKey :=
  manifest.segments.map (·.key) ++ manifest.boundaries.map (·.key) ++ manifest.targets.map (·.key)

def parseManifest (answer : Option SegmentManifest) (source : SourceInfo) :
    Except ContractValidationError SegmentManifest :=
  match answer with
  | none => .error ⟨"source session segments response"⟩
  | some manifest => do
      ownedBy manifest.sourceId source.id "source session segments response"
      if (manifestKeys manifest).all fun key => usersAgree key.2 then .ok manifest
      else .error ⟨"session segments response"⟩

def validateSegmentManifest (answer : Option SegmentManifest) (sessionId : JsString)
    (source : SourceInfo) : Except PlanError SegmentManifest := do
  let manifest ← contractPlanned (parseManifest answer source)
  if manifest.sessionId ≠ sessionId then .error (.manifestSession manifest.sessionId)
  else do
    checkAnchors sessionId source (manifestKeys manifest)
    .ok manifest

/-! ### Plans -/

def segmentSubmission (sessionId : JsString) (segment : ReflectionSegment) :
    Except PlanError SegmentCreate :=
  let submission (boundary : LegacyBoundary) : SegmentCreate :=
    { sessionId := sessionId
      boundary := boundary
      projectionVersion := segment.projectionVersion.getD PROJECTION_VERSION
      processingPriority := 0
      messages := segment.messages }
  match segment.sourceBoundaryVersion, segment.startSourceMessageId, segment.endSourceMessageId with
  | .v1, none, none => .ok (submission (.v1 segment.startUserMessageId segment.endUserMessageId))
  | .v1, _, _ => .error .v1Cursors
  | .v2, some startSource, some endSource =>
      contractPlanned (parseSegmentCreate (submission
        (.v2 segment.startUserMessageId segment.endUserMessageId startSource endSource)))
  | .v2, _, _ => .error .v2Cursors

/-- `[condition && drift]`. -/
def drift (condition : Bool) (kind : SegmentPlanDrift) : List SegmentPlanDrift :=
  if condition then [kind] else []

def targetPlanStatus : JobStatus → SegmentPlanStatus
  | .pending => .targetPending
  | .running => .targetRunning
  | .succeeded => .targetSucceeded
  | .failed => .targetFailed
  | .superseded => .targetSuperseded

/-- Eligible boundaries come first, then higher versions. -/
def boundaryBefore (left right : SegmentBoundary) : Prop :=
  left.sourceEligible = true ∧ right.sourceEligible = false ∨
    left.sourceEligible = right.sourceEligible ∧ right.projectionVersion ≤ left.projectionVersion

instance : DecidableRel boundaryBefore := fun _ _ => inferInstanceAs (Decidable (_ ∧ _ ∨ _ ∧ _))

/-- How a segment stands against the manifest. -/
structure Standing where
  status : SegmentPlanStatus
  drifts : List SegmentPlanDrift
  manifestSourceFingerprint : Option JsString
  targetStatus : Option JobStatus

def targetStanding (target : SegmentTargetBoundary) (several : Bool) (localFingerprint : JsString)
    (version : Int) : Standing :=
  let drifts := drift several .conflictingManifestEntries ++
    drift (target.sourceFingerprint != localFingerprint) .sourceFingerprintMismatch ++
    drift (target.projectionVersion != version) .projectionVersionMismatch
  { status := if drifts.isEmpty then targetPlanStatus target.status else .conflicting
    drifts := drifts
    manifestSourceFingerprint := some target.sourceFingerprint
    targetStatus := some target.status }

def boundaryStanding (boundary : SegmentBoundary) (several : Bool) (localFingerprint : JsString)
    (version : Int) : Standing :=
  let drifts := drift several .conflictingManifestEntries ++
    drift boundary.sourceFingerprint.isNone .missingManifestFingerprint ++
    drift (boundary.sourceFingerprint.any fun fingerprint => fingerprint != localFingerprint)
      .sourceFingerprintMismatch ++
    drift (boundary.projectionVersion != version) .projectionVersionMismatch
  { status := if boundary.sourceEligible && drifts.isEmpty then .eligibleCommitted else .staleCommitted
    drifts := drifts
    manifestSourceFingerprint := boundary.sourceFingerprint
    targetStatus := none }

def standing (manifest : SegmentManifest) (key : SpanKey) (localFingerprint : JsString) (version : Int) :
    Except PlanError Standing :=
  let boundaries := manifest.boundaries.filter fun boundary => boundary.key == key
  match manifest.targets.filter fun target => target.key == key with
  | target :: others =>
      if target.status = .superseded then .error (.supersededTarget target.id)
      else .ok (targetStanding target (!others.isEmpty) localFingerprint version)
  | [] =>
      match boundaries.insertionSort boundaryBefore with
      | boundary :: others => .ok (boundaryStanding boundary (!others.isEmpty) localFingerprint version)
      | [] =>
          .ok
            { status := .new
              drifts := []
              manifestSourceFingerprint := none
              targetStatus := none }

section Plans

variable (sha256 : JsString → JsString) (library : Segmentation)

def planSegment (sessionId : JsString) (messages : List library.Message) (manifest : SegmentManifest)
    (source : SourceInfo) (segment : ReflectionSegment) : Except PlanError PlannedSegment := do
  let submission ← segmentSubmission sessionId segment
  let segmentId ← identityPlanned (sourceSegmentIdForRequest source.id submission source)
  let localFingerprint := sourceFingerprint sha256 submission
  let found ← standing manifest (segmentId, submission.boundary) localFingerprint
    submission.projectionVersion
  .ok
    { segment := segment
      segmentId := segmentId
      sourceFingerprint := localFingerprint
      submission := submission
      status := found.status
      drifts := found.drifts
      manifestSourceFingerprint := found.manifestSourceFingerprint
      targetStatus := found.targetStatus
      disposition :=
        if library.isSafeSegmentSnapshot segment messages then .ready else .deferredMutableSource }

def committedBoundaries (manifest : SegmentManifest) : List CommittedSegmentBoundary :=
  manifest.boundaries.map (fun boundary =>
    { id := boundary.id
      boundary := boundary.boundary
      projectionVersion := boundary.projectionVersion
      sourceEligible := boundary.sourceEligible
      sourceFingerprint := boundary.sourceFingerprint }) ++
  manifest.targets.map fun target =>
    { id := target.id
      boundary := target.boundary
      projectionVersion := target.projectionVersion
      sourceEligible := false
      sourceFingerprint := some target.sourceFingerprint }

def planSessionSegments (sessionId : JsString) (messages : List library.Message)
    (manifest : SegmentManifest) (maxSegmentChars : Nat) (source : SourceInfo) :
    Except PlanError (List PlannedSegment) :=
  match library.segmentMessages messages maxSegmentChars (committedBoundaries manifest) with
  | none => .error .segmentation
  | some segments => do
      let planned ← segments.mapM (planSegment sha256 library sessionId messages manifest source)
      let unmatched := manifest.targets.filter fun target =>
        !(planned.map (·.key)).contains target.key
      if unmatched.isEmpty then .ok planned else .error (.unmatchedTargets unmatched.length)

end Plans

/-! ### What a plan status says -/

/-- The manifest a plan was made from has the segment as it is: a succeeded target or an eligible
boundary of its span, its fingerprint and its projection version. -/
def PlanConfirms (manifest : SegmentManifest) (segment : PlannedSegment) : Prop :=
  (segment.status = .targetSucceeded ∧ ∃ target ∈ manifest.targets, target.key = segment.key ∧
      target.status = .succeeded ∧ target.sourceFingerprint = segment.sourceFingerprint ∧
      target.projectionVersion = segment.submission.projectionVersion) ∨
    (segment.status = .eligibleCommitted ∧ ∃ boundary ∈ manifest.boundaries,
      boundary.key = segment.key ∧ boundary.sourceEligible = true ∧
      boundary.sourceFingerprint = some segment.sourceFingerprint ∧
      boundary.projectionVersion = segment.submission.projectionVersion)

theorem drift_nil {condition : Bool} {kind : SegmentPlanDrift} :
    drift condition kind = [] ↔ condition = false := by
  cases condition <;> simp [drift]

theorem targetStanding_succeeded {target : SegmentTargetBoundary} {several : Bool}
    {localFingerprint : JsString} {version : Int}
    (succeeded : (targetStanding target several localFingerprint version).status = .targetSucceeded) :
    target.status = .succeeded ∧ target.sourceFingerprint = localFingerprint ∧
      target.projectionVersion = version := by
  unfold targetStanding at succeeded
  dsimp only at succeeded
  split at succeeded
  · rename_i none
    simp only [List.isEmpty_iff, List.append_eq_nil_iff, drift_nil, bne_eq_false_iff_eq] at none
    refine ⟨?_, none.1.2, none.2⟩
    cases status : target.status <;> rw [status] at succeeded <;> first | rfl | cases succeeded
  · cases succeeded

theorem targetStanding_not_committed {target : SegmentTargetBoundary} {several : Bool}
    {localFingerprint : JsString} {version : Int} :
    (targetStanding target several localFingerprint version).status ≠ .eligibleCommitted := by
  unfold targetStanding
  dsimp only
  split
  · cases target.status <;> exact nofun
  · exact nofun

theorem boundaryStanding_committed {boundary : SegmentBoundary} {several : Bool}
    {localFingerprint : JsString} {version : Int}
    (committed : (boundaryStanding boundary several localFingerprint version).status =
      .eligibleCommitted) :
    boundary.sourceEligible = true ∧ boundary.sourceFingerprint = some localFingerprint ∧
      boundary.projectionVersion = version := by
  unfold boundaryStanding at committed
  dsimp only at committed
  split at committed
  · rename_i eligible
    simp only [Bool.and_eq_true, List.isEmpty_iff, List.append_eq_nil_iff, drift_nil,
      bne_eq_false_iff_eq] at eligible
    obtain ⟨isEligible, ⟨⟨_, present⟩, same⟩, version⟩ := eligible
    refine ⟨isEligible, ?_, version⟩
    cases found : boundary.sourceFingerprint with
    | none =>
        rw [found] at present
        cases present
    | some fingerprint =>
        rw [found, Option.any_some, bne_eq_false_iff_eq] at same
        rw [same]
  · cases committed

theorem boundaryStanding_not_target {boundary : SegmentBoundary} {several : Bool}
    {localFingerprint : JsString} {version : Int} :
    (boundaryStanding boundary several localFingerprint version).status ≠ .targetSucceeded := by
  unfold boundaryStanding
  dsimp only
  split <;> exact nofun

section Confirms

variable {sha256 : JsString → JsString} {library : Segmentation} {sessionId : JsString}
  {messages : List library.Message} {manifest : SegmentManifest} {source : SourceInfo}

/-- A status that needs no work is backed by the manifest. -/
theorem planSegment_confirms {segment : ReflectionSegment} {planned : PlannedSegment}
    (made : planSegment sha256 library sessionId messages manifest source segment = .ok planned)
    (done : planned.status = .eligibleCommitted ∨ planned.status = .targetSucceeded) :
    PlanConfirms manifest planned := by
  obtain ⟨submission, _, named⟩ := except_bind_ok made
  obtain ⟨segmentId, _, compared⟩ := except_bind_ok named
  obtain ⟨found, stands, same⟩ := except_bind_ok compared
  cases same
  change found.status = .eligibleCommitted ∨ found.status = .targetSucceeded at done
  unfold standing at stands
  dsimp only at stands
  split at stands
  · rename_i target others targets
    split at stands
    · cases stands
    · cases stands
      have member : target ∈ manifest.targets.filter fun target => target.key ==
          (segmentId, submission.boundary) := targets ▸ List.mem_cons_self
      obtain ⟨inside, isKey⟩ := List.mem_filter.mp member
      rcases done with committed | succeeded
      · exact absurd committed targetStanding_not_committed
      · obtain ⟨status, fingerprint, version⟩ := targetStanding_succeeded succeeded
        exact .inl ⟨succeeded, target, inside, eq_of_beq isKey, status, fingerprint, version⟩
  · split at stands
    · rename_i boundary others boundaries
      cases stands
      have sorted : boundary ∈ (manifest.boundaries.filter fun boundary => boundary.key ==
          (segmentId, submission.boundary)).insertionSort boundaryBefore :=
        boundaries ▸ List.mem_cons_self
      obtain ⟨inside, isKey⟩ := List.mem_filter.mp ((List.mem_insertionSort _).mp sorted)
      rcases done with committed | succeeded
      · obtain ⟨eligible, fingerprint, version⟩ := boundaryStanding_committed committed
        exact .inr ⟨committed, boundary, inside, eq_of_beq isKey, eligible, fingerprint, version⟩
      · exact absurd succeeded boundaryStanding_not_target
    · cases stands
      rcases done with committed | succeeded
      · cases committed
      · cases succeeded

theorem planSessionSegments_confirms {maxSegmentChars : Nat} {segments : List PlannedSegment}
    (made : planSessionSegments sha256 library sessionId messages manifest maxSegmentChars source =
      .ok segments) :
    ∀ segment ∈ segments, segment.status = .eligibleCommitted ∨ segment.status = .targetSucceeded →
      PlanConfirms manifest segment := by
  intro segment inside done
  unfold planSessionSegments at made
  split at made
  · cases made
  · obtain ⟨planned, mapped, checked⟩ := except_bind_ok made
    dsimp only at checked
    split at checked
    · cases checked
      obtain ⟨cut, _, isPlan⟩ := exists_left_of_forall₂ (mapM_ok_iff.mp mapped) inside
      exact planSegment_confirms isPlan done
    · cases checked

end Confirms

/-! ### Jobs and later manifests -/

section Jobs

variable (sha256 : JsString → JsString)

/-- The job is the one of the submitted segment: its span and its fingerprint. -/
def jobMatchesSubmission (job : ReflectionJob) (submission : SegmentCreate) (segmentId : SegmentName) :
    Bool :=
  job.key == (segmentId, submission.boundary) &&
    job.sourceFingerprint == some (sourceFingerprint sha256 submission)

/-- Whether a manifest has the segment: as a target, or as an eligible boundary of a version. -/
def manifestHasExpectedSnapshot (manifest : SegmentManifest) (segment : PlannedSegment)
    (allowCommitted : Bool) (committedProjectionVersion : Int) : Bool :=
  manifest.targets.any (fun target => target.key == segment.key &&
      target.sourceFingerprint == segment.sourceFingerprint &&
      target.projectionVersion == segment.submission.projectionVersion) ||
    (allowCommitted && manifest.boundaries.any fun boundary => boundary.key == segment.key &&
      boundary.sourceFingerprint == some segment.sourceFingerprint &&
      boundary.projectionVersion == committedProjectionVersion && boundary.sourceEligible)

end Jobs

end Reflection.Backfill
