/-
Extraction results, and the digests that tie a summary to the row it belongs to.

The server computes a projection fingerprint in the code that commits and the
database recomputes it from the columns. Both are one function here: where the SQL
function returns NULL the server throws.
-/

import Reflection.Shared.Identity

namespace Reflection

open JsString

structure ExtractedClaim where
  subject : JsString
  predicate : JsString
  confidence : ℚ
  objectEntity : Option JsString
  objectValue : Option JsString
deriving DecidableEq

structure ExtractionResult where
  summary : JsString
  claims : List ExtractedClaim
deriving DecidableEq

def EXTRACTION_VALIDATION_VERSION : Nat := 3

def PROJECTION_SAFE_VERSION : Nat := 1

/-- EntityMentionSchema and NaturalPredicateSchema bound their text to 500 code units. -/
def isShortText (value : JsString) : Bool := 1 ≤ value.length && value.length ≤ 500

/-- `/[a-z][A-Z]/.test(value)`. -/
def hasCamelCase : JsString → Bool
  | first :: second :: rest =>
      (0x61 ≤ first && first ≤ 0x7a && 0x41 ≤ second && second ≤ 0x5a) ||
        hasCamelCase (second :: rest)
  | _ => false

def extractedClaimAccepted (claim : ExtractedClaim) : Bool :=
  isShortText claim.subject && isShortText claim.predicate && !claim.predicate.contains 0x5f &&
    decide (0 ≤ claim.confidence) && decide (claim.confidence ≤ 1) &&
    match claim.objectEntity, claim.objectValue with
    | some entity, none => isShortText entity
    | none, some value => 1 ≤ value.length && value.length ≤ 10000
    | _, _ => false

def extractionResultAccepted (result : ExtractionResult) : Bool :=
  result.summary.length ≤ 1000 && result.claims.length ≤ 25 &&
    result.claims.all extractedClaimAccepted &&
    result.claims.all fun claim => !hasCamelCase claim.predicate

def parseExtractionResult (value : ExtractionResult) :
    Except ContractValidationError ExtractionResult :=
  parse "normalized extraction result" extractionResultAccepted value

/-! ### Boundaries as columns -/

/-- The four columns that name an exact span. SQL NULL is the absence of a cursor. -/
structure ExactBoundary where
  endUserMessageId : Option JsString
  sourceBoundaryVersion : Nat
  startSourceMessageId : Option JsString
  endSourceMessageId : Option JsString
deriving DecidableEq

def IngestSegmentCreate.isNative : IngestSegmentCreate → Bool
  | .native _ => true
  | .source .. => false

/-- `{ ...request, processing_priority: priority }`. -/
def IngestSegmentCreate.withPriority (priority : Nat) : IngestSegmentCreate → IngestSegmentCreate
  | .source sourceId request => .source sourceId { request with processingPriority := priority }
  | .native request => .native { request with processingPriority := priority }

namespace PersistedIngestRequest

def sessionId : PersistedIngestRequest → JsString
  | .legacy request => request.sessionId
  | .native request => request.sessionId

/-- `persistedBoundary(request).start_user_message_id`. -/
def startUserMessageId : PersistedIngestRequest → Option JsString
  | .legacy request => some request.boundary.startUserMessageId
  | .native _ => none

def boundary : PersistedIngestRequest → ExactBoundary
  | .legacy request =>
      match request.boundary with
      | .v1 _ endUser =>
          { endUserMessageId := some endUser
            sourceBoundaryVersion := 1
            startSourceMessageId := none
            endSourceMessageId := none }
      | .v2 _ endUser startSource endSource =>
          { endUserMessageId := some endUser
            sourceBoundaryVersion := 2
            startSourceMessageId := some startSource
            endSourceMessageId := some endSource }
  | .native request =>
      { endUserMessageId := none
        sourceBoundaryVersion := 3
        startSourceMessageId := some request.startSourceMessageId
        endSourceMessageId := some request.endSourceMessageId }

def projectionVersion : PersistedIngestRequest → Nat
  | .legacy request => request.projectionVersion
  | .native request => request.projectionVersion

def processingPriority : PersistedIngestRequest → Nat
  | .legacy request => request.processingPriority
  | .native request => request.processingPriority

/-- `{ ...request, processing_priority: priority }`. -/
def withPriority (priority : Nat) : PersistedIngestRequest → PersistedIngestRequest
  | .legacy request => .legacy { request with processingPriority := priority }
  | .native request => .native { request with processingPriority := priority }

end PersistedIngestRequest

/-! ### Digests -/

/-- Functions of the platform: SHA-256 in hexadecimal, `uuidv5` in the segment namespace and
the database's text of a JSON value. -/
structure Platform where
  sha256 : JsString → JsString
  uuidv5 : JsString → JsString
  jsonbText : ExtractionResult → JsString

section Digests

variable (platform : Platform)

def projectionFingerprint (segmentId endUserMessageId summary : JsString)
    (projectionVersion : Nat) : JsString :=
  platform.sha256 (segmentId ++ ofString ":" ++ decimal (codePointLength endUserMessageId) ++
    ofString ":" ++ endUserMessageId ++ ofString ":" ++ decimal (codePointLength summary) ++
    ofString ":" ++ summary ++ ofString ":" ++ decimal projectionVersion)

def nativeProjectionFingerprint (segmentId endSourceMessageId summary : JsString)
    (projectionVersion : Nat) : JsString :=
  platform.sha256 (ofString "reflection-projection-v3:" ++ utf8Frame segmentId ++
    utf8Frame (ofString "3") ++ utf8Frame endSourceMessageId ++ utf8Frame summary ++
    utf8Frame (decimal projectionVersion))

/-- `reflection_projection_fingerprint`; the server's `ingestProjectionFingerprintForBoundary`
after `projectionBoundary`. -/
def projectionFingerprintForBoundary (segmentId : SegmentName) (boundary : ExactBoundary)
    (summary : JsString) (projectionVersion : Nat) : Option JsString :=
  let id := platform.uuidv5 segmentId.text
  match boundary.sourceBoundaryVersion, boundary.endUserMessageId, boundary.endSourceMessageId with
  | 1, some endUser, none => some (projectionFingerprint platform id endUser summary projectionVersion)
  | 2, some endUser, some endSource =>
      some (platform.sha256 (ofString "reflection-projection-v2:" ++ utf8Frame id ++
        utf8Frame (decimal 2) ++ utf8Frame endUser ++ utf8Frame endSource ++ utf8Frame summary ++
        utf8Frame (decimal projectionVersion)))
  | 3, none, some endSource =>
      some (nativeProjectionFingerprint platform id endSource summary projectionVersion)
  | _, _, _ => none

/-- `reflection_extraction_validation_fingerprint`. -/
def extractionValidationFingerprint (result : ExtractionResult) (validationVersion : Nat)
    (sourceFingerprint : JsString) : JsString :=
  platform.sha256 (ofString "reflection-extraction-validation-v1:" ++
    utf8Frame (decimal validationVersion) ++ utf8Frame sourceFingerprint ++
    utf8Frame (platform.jsonbText result))

/-- `reflection_source_fingerprint`: the session, the first user and the messages come from the
payload, the rest from the columns. -/
def columnSourceFingerprint (boundary : ExactBoundary) (payload : PersistedIngestRequest) :
    Option JsString :=
  match boundary.sourceBoundaryVersion, boundary.endUserMessageId, boundary.startSourceMessageId,
    boundary.endSourceMessageId, payload with
  | 1, some endUser, none, none, .legacy request =>
      some (sourceFingerprint platform.sha256
        { request with boundary := .v1 request.boundary.startUserMessageId endUser })
  | 2, some endUser, some startSource, some endSource, .legacy request =>
      some (sourceFingerprint platform.sha256
        { request with
          boundary := .v2 request.boundary.startUserMessageId endUser startSource endSource })
  | 3, none, some startSource, some endSource, .native request =>
      if request.startSourceMessageId = startSource ∧ request.endSourceMessageId = endSource then
        some (nativeSourceFingerprint platform.sha256 request)
      else none
  | _, _, _, _, _ => none

end Digests

end Reflection
