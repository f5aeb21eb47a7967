/-
Segment identity and source fingerprints.

A segment id is a version 5 UUID and a fingerprint a SHA-256 digest. The model
keeps the name a UUID is made from, and takes the digest as a parameter that is
applied to the framed text the source hashes.
-/

import Reflection.Shared.Contracts

namespace Reflection

open JsString

/-- The name whose version 5 UUID identifies a segment, one constructor a scheme. -/
inductive SegmentName
  | legacyV1 (sessionId startUserMessageId : JsString)
  | legacyV2 (sessionId startSourceMessageId : JsString)
  | source (sourceId sessionId : JsString) (boundaryVersion : Nat) (startCursor : JsString)
deriving DecidableEq

/-- The text handed to `uuidv5` in the segment namespace. -/
def SegmentName.text : SegmentName → JsString
  | .legacyV1 sessionId startUser => sessionId ++ [0] ++ startUser
  | .legacyV2 sessionId startSource =>
      ofString "reflection-segment-v2:" ++ utf8Frame sessionId ++ utf8Frame startSource
  | .source sourceId sessionId boundaryVersion startCursor =>
      ofString "reflection-source-segment-v1:" ++ utf8Frame sourceId ++ utf8Frame sessionId ++
        utf8Frame (decimal boundaryVersion) ++ utf8Frame startCursor

inductive IdentityError
  | contract (error : ContractValidationError)
  /-- native segment identity requires an opencode-v2 source-v1 registry entry -/
  | nativeRegistry
  /-- segment request source does not match registered source -/
  | sourceMismatch
deriving DecidableEq

/-- Lift a contract failure into an identity failure. -/
def contractChecked {α : Type} : Except ContractValidationError α → Except IdentityError α
  | .ok value => .ok value
  | .error error => .error (.contract error)

@[simp] theorem contractChecked_ok {α : Type} (value : α) :
    contractChecked (.ok value : Except ContractValidationError α) = .ok value := rfl

theorem contractChecked_ok_iff {α : Type} {result : Except ContractValidationError α}
    {value : α} : contractChecked result = .ok value ↔ result = .ok value := by
  cases result <;> simp [contractChecked]

/-- The registry entry native ingestion requires. -/
def SourceInfo.isNative (source : SourceInfo) : Bool :=
  source.kind == .opencodeV2 && source.identityScheme == .sourceV1

def nativeSegmentIdForRequest (request : NativeSegmentCreate) (registry : SourceInfo) :
    Except IdentityError SegmentName := do
  let parsedRequest ← contractChecked (parseNativeSegmentCreate request)
  let source ← contractChecked (parseSourceInfo registry)
  if !source.isNative then .error .nativeRegistry
  else if parsedRequest.sourceId ≠ source.id then .error .sourceMismatch
  else
    .ok (.source parsedRequest.sourceId parsedRequest.sessionId 3
      parsedRequest.startSourceMessageId)

def LegacyBoundary.version : LegacyBoundary → Nat
  | .v1 .. => 1
  | .v2 .. => 2

def LegacyBoundary.startUserMessageId : LegacyBoundary → JsString
  | .v1 startUser _ => startUser
  | .v2 startUser _ _ _ => startUser

def LegacyBoundary.endUserMessageId : LegacyBoundary → JsString
  | .v1 _ endUser => endUser
  | .v2 _ endUser _ _ => endUser

def LegacyBoundary.startCursor : LegacyBoundary → JsString
  | .v1 startUser _ => startUser
  | .v2 _ _ startSource _ => startSource

def segmentIdForRequest (request : SegmentCreate) : SegmentName :=
  match request.boundary with
  | .v1 startUser _ => .legacyV1 request.sessionId startUser
  | .v2 _ _ startSource _ => .legacyV2 request.sessionId startSource

def sourceSegmentIdForRequest (sourceId : JsString) (request : SegmentCreate)
    (source : SourceInfo) : Except IdentityError SegmentName := do
  let parsedSource ← contractChecked (parseSourceInfo source)
  let requestSourceId ← contractChecked (parseSourceId sourceId "segment request source")
  if requestSourceId ≠ parsedSource.id then .error .sourceMismatch
  else
    match parsedSource.identityScheme with
    | .legacy => .ok (segmentIdForRequest request)
    | .sourceV1 =>
        .ok (.source requestSourceId request.sessionId request.boundary.version
          request.boundary.startCursor)

def ingestSegmentIdForRequest (request : IngestSegmentCreate) (source : SourceInfo) :
    Except IdentityError SegmentName :=
  match request with
  | .native native => nativeSegmentIdForRequest native source
  | .source sourceId legacy => sourceSegmentIdForRequest sourceId legacy source

/-! ### Source fingerprints -/

def NativeMessageType.name : NativeMessageType → JsString
  | .user => ofString "user"
  | .assistant => ofString "assistant"
  | .synthetic => ofString "synthetic"
  | .shell => ofString "shell"
  | .skill => ofString "skill"
  | .system => ofString "system"
  | .compaction => ofString "compaction"
  | .idle => ofString "idle"
  | .agentSwitched => ofString "agent-switched"
  | .modelSwitched => ofString "model-switched"
  | .locationSwitched => ofString "location-switched"

def MessageRole.name : MessageRole → JsString
  | .user => ofString "user"
  | .assistant => ofString "assistant"

/-- The text `nativeSourceFingerprint` hashes. -/
def nativeSourceText (request : NativeSegmentCreate) : JsString :=
  ofString "reflection-source-v3:" ++ utf8Frame request.sourceId ++ utf8Frame request.sessionId ++
    utf8Frame (ofString "3") ++ utf8Frame (decimal request.projectionVersion) ++
    utf8Frame request.startSourceMessageId ++ utf8Frame request.endSourceMessageId ++
    decimal request.messages.length ++ ofString ":" ++
    request.messages.flatMap fun message =>
      utf8Frame message.id ++ utf8Frame message.type.name ++ utf8Frame message.text

/-- The text `sourceFingerprint` hashes. -/
def sourceText (request : SegmentCreate) : JsString :=
  let messageFrames :=
    decimal request.messages.length ++ ofString ":" ++
      request.messages.flatMap fun message =>
        utf8Frame message.role.name ++ utf8Frame message.text
  match request.boundary with
  | .v1 startUser endUser =>
      ofString "reflection-source-v1:" ++ utf8Frame request.sessionId ++ utf8Frame startUser ++
        utf8Frame endUser ++ messageFrames
  | .v2 startUser endUser startSource endSource =>
      ofString "reflection-source-v2:" ++ utf8Frame request.sessionId ++ utf8Frame startUser ++
        utf8Frame endUser ++ utf8Frame (decimal 2) ++ utf8Frame startSource ++
        utf8Frame endSource ++ messageFrames

section Fingerprint

variable (sha256 : JsString → JsString)

def nativeSourceFingerprint (request : NativeSegmentCreate) : JsString :=
  sha256 (nativeSourceText request)

def sourceFingerprint (request : SegmentCreate) : JsString := sha256 (sourceText request)

def ingestSourceFingerprint : IngestSegmentCreate → JsString
  | .native request => nativeSourceFingerprint sha256 request
  | .source _ request => sourceFingerprint sha256 request

end Fingerprint

end Reflection
