/-
Ingest requests and their validation.

A request is parsed by trimming its identifiers and then checking lengths, text
limits and the agreement between the boundary and the messages. Values that were
parsed once are fixed points of parsing, which is what lets persisted payloads be
decoded again without change.
-/

import Reflection.Shared.JsString

namespace Reflection

open JsString

def maxMessageTextChars : Nat := 1000000

def maxSegmentTextChars : Nat := 2000000

/-- `invalid ${name}`. -/
structure ContractValidationError where
  name : String
deriving DecidableEq

/-- The schema check shared by every parser: accept the value unchanged or throw. -/
def parse {α : Type} (name : String) (accepted : α → Bool) (value : α) :
    Except ContractValidationError α :=
  if accepted value then .ok value else .error ⟨name⟩

theorem parse_ok_iff {α : Type} {name : String} {accepted : α → Bool} {value parsed : α} :
    parse name accepted value = .ok parsed ↔ value = parsed ∧ accepted parsed = true := by
  unfold parse
  constructor
  · intro succeeded
    split at succeeded
    · rename_i valid
      cases succeeded
      exact ⟨rfl, valid⟩
    · cases succeeded
  · rintro ⟨rfl, valid⟩
    rw [if_pos valid]

inductive SourceKind
  | opencodeV1
  | opencodeV2
deriving DecidableEq

inductive IdentityScheme
  | legacy
  | sourceV1
deriving DecidableEq

structure SourceInfo where
  id : JsString
  kind : SourceKind
  identityScheme : IdentityScheme
deriving DecidableEq

/-- IdentifierSchema: between 1 and 500 code units. -/
def isIdentifier (value : JsString) : Bool := 1 ≤ value.length && value.length ≤ 500

/-- SourceIdSchema adds a character that is not white space. -/
def isSourceId (value : JsString) : Bool := isIdentifier value && !isBlank value

def parseSourceId (value : JsString) (name : String) :
    Except ContractValidationError JsString :=
  parse name isSourceId (trim value)

def parseSourceInfo (value : SourceInfo) : Except ContractValidationError SourceInfo := do
  let id ← parseSourceId value.id "source"
  .ok { value with id := id }

/-! ### Native requests (boundary version 3) -/

inductive NativeMessageType
  | user
  | assistant
  | synthetic
  | shell
  | skill
  | system
  | compaction
  | idle
  | agentSwitched
  | modelSwitched
  | locationSwitched
deriving DecidableEq

structure NativeSourceMessage where
  id : JsString
  type : NativeMessageType
  text : JsString
deriving DecidableEq

structure NativeSegmentCreate where
  sourceId : JsString
  sessionId : JsString
  startSourceMessageId : JsString
  endSourceMessageId : JsString
  projectionVersion : Nat
  processingPriority : Nat
  messages : List NativeSourceMessage
deriving DecidableEq

def normalizeNativeSegmentCreate (value : NativeSegmentCreate) : NativeSegmentCreate :=
  { value with
    sourceId := trim value.sourceId
    sessionId := trim value.sessionId
    startSourceMessageId := trim value.startSourceMessageId
    endSourceMessageId := trim value.endSourceMessageId
    messages := value.messages.map fun message => { message with id := trim message.id } }

/-- NativeSegmentCreateSchema, then the checks `parseNativeSegmentCreate` adds to it. -/
def nativeSegmentAccepted (value : NativeSegmentCreate) : Bool :=
  isSourceId value.sourceId && isIdentifier value.sessionId &&
    isIdentifier value.startSourceMessageId && isIdentifier value.endSourceMessageId &&
    value.projectionVersion == 3 && value.processingPriority ≤ 100 &&
    1 ≤ value.messages.length && value.messages.length ≤ 10000 &&
    value.messages.all (fun message =>
      isIdentifier message.id && message.text.length ≤ maxMessageTextChars * 2) &&
    decide (value.messages.map (·.id)).Nodup &&
    value.messages.all (fun message => codePointLength message.text ≤ maxMessageTextChars) &&
    (value.messages.head?.map (·.id)) == some value.startSourceMessageId &&
    (value.messages.getLast?.map (·.id)) == some value.endSourceMessageId &&
    (value.messages.map (fun message => codePointLength message.text)).sum ≤ maxSegmentTextChars

def parseNativeSegmentCreate (value : NativeSegmentCreate) :
    Except ContractValidationError NativeSegmentCreate :=
  parse "native segment request" nativeSegmentAccepted (normalizeNativeSegmentCreate value)

/-! ### Legacy requests (boundary versions 1 and 2) -/

inductive MessageRole
  | user
  | assistant
deriving DecidableEq

structure SourceMessage where
  role : MessageRole
  text : JsString
deriving DecidableEq

/-- The span a legacy request names: whole user turns, or an exact run inside one turn. -/
inductive LegacyBoundary
  | v1 (startUserMessageId endUserMessageId : JsString)
  | v2 (startUserMessageId endUserMessageId startSourceMessageId endSourceMessageId : JsString)
deriving DecidableEq

structure SegmentCreate where
  sessionId : JsString
  boundary : LegacyBoundary
  projectionVersion : Nat
  processingPriority : Nat
  messages : List SourceMessage
deriving DecidableEq

def LegacyBoundary.trim : LegacyBoundary → LegacyBoundary
  | .v1 startUser endUser => .v1 (JsString.trim startUser) (JsString.trim endUser)
  | .v2 startUser endUser startSource endSource =>
      .v2 (JsString.trim startUser) (JsString.trim endUser) (JsString.trim startSource)
        (JsString.trim endSource)

/-- Identifier checks, and the rule that an exact span stays within one user turn. -/
def LegacyBoundary.accepted : LegacyBoundary → Bool
  | .v1 startUser endUser => isIdentifier startUser && isIdentifier endUser
  | .v2 startUser endUser startSource endSource =>
      isIdentifier startUser && isIdentifier endUser && isIdentifier startSource &&
        isIdentifier endSource && startUser == endUser

def normalizeSegmentCreate (value : SegmentCreate) : SegmentCreate :=
  { value with
    sessionId := trim value.sessionId
    boundary := value.boundary.trim }

def segmentCreateAccepted (value : SegmentCreate) : Bool :=
  isIdentifier value.sessionId && value.boundary.accepted && value.projectionVersion ≤ 2 &&
    value.processingPriority ≤ 100 && 1 ≤ value.messages.length &&
    value.messages.length ≤ 10000 &&
    value.messages.all (fun message => message.text.length ≤ maxMessageTextChars * 2) &&
    value.messages.all (fun message => codePointLength message.text ≤ maxMessageTextChars) &&
    (value.messages.map (fun message => codePointLength message.text)).sum ≤ maxSegmentTextChars

def parseSegmentCreate (value : SegmentCreate) : Except ContractValidationError SegmentCreate :=
  parse "segment request" segmentCreateAccepted (normalizeSegmentCreate value)

/-! ### Requests of either kind -/

inductive IngestSegmentCreate
  | source (sourceId : JsString) (request : SegmentCreate)
  | native (request : NativeSegmentCreate)
deriving DecidableEq

/-- What is stored: a legacy payload leaves out its owner, a native one keeps it. -/
inductive PersistedIngestRequest
  | legacy (request : SegmentCreate)
  | native (request : NativeSegmentCreate)
deriving DecidableEq

def IngestSegmentCreate.sourceId : IngestSegmentCreate → JsString
  | .source sourceId _ => sourceId
  | .native request => request.sourceId

def parseIngestSegmentCreate :
    IngestSegmentCreate → Except ContractValidationError IngestSegmentCreate
  | .native request => do
      let parsed ← parseNativeSegmentCreate request
      .ok (.native parsed)
  | .source sourceId request => do
      let owner ← parseSourceId sourceId "source segment request"
      let parsed ← parseSegmentCreate request
      .ok (.source owner parsed)

def persistedRequest : IngestSegmentCreate → PersistedIngestRequest
  | .source _ request => .legacy request
  | .native request => .native request

def decodePersistedIngestSegment (value : PersistedIngestRequest) (assignedSourceId : JsString) :
    Except ContractValidationError IngestSegmentCreate :=
  match value with
  | .legacy request => do
      let owner ← parseSourceId assignedSourceId "assigned source"
      let parsed ← parseSegmentCreate request
      .ok (.source owner parsed)
  | .native request => do
      let parsed ← parseNativeSegmentCreate request
      let owner ← parseSourceId assignedSourceId "assigned source"
      if parsed.sourceId ≠ owner then .error ⟨"persisted native segment source"⟩
      else .ok (.native parsed)

section Idempotence

@[simp] theorem normalizeNativeSegmentCreate_idem (value : NativeSegmentCreate) :
    normalizeNativeSegmentCreate (normalizeNativeSegmentCreate value) =
      normalizeNativeSegmentCreate value := by
  simp only [normalizeNativeSegmentCreate, trim_trim, List.map_map, Function.comp_def]

@[simp] theorem LegacyBoundary.trim_trim (boundary : LegacyBoundary) :
    boundary.trim.trim = boundary.trim := by
  cases boundary <;> simp only [LegacyBoundary.trim, JsString.trim_trim]

@[simp] theorem normalizeSegmentCreate_idem (value : SegmentCreate) :
    normalizeSegmentCreate (normalizeSegmentCreate value) = normalizeSegmentCreate value := by
  simp only [normalizeSegmentCreate, JsString.trim_trim, LegacyBoundary.trim_trim]

/-- A parsed native request parses to itself. -/
theorem parseNativeSegmentCreate_parsed {value parsed : NativeSegmentCreate}
    (accepted : parseNativeSegmentCreate value = .ok parsed) :
    parseNativeSegmentCreate parsed = .ok parsed := by
  obtain ⟨same, valid⟩ := parse_ok_iff.mp accepted
  refine parse_ok_iff.mpr ⟨?_, valid⟩
  rw [← same, normalizeNativeSegmentCreate_idem]

theorem parseSegmentCreate_parsed {value parsed : SegmentCreate}
    (accepted : parseSegmentCreate value = .ok parsed) :
    parseSegmentCreate parsed = .ok parsed := by
  obtain ⟨same, valid⟩ := parse_ok_iff.mp accepted
  refine parse_ok_iff.mpr ⟨?_, valid⟩
  rw [← same, normalizeSegmentCreate_idem]

theorem parseSourceId_parsed {value parsed : JsString} {name : String} (other : String)
    (accepted : parseSourceId value name = .ok parsed) :
    parseSourceId parsed other = .ok parsed := by
  obtain ⟨same, valid⟩ := parse_ok_iff.mp accepted
  refine parse_ok_iff.mpr ⟨?_, valid⟩
  rw [← same, JsString.trim_trim]

end Idempotence

end Reflection
