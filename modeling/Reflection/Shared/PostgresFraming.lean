/-
The fingerprints that the database computes.

The functions of the migrations read the columns of a row and its payload. Two of them are
overloaded: the version 1 functions are the older ones, which the later ones call.
-/

import Reflection.Shared.Jsonb
import Reflection.Shared.Preimages

namespace Reflection

open Sql PgText

/-- A value of type UUID: 32 hexadecimal digits. -/
structure Uuid where
  digit : Fin 32 → Fin 16

namespace Uuid

def hexDigit (value : Fin 16) : Char := ("0123456789abcdef".toList[value.val]?).getD '0'

/-- `uuid::TEXT`: lower case, in groups of 8, 4, 4, 4 and 12 digits. -/
def text (uuid : Uuid) : PgText :=
  let digits := (List.finRange 32).map fun place => hexDigit (uuid.digit place)
  digits.take 8 ++ ['-'] ++ (digits.drop 8).take 4 ++ ['-'] ++ (digits.drop 12).take 4 ++ ['-'] ++
    (digits.drop 16).take 4 ++ ['-'] ++ digits.drop 20

end Uuid

/-- `octet_length(value)::TEXT || ':' || value`. -/
def octetFrame (value : Option PgText) : Option PgText :=
  PgText.concat [value.map fun text => ofNat text.octetLength, some (ofString ":"), value]

/-- `length(value)::TEXT || ':' || value || ':'`. -/
def lengthFrame (value : Option PgText) : Option PgText :=
  PgText.concat [value.map fun text => ofNat text.length, some (ofString ":"), value, some (ofString ":")]

/-! ### Native payloads -/

def nativePayloadKeys : List PgText :=
  ["source_id", "session_id", "source_boundary_version", "start_source_message_id",
    "end_source_message_id", "projection_version", "processing_priority", "messages"].map ofString

def nativeMessageKeys : List PgText := ["id", "type", "text"].map ofString

def nativeMessageTypes : List PgText :=
  ["user", "assistant", "synthetic", "shell", "skill", "system", "compaction", "idle", "agent-switched",
    "model-switched", "location-switched"].map ofString

/-- `trunc(value)`. -/
def truncated (value : Rat) : Rat := if value < 0 then value.ceil else value.floor

/-- The conditions on the payload outside its messages that are refused. -/
def nativeHeaderRefused (payload : Jsonb) (owner session startCursor endCursor : Option PgText) : Condition :=
  let priority := payload.fieldNumeric (ofString "processing_priority")
  anyOf
    [Sql.not (some (payload.hasAll nativePayloadKeys)),
      some (payload.hasOther nativePayloadKeys),
      isDistinctFrom (payload.fieldType (ofString "source_id")) (some .string),
      isDistinctFrom (payload.fieldText (ofString "source_id")) owner,
      isDistinctFrom (payload.fieldType (ofString "session_id")) (some .string),
      (payload.fieldText (ofString "session_id")).map fun text => (btrim text).length == 0,
      (payload.fieldText (ofString "session_id")).map fun text => decide (500 < text.length),
      isDistinctFrom (payload.fieldText (ofString "session_id")) session,
      payload.fieldIsNot (ofString "source_boundary_version") 3,
      payload.fieldIsNot (ofString "projection_version") 3,
      isDistinctFrom (payload.fieldType (ofString "start_source_message_id")) (some .string),
      isDistinctFrom (payload.fieldType (ofString "end_source_message_id")) (some .string),
      isDistinctFrom (payload.fieldText (ofString "start_source_message_id")) startCursor,
      isDistinctFrom (payload.fieldText (ofString "end_source_message_id")) endCursor,
      isDistinctFrom (payload.fieldType (ofString "processing_priority")) (some .number),
      priority.map fun value => !(decide (0 ≤ value) && decide (value ≤ 100)),
      priority.map fun value => decide (value ≠ truncated value)]

/-- The conditions on one message that are refused. -/
def nativeMessageRefused (message : Jsonb) : Condition :=
  anyOf
    [isDistinctFrom (some message.typeof) (some .object),
      Sql.not (some (message.hasAll nativeMessageKeys)),
      some (message.hasOther nativeMessageKeys),
      isDistinctFrom (message.fieldType (ofString "id")) (some .string),
      (message.fieldText (ofString "id")).map fun text => (btrim text).length == 0,
      (message.fieldText (ofString "id")).map fun text => decide (500 < text.length),
      isDistinctFrom (message.fieldType (ofString "type")) (some .string),
      (message.fieldText (ofString "type")).map fun text => !nativeMessageTypes.contains text,
      isDistinctFrom (message.fieldType (ofString "text")) (some .string),
      (message.fieldText (ofString "text")).map fun text => decide (1000000 < text.length)]

/-- `sum(length(m->>'text')) <= 2000000`; the sum of no rows is NULL. -/
def nativeTextsWithin (messages : List Jsonb) : Condition :=
  match messages.filterMap fun message => message.fieldText (ofString "text") with
  | [] => none
  | texts => some (decide ((texts.map List.length).sum ≤ 2000000))

/-- `reflection_native_payload_valid`. -/
def reflectionNativePayloadValid (payload : Option Jsonb)
    (owner session startCursor endCursor : Option PgText) : Condition :=
  match payload with
  | none => some false
  | some payload =>
      if taken (isDistinctFrom (some payload.typeof) (some .object)) then some false
      else if taken (nativeHeaderRefused payload owner session startCursor endCursor) then some false
      else
        let messages := payload.field (ofString "messages")
        let items := Jsonb.elements messages
        if taken (isDistinctFrom (messages.map Jsonb.typeof) (some .array)) then some false
        else if taken ((Jsonb.arrayLength messages).map fun count => !(decide (1 ≤ count) && decide (count ≤ 10000))) then
          some false
        else if items.any fun message => taken (isDistinctFrom (some message.typeof) (some .object)) then
          some false
        else if items.any fun message => taken (nativeMessageRefused message) then some false
        else
          let ids := items.filterMap fun message => message.fieldText (ofString "id")
          allOf
            [Sql.not (isDistinctFrom (items.head?.bind fun message => message.fieldText (ofString "id")) startCursor),
              Sql.not (isDistinctFrom (items.getLast?.bind fun message => message.fieldText (ofString "id")) endCursor),
              some (ids.dedup.length == items.length),
              nativeTextsWithin items]

/-! ### Source fingerprints -/

section Fingerprints

-- `encode(sha256(bytes), 'hex')`
variable (sha256 : List UInt8 → JsString)

/-- `encode(sha256(convert_to(input, 'UTF8')), 'hex')`. -/
def digest (input : Option PgText) : Option JsString := input.map fun text => sha256 text.convertTo

/-- The number of messages and their frames, as versions 1 and 2 read them. -/
def roleMessages (payload : Option Jsonb) : Option (List (Option PgText)) :=
  let messages := payload.bind fun value => value.field (ofString "messages")
  if taken (differs (messages.map Jsonb.typeof) .array) then none
  else if (Jsonb.elements messages).any fun message =>
      taken (anyOf
        [differs (some message.typeof) .object, differs (message.fieldType (ofString "role")) .string,
          differs (message.fieldType (ofString "text")) .string]) then none
  else
    let frames := (Jsonb.elements messages).map fun message =>
      PgText.concat
        [octetFrame (message.fieldText (ofString "role")), octetFrame (message.fieldText (ofString "text"))]
    some
      [(Jsonb.arrayLength messages).map ofNat, some (ofString ":"), some ((stringAgg frames).getD [])]

/-- `reflection_source_fingerprint` of four arguments. -/
def reflectionSourceFingerprintV1 (sessionId startUserMessageId endUserMessageId : Option PgText)
    (payload : Option Jsonb) : Option JsString := do
  let messages ← roleMessages payload
  digest sha256 (PgText.concat
    ([some (ofString "reflection-source-v1:"), octetFrame sessionId, octetFrame startUserMessageId,
      octetFrame endUserMessageId] ++ messages))

/-- `reflection_source_fingerprint` of seven arguments. -/
def reflectionSourceFingerprintV2 (sessionId startUserMessageId endUserMessageId : Option PgText)
    (sourceBoundaryVersion : Nat) (startSourceMessageId endSourceMessageId : Option PgText)
    (payload : Option Jsonb) : Option JsString :=
  if sourceBoundaryVersion = 1 then
    if taken (anyOf [isNotNull startSourceMessageId, isNotNull endSourceMessageId]) then none
    else reflectionSourceFingerprintV1 sha256 sessionId startUserMessageId endUserMessageId payload
  else if taken (anyOf
      [some (decide (sourceBoundaryVersion ≠ 2)), isNull startSourceMessageId, isNull endSourceMessageId]) then
    none
  else do
    let messages ← roleMessages payload
    digest sha256 (PgText.concat
      ([some (ofString "reflection-source-v2:"), octetFrame sessionId, octetFrame startUserMessageId,
        octetFrame endUserMessageId, octetFrame (some (ofNat sourceBoundaryVersion)),
        octetFrame startSourceMessageId, octetFrame endSourceMessageId] ++ messages))

/-- `reflection_source_fingerprint` of eight arguments. -/
def reflectionSourceFingerprint
    (sourceId sessionId startUserMessageId endUserMessageId : Option PgText) (sourceBoundaryVersion : Nat)
    (startSourceMessageId endSourceMessageId : Option PgText) (payload : Option Jsonb) : Option JsString :=
  if sourceBoundaryVersion = 1 ∨ sourceBoundaryVersion = 2 then
    reflectionSourceFingerprintV2 sha256 sessionId startUserMessageId endUserMessageId
      sourceBoundaryVersion startSourceMessageId endSourceMessageId payload
  else if taken (anyOf
      [some (decide (sourceBoundaryVersion ≠ 3)), isNull sourceId, isNotNull startUserMessageId,
        isNotNull endUserMessageId,
        Sql.not (reflectionNativePayloadValid payload sourceId sessionId startSourceMessageId
          endSourceMessageId)]) then none
  else
    let messages := payload.bind fun value => value.field (ofString "messages")
    let frames := (Jsonb.elements messages).map fun message =>
      PgText.concat
        [octetFrame (message.fieldText (ofString "id")), octetFrame (message.fieldText (ofString "type")),
          octetFrame (message.fieldText (ofString "text"))]
    digest sha256 (PgText.concat
      [some (ofString "reflection-source-v3:"), octetFrame sourceId, octetFrame sessionId,
        some (ofString "1:3"), some (ofString "1:3"), octetFrame startSourceMessageId,
        octetFrame endSourceMessageId, (Jsonb.arrayLength messages).map ofNat, some (ofString ":"),
        stringAgg frames])

/-! ### Projection fingerprints -/

/-- `reflection_projection_fingerprint` of four arguments. -/
def reflectionProjectionFingerprintV1 (segmentId : Uuid) (endUserMessageId summary : Option PgText)
    (projectionVersion : Nat) : Option JsString :=
  digest sha256 (PgText.concat
    [some segmentId.text, some (ofString ":"), lengthFrame endUserMessageId, lengthFrame summary,
      some (ofNat projectionVersion)])

/-- `reflection_projection_fingerprint` of six arguments. -/
def reflectionProjectionFingerprint (segmentId : Uuid) (sourceBoundaryVersion : Nat)
    (endUserMessageId endSourceMessageId summary : Option PgText) (projectionVersion : Nat) :
    Option JsString :=
  if sourceBoundaryVersion = 1 then
    if taken (isNotNull endSourceMessageId) then none
    else reflectionProjectionFingerprintV1 sha256 segmentId endUserMessageId summary projectionVersion
  else if taken (anyOf
      [some (decide (sourceBoundaryVersion ≠ 2 ∧ sourceBoundaryVersion ≠ 3)), isNull endSourceMessageId]) then
    none
  else if taken (allOf [some (decide (sourceBoundaryVersion = 3)), isNotNull endUserMessageId]) then none
  else
    digest sha256 (PgText.concat
      [some (ofString (if sourceBoundaryVersion = 3 then "reflection-projection-v3:"
          else "reflection-projection-v2:")),
        octetFrame (some segmentId.text), octetFrame (some (ofNat sourceBoundaryVersion)),
        if sourceBoundaryVersion = 3 then some (ofString "") else octetFrame endUserMessageId,
        octetFrame endSourceMessageId, octetFrame summary, octetFrame (some (ofNat projectionVersion))])

end Fingerprints

/-! ### Stored rows -/

def SourceMessage.jsonb (message : SourceMessage) : Jsonb :=
  .object
    [(ofString "role", .string message.role.name.points), (ofString "text", .string message.text.points)]

def NativeSourceMessage.jsonb (message : NativeSourceMessage) : Jsonb :=
  .object
    [(ofString "id", .string message.id.points), (ofString "type", .string message.type.name.points),
      (ofString "text", .string message.text.points)]

/-- A text or JSON null. -/
def nullableText (value : Option PgText) : Jsonb :=
  match value with
  | none => .null
  | some text => .string text

/-- The payload of a row: `jsonb(persistedRequest(request))`. -/
def PersistedIngestRequest.jsonb : PersistedIngestRequest → Jsonb
  | .legacy request =>
      .object
        [(ofString "session_id", .string request.sessionId.points),
          (ofString "start_user_message_id", .string request.boundary.startUserMessageId.points),
          (ofString "end_user_message_id", .string request.boundary.endUserMessageId.points),
          (ofString "source_boundary_version", .number request.boundary.version),
          (ofString "start_source_message_id",
            nullableText ((legacy request).boundary.startSourceMessageId.map JsString.points)),
          (ofString "end_source_message_id",
            nullableText ((legacy request).boundary.endSourceMessageId.map JsString.points)),
          (ofString "projection_version", .number request.projectionVersion),
          (ofString "processing_priority", .number request.processingPriority),
          (ofString "messages", .array (request.messages.map SourceMessage.jsonb))]
  | .native request =>
      .object
        [(ofString "source_id", .string request.sourceId.points),
          (ofString "session_id", .string request.sessionId.points),
          (ofString "source_boundary_version", .number 3),
          (ofString "start_source_message_id", .string request.startSourceMessageId.points),
          (ofString "end_source_message_id", .string request.endSourceMessageId.points),
          (ofString "projection_version", .number request.projectionVersion),
          (ofString "processing_priority", .number request.processingPriority),
          (ofString "messages", .array (request.messages.map NativeSourceMessage.jsonb))]

/-- The columns of a row that the functions read; `persistedBoundary` leaves the users of a native
row NULL. -/
structure SourceColumns where
  sourceId : Option PgText
  sessionId : Option PgText
  startUserMessageId : Option PgText
  endUserMessageId : Option PgText
  sourceBoundaryVersion : Nat
  startSourceMessageId : Option PgText
  endSourceMessageId : Option PgText
  payload : Option Jsonb

/-- The row that stores a request. -/
def IngestSegmentCreate.columns (request : IngestSegmentCreate) : SourceColumns :=
  let payload := persistedRequest request
  { sourceId := some request.sourceId.points
    sessionId := some payload.sessionId.points
    startUserMessageId := payload.startUserMessageId.map JsString.points
    endUserMessageId := payload.boundary.endUserMessageId.map JsString.points
    sourceBoundaryVersion := payload.boundary.sourceBoundaryVersion
    startSourceMessageId := payload.boundary.startSourceMessageId.map JsString.points
    endSourceMessageId := payload.boundary.endSourceMessageId.map JsString.points
    payload := some payload.jsonb }

namespace SourceColumns

/-- The fingerprint the triggers compare with. -/
def sourceFingerprint (sha256 : List UInt8 → JsString) (row : SourceColumns) : Option JsString :=
  reflectionSourceFingerprint sha256 row.sourceId row.sessionId row.startUserMessageId
    row.endUserMessageId row.sourceBoundaryVersion row.startSourceMessageId row.endSourceMessageId
    row.payload

/-- The check of a native row. -/
def nativePayloadValid (row : SourceColumns) : Condition :=
  reflectionNativePayloadValid row.payload row.sourceId row.sessionId row.startSourceMessageId
    row.endSourceMessageId

end SourceColumns

end Reflection
