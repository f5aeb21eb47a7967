/-
The server and the database hash the same bytes.

Every function below takes the digest as a parameter. The fingerprints agree for each of them, so
what is handed to the digest is the same on both sides.
-/

import Reflection.Shared.PostgresFraming

namespace Reflection

open JsString PgText Sql

/-- A string that the database keeps: no lone surrogate and no NUL. -/
def JsString.Storable (value : JsString) : Prop := isWellFormed value = true ∧ (0 : UInt16) ∉ value

instance (value : JsString) : Decidable value.Storable :=
  inferInstanceAs (Decidable (isWellFormed value = true ∧ (0 : UInt16) ∉ value))

/-- All strings of a request can be kept. -/
def IngestSegmentCreate.Storable (request : IngestSegmentCreate) : Prop :=
  JsString.Storable request.sourceId ∧
    ∀ value ∈ request.framed.fields ++ request.framed.messageStrings, JsString.Storable value

/-! ### Frames -/

namespace PgText

/-- The frame of a text that is not NULL. -/
def framed (text : PgText) : PgText := ofNat text.octetLength ++ ofString ":" ++ text

theorem octetFrame_some (text : PgText) : octetFrame (some text) = some (framed text) := by
  simp [octetFrame, PgText.concat, framed]

theorem js_framed {value : JsString} (wellFormed : isWellFormed value = true) :
    js (framed value.points) = utf8Frame value := by
  rw [framed, js_append, js_append, js_ofNat, js_ofString, js_points wellFormed,
    points_octetLength wellFormed, utf8Frame]

theorem js_framed_text (text : PgText) : js (framed text) = utf8Frame (js text) := by
  rw [framed, js_append, js_append, js_ofNat, js_ofString, octetLength_eq, utf8Frame]

end PgText

section Fingerprints

variable (sha256 : List UInt8 → JsString)

/-- The digest the server takes of a text. -/
def serverDigest (text : JsString) : JsString := sha256 (utf8 text)

theorem digest_concat (parts : List PgText) {text : JsString} (same : parts.flatMap js = text) :
    digest sha256 (PgText.concat (parts.map some)) = some (serverDigest sha256 text) := by
  rw [concat_some, digest, Option.map_some, serverDigest, ← same, ← js_flatten, utf8_js]

end Fingerprints

/-! ### Messages -/

theorem SourceMessage.jsonb_role (message : SourceMessage) :
    message.jsonb.fieldText (ofString "role") = some message.role.name.points := rfl

theorem SourceMessage.jsonb_text (message : SourceMessage) :
    message.jsonb.fieldText (ofString "text") = some message.text.points := rfl

theorem NativeSourceMessage.jsonb_id (message : NativeSourceMessage) :
    message.jsonb.fieldText (ofString "id") = some message.id.points := rfl

theorem NativeSourceMessage.jsonb_type (message : NativeSourceMessage) :
    message.jsonb.fieldText (ofString "type") = some message.type.name.points := rfl

theorem NativeSourceMessage.jsonb_text (message : NativeSourceMessage) :
    message.jsonb.fieldText (ofString "text") = some message.text.points := rfl

theorem jsonb_messages (request : SegmentCreate) :
    (PersistedIngestRequest.legacy request).jsonb.field (ofString "messages") =
      some (.array (request.messages.map SourceMessage.jsonb)) := rfl

theorem native_jsonb_messages (request : NativeSegmentCreate) :
    (PersistedIngestRequest.native request).jsonb.field (ofString "messages") =
      some (.array (request.messages.map NativeSourceMessage.jsonb)) := rfl

/-- The frames of a message of versions 1 and 2. -/
def SourceMessage.frames (message : SourceMessage) : PgText :=
  framed message.role.name.points ++ framed message.text.points

def NativeSourceMessage.frames (message : NativeSourceMessage) : PgText :=
  framed message.id.points ++ (framed message.type.name.points ++ framed message.text.points)

theorem SourceMessage.jsonb_frames (message : SourceMessage) :
    PgText.concat
        [octetFrame (message.jsonb.fieldText (ofString "role")),
          octetFrame (message.jsonb.fieldText (ofString "text"))] = some message.frames := by
  rw [message.jsonb_role, message.jsonb_text, octetFrame_some, octetFrame_some]
  simp [PgText.concat, frames]

theorem NativeSourceMessage.jsonb_frames (message : NativeSourceMessage) :
    PgText.concat
        [octetFrame (message.jsonb.fieldText (ofString "id")),
          octetFrame (message.jsonb.fieldText (ofString "type")),
          octetFrame (message.jsonb.fieldText (ofString "text"))] = some message.frames := by
  rw [message.jsonb_id, message.jsonb_type, message.jsonb_text, octetFrame_some, octetFrame_some,
    octetFrame_some]
  simp [PgText.concat, frames]

theorem SourceMessage.js_frames {message : SourceMessage} (storable : message.text.Storable) :
    js message.frames = fieldsText message.fields := by
  rw [frames, js_append, js_framed message.role.name_wellFormed, js_framed storable.1]
  simp [fieldsText, SourceMessage.fields]

theorem NativeSourceMessage.js_frames {message : NativeSourceMessage} (id : message.id.Storable)
    (text : message.text.Storable) : js message.frames = fieldsText message.fields := by
  rw [frames, js_append, js_append, js_framed id.1, js_framed message.type.name_wellFormed, js_framed text.1]
  simp [fieldsText, NativeSourceMessage.fields]

/-- What versions 1 and 2 read of the messages of a stored request. -/
theorem roleMessages_legacy (request : SegmentCreate) :
    roleMessages (some (PersistedIngestRequest.legacy request).jsonb) =
      some ([ofNat request.messages.length, ofString ":",
        request.messages.flatMap SourceMessage.frames].map some) := by
  have rows : ((request.messages.map SourceMessage.jsonb).map fun message =>
      PgText.concat
        [octetFrame (message.fieldText (ofString "role")),
          octetFrame (message.fieldText (ofString "text"))]) =
      request.messages.map fun message => some message.frames := by
    rw [List.map_map]
    exact List.map_congr_left fun message _ => message.jsonb_frames
  have refused : ((request.messages.map SourceMessage.jsonb).any fun message =>
      taken (anyOf
        [differs (some message.typeof) .object, differs (message.fieldType (ofString "role")) .string,
          differs (message.fieldType (ofString "text")) .string])) = false := by
    apply any_taken_false
    intro row inside
    obtain ⟨message, _, same⟩ := List.mem_map.mp inside
    rw [← same]
    rfl
  unfold roleMessages
  simp only [Option.bind_some, jsonb_messages, Option.map_some, Jsonb.typeof_array, differs_self,
    Jsonb.elements, Jsonb.arrayLength, refused, rows, stringAgg_some, List.length_map]
  cases request.messages with
  | nil => rfl
  | cons message rest => rfl

/-- The text of frames of stored messages. -/
theorem js_messages {Message : Type} {messages : List Message} {frames : Message → PgText}
    {fields : Message → List JsString}
    (each : ∀ message ∈ messages, js (frames message) = fieldsText (fields message)) :
    [ofNat messages.length, ofString ":", messages.flatMap frames].flatMap js =
      messagesText fields messages := by
  have texts : js (messages.flatMap frames) = messages.flatMap fun message => fieldsText (fields message) := by
    rw [List.flatMap_def, js_flatten, List.flatMap_map]
    exact List.flatMap_congr each
  simp [texts, messagesText, countText]

/-! ### Native payloads -/

theorem nativeTypes_listed : ∀ type ∈ NativeMessageType.all,
    nativeMessageTypes.contains type.name.points = true := by
  decide +kernel

/-- A trimmed string does not start with white space. -/
theorem trimmed_head {first : UInt16} {rest : JsString} (trimmed : trim (first :: rest) = first :: rest) :
    isWhiteSpace first = false := by
  by_contra white
  rw [Bool.not_eq_false] at white
  have dropped := congrArg List.length trimmed
  rw [trim, List.dropWhile_cons, if_pos white, List.length_cons] at dropped
  have shorter := (List.rdropWhile_prefix isWhiteSpace (rest.dropWhile isWhiteSpace)).length_le
  have behind := (List.dropWhile_sublist isWhiteSpace (l := rest)).length_le
  omega

/-- A trimmed string that is not empty is not blank for the database either. -/
theorem btrim_trimmed {value : JsString} (wellFormed : isWellFormed value = true)
    (trimmed : trim value = value) (nonempty : value ≠ []) : (btrim value.points).length ≠ 0 := by
  have same := js_points wellFormed
  cases parts : value.points with
  | nil =>
      rw [parts] at same
      exact absurd same.symm nonempty
  | cons point rest =>
      have visible : point ≠ ' ' := by
        rintro rfl
        rw [parts] at same
        have starts : value = 0x20 :: js rest := same.symm
        rw [starts] at trimmed
        have white := trimmed_head trimmed
        revert white
        decide
      rw [Ne, List.length_eq_zero_iff]
      exact btrim_ne_nil visible

theorem storable_points {value : JsString} (storable : value.Storable) (identifier : isIdentifier value = true) :
    value.points.length ≤ 500 := by
  simp only [isIdentifier, Bool.and_eq_true, decide_eq_true_eq] at identifier
  rw [points_length storable.1]
  exact (codePointLength_le value).trans identifier.2

theorem identifier_ne_nil {value : JsString} (identifier : isIdentifier value = true) : value ≠ [] := by
  rintro rfl
  cases identifier

/-- The text conditions on an identifier that was parsed. -/
theorem identifier_kept {value : JsString} (storable : value.Storable) (trimmed : trim value = value)
    (identifier : isIdentifier value = true) :
    ((btrim value.points).length == 0) = false ∧ decide (500 < value.points.length) = false := by
  constructor
  · rw [beq_eq_false_iff_ne]
    exact btrim_trimmed storable.1 trimmed (identifier_ne_nil identifier)
  · rw [decide_eq_false_iff_not, Nat.not_lt]
    exact storable_points storable identifier

/-- No condition refuses a message of a parsed request. -/
theorem nativeMessageRefused_parsed {message : NativeSourceMessage} (id : message.id.Storable)
    (text : message.text.Storable) (trimmed : trim message.id = message.id)
    (identifier : isIdentifier message.id = true)
    (short : codePointLength message.text ≤ maxMessageTextChars) :
    nativeMessageRefused message.jsonb = some false := by
  have kept := identifier_kept id trimmed identifier
  have listed := nativeTypes_listed message.type message.type.mem_all
  have within : decide (1000000 < message.text.points.length) = false := by
    rw [decide_eq_false_iff_not, Nat.not_lt, points_length text.1]
    exact short
  apply anyOf_false
  rw [message.jsonb_id, message.jsonb_type, message.jsonb_text]
  simp only [List.forall_mem_cons, Option.map_some, kept, listed, within, Bool.not_true, true_and]
  exact ⟨rfl, rfl, rfl, rfl, rfl, rfl, by simp⟩

/-- What parsing has checked of a native request. -/
structure NativeParsed (request : NativeSegmentCreate) : Prop where
  normal : normalizeNativeSegmentCreate request = request
  session : isIdentifier request.sessionId = true
  projection : request.projectionVersion = 3
  priority : request.processingPriority ≤ 100
  some_message : 1 ≤ request.messages.length
  count : request.messages.length ≤ 10000
  identifiers : ∀ message ∈ request.messages, isIdentifier message.id = true
  distinct : (request.messages.map (·.id)).Nodup
  short : ∀ message ∈ request.messages, codePointLength message.text ≤ maxMessageTextChars
  first : request.messages.head?.map (·.id) = some request.startSourceMessageId
  last : request.messages.getLast?.map (·.id) = some request.endSourceMessageId
  total : (request.messages.map fun message => codePointLength message.text).sum ≤ maxSegmentTextChars

theorem parseNativeSegmentCreate_checked {value request : NativeSegmentCreate}
    (accepted : parseNativeSegmentCreate value = .ok request) : NativeParsed request := by
  have again := parseNativeSegmentCreate_parsed accepted
  obtain ⟨normal, valid⟩ := parse_ok_iff.mp again
  simp only [nativeSegmentAccepted, Bool.and_eq_true, decide_eq_true_eq, beq_iff_eq, List.all_eq_true] at valid
  obtain ⟨⟨⟨⟨⟨⟨⟨⟨⟨⟨⟨⟨⟨_, session⟩, _⟩, _⟩, projection⟩, priority⟩, some_message⟩, count⟩, fields⟩, distinct⟩,
    short⟩, first⟩, last⟩, total⟩ := valid
  exact
    { normal := normal
      session := session
      projection := projection
      priority := priority
      some_message := some_message
      count := count
      identifiers := fun message inside => (fields message inside).1
      distinct := distinct
      short := short
      first := first
      last := last
      total := total }

theorem NativeParsed.message_trimmed {request : NativeSegmentCreate} (parsed : NativeParsed request)
    {message : NativeSourceMessage} (inside : message ∈ request.messages) : trim message.id = message.id := by
  have normal := congrArg NativeSegmentCreate.messages parsed.normal
  simp only [normalizeNativeSegmentCreate] at normal
  have same := List.map_inj_left.mp (normal.trans (List.map_id request.messages).symm) message inside
  exact congrArg NativeSourceMessage.id same

/-- Priorities are whole numbers. -/
theorem truncated_nat (value : Nat) : truncated (value : Rat) = value := by
  have positive : ¬ (value : Rat) < 0 := not_lt.mpr (Nat.cast_nonneg value)
  have floor : (value : Rat).floor = value := Rat.floor_intCast value
  rw [truncated, if_neg positive, floor, Int.cast_natCast]

theorem native_fields (request : NativeSegmentCreate) :
    let payload := (PersistedIngestRequest.native request).jsonb
    payload.fieldText (ofString "source_id") = some request.sourceId.points ∧
      payload.fieldText (ofString "session_id") = some request.sessionId.points ∧
      payload.fieldText (ofString "start_source_message_id") = some request.startSourceMessageId.points ∧
      payload.fieldText (ofString "end_source_message_id") = some request.endSourceMessageId.points ∧
      payload.fieldNumeric (ofString "processing_priority") = some (request.processingPriority : Rat) ∧
      payload.fieldIsNot (ofString "source_boundary_version") 3 = some (decide ((3 : Rat) ≠ 3)) ∧
      payload.fieldIsNot (ofString "projection_version") 3 =
        some (decide ((request.projectionVersion : Rat) ≠ 3)) :=
  ⟨rfl, rfl, rfl, rfl, rfl, rfl, rfl⟩

theorem native_keys (request : NativeSegmentCreate) :
    let payload := (PersistedIngestRequest.native request).jsonb
    payload.hasAll nativePayloadKeys = true ∧ payload.hasOther nativePayloadKeys = false :=
  ⟨rfl, rfl⟩

/-- No condition refuses the payload of a parsed request. -/
theorem nativeHeaderRefused_parsed {request : NativeSegmentCreate} (parsed : NativeParsed request)
    (session : request.sessionId.Storable) :
    nativeHeaderRefused (PersistedIngestRequest.native request).jsonb (some request.sourceId.points)
      (some request.sessionId.points) (some request.startSourceMessageId.points)
      (some request.endSourceMessageId.points) = some false := by
  have trimmed : trim request.sessionId = request.sessionId :=
    congrArg NativeSegmentCreate.sessionId parsed.normal
  have kept := identifier_kept session trimmed parsed.session
  have atMost : (request.processingPriority : Rat) ≤ 100 := by exact_mod_cast parsed.priority
  have atLeast : (0 : Rat) ≤ request.processingPriority := Nat.cast_nonneg _
  obtain ⟨source, sessionField, start, finish, priority, boundary, projection⟩ := native_fields request
  obtain ⟨all, other⟩ := native_keys request
  apply anyOf_false
  rw [source, sessionField, start, finish, priority, boundary, projection, all, other, parsed.projection]
  simp only [List.forall_mem_cons, Option.map_some, kept, isDistinctFrom_self, truncated_nat, true_and]
  refine ⟨rfl, rfl, rfl, by simp, by simp, rfl, rfl, rfl, ?_, by simp, by simp⟩
  simp [atMost, atLeast]

section StoredMessages

variable {request : NativeSegmentCreate} (storable : (IngestSegmentCreate.native request).Storable)
include storable

theorem native_id_storable {message : NativeSourceMessage} (inside : message ∈ request.messages) :
    message.id.Storable :=
  storable.2 _ (List.mem_append_right _ (List.mem_append_left _ (List.mem_map_of_mem inside)))

theorem native_text_storable {message : NativeSourceMessage} (inside : message ∈ request.messages) :
    message.text.Storable :=
  storable.2 _ (List.mem_append_right _ (List.mem_append_right _ (List.mem_map_of_mem inside)))

/-- The stored ids are as distinct as the ids. -/
theorem native_ids_nodup (distinct : (request.messages.map (·.id)).Nodup) :
    (request.messages.map fun message => message.id.points).Nodup := by
  have mapped : ((request.messages.map (·.id)).map JsString.points).Nodup := by
    apply distinct.map_on
    intro one oneInside other otherInside same
    obtain ⟨message, inside, isOne⟩ := List.mem_map.mp oneInside
    obtain ⟨another, anotherInside, isOther⟩ := List.mem_map.mp otherInside
    subst isOne isOther
    exact points_injective (native_id_storable storable inside).1
      (native_id_storable storable anotherInside).1 same
  rwa [List.map_map] at mapped

/-- The database counts the characters of the messages as the server does. -/
theorem native_texts_length :
    (request.messages.map fun message => message.text.points.length) =
      request.messages.map fun message => codePointLength message.text :=
  List.map_congr_left fun _ inside => points_length (native_text_storable storable inside).1

end StoredMessages

theorem nativeTextsWithin_parsed {request : NativeSegmentCreate} (parsed : NativeParsed request)
    (storable : (IngestSegmentCreate.native request).Storable) :
    nativeTextsWithin (request.messages.map NativeSourceMessage.jsonb) = some true := by
  have texts : ((request.messages.map NativeSourceMessage.jsonb).filterMap fun message =>
      message.fieldText (ofString "text")) = request.messages.map fun message => message.text.points := by
    rw [List.filterMap_map]
    exact List.filterMap_eq_map ▸ rfl
  have total := parsed.total
  rw [← native_texts_length storable] at total
  unfold nativeTextsWithin
  rw [texts]
  cases messages : request.messages with
  | nil =>
      have least := parsed.some_message
      rw [messages] at least
      cases least
  | cons message rest =>
      rw [messages] at total
      simp only [List.map_cons, List.map_map, Function.comp_def]
      exact congrArg some (decide_eq_true total)

/-- The database takes the payload of a parsed native request. -/
theorem nativePayloadValid_parsed {request : NativeSegmentCreate} (parsed : NativeParsed request)
    (storable : (IngestSegmentCreate.native request).Storable) :
    (IngestSegmentCreate.native request).columns.nativePayloadValid = some true := by
  have session : request.sessionId.Storable :=
    storable.2 _ (List.mem_append_left _ (by simp [IngestSegmentCreate.framed, FramedSource.fields]))
  have header := nativeHeaderRefused_parsed parsed session
  have count : (!(decide (1 ≤ request.messages.length) && decide (request.messages.length ≤ 10000))) = false := by
    simp [parsed.some_message, parsed.count]
  have objects : ((request.messages.map NativeSourceMessage.jsonb).any fun message =>
      taken (isDistinctFrom (some message.typeof) (some .object))) = false := by
    apply any_taken_false
    intro row inside
    obtain ⟨message, _, same⟩ := List.mem_map.mp inside
    rw [← same]
    rfl
  have refused : ((request.messages.map NativeSourceMessage.jsonb).any fun message =>
      taken (nativeMessageRefused message)) = false := by
    apply any_taken_false
    intro row inside
    obtain ⟨message, isMessage, same⟩ := List.mem_map.mp inside
    rw [← same]
    exact nativeMessageRefused_parsed (native_id_storable storable isMessage)
      (native_text_storable storable isMessage) (parsed.message_trimmed isMessage)
      (parsed.identifiers message isMessage) (parsed.short message isMessage)
  have ids : ((request.messages.map NativeSourceMessage.jsonb).filterMap fun message =>
      message.fieldText (ofString "id")) = request.messages.map fun message => message.id.points := by
    rw [List.filterMap_map]
    exact List.filterMap_eq_map ▸ rfl
  have distinct : ((request.messages.map fun message => message.id.points).dedup.length ==
      request.messages.length) = true := by
    rw [(native_ids_nodup storable parsed.distinct).dedup, List.length_map, beq_self_eq_true]
  have first : ((request.messages.map NativeSourceMessage.jsonb).head?.bind fun message =>
      message.fieldText (ofString "id")) = some request.startSourceMessageId.points := by
    have starts := congrArg (Option.map JsString.points) parsed.first
    rw [Option.map_map, Option.map_some] at starts
    rw [← starts, List.head?_map]
    cases request.messages.head? <;> rfl
  have last : ((request.messages.map NativeSourceMessage.jsonb).getLast?.bind fun message =>
      message.fieldText (ofString "id")) = some request.endSourceMessageId.points := by
    have ends := congrArg (Option.map JsString.points) parsed.last
    rw [Option.map_map, Option.map_some] at ends
    rw [← ends, List.getLast?_map]
    cases request.messages.getLast? <;> rfl
  have within := nativeTextsWithin_parsed parsed storable
  change reflectionNativePayloadValid (some (PersistedIngestRequest.native request).jsonb)
    (some request.sourceId.points) (some request.sessionId.points)
    (some request.startSourceMessageId.points) (some request.endSourceMessageId.points) = some true
  unfold reflectionNativePayloadValid
  simp only [header, native_jsonb_messages, Jsonb.elements, Jsonb.arrayLength, Option.map_some,
    Jsonb.typeof_array, List.length_map, count, objects, refused, ids, distinct, first, last, within,
    isDistinctFrom_self]
  rfl

/-! ### Source fingerprints -/

section Sources

variable (sha256 : List UInt8 → JsString)

section Legacy

variable {request : SegmentCreate} {sessionId startUser endUser startSource endSource : JsString}
variable (texts : ∀ message ∈ request.messages, js message.frames = fieldsText message.fields)
include texts

theorem reflectionSourceFingerprintV1_stored
    (fields : ∀ field ∈ [sessionId, startUser, endUser], isWellFormed field = true) :
    reflectionSourceFingerprintV1 sha256 (some sessionId.points) (some startUser.points)
        (some endUser.points) (some (PersistedIngestRequest.legacy request).jsonb) =
      some (serverDigest sha256 (sourceLabel 1 ++ (fieldsText [sessionId, startUser, endUser] ++
        messagesText SourceMessage.fields request.messages))) := by
  simp only [List.forall_mem_cons] at fields
  obtain ⟨session, start, finish, _⟩ := fields
  have counted := js_messages texts
  unfold reflectionSourceFingerprintV1
  rw [roleMessages_legacy, octetFrame_some, octetFrame_some, octetFrame_some]
  refine digest_concat sha256 ([PgText.ofString "reflection-source-v1:", framed sessionId.points,
    framed startUser.points, framed endUser.points] ++ [ofNat request.messages.length,
    PgText.ofString ":", request.messages.flatMap SourceMessage.frames]) ?_
  rw [List.flatMap_append, counted]
  simp [js_framed session, js_framed start, js_framed finish, fieldsText, sourceLabel]

theorem reflectionSourceFingerprintV2_stored
    (fields : ∀ field ∈ [sessionId, startUser, endUser, decimal 2, startSource, endSource],
      isWellFormed field = true) :
    reflectionSourceFingerprintV2 sha256 (some sessionId.points) (some startUser.points)
        (some endUser.points) 2 (some startSource.points) (some endSource.points)
        (some (PersistedIngestRequest.legacy request).jsonb) =
      some (serverDigest sha256 (sourceLabel 2 ++
        (fieldsText [sessionId, startUser, endUser, decimal 2, startSource, endSource] ++
          messagesText SourceMessage.fields request.messages))) := by
  simp only [List.forall_mem_cons] at fields
  obtain ⟨session, start, finish, _, startCursor, endCursor, _⟩ := fields
  have counted := js_messages texts
  have known : taken (anyOf [some (decide (2 ≠ 2)), isNull (some startSource.points),
      isNull (some endSource.points)]) = false := rfl
  unfold reflectionSourceFingerprintV2
  rw [if_neg (by decide), known, if_neg Bool.false_ne_true, roleMessages_legacy, octetFrame_some,
    octetFrame_some, octetFrame_some, octetFrame_some, octetFrame_some, octetFrame_some]
  refine digest_concat sha256 ([PgText.ofString "reflection-source-v2:", framed sessionId.points,
    framed startUser.points, framed endUser.points, framed (ofNat 2), framed startSource.points,
    framed endSource.points] ++ [ofNat request.messages.length, PgText.ofString ":",
    request.messages.flatMap SourceMessage.frames]) ?_
  rw [List.flatMap_append, counted]
  simp [js_framed session, js_framed start, js_framed finish, js_framed_text, js_framed startCursor,
    js_framed endCursor, fieldsText, sourceLabel]

end Legacy

/-- The fingerprint of a stored request of version 1 or 2. -/
theorem sourceFingerprint_legacy {sourceId : JsString} {request : SegmentCreate}
    (storable : (IngestSegmentCreate.source sourceId request).Storable) :
    (IngestSegmentCreate.source sourceId request).columns.sourceFingerprint sha256 =
      some (serverDigest sha256 (IngestSegmentCreate.source sourceId request).sourceText) := by
  have fields := fun value inside => (storable.2 value (List.mem_append_left _ inside)).1
  have strings := fun value inside => storable.2 value (List.mem_append_right _ inside)
  obtain ⟨sessionId, boundary, projectionVersion, processingPriority, messages⟩ := request
  rw [IngestSegmentCreate.sourceText_eq]
  cases boundary with
  | v1 startUser endUser =>
      have texts : ∀ message ∈ messages, js message.frames = fieldsText message.fields := fun message inside =>
        SourceMessage.js_frames (strings _ (List.mem_map_of_mem inside))
      exact reflectionSourceFingerprintV1_stored sha256 texts fields
  | v2 startUser endUser startSource endSource =>
      have texts : ∀ message ∈ messages, js message.frames = fieldsText message.fields := fun message inside =>
        SourceMessage.js_frames (strings _ (List.mem_map_of_mem inside))
      exact reflectionSourceFingerprintV2_stored sha256 texts fields

/-- The fingerprint of a stored native request. -/
theorem sourceFingerprint_native {request : NativeSegmentCreate} (parsed : NativeParsed request)
    (storable : (IngestSegmentCreate.native request).Storable) :
    (IngestSegmentCreate.native request).columns.sourceFingerprint sha256 =
      some (serverDigest sha256 (IngestSegmentCreate.native request).sourceText) := by
  have fields := fun value inside => (storable.2 value (List.mem_append_left _ inside)).1
  simp only [IngestSegmentCreate.framed, FramedSource.fields, List.forall_mem_cons] at fields
  obtain ⟨source, session, _, _, startCursor, endCursor, _⟩ := fields
  have texts : ∀ message ∈ request.messages, js message.frames = fieldsText message.fields :=
    fun message inside => NativeSourceMessage.js_frames (native_id_storable storable inside)
      (native_text_storable storable inside)
  have valid := nativePayloadValid_parsed parsed storable
  have rows : ((request.messages.map NativeSourceMessage.jsonb).map fun message =>
      PgText.concat
        [octetFrame (message.fieldText (ofString "id")), octetFrame (message.fieldText (ofString "type")),
          octetFrame (message.fieldText (ofString "text"))]) =
      request.messages.map fun message => some message.frames := by
    rw [List.map_map]
    exact List.map_congr_left fun message _ => message.jsonb_frames
  have someMessage : request.messages ≠ [] := by
    intro empty
    have least := parsed.some_message
    rw [empty] at least
    cases least
  rw [IngestSegmentCreate.sourceText_eq]
  change reflectionSourceFingerprint sha256 (some request.sourceId.points) (some request.sessionId.points)
    none none 3 (some request.startSourceMessageId.points) (some request.endSourceMessageId.points)
    (some (PersistedIngestRequest.native request).jsonb) = _
  change reflectionNativePayloadValid (some (PersistedIngestRequest.native request).jsonb)
    (some request.sourceId.points) (some request.sessionId.points)
    (some request.startSourceMessageId.points) (some request.endSourceMessageId.points) = some true at valid
  unfold reflectionSourceFingerprint
  rw [if_neg (by decide), valid, if_neg (by simp [anyOf, isNull, isNotNull, Sql.not, Sql.or, taken])]
  simp only [Option.bind_some, native_jsonb_messages, Jsonb.elements, Jsonb.arrayLength, rows, stringAgg_some,
    if_neg someMessage, Option.map_some, List.length_map, octetFrame_some]
  refine digest_concat sha256 ([PgText.ofString "reflection-source-v3:", framed request.sourceId.points,
    framed request.sessionId.points, PgText.ofString "1:3", PgText.ofString "1:3",
    framed request.startSourceMessageId.points, framed request.endSourceMessageId.points] ++
    [ofNat request.messages.length, PgText.ofString ":", request.messages.flatMap NativeSourceMessage.frames]) ?_
  have three : JsString.ofString "1:3" = utf8Frame (decimal 3) := by decide +kernel
  rw [List.flatMap_append, js_messages texts]
  simp [IngestSegmentCreate.framed, FramedSource.text, FramedSource.version, FramedSource.fields,
    FramedSource.messages, js_framed source, js_framed session, js_framed startCursor, js_framed endCursor,
    fieldsText, sourceLabel, three, parsed.projection, ofString_three]

end Sources

/-! ### Projection fingerprints -/

/-- The boundary of a projection fingerprint. -/
inductive IngestProjectionFingerprintBoundary
  | v1 (endUserMessageId : JsString)
  | v2 (endUserMessageId endSourceMessageId : JsString)
  | native (endSourceMessageId : JsString)
deriving DecidableEq

namespace IngestProjectionFingerprintBoundary

def version : IngestProjectionFingerprintBoundary → Nat
  | .v1 .. => 1
  | .v2 .. => 2
  | .native .. => 3

def endUserMessageId : IngestProjectionFingerprintBoundary → Option JsString
  | .v1 endUser => some endUser
  | .v2 endUser _ => some endUser
  | .native _ => none

def endSourceMessageId : IngestProjectionFingerprintBoundary → Option JsString
  | .v1 _ => none
  | .v2 _ endSource => some endSource
  | .native endSource => some endSource

def Storable (boundary : IngestProjectionFingerprintBoundary) : Prop :=
  (∀ value ∈ boundary.endUserMessageId, JsString.Storable value) ∧
    ∀ value ∈ boundary.endSourceMessageId, JsString.Storable value

end IngestProjectionFingerprintBoundary

def ingestProjectionFingerprintForBoundary (platform : Platform) (segmentId : JsString)
    (boundary : IngestProjectionFingerprintBoundary) (summary : JsString) (projectionVersion : Nat) :
    JsString :=
  match boundary with
  | .v1 endUser => projectionFingerprint platform segmentId endUser summary projectionVersion
  | .v2 endUser endSource =>
      platform.sha256 (JsString.ofString "reflection-projection-v2:" ++ utf8Frame segmentId ++
        utf8Frame (decimal 2) ++ utf8Frame endUser ++ utf8Frame endSource ++ utf8Frame summary ++
        utf8Frame (decimal projectionVersion))
  | .native endSource => nativeProjectionFingerprint platform segmentId endSource summary projectionVersion

/-- The fingerprint written beside the columns of a segment. -/
theorem projectionFingerprintForBoundary_columns (platform : Platform) (name : SegmentName)
    (boundary : IngestProjectionFingerprintBoundary) (startSource : Option JsString) (summary : JsString)
    (projectionVersion : Nat) :
    projectionFingerprintForBoundary platform name
        { endUserMessageId := boundary.endUserMessageId
          sourceBoundaryVersion := boundary.version
          startSourceMessageId := startSource
          endSourceMessageId := boundary.endSourceMessageId } summary projectionVersion =
      some (ingestProjectionFingerprintForBoundary platform (platform.uuidv5 name.text) boundary summary
        projectionVersion) := by
  cases boundary with
  | v1 endUser => rfl
  | v2 endUser endSource => rfl
  | native endSource => rfl

section Projections

variable (sha256 : List UInt8 → JsString)

/-- A platform whose SHA-256 digests the UTF-8 bytes of a text. -/
def Platform.digesting (platform : Platform) : Platform := { platform with sha256 := serverDigest sha256 }

theorem lengthFrame_points {value : JsString} (storable : value.Storable) :
    lengthFrame (some value.points) =
      some (ofNat (codePointLength value) ++ (PgText.ofString ":" ++ (value.points ++ PgText.ofString ":"))) := by
  simp [lengthFrame, PgText.concat, points_length storable.1]

theorem projectionFingerprint_v1 (platform : Platform) (segmentId : Uuid) {endUser summary : JsString}
    (endStorable : endUser.Storable) (summaryStorable : summary.Storable) (projectionVersion : Nat) :
    reflectionProjectionFingerprintV1 sha256 segmentId (some endUser.points) (some summary.points)
        projectionVersion =
      some (projectionFingerprint (platform.digesting sha256) segmentId.text.js endUser summary
        projectionVersion) := by
  unfold reflectionProjectionFingerprintV1
  rw [lengthFrame_points endStorable, lengthFrame_points summaryStorable]
  refine digest_concat sha256 [segmentId.text, PgText.ofString ":", _, _, ofNat projectionVersion] ?_
  simp [js_points endStorable.1, js_points summaryStorable.1]

theorem projectionFingerprint_agrees (platform : Platform) (segmentId : Uuid)
    {boundary : IngestProjectionFingerprintBoundary} (boundaryStorable : boundary.Storable)
    {summary : JsString} (summaryStorable : summary.Storable) (projectionVersion : Nat) :
    reflectionProjectionFingerprint sha256 segmentId boundary.version
        (boundary.endUserMessageId.map JsString.points) (boundary.endSourceMessageId.map JsString.points)
        (some summary.points) projectionVersion =
      some (ingestProjectionFingerprintForBoundary (platform.digesting sha256) segmentId.text.js boundary
        summary projectionVersion) := by
  obtain ⟨users, sources⟩ := boundaryStorable
  cases boundary with
  | v1 endUser => exact projectionFingerprint_v1 sha256 platform segmentId (users _ rfl) summaryStorable _
  | v2 endUser endSource =>
      have user := js_framed (users endUser rfl).1
      have source := js_framed (sources endSource rfl).1
      change digest sha256 (PgText.concat [some (PgText.ofString "reflection-projection-v2:"),
        octetFrame (some segmentId.text), octetFrame (some (ofNat 2)), octetFrame (some endUser.points),
        octetFrame (some endSource.points), octetFrame (some summary.points),
        octetFrame (some (ofNat projectionVersion))]) = _
      simp only [octetFrame_some]
      refine digest_concat sha256 [_, _, _, _, _, _, _] ?_
      simp [user, source, js_framed summaryStorable.1, js_framed_text]
  | native endSource =>
      have source := js_framed (sources endSource rfl).1
      change digest sha256 (PgText.concat [some (PgText.ofString "reflection-projection-v3:"),
        octetFrame (some segmentId.text), octetFrame (some (ofNat 3)), some (PgText.ofString ""),
        octetFrame (some endSource.points), octetFrame (some summary.points),
        octetFrame (some (ofNat projectionVersion))]) = _
      have noUser : JsString.ofString "" = [] := rfl
      simp only [octetFrame_some]
      refine digest_concat sha256 [_, _, _, _, _, _, _] ?_
      simp [source, js_framed summaryStorable.1, js_framed_text, ofString_three, noUser]

end Projections

/-! ### Agreement -/

/-- For every accepted request and every digest, the database computes the fingerprints the server
computes, and takes native payloads. -/
theorem framings_agree (sha256 : List UInt8 → JsString) (platform : Platform)
    {value request : IngestSegmentCreate} (accepted : parseIngestSegmentCreate value = .ok request)
    (storable : request.Storable) :
    request.columns.sourceFingerprint sha256 =
        some (ingestSourceFingerprint (platform.digesting sha256).sha256 request) ∧
      (request.columns.sourceBoundaryVersion = 3 → request.columns.nativePayloadValid = some true) ∧
      ∀ (segmentId : Uuid) (boundary : IngestProjectionFingerprintBoundary) (summary : JsString)
        (projectionVersion : Nat), boundary.Storable → summary.Storable →
          reflectionProjectionFingerprint sha256 segmentId boundary.version
              (boundary.endUserMessageId.map JsString.points)
              (boundary.endSourceMessageId.map JsString.points) (some summary.points) projectionVersion =
            some (ingestProjectionFingerprintForBoundary (platform.digesting sha256) segmentId.text.js
              boundary summary projectionVersion) := by
  refine ⟨?_, ?_, fun segmentId boundary summary projectionVersion boundaryStorable summaryStorable =>
    projectionFingerprint_agrees sha256 platform segmentId boundaryStorable summaryStorable
      projectionVersion⟩
  · rw [ingestSourceFingerprint_eq]
    cases value with
    | native raw =>
        obtain ⟨parsed, isParsed, rest⟩ := except_bind_ok accepted
        cases rest
        exact sourceFingerprint_native sha256 (parseNativeSegmentCreate_checked isParsed) storable
    | source sourceId raw =>
        obtain ⟨owner, _, rest⟩ := except_bind_ok accepted
        obtain ⟨parsed, _, rest⟩ := except_bind_ok rest
        cases rest
        exact sourceFingerprint_legacy sha256 storable
  · intro isNative
    cases value with
    | native raw =>
        obtain ⟨parsed, isParsed, rest⟩ := except_bind_ok accepted
        cases rest
        exact nativePayloadValid_parsed (parseNativeSegmentCreate_checked isParsed) storable
    | source sourceId raw =>
        obtain ⟨owner, _, rest⟩ := except_bind_ok accepted
        obtain ⟨parsed, _, rest⟩ := except_bind_ok rest
        cases rest
        obtain ⟨sessionId, boundary, projectionVersion, processingPriority, messages⟩ := parsed
        cases boundary with
        | v1 => cases isNative
        | v2 => cases isNative

/-- A native request of two messages, one of them outside the basic plane. -/
def twoMessageRequest : NativeSegmentCreate :=
  { sourceId := JsString.ofString "work"
    sessionId := JsString.ofString "s1"
    startSourceMessageId := JsString.ofString "m1"
    endSourceMessageId := JsString.ofString "m2"
    projectionVersion := 3
    processingPriority := 7
    messages :=
      [{ id := JsString.ofString "m1"
         type := .user
         text := JsString.ofString "日本 😀" },
        { id := JsString.ofString "m2"
          type := .locationSwitched
          text := [] }] }

theorem framings_agree_two :
    (IngestSegmentCreate.native twoMessageRequest).columns.nativePayloadValid = some true :=
  (@framings_agree (fun bytes => bytes.map fun byte => byte.toUInt16)
    { sha256 := id, uuidv5 := id, jsonbText := fun _ => [] } (.native twoMessageRequest)
    (.native twoMessageRequest) (by decide +kernel) ⟨by decide +kernel, by decide +kernel⟩).2.1 rfl

end Reflection
