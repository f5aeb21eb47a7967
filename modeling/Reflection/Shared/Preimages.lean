/-
Hashed texts of segment ids and projections.

Segment ids of the `source-v1` scheme and projection fingerprints frame their fields like
source fingerprints do. A version 1 projection is the exception: its text starts with the
segment id and counts code points. The id is a UUID, so its text is never that of another
version.
-/

import Reflection.Foundation.Results
import Reflection.Shared.Framing

namespace Reflection

open JsString

/-! ### Labelled fields -/

namespace JsString

theorem Fields.nil : Fields 0 [] := ⟨rfl, by simp⟩

theorem Fields.cons {count : Nat} {fields : List JsString} {field : JsString}
    (wellFormed : isWellFormed field = true) (rest : Fields count fields) :
    Fields (count + 1) (field :: fields) := by
  obtain ⟨length, each⟩ := rest
  constructor
  · simp [length]
  · intro other inside
    cases inside with
    | head => exact wellFormed
    | tail _ behind => exact each other behind

/-- A label and as many fields. -/
theorem labelled_injective {label : JsString} {count : Nat} {one other : List JsString}
    (labelWell : isWellFormed label = true) (oneFields : Fields count one)
    (otherFields : Fields count other)
    (same : utf8 (label ++ fieldsText one) = utf8 (label ++ fieldsText other)) : one = other := by
  rw [utf8_append labelWell, utf8_append labelWell] at same
  exact (fieldsCode count).injective oneFields otherFields (List.append_cancel_left same)

end JsString

/-! ### Segment ids -/

/-- The fields a segment id of the `source-v1` scheme is made from. -/
structure SourceSegmentFields where
  sourceId : JsString
  sessionId : JsString
  boundaryVersion : Nat
  startCursor : JsString
deriving DecidableEq

namespace SourceSegmentFields

def name (fields : SourceSegmentFields) : SegmentName :=
  .source fields.sourceId fields.sessionId fields.boundaryVersion fields.startCursor

def strings (fields : SourceSegmentFields) : List JsString :=
  [fields.sourceId, fields.sessionId, decimal fields.boundaryVersion, fields.startCursor]

def WellFormed (fields : SourceSegmentFields) : Prop :=
  ∀ value ∈ [fields.sourceId, fields.sessionId, fields.startCursor], isWellFormed value = true

theorem name_text (fields : SourceSegmentFields) :
    fields.name.text = ofString "reflection-source-segment-v1:" ++ fieldsText fields.strings := by
  simp [name, SegmentName.text, fieldsText, strings]

theorem WellFormed.fields {fields : SourceSegmentFields} (wellFormed : fields.WellFormed) :
    Fields 4 fields.strings := by
  simp only [WellFormed, List.forall_mem_cons] at wellFormed
  obtain ⟨source, session, cursor, _⟩ := wellFormed
  exact .cons source (.cons session (.cons (decimal_ascii _).wellFormed (.cons cursor .nil)))

/-- The bytes of a segment name determine what it names. -/
theorem text_injective {one other : SourceSegmentFields} (oneWell : one.WellFormed)
    (otherWell : other.WellFormed) (same : utf8 one.name.text = utf8 other.name.text) : one = other := by
  rw [name_text, name_text] at same
  have parts := labelled_injective (by decide +kernel) oneWell.fields otherWell.fields same
  simp only [strings, List.cons.injEq, and_true] at parts
  obtain ⟨source, session, version, cursor⟩ := parts
  cases one with
  | mk oneSource oneSession oneVersion oneCursor =>
      cases other with
      | mk otherSource otherSession otherVersion otherCursor =>
          simp only at source session version cursor
          rw [source, session, decimal_injective version, cursor]

end SourceSegmentFields

namespace IngestSegmentCreate

def sessionId : IngestSegmentCreate → JsString
  | .source _ request => request.sessionId
  | .native request => request.sessionId

def startCursor : IngestSegmentCreate → JsString
  | .source _ request => request.boundary.startCursor
  | .native request => request.startSourceMessageId

def segmentFields (request : IngestSegmentCreate) : SourceSegmentFields :=
  { sourceId := request.sourceId
    sessionId := request.sessionId
    boundaryVersion := request.framed.version
    startCursor := request.startCursor }

/-- No string of the request holds a lone surrogate. -/
def WellFormed (request : IngestSegmentCreate) : Prop :=
  isWellFormed request.sourceId = true ∧ request.framed.WellFormed

theorem WellFormed.segmentFields {request : IngestSegmentCreate} (wellFormed : request.WellFormed) :
    request.segmentFields.WellFormed := by
  obtain ⟨source, framed⟩ := wellFormed
  have field : ∀ value ∈ request.framed.fields, isWellFormed value = true :=
    fun value inside => framed value (List.mem_append_left _ inside)
  cases request with
  | native request =>
      simp only [IngestSegmentCreate.framed, FramedSource.fields, List.forall_mem_cons] at field
      simp [SourceSegmentFields.WellFormed, IngestSegmentCreate.segmentFields, source,
        IngestSegmentCreate.sessionId, IngestSegmentCreate.startCursor, field]
  | source sourceId request =>
      obtain ⟨sessionId, boundary, projectionVersion, processingPriority, messages⟩ := request
      cases boundary with
      | v1 startUser endUser =>
          simp only [IngestSegmentCreate.framed, FramedSource.fields, List.forall_mem_cons] at field
          simp [SourceSegmentFields.WellFormed, IngestSegmentCreate.segmentFields, source,
            IngestSegmentCreate.sessionId, IngestSegmentCreate.startCursor,
            LegacyBoundary.startCursor, field]
      | v2 startUser endUser startSource endSource =>
          simp only [IngestSegmentCreate.framed, FramedSource.fields, List.forall_mem_cons] at field
          simp [SourceSegmentFields.WellFormed, IngestSegmentCreate.segmentFields, source,
            IngestSegmentCreate.sessionId, IngestSegmentCreate.startCursor,
            LegacyBoundary.startCursor, field]

end IngestSegmentCreate

/-- A segment id of the `source-v1` scheme names the fields of the accepted request. -/
theorem ingestSegmentIdForRequest_fields {value request : IngestSegmentCreate} {source : SourceInfo}
    {name : SegmentName} (accepted : parseIngestSegmentCreate value = .ok request)
    (scheme : source.identityScheme = .sourceV1)
    (named : ingestSegmentIdForRequest request source = .ok name) : name = request.segmentFields.name := by
  cases value with
  | native raw =>
      obtain ⟨parsed, isParsed, rest⟩ := except_bind_ok accepted
      cases rest
      obtain ⟨again, isAgain, rest⟩ := except_bind_ok named
      rw [contractChecked_ok_iff, parseNativeSegmentCreate_parsed isParsed] at isAgain
      cases isAgain
      obtain ⟨registered, _, rest⟩ := except_bind_ok rest
      split at rest
      · cases rest
      split at rest
      · cases rest
      · cases rest
        rfl
  | source rawId raw =>
      obtain ⟨owner, isOwner, rest⟩ := except_bind_ok accepted
      obtain ⟨parsed, isParsed, rest⟩ := except_bind_ok rest
      cases rest
      obtain ⟨registered, isRegistered, rest⟩ := except_bind_ok named
      obtain ⟨again, isAgain, rest⟩ := except_bind_ok rest
      rw [contractChecked_ok_iff, parseSourceId_parsed _ isOwner] at isAgain
      cases isAgain
      rw [contractChecked_ok_iff] at isRegistered
      obtain ⟨id, _, made⟩ := except_bind_ok isRegistered
      cases made
      split at rest
      · cases rest
      · rw [scheme] at rest
        cases rest
        obtain ⟨sessionId, boundary, projectionVersion, processingPriority, messages⟩ := parsed
        cases boundary with
        | v1 startUser endUser => rfl
        | v2 startUser endUser startSource endSource => rfl

/-! ### Projections -/

/-- UUID_PATTERN: groups of 8, 4, 4, 4 and 12 hexadecimal digits, a version digit from 1 to 5 and
a variant digit from 8 to b. -/
def isHexDigit (unit : UInt16) : Bool :=
  (0x30 ≤ unit && unit ≤ 0x39) || (0x41 ≤ unit && unit ≤ 0x46) || (0x61 ≤ unit && unit ≤ 0x66)

def uuidPattern : List (UInt16 → Bool) :=
  let digits := fun count => List.replicate count isHexDigit
  let hyphen := fun unit : UInt16 => unit == 0x2d
  digits 8 ++ [hyphen] ++ digits 4 ++ [hyphen] ++
    [fun unit : UInt16 => 0x31 ≤ unit && unit ≤ 0x35] ++ digits 3 ++ [hyphen] ++
    [fun unit : UInt16 => [0x38, 0x39, 0x61, 0x41, 0x62, 0x42].contains unit] ++ digits 3 ++ [hyphen] ++
    digits 12

def isUuid (value : JsString) : Bool :=
  value.length == uuidPattern.length && (uuidPattern.zip value).all fun place => place.1 place.2

/-- What the hashed text of a projection fingerprint is made from. -/
inductive FramedProjection
  | v1 (segmentId endUserMessageId summary : JsString) (projectionVersion : Nat)
  | v2 (segmentId endUserMessageId endSourceMessageId summary : JsString) (projectionVersion : Nat)
  | v3 (segmentId endSourceMessageId summary : JsString) (projectionVersion : Nat)
deriving DecidableEq

namespace FramedProjection

def version : FramedProjection → Nat
  | .v1 .. => 1
  | .v2 .. => 2
  | .v3 .. => 3

def segmentId : FramedProjection → JsString
  | .v1 segmentId .. => segmentId
  | .v2 segmentId .. => segmentId
  | .v3 segmentId .. => segmentId

/-- The fields written as frames; version 1 has none. -/
def fields : FramedProjection → List JsString
  | .v1 .. => []
  | .v2 segmentId endUser endSource summary projectionVersion =>
      [segmentId, decimal 2, endUser, endSource, summary, decimal projectionVersion]
  | .v3 segmentId endSource summary projectionVersion =>
      [segmentId, ofString "3", endSource, summary, decimal projectionVersion]

def text : FramedProjection → JsString
  | .v1 segmentId endUser summary projectionVersion =>
      segmentId ++ ofString ":" ++ decimal (codePointLength endUser) ++ ofString ":" ++ endUser ++
        ofString ":" ++ decimal (codePointLength summary) ++ ofString ":" ++ summary ++ ofString ":" ++
        decimal projectionVersion
  | .v2 segmentId endUser endSource summary projectionVersion =>
      ofString "reflection-projection-v2:" ++
        fieldsText (v2 segmentId endUser endSource summary projectionVersion).fields
  | .v3 segmentId endSource summary projectionVersion =>
      ofString "reflection-projection-v3:" ++
        fieldsText (v3 segmentId endSource summary projectionVersion).fields

/-- A projection of a segment whose framed fields hold no lone surrogate. -/
def WellFormed (projection : FramedProjection) : Prop :=
  isUuid projection.segmentId = true ∧ ∀ field ∈ projection.fields, isWellFormed field = true

/-- What a boundary's projection fingerprint is made from, where the boundary has one. -/
def ofBoundary (segmentId : JsString) (boundary : ExactBoundary) (summary : JsString)
    (projectionVersion : Nat) : Option FramedProjection :=
  match boundary.sourceBoundaryVersion, boundary.endUserMessageId, boundary.endSourceMessageId with
  | 1, some endUser, none => some (v1 segmentId endUser summary projectionVersion)
  | 2, some endUser, some endSource => some (v2 segmentId endUser endSource summary projectionVersion)
  | 3, none, some endSource => some (v3 segmentId endSource summary projectionVersion)
  | _, _, _ => none

end FramedProjection

/-- The fingerprint of a projection is the digest of its text. -/
theorem projectionFingerprintForBoundary_eq (platform : Platform) (name : SegmentName)
    (boundary : ExactBoundary) (summary : JsString) (projectionVersion : Nat) :
    projectionFingerprintForBoundary platform name boundary summary projectionVersion =
      (FramedProjection.ofBoundary (platform.uuidv5 name.text) boundary summary projectionVersion).map
        fun projection => platform.sha256 projection.text := by
  obtain ⟨endUser, version, startSource, endSource⟩ := boundary
  unfold projectionFingerprintForBoundary FramedProjection.ofBoundary
  rcases version with _ | _ | _ | _ | version
  · rfl
  · cases endUser <;> cases endSource <;> simp [projectionFingerprint, FramedProjection.text]
  · cases endUser <;> cases endSource <;>
      simp [FramedProjection.text, FramedProjection.fields, fieldsText]
  · cases endUser <;> cases endSource <;>
      simp [nativeProjectionFingerprint, FramedProjection.text, FramedProjection.fields, fieldsText]
  · rfl

/-- Texts of the same bytes start with the same unit where both start with ASCII. -/
theorem ascii_head {first other : UInt16} {rest tail : JsString} (ascii : IsAscii [first])
    (otherAscii : IsAscii [other]) (same : utf8 (first :: rest) = utf8 (other :: tail)) :
    first = other := by
  have split (unit : UInt16) (behind : JsString) (small : IsAscii [unit]) :
      utf8 (unit :: behind) = UInt8.ofNat unit.toNat :: utf8 behind := by
    rw [← List.singleton_append, utf8_append small.wellFormed, small.utf8_eq]
    rfl
  rw [split first rest ascii, split other tail otherAscii] at same
  have bytes := congrArg UInt8.toNat (List.cons.inj same).1
  simp only [IsAscii, List.forall_mem_singleton] at ascii otherAscii
  rw [UInt8.toNat_ofNat', UInt8.toNat_ofNat', Nat.mod_eq_of_lt, Nat.mod_eq_of_lt] at bytes
  · exact UInt16.toNat_inj.mp bytes
  · omega
  · omega

/-- A hexadecimal digit is ASCII and no `r`, which the labels start with. -/
theorem isHexDigit_ascii {unit : UInt16} (digit : isHexDigit unit = true) :
    IsAscii [unit] ∧ unit ≠ 0x72 := by
  simp only [isHexDigit, Bool.or_eq_true, Bool.and_eq_true, decide_eq_true_eq, UInt16.le_iff_toNat_le,
    UInt16.reduceToNat] at digit
  constructor
  · simp only [IsAscii, List.forall_mem_singleton]
    omega
  · rintro rfl
    simp at digit

/-- A UUID starts with a hexadecimal digit. -/
theorem isUuid_head {value : JsString} (uuid : isUuid value = true) :
    ∃ first rest, value = first :: rest ∧ isHexDigit first = true := by
  cases value with
  | nil => cases uuid
  | cons first rest =>
      refine ⟨first, rest, rfl, ?_⟩
      simp only [isUuid, Bool.and_eq_true] at uuid
      exact List.all_eq_true.mp uuid.2 (isHexDigit, first) List.mem_cons_self

namespace FramedProjection

def label : Nat → JsString
  | 2 => ofString "reflection-projection-v2:"
  | _ => ofString "reflection-projection-v3:"

theorem label_wellFormed : ∀ version ∈ [2, 3], isWellFormed (label version) = true := by
  decide +kernel

theorem labelCode : PrefixCode (fun version => version ∈ [2, 3]) fun version => utf8 (label version) := by
  have sizes : ∀ version ∈ [2, 3], (utf8 (label version)).length = 25 := by
    decide +kernel
  have apart : ∀ one ∈ [2, 3], ∀ other ∈ [2, 3], label one = label other → one = other := by
    decide +kernel
  apply PrefixCode.fixed sizes
  intro one other oneListed otherListed same
  exact apart one oneListed other otherListed
    (utf8_injective (label_wellFormed one oneListed) (label_wellFormed other otherListed) same)

theorem version_listed {projection : FramedProjection} (framed : projection.version ≠ 1) :
    projection.version ∈ [2, 3] := by
  cases projection with
  | v1 => exact absurd rfl framed
  | v2 => simp [version]
  | v3 => simp [version]

theorem text_labelled {projection : FramedProjection} (framed : projection.version ≠ 1) :
    projection.text = label projection.version ++ fieldsText projection.fields := by
  cases projection with
  | v1 => exact absurd rfl framed
  | v2 => rfl
  | v3 => rfl

/-- A framed text starts with the `r` of its label, an unframed one does not. -/
theorem text_head {projection : FramedProjection} (wellFormed : projection.WellFormed) :
    ∃ first rest, projection.text = first :: rest ∧ IsAscii [first] ∧
      (first = 0x72 ↔ projection.version ≠ 1) := by
  cases projection with
  | v1 segmentId endUser summary projectionVersion =>
      obtain ⟨first, rest, starts, digit⟩ := isUuid_head wellFormed.1
      obtain ⟨ascii, other⟩ := isHexDigit_ascii digit
      have starts : segmentId = first :: rest := starts
      have begins : segmentId <+: (v1 segmentId endUser summary projectionVersion).text := by simp [text]
      obtain ⟨tail, whole⟩ := begins
      refine ⟨first, rest ++ tail, ?_, ascii, by simp [version, other]⟩
      rw [← whole, starts, List.cons_append]
  | v2 => exact ⟨0x72, _, rfl, by simp [IsAscii], by simp [version]⟩
  | v3 => exact ⟨0x72, _, rfl, by simp [IsAscii], by simp [version]⟩

theorem framed_iff {one other : FramedProjection} (oneWell : one.WellFormed) (otherWell : other.WellFormed)
    (same : utf8 one.text = utf8 other.text) : one.version ≠ 1 ↔ other.version ≠ 1 := by
  obtain ⟨first, rest, oneText, ascii, oneFramed⟩ := text_head oneWell
  obtain ⟨head, tail, otherText, otherAscii, otherFramed⟩ := text_head otherWell
  rw [oneText, otherText] at same
  rw [← oneFramed, ← otherFramed, ascii_head ascii otherAscii same]

theorem label_version {one other : FramedProjection} (oneFramed : one.version ≠ 1)
    (otherFramed : other.version ≠ 1) (same : utf8 one.text = utf8 other.text) :
    one.version = other.version ∧ utf8 (fieldsText one.fields) = utf8 (fieldsText other.fields) := by
  have oneListed := version_listed oneFramed
  have otherListed := version_listed otherFramed
  rw [text_labelled oneFramed, text_labelled otherFramed, utf8_append (label_wellFormed _ oneListed),
    utf8_append (label_wellFormed _ otherListed)] at same
  exact labelCode _ _ _ _ oneListed otherListed same

/-- The bytes of a projection determine its version. -/
theorem version_eq {one other : FramedProjection} (oneWell : one.WellFormed) (otherWell : other.WellFormed)
    (same : utf8 one.text = utf8 other.text) : one.version = other.version := by
  by_cases unframed : one.version = 1
  · have framed := framed_iff oneWell otherWell same
    rw [unframed] at framed
    by_contra different
    exact framed.mpr (fun isOne => different (unframed.trans isOne.symm)) rfl
  · exact (label_version unframed ((framed_iff oneWell otherWell same).mp unframed) same).1

/-- The bytes of a framed projection determine it. -/
theorem text_injective {one other : FramedProjection} (oneWell : one.WellFormed)
    (otherWell : other.WellFormed) (framed : one.version ≠ 1)
    (same : utf8 one.text = utf8 other.text) : one = other := by
  have otherFramed := (framed_iff oneWell otherWell same).mp framed
  obtain ⟨version, behind⟩ := label_version framed otherFramed same
  cases one with
  | v1 => exact absurd rfl framed
  | v2 segmentId endUser endSource summary projectionVersion =>
      cases other with
      | v1 => cases version
      | v2 =>
          have parts := (fieldsCode 6).injective ⟨rfl, oneWell.2⟩ ⟨rfl, otherWell.2⟩ behind
          simp only [fields, List.cons.injEq, and_true] at parts
          obtain ⟨id, _, endUserSame, endSourceSame, summarySame, projection⟩ := parts
          rw [id, endUserSame, endSourceSame, summarySame, decimal_injective projection]
      | v3 => cases version
  | v3 segmentId endSource summary projectionVersion =>
      cases other with
      | v1 => cases version
      | v2 => cases version
      | v3 =>
          have parts := (fieldsCode 5).injective ⟨rfl, oneWell.2⟩ ⟨rfl, otherWell.2⟩ behind
          simp only [fields, List.cons.injEq, and_true] at parts
          obtain ⟨id, _, endSourceSame, summarySame, projection⟩ := parts
          rw [id, endSourceSame, summarySame, decimal_injective projection]

end FramedProjection

/-! ### All hashed texts -/

/-- The bytes hashed for sources, for segment ids of the `source-v1` scheme and for projections
determine the boundary version, and all framed fields with it. -/
theorem hashed_texts_determine :
    (∀ oneValue otherValue one other : IngestSegmentCreate,
      parseIngestSegmentCreate oneValue = .ok one → parseIngestSegmentCreate otherValue = .ok other →
        one.WellFormed → other.WellFormed → utf8 one.sourceText = utf8 other.sourceText →
          one.framed.version = other.framed.version ∧ one.framed = other.framed) ∧
    (∀ (oneValue otherValue one other : IngestSegmentCreate) (source otherSource : SourceInfo)
      (name otherName : SegmentName),
      parseIngestSegmentCreate oneValue = .ok one → parseIngestSegmentCreate otherValue = .ok other →
        one.WellFormed → other.WellFormed →
          source.identityScheme = .sourceV1 → otherSource.identityScheme = .sourceV1 →
            ingestSegmentIdForRequest one source = .ok name →
              ingestSegmentIdForRequest other otherSource = .ok otherName →
                utf8 name.text = utf8 otherName.text → one.segmentFields = other.segmentFields) ∧
    (∀ one other : FramedProjection, one.WellFormed → other.WellFormed →
      utf8 one.text = utf8 other.text →
        one.version = other.version ∧ (one.version ≠ 1 → one = other)) := by
  refine ⟨?_, ?_, ?_⟩
  · intro oneValue otherValue one other _ _ oneWell otherWell same
    rw [IngestSegmentCreate.sourceText_eq, IngestSegmentCreate.sourceText_eq] at same
    have framed := FramedSource.text_injective oneWell.2 otherWell.2 same
    exact ⟨congrArg FramedSource.version framed, framed⟩
  · intro oneValue otherValue one other source otherSource name otherName oneAccepted otherAccepted
      oneWell otherWell oneScheme otherScheme oneNamed otherNamed same
    rw [ingestSegmentIdForRequest_fields oneAccepted oneScheme oneNamed,
      ingestSegmentIdForRequest_fields otherAccepted otherScheme otherNamed] at same
    exact SourceSegmentFields.text_injective oneWell.segmentFields otherWell.segmentFields same
  · intro one other oneWell otherWell same
    exact ⟨FramedProjection.version_eq oneWell otherWell same,
      fun framed => FramedProjection.text_injective oneWell otherWell framed same⟩

/-- A text that imitates the frames behind it. -/
def imitation (texts : List String) : IngestSegmentCreate :=
  .source (ofString "s")
    { sessionId := ofString "c"
      boundary := .v1 (ofString "u") (ofString "u")
      projectionVersion := 1
      processingPriority := 0
      messages := texts.map fun text => { role := .user, text := ofString text } }

theorem hashed_texts_determine_imitation :
    utf8 (imitation ["a", "b"]).sourceText ≠ utf8 (imitation ["a4:user1:b"]).sourceText := by
  intro same
  have framed := (hashed_texts_determine.1 (imitation ["a", "b"]) (imitation ["a4:user1:b"])
    (imitation ["a", "b"]) (imitation ["a4:user1:b"]) (by decide +kernel) (by decide +kernel)
    (by unfold IngestSegmentCreate.WellFormed FramedSource.WellFormed; decide +kernel)
    (by unfold IngestSegmentCreate.WellFormed FramedSource.WellFormed; decide +kernel) same).2
  exact absurd framed (by decide +kernel)

end Reflection
