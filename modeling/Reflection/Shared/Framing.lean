/-
The framed texts that are hashed determine what was framed.

Each field is written behind its byte length, each list of messages behind its length. Read
from the front, the bytes of a text without lone surrogates give back its fields, whatever
the messages say.
-/

import Reflection.Foundation.PrefixCodes
import Reflection.Shared.Extraction
import Reflection.Shared.Utf8

namespace Reflection

open JsString

/-! ### Decimal numbers -/

namespace JsString

def IsAscii (value : JsString) : Prop := ∀ unit ∈ value, unit.toNat < 0x80

theorem IsAscii.wellFormed {value : JsString} (ascii : IsAscii value) : isWellFormed value = true := by
  induction value with
  | nil => rfl
  | cons first rest ih =>
      have small := ascii first List.mem_cons_self
      apply isWellFormed_plain
      · rw [← Bool.not_eq_true, isHighSurrogate_iff]
        omega
      · rw [← Bool.not_eq_true, isLowSurrogate_iff]
        omega
      · exact ih fun unit inside => ascii unit (List.mem_cons_of_mem _ inside)

theorem IsAscii.utf8_eq {value : JsString} (ascii : IsAscii value) :
    utf8 value = value.map fun unit => UInt8.ofNat unit.toNat := by
  induction value with
  | nil => rfl
  | cons first rest ih =>
      have one : first < 0x80 := UInt16.lt_iff_toNat_lt.mpr (ascii first List.mem_cons_self)
      have behind := ih fun unit inside => ascii unit (List.mem_cons_of_mem _ inside)
      rw [utf8.eq_def, List.map_cons, ← behind]
      exact if_pos one

private theorem digit_range {digit : Char} {value : Nat} (inside : digit ∈ Nat.toDigits 10 value) :
    0x30 ≤ digit.toNat ∧ digit.toNat ≤ 0x39 :=
  Char.isDigit_iff_toNat.mp (Nat.isDigit_of_mem_toDigits (by decide) (by decide) inside)

theorem decimal_eq (value : Nat) :
    decimal value = (Nat.toDigits 10 value).map fun digit => UInt16.ofNat digit.toNat := by
  have digits : ∀ word : List Char, (∀ digit ∈ word, digit.toNat ≤ 0x39) →
      (word.flatMap fun point => encodePoint point.toNat) =
        word.map fun digit => UInt16.ofNat digit.toNat := by
    intro word
    induction word with
    | nil => exact fun _ => rfl
    | cons digit rest ih =>
        intro all
        have range := all digit List.mem_cons_self
        have small : digit.toNat < 0x10000 := by omega
        rw [List.flatMap_cons, List.map_cons, ih fun other inside => all other (List.mem_cons_of_mem _ inside),
          encodePoint, if_pos small]
        rfl
  rw [decimal, ofString, Nat.toString_eq_repr, Nat.toList_repr]
  exact digits _ fun digit inside => (digit_range inside).2

theorem decimal_digit {value : Nat} {unit : UInt16} (inside : unit ∈ decimal value) :
    0x30 ≤ unit.toNat ∧ unit.toNat ≤ 0x39 := by
  rw [decimal_eq] at inside
  obtain ⟨digit, isDigit, same⟩ := List.mem_map.mp inside
  have range := digit_range isDigit
  rw [← same, UInt16.toNat_ofNat']
  omega

theorem decimal_ascii (value : Nat) : IsAscii (decimal value) := by
  intro unit inside
  have range := decimal_digit inside
  omega

theorem decimal_injective {one other : Nat} (same : decimal one = decimal other) : one = other := by
  have back (value : Nat) :
      (decimal value).map (fun unit => Char.ofNat unit.toNat) = Nat.toDigits 10 value := by
    rw [decimal_eq, List.map_map]
    have same : ∀ digit ∈ Nat.toDigits 10 value,
        ((fun unit : UInt16 => Char.ofNat unit.toNat) ∘ fun digit : Char => UInt16.ofNat digit.toNat) digit =
          id digit := by
      intro digit inside
      have range := digit_range inside
      have kept : digit.toNat % 65536 = digit.toNat := by omega
      change Char.ofNat (UInt16.ofNat digit.toNat).toNat = digit
      rw [UInt16.toNat_ofNat', kept, Char.ofNat_toNat]
    rw [List.map_congr_left same, List.map_id]
  rw [← Nat.ofDigitChars_ten_toDigits (n := one), ← back, same, back, Nat.ofDigitChars_ten_toDigits]

/-! ### Frames -/

theorem utf8_flatMap {Item : Type} {items : List Item} {write : Item → JsString}
    (wellFormed : ∀ item ∈ items, isWellFormed (write item) = true) :
    utf8 (items.flatMap write) = items.flatMap fun item => utf8 (write item) := by
  induction items with
  | nil => rfl
  | cons item rest ih =>
      rw [List.flatMap_cons, List.flatMap_cons, utf8_append (wellFormed item List.mem_cons_self),
        ih fun other inside => wellFormed other (List.mem_cons_of_mem _ inside)]

theorem isWellFormed_flatMap {Item : Type} {items : List Item} {write : Item → JsString}
    (wellFormed : ∀ item ∈ items, isWellFormed (write item) = true) :
    isWellFormed (items.flatMap write) = true := by
  induction items with
  | nil => rfl
  | cons item rest ih =>
      rw [List.flatMap_cons]
      exact isWellFormed_append (wellFormed item List.mem_cons_self)
        (ih fun other inside => wellFormed other (List.mem_cons_of_mem _ inside))

/-- A number and a colon. -/
def countText (value : Nat) : JsString := decimal value ++ ofString ":"

theorem countText_ascii (value : Nat) : IsAscii (countText value) := by
  intro unit inside
  rcases List.mem_append.mp inside with digit | colon
  · exact decimal_ascii value unit digit
  · have isColon : unit = 0x3a := List.mem_singleton.mp colon
    rw [isColon]
    decide +kernel

theorem countCode : PrefixCode (fun _ => True) fun value => utf8 (countText value) := by
  have ended : PrefixCode (fun _ : Nat => True) fun value => utf8 (decimal value) ++ [0x3a] := by
    apply PrefixCode.terminated
    · intro value _ inside
      rw [(decimal_ascii value).utf8_eq] at inside
      obtain ⟨unit, isUnit, same⟩ := List.mem_map.mp inside
      have range := decimal_digit isUnit
      have sameNat := congrArg UInt8.toNat same
      rw [UInt8.toNat_ofNat'] at sameNat
      change unit.toNat % 256 = 0x3a at sameNat
      omega
    · intro one other _ _ same
      exact decimal_injective
        (utf8_injective (decimal_ascii one).wellFormed (decimal_ascii other).wellFormed same)
  apply ended.congr
  intro value _
  rw [countText, utf8_append (decimal_ascii value).wellFormed]
  rfl

theorem utf8Frame_eq (value : JsString) :
    utf8Frame value = countText (utf8ByteLength value) ++ value := rfl

theorem utf8Frame_wellFormed {value : JsString} (wellFormed : isWellFormed value = true) :
    isWellFormed (utf8Frame value) = true :=
  isWellFormed_append (countText_ascii _).wellFormed wellFormed

theorem frameCode : PrefixCode (fun value => isWellFormed value = true) fun value =>
    utf8 (utf8Frame value) := by
  have code : PrefixCode (fun value => isWellFormed value = true) fun value =>
      utf8 (countText (utf8 value).length) ++ utf8 value :=
    countCode.measured fun _ _ oneWell otherWell same => utf8_injective oneWell otherWell same
  apply code.congr
  intro value wellFormed
  rw [utf8Frame_eq, utf8_append (countText_ascii _).wellFormed, utf8_length wellFormed]

/-- The frames of some fields. -/
def fieldsText (fields : List JsString) : JsString := fields.flatMap utf8Frame

/-- As many fields as expected, without lone surrogates. -/
def Fields (count : Nat) (fields : List JsString) : Prop :=
  fields.length = count ∧ ∀ field ∈ fields, isWellFormed field = true

theorem Fields.wellFormed {count : Nat} {fields : List JsString} (valid : Fields count fields) :
    isWellFormed (fieldsText fields) = true :=
  isWellFormed_flatMap fun field inside => utf8Frame_wellFormed (valid.2 field inside)

theorem fieldsCode (count : Nat) : PrefixCode (Fields count) fun fields => utf8 (fieldsText fields) := by
  have code : PrefixCode (Fields count) fun fields =>
      fields.flatMap fun field => utf8 (utf8Frame field) := by
    intro one other after behind oneValid otherValid same
    exact frameCode.sequence one other after behind oneValid.2 otherValid.2
      (oneValid.1.trans otherValid.1.symm) same
  apply code.congr
  intro fields valid
  exact utf8_flatMap fun field inside => utf8Frame_wellFormed (valid.2 field inside)

/-- The messages of a request behind their number. -/
def messagesText {Message : Type} (fields : Message → List JsString) (messages : List Message) : JsString :=
  countText messages.length ++ messages.flatMap fun message => fieldsText (fields message)

section Messages

variable {Message : Type} {fields : Message → List JsString} {count : Nat}

theorem messagesText_wellFormed {messages : List Message}
    (valid : ∀ message ∈ messages, Fields count (fields message)) :
    isWellFormed (messagesText fields messages) = true :=
  isWellFormed_append (countText_ascii _).wellFormed
    (isWellFormed_flatMap fun message inside => (valid message inside).wellFormed)

/-- Messages that their fields tell apart. -/
theorem messagesCode (apart : ∀ one other, fields one = fields other → one = other) :
    PrefixCode (fun messages => ∀ message ∈ messages, Fields count (fields message))
      fun messages => utf8 (messagesText fields messages) := by
  have one : PrefixCode (fun message => Fields count (fields message)) fun message =>
      utf8 (fieldsText (fields message)) :=
    (fieldsCode count).comap (fun _ valid => valid) fun one other _ _ same => apart one other same
  have code := PrefixCode.counted countCode one
  apply code.congr
  intro messages valid
  rw [messagesText, utf8_append (countText_ascii _).wellFormed,
    utf8_flatMap fun message inside => (valid message inside).wellFormed]

/-- The fields of a request and then its messages. -/
theorem requestCode (apart : ∀ one other, fields one = fields other → one = other) (width : Nat) :
    PrefixCode (fun request : List JsString × List Message =>
        Fields width request.1 ∧ ∀ message ∈ request.2, Fields count (fields message))
      fun request => utf8 (fieldsText request.1 ++ messagesText fields request.2) := by
  apply ((fieldsCode width).pair (messagesCode apart)).congr
  intro request valid
  exact utf8_append valid.1.wellFormed _

end Messages

end JsString

/-! ### Names -/

def NativeMessageType.all : List NativeMessageType :=
  [.user, .assistant, .synthetic, .shell, .skill, .system, .compaction, .idle, .agentSwitched,
    .modelSwitched, .locationSwitched]

theorem NativeMessageType.mem_all (type : NativeMessageType) : type ∈ NativeMessageType.all := by
  cases type <;> simp [NativeMessageType.all]

theorem NativeMessageType.name_injective {one other : NativeMessageType}
    (same : one.name = other.name) : one = other := by
  have apart : ∀ one ∈ NativeMessageType.all, ∀ other ∈ NativeMessageType.all,
      one.name = other.name → one = other := by
    decide +kernel
  exact apart one one.mem_all other other.mem_all same

theorem MessageRole.name_injective {one other : MessageRole} (same : one.name = other.name) :
    one = other := by
  have apart : MessageRole.user.name.length ≠ MessageRole.assistant.name.length := by
    decide +kernel
  cases one with
  | user =>
      cases other with
      | user => rfl
      | assistant => exact absurd (congrArg List.length same) apart
  | assistant =>
      cases other with
      | user => exact absurd (congrArg List.length same.symm) apart
      | assistant => rfl

/-! ### Source fingerprints -/

def SourceMessage.fields (message : SourceMessage) : List JsString := [message.role.name, message.text]

def NativeSourceMessage.fields (message : NativeSourceMessage) : List JsString :=
  [message.id, message.type.name, message.text]

theorem SourceMessage.fields_injective {one other : SourceMessage} (same : one.fields = other.fields) :
    one = other := by
  obtain ⟨oneRole, oneText⟩ := one
  obtain ⟨otherRole, otherText⟩ := other
  have parts := List.cons.inj same
  have role : oneRole = otherRole := MessageRole.name_injective parts.1
  have text : oneText = otherText := (List.cons.inj parts.2).1
  rw [role, text]

theorem NativeSourceMessage.fields_injective {one other : NativeSourceMessage}
    (same : one.fields = other.fields) : one = other := by
  obtain ⟨oneId, oneType, oneText⟩ := one
  obtain ⟨otherId, otherType, otherText⟩ := other
  have parts := List.cons.inj same
  have id : oneId = otherId := parts.1
  have type : oneType = otherType := NativeMessageType.name_injective (List.cons.inj parts.2).1
  have text : oneText = otherText := (List.cons.inj (List.cons.inj parts.2).2).1
  rw [id, type, text]

/-- What the hashed text of a request frames. -/
inductive FramedSource
  | v1 (sessionId startUserMessageId endUserMessageId : JsString) (messages : List SourceMessage)
  | v2 (sessionId startUserMessageId endUserMessageId startSourceMessageId endSourceMessageId : JsString)
      (messages : List SourceMessage)
  | v3 (sourceId sessionId : JsString) (projectionVersion : Nat)
      (startSourceMessageId endSourceMessageId : JsString) (messages : List NativeSourceMessage)
deriving DecidableEq

def IngestSegmentCreate.framed : IngestSegmentCreate → FramedSource
  | .native request =>
      .v3 request.sourceId request.sessionId request.projectionVersion request.startSourceMessageId
        request.endSourceMessageId request.messages
  | .source _ request =>
      match request.boundary with
      | .v1 startUser endUser => .v1 request.sessionId startUser endUser request.messages
      | .v2 startUser endUser startSource endSource =>
          .v2 request.sessionId startUser endUser startSource endSource request.messages

/-- The text that `ingestSourceFingerprint` hashes. -/
def IngestSegmentCreate.sourceText : IngestSegmentCreate → JsString
  | .native request => nativeSourceText request
  | .source _ request => Reflection.sourceText request

theorem ingestSourceFingerprint_eq (sha256 : JsString → JsString) (request : IngestSegmentCreate) :
    ingestSourceFingerprint sha256 request = sha256 request.sourceText := by
  cases request with
  | native request => rfl
  | source sourceId request => rfl

def sourceLabel : Nat → JsString
  | 1 => ofString "reflection-source-v1:"
  | 2 => ofString "reflection-source-v2:"
  | _ => ofString "reflection-source-v3:"

namespace FramedSource

/-- The boundary version. -/
def version : FramedSource → Nat
  | .v1 .. => 1
  | .v2 .. => 2
  | .v3 .. => 3

def fields : FramedSource → List JsString
  | .v1 sessionId startUser endUser _ => [sessionId, startUser, endUser]
  | .v2 sessionId startUser endUser startSource endSource _ =>
      [sessionId, startUser, endUser, decimal 2, startSource, endSource]
  | .v3 sourceId sessionId projectionVersion startSource endSource _ =>
      [sourceId, sessionId, ofString "3", decimal projectionVersion, startSource, endSource]

def messages : FramedSource → JsString
  | .v1 _ _ _ messages => messagesText SourceMessage.fields messages
  | .v2 _ _ _ _ _ messages => messagesText SourceMessage.fields messages
  | .v3 _ _ _ _ _ messages => messagesText NativeSourceMessage.fields messages

def text (source : FramedSource) : JsString :=
  sourceLabel source.version ++ (fieldsText source.fields ++ source.messages)

/-- The texts of the messages and, in version 3, their ids. -/
def messageStrings : FramedSource → List JsString
  | .v1 _ _ _ messages => messages.map (·.text)
  | .v2 _ _ _ _ _ messages => messages.map (·.text)
  | .v3 _ _ _ _ _ messages => messages.map (·.id) ++ messages.map (·.text)

def WellFormed (source : FramedSource) : Prop :=
  ∀ value ∈ source.fields ++ source.messageStrings, isWellFormed value = true

end FramedSource

theorem IngestSegmentCreate.sourceText_eq (request : IngestSegmentCreate) :
    request.sourceText = request.framed.text := by
  cases request with
  | native request =>
      simp [sourceText, nativeSourceText, framed, FramedSource.text, FramedSource.version,
        sourceLabel, FramedSource.fields, FramedSource.messages, fieldsText, messagesText, countText,
        NativeSourceMessage.fields]
  | source sourceId request =>
      obtain ⟨sessionId, boundary, projectionVersion, processingPriority, messages⟩ := request
      cases boundary with
      | v1 startUser endUser =>
          simp [sourceText, Reflection.sourceText, framed, FramedSource.text, FramedSource.version,
            sourceLabel, FramedSource.fields, FramedSource.messages, fieldsText, messagesText, countText,
            SourceMessage.fields]
      | v2 startUser endUser startSource endSource =>
          simp [sourceText, Reflection.sourceText, framed, FramedSource.text, FramedSource.version,
            sourceLabel, FramedSource.fields, FramedSource.messages, fieldsText, messagesText, countText,
            SourceMessage.fields]

theorem name_wellFormed :
    (∀ role ∈ [MessageRole.user, .assistant], isWellFormed role.name = true) ∧
      ∀ type ∈ NativeMessageType.all, isWellFormed type.name = true := by
  decide +kernel

theorem MessageRole.name_wellFormed (role : MessageRole) : isWellFormed role.name = true :=
  Reflection.name_wellFormed.1 role (by cases role <;> simp)

theorem NativeMessageType.name_wellFormed (type : NativeMessageType) :
    isWellFormed type.name = true :=
  Reflection.name_wellFormed.2 type type.mem_all

theorem ofString_three : ofString "3" = decimal 3 := rfl

namespace FramedSource

theorem version_listed (source : FramedSource) : source.version ∈ [1, 2, 3] := by
  cases source <;> simp [version]

theorem label_wellFormed : ∀ version ∈ [1, 2, 3], isWellFormed (sourceLabel version) = true := by
  decide +kernel

/-- Labels have one length, so what stands behind a label is known. -/
theorem labelCode : PrefixCode (fun version => version ∈ [1, 2, 3]) fun version =>
    utf8 (sourceLabel version) := by
  have sizes : ∀ version ∈ [1, 2, 3], (utf8 (sourceLabel version)).length = 21 := by
    decide +kernel
  have apart : ∀ one ∈ [1, 2, 3], ∀ other ∈ [1, 2, 3], sourceLabel one = sourceLabel other →
      one = other := by
    decide +kernel
  apply PrefixCode.fixed sizes
  intro one other oneListed otherListed same
  exact apart one oneListed other otherListed
    (utf8_injective (label_wellFormed one oneListed) (label_wellFormed other otherListed) same)

theorem WellFormed.fields {source : FramedSource} (wellFormed : source.WellFormed) :
    Fields source.fields.length source.fields :=
  ⟨rfl, fun field inside => wellFormed field (List.mem_append_left _ inside)⟩

/-- Fields and messages of a request, from the front. -/
theorem roleRequest_injective {width : Nat} {one other : List JsString}
    {messages others : List SourceMessage} (oneFields : Fields width one) (otherFields : Fields width other)
    (texts : ∀ value ∈ messages.map (·.text), isWellFormed value = true)
    (otherTexts : ∀ value ∈ others.map (·.text), isWellFormed value = true)
    (same : utf8 (fieldsText one ++ messagesText SourceMessage.fields messages) =
      utf8 (fieldsText other ++ messagesText SourceMessage.fields others)) :
    one = other ∧ messages = others := by
  have framed : ∀ listed : List SourceMessage,
      (∀ value ∈ listed.map (·.text), isWellFormed value = true) →
        ∀ message ∈ listed, Fields 2 message.fields := by
    intro listed wellFormed message inside
    refine ⟨rfl, ?_⟩
    intro field isField
    rcases List.mem_cons.mp isField with role | isText
    · rw [role]
      exact message.role.name_wellFormed
    · rw [List.mem_singleton.mp isText]
      exact wellFormed _ (List.mem_map_of_mem inside)
  exact Prod.mk.inj ((requestCode (fun _ _ => SourceMessage.fields_injective) width).injective
    ⟨oneFields, framed messages texts⟩ ⟨otherFields, framed others otherTexts⟩ same)

theorem nativeRequest_injective {width : Nat} {one other : List JsString}
    {messages others : List NativeSourceMessage} (oneFields : Fields width one)
    (otherFields : Fields width other)
    (strings : ∀ value ∈ messages.map (·.id) ++ messages.map (·.text), isWellFormed value = true)
    (otherStrings : ∀ value ∈ others.map (·.id) ++ others.map (·.text), isWellFormed value = true)
    (same : utf8 (fieldsText one ++ messagesText NativeSourceMessage.fields messages) =
      utf8 (fieldsText other ++ messagesText NativeSourceMessage.fields others)) :
    one = other ∧ messages = others := by
  have framed : ∀ listed : List NativeSourceMessage,
      (∀ value ∈ listed.map (·.id) ++ listed.map (·.text), isWellFormed value = true) →
        ∀ message ∈ listed, Fields 3 message.fields := by
    intro listed wellFormed message inside
    refine ⟨rfl, ?_⟩
    intro field isField
    rcases List.mem_cons.mp isField with id | isField
    · rw [id]
      exact wellFormed _ (List.mem_append_left _ (List.mem_map_of_mem inside))
    rcases List.mem_cons.mp isField with type | isText
    · rw [type]
      exact message.type.name_wellFormed
    · rw [List.mem_singleton.mp isText]
      exact wellFormed _ (List.mem_append_right _ (List.mem_map_of_mem inside))
  exact Prod.mk.inj ((requestCode (fun _ _ => NativeSourceMessage.fields_injective) width).injective
    ⟨oneFields, framed messages strings⟩ ⟨otherFields, framed others otherStrings⟩ same)

/-- The bytes of a framed source determine it. -/
theorem text_injective {one other : FramedSource} (oneWell : one.WellFormed) (otherWell : other.WellFormed)
    (same : utf8 one.text = utf8 other.text) : one = other := by
  rw [text, text, utf8_append (label_wellFormed _ one.version_listed),
    utf8_append (label_wellFormed _ other.version_listed)] at same
  obtain ⟨version, behind⟩ := labelCode _ _ _ _ one.version_listed other.version_listed same
  have oneStrings := fun value inside => oneWell value (List.mem_append_right _ inside)
  have otherStrings := fun value inside => otherWell value (List.mem_append_right _ inside)
  cases one with
  | v1 sessionId startUser endUser messages =>
      cases other with
      | v1 otherSession otherStart otherEnd otherMessages =>
          have parts := roleRequest_injective oneWell.fields otherWell.fields oneStrings otherStrings behind
          obtain ⟨fieldsSame, messagesSame⟩ := parts
          simp only [fields, List.cons.injEq, and_true] at fieldsSame
          obtain ⟨session, startSame, endSame⟩ := fieldsSame
          rw [session, startSame, endSame, messagesSame]
      | v2 => cases version
      | v3 => cases version
  | v2 sessionId startUser endUser startSource endSource messages =>
      cases other with
      | v1 => cases version
      | v2 otherSession otherStart otherEnd otherStartSource otherEndSource otherMessages =>
          have parts := roleRequest_injective oneWell.fields otherWell.fields oneStrings otherStrings behind
          obtain ⟨fieldsSame, messagesSame⟩ := parts
          simp only [fields, List.cons.injEq, and_true] at fieldsSame
          obtain ⟨session, startSame, endSame, _, startSourceSame, endSourceSame⟩ := fieldsSame
          rw [session, startSame, endSame, startSourceSame, endSourceSame, messagesSame]
      | v3 => cases version
  | v3 sourceId sessionId projectionVersion startSource endSource messages =>
      cases other with
      | v1 => cases version
      | v2 => cases version
      | v3 otherSource otherSession otherProjection otherStart otherEnd otherMessages =>
          have parts := nativeRequest_injective oneWell.fields otherWell.fields oneStrings otherStrings behind
          obtain ⟨fieldsSame, messagesSame⟩ := parts
          simp only [fields, List.cons.injEq, and_true] at fieldsSame
          obtain ⟨source, session, _, projection, startSame, endSame⟩ := fieldsSame
          rw [source, session, decimal_injective projection, startSame, endSame, messagesSame]

end FramedSource

end Reflection
