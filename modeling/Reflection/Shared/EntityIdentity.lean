/-
Entities and claims that are ready to be stored, and the names their ids are made from.

The names of new mentions in one source differ where the mentions do, and the names of its claims
where their indexes do.
-/

import Reflection.Shared.Framing
import Reflection.Shared.Resolution

namespace Reflection

open JsString

def SEGMENT_NAMESPACE : JsString := ofString "b14d5f2c-4cce-4f37-9e32-ea30c1fd1b42"

def ENTITY_NAMESPACE : JsString := ofString "966769b5-ab08-4b02-8948-7db052586124"

def CLAIM_NAMESPACE : JsString := ofString "194eb982-5e16-4011-bdcb-f13a86934da4"

inductive ObjectError
  /-- new mention identity requires exactly one entity object or literal value -/
  | newMention
  /-- equivalence key requires exactly one entity object or literal value -/
  | equivalenceKey
deriving DecidableEq

structure PreparedEntity (Embedding : Type) where
  id : JsString
  canonicalName : JsString
  normalizedName : JsString
  description : JsString
  aliases : List JsString
  embedding : Option Embedding
  isNew : Bool

structure PreparedClaim (Embedding : Type) where
  id : JsString
  subject : JsString
  subjectEntityId : JsString
  predicate : JsString
  confidence : ℚ
  objectEntity : Option JsString
  objectEntityId : Option JsString
  objectValue : Option JsString
  equivalenceKey : JsString
  embedding : Embedding

/-- The name `newMentionEntityIdFor` hands to `uuidv5`. -/
def newMentionName (segmentId sourceFingerprint mentionId : JsString) (claim : ExtractedClaim) : JsString :=
  let objectKind := if claim.objectEntity.isNone then ofString "literal" else ofString "entity"
  let objectText := (claim.objectEntity.or claim.objectValue).getD []
  ofString "reflection-new-mention-v1:" ++ utf8Frame segmentId ++ utf8Frame sourceFingerprint ++
    utf8Frame mentionId ++ utf8Frame claim.subject ++ utf8Frame claim.predicate ++ utf8Frame objectKind ++
      utf8Frame objectText

section Ids

variable (uuidv5 : JsString → JsString → JsString)

def newMentionEntityIdFor (segmentId sourceFingerprint mentionId : JsString) (claim : ExtractedClaim) :
    Except ObjectError JsString :=
  if claim.objectEntity.isNone = claim.objectValue.isNone then .error .newMention
  else .ok (uuidv5 (newMentionName segmentId sourceFingerprint mentionId claim) ENTITY_NAMESPACE)

def claimIdFor (segmentId : JsString) (index : Nat) : JsString :=
  uuidv5 (segmentId ++ [0] ++ decimal index) CLAIM_NAMESPACE

end Ids

def equivalenceKey (sha256 caseFold : JsString → JsString) (subjectId predicate : JsString)
    (objectEntityId objectValue : Option JsString) : Except ObjectError JsString :=
  if objectEntityId.isNone = objectValue.isNone then .error .equivalenceKey
  else
    let objectKey :=
      match objectEntityId with
      | some id => ofString "entity:" ++ id
      | none => ofString "literal:" ++ normalizeName caseFold (objectValue.getD [])
    .ok (sha256 (subjectId ++ [0] ++ normalizeName caseFold predicate ++ [0] ++ objectKey))

/-! ### Names -/

theorem JsString.IsAscii.byteLength_eq {value : JsString} (ascii : IsAscii value) :
    utf8ByteLength value = value.length := by
  rw [← utf8_length ascii.wellFormed, ascii.utf8_eq, List.length_map]

/-- A number ended by a unit that is no digit. -/
theorem decimal_code {stop : UInt16} (notDigit : stop.toNat < 0x30 ∨ 0x39 < stop.toNat) :
    PrefixCode (fun _ : Nat => True) fun value => decimal value ++ [stop] := by
  apply PrefixCode.terminated
  · intro value _ inside
    have range := decimal_digit inside
    omega
  · intro one other _ _ same
    exact decimal_injective same

theorem countText_code : PrefixCode (fun _ => True) countText := decimal_code (by decide)

/-- A frame of ASCII units can be read off the front of any text. -/
theorem asciiFrame_code : PrefixCode IsAscii utf8Frame := by
  have code : PrefixCode IsAscii fun value => countText value.length ++ value :=
    countText_code.measured fun _ _ _ _ same => same
  apply code.congr
  intro value ascii
  rw [utf8Frame_eq, ascii.byteLength_eq]

theorem newMentionName_mention {segmentId sourceFingerprint one other : JsString}
    {oneClaim otherClaim : ExtractedClaim} (oneAscii : IsAscii one) (otherAscii : IsAscii other)
    (same : newMentionName segmentId sourceFingerprint one oneClaim =
      newMentionName segmentId sourceFingerprint other otherClaim) : one = other := by
  unfold newMentionName at same
  simp only [List.append_assoc] at same
  have behindSource := List.append_cancel_left (List.append_cancel_left (List.append_cancel_left same))
  exact (asciiFrame_code _ _ _ _ oneAscii otherAscii behindSource).1

theorem claimIdFor_index {uuidv5 : JsString → JsString → JsString}
    (unique : ∀ namespaceId, Function.Injective fun name => uuidv5 name namespaceId)
    {segmentId : JsString} {one other : Nat}
    (same : claimIdFor uuidv5 segmentId one = claimIdFor uuidv5 segmentId other) : one = other :=
  decimal_injective (List.append_cancel_left (unique CLAIM_NAMESPACE same))

theorem subjectMention_eq (index : Nat) :
    subjectMention index = 0x63 :: (decimal index ++ [0x2e]) ++ [0x73, 0x75, 0x62, 0x6a, 0x65, 0x63, 0x74] := by
  unfold subjectMention claimName
  rw [← List.cons_append, List.append_assoc]
  rfl

theorem objectMention_eq (index : Nat) :
    objectMention index = 0x63 :: (decimal index ++ [0x2e]) ++ [0x6f, 0x62, 0x6a, 0x65, 0x63, 0x74] := by
  unfold objectMention claimName
  rw [← List.cons_append, List.append_assoc]
  rfl

theorem mentionId_apart {one other : Nat} {after behind : JsString}
    (same : 0x63 :: (decimal one ++ [0x2e]) ++ after = 0x63 :: (decimal other ++ [0x2e]) ++ behind) :
    one = other ∧ after = behind :=
  decimal_code (by decide) _ _ _ _ trivial trivial (List.cons.inj same).2

theorem subjectMention_injective {one other : Nat} (same : subjectMention one = subjectMention other) :
    one = other := by
  rw [subjectMention_eq, subjectMention_eq] at same
  exact (mentionId_apart same).1

theorem objectMention_injective {one other : Nat} (same : objectMention one = objectMention other) :
    one = other := by
  rw [objectMention_eq, objectMention_eq] at same
  exact (mentionId_apart same).1

theorem subjectMention_ne_objectMention (one other : Nat) : subjectMention one ≠ objectMention other := by
  intro same
  rw [subjectMention_eq, objectMention_eq] at same
  exact absurd (mentionId_apart same).2 (by decide)

/-- The ids `c{index}.subject` and `c{index}.object`. -/
theorem mentionId_ascii (index : Nat) : IsAscii (subjectMention index) ∧ IsAscii (objectMention index) := by
  have named : IsAscii (claimName index) := by
    intro unit inside
    rcases List.mem_cons.mp inside with isFirst | digit
    · rw [isFirst]
      decide
    · exact decimal_ascii index unit digit
  have behind : ∀ suffix : JsString, IsAscii suffix → IsAscii (claimName index ++ suffix) := by
    intro suffix ascii unit inside
    rcases List.mem_append.mp inside with name | rest
    · exact named unit name
    · exact ascii unit rest
  have subject : ofString ".subject" = [0x2e, 0x73, 0x75, 0x62, 0x6a, 0x65, 0x63, 0x74] := rfl
  have object : ofString ".object" = [0x2e, 0x6f, 0x62, 0x6a, 0x65, 0x63, 0x74] := rfl
  constructor
  · apply behind
    rw [subject]
    simp [IsAscii]
  · apply behind
    rw [object]
    simp [IsAscii]

end Reflection
