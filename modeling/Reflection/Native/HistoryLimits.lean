/-
Requests of a planned history and the limits of the service.

A packed range weighs at most the soft limit or is one record, and a record shows at most twice
what it weighs, so the text of a range never exceeds what a request may carry. The number of its
messages and its ids after trimming are bounded by nothing, and those decide.
-/

import Reflection.Foundation.Lists
import Reflection.Shared.CodePoints
import Reflection.Native.History
import Reflection.Native.Layout

namespace Reflection.Native.History

open JsString JsObject GreedyPacking

/-! ### Weights cover texts -/

section Weights

variable (numbers : Numbers)

/-- What the parts of a message weigh together. -/
def contentWeight (content : List (AssistantPart numbers.Number)) : ℕ∞ :=
  (content.map (partWeight numbers)).sum

theorem toolFrame_le_pressure (name : JsString) (state : Fields numbers.Number) :
    ((toolFrame numbers name state).length : ℕ∞) ≤ toolPressure numbers name state := by
  unfold toolPressure
  have shown : ((toolFrame numbers name state).length : ℕ∞) ≤
      (max (name.length + modelVisibleToolStateSize numbers
        (.object (projectedToolState numbers state))) (toolFrame numbers name state).length : Nat) :=
    Nat.cast_le.mpr (Nat.le_max_right _ _)
  exact shown.trans (le_add_right (le_add_right le_self_add))

/-- Written frames are covered by the weights, up to the mark of a truncation. -/
theorem toolFrames_length (content : List (AssistantPart numbers.Number)) (result : JsString)
    (within : result.length ≤ MAX_COMPLETE_TOOL_SOURCE_CHARS) :
    ((toolFrames numbers result content).length : ℕ∞) ≤ result.length + contentWeight numbers content ∨
      (toolFrames numbers result content).length ≤ TOOL_SOURCE_CHAR_LIMIT ∧
        (MAX_COMPLETE_TOOL_SOURCE_CHARS : ℕ∞) < result.length + contentWeight numbers content := by
  induction content generalizing result with
  | nil =>
      left
      exact le_self_add
  | cons part rest ih =>
      have total : contentWeight numbers (part :: rest) =
          partWeight numbers part + contentWeight numbers rest := rfl
      rw [total, toolFrames]
      split
      · rename_i name state isTool
        have covered : ((toolFrame numbers name state).length : ℕ∞) ≤ partWeight numbers part := by
          rw [partWeight, isTool]
          exact toolFrame_le_pressure numbers name state
        have shifted : ((result ++ toolFrame numbers name state).length : ℕ∞) +
            contentWeight numbers rest ≤ result.length + (partWeight numbers part +
              contentWeight numbers rest) := by
          rw [List.length_append, Nat.cast_add, ← add_assoc]
          gcongr
        dsimp only
        split
        · rename_i fits
          rcases ih (result ++ toolFrame numbers name state) (by rw [List.length_append]; exact fits)
            with whole | cut
          · exact .inl (whole.trans shifted)
          · exact .inr ⟨cut.1, lt_of_lt_of_le cut.2 shifted⟩
        · rename_i overflow
          right
          constructor
          · have short := truncatedToolSourceText_length_le numbers name
              (MAX_COMPLETE_TOOL_SOURCE_CHARS - result.length)
            have mark : TOOL_SOURCE_TRUNCATION.length ≤ TOOL_SOURCE_CHAR_LIMIT := by decide
            rw [List.length_append]
            unfold MAX_COMPLETE_TOOL_SOURCE_CHARS at short within ⊢
            omega
          · have longer : (MAX_COMPLETE_TOOL_SOURCE_CHARS : ℕ∞) <
                ((result.length + (toolFrame numbers name state).length : Nat) : ℕ∞) :=
              Nat.cast_lt.mpr (Nat.not_le.mp overflow)
            refine lt_of_lt_of_le longer (le_trans ?_ shifted)
            rw [← List.length_append]
            exact le_self_add
      · have later := ih result within
        have more : (result.length : ℕ∞) + contentWeight numbers rest ≤
            result.length + (partWeight numbers part + contentWeight numbers rest) := by
          gcongr
          exact le_add_self
        rcases later with whole | cut
        · exact .inl (whole.trans more)
        · exact .inr ⟨cut.1, lt_of_lt_of_le cut.2 more⟩

theorem partTexts_le (content : List (AssistantPart numbers.Number)) :
    (codePointLength (content.flatMap (partText numbers)) : ℕ∞) ≤ contentWeight numbers content := by
  induction content with
  | nil => exact le_refl _
  | cons part rest ih =>
      have own : (codePointLength (partText numbers part) : ℕ∞) ≤ partWeight numbers part := by
        unfold partText partWeight
        cases part.body with
        | text text => exact le_refl _
        | reasoning text => exact zero_le
        | tool name state => exact zero_le
      rw [List.flatMap_cons]
      calc (codePointLength (partText numbers part ++ rest.flatMap (partText numbers)) : ℕ∞)
          ≤ ((codePointLength (partText numbers part) +
              codePointLength (rest.flatMap (partText numbers)) : Nat) : ℕ∞) :=
            Nat.cast_le.mpr (codePointLength_append_le _ _)
        _ = codePointLength (partText numbers part) +
              codePointLength (rest.flatMap (partText numbers)) := Nat.cast_add _ _
        _ ≤ partWeight numbers part + contentWeight numbers rest := add_le_add own ih

/-- The text of an assistant message is at most twice its weight. -/
theorem assistantSourceText_le (content : List (AssistantPart numbers.Number)) :
    (codePointLength (assistantSourceText numbers content) : ℕ∞) ≤
      2 * contentWeight numbers content := by
  have twice : contentWeight numbers content ≤ 2 * contentWeight numbers content := by
    rw [two_mul]
    exact le_self_add
  unfold assistantSourceText
  dsimp only
  split
  · exact (partTexts_le numbers content).trans twice
  · have counted : (codePointLength (toolFrames numbers [] content) : ℕ∞) ≤
        (toolFrames numbers [] content).length := Nat.cast_le.mpr (codePointLength_le _)
    rcases toolFrames_length numbers content [] (Nat.zero_le _) with whole | ⟨short, heavy⟩
    · rw [List.length_nil, Nat.cast_zero, zero_add] at whole
      exact counted.trans (whole.trans twice)
    · rw [List.length_nil, Nat.cast_zero, zero_add] at heavy
      have enough : ((TOOL_SOURCE_CHAR_LIMIT : Nat) : ℕ∞) ≤
          2 * (MAX_COMPLETE_TOOL_SOURCE_CHARS : Nat) := by
        exact_mod_cast (by decide : TOOL_SOURCE_CHAR_LIMIT ≤ 2 * MAX_COMPLETE_TOOL_SOURCE_CHARS)
      refine counted.trans ((Nat.cast_le.mpr short).trans (enough.trans ?_))
      gcongr

end Weights

/-! ### Canonical records -/

/-- What canonicalization establishes for a record. -/
structure Canonical (record : NativeCanonicalRecord) : Prop where
  same : record.source.id = record.raw.id
  nonempty : 1 ≤ record.source.id.length
  short : record.source.id.length ≤ 500
  text : codePointLength record.source.text ≤ maxMessageTextChars
  weighed : (codePointLength record.source.text : ℕ∞) ≤ 2 * record.weightedChars

section Records

variable (numbers : Numbers) (redactUrl : JsString → Option JsString)

theorem validateNativeHistoryMessage_id {value : Json numbers.Number}
    {message : ValidMessage numbers.Number}
    (valid : validateNativeHistoryMessage numbers value = .ok message) :
    1 ≤ message.id.length ∧ message.id.length ≤ 500 := by
  unfold validateNativeHistoryMessage at valid
  split at valid
  · cases valid
  · split at valid
    · split at valid
      · cases valid
      · rename_i id type created _ _ _ sized
        obtain ⟨body, _, same⟩ := except_bind_ok valid
        cases same
        dsimp only
        omega
    · cases valid

/-- A text shows at most twice what its message weighs. -/
theorem weightedCharsFor_covers {message : ValidMessage numbers.Number} {text : JsString} {weight : ℕ∞}
    (rendered : sourceText numbers redactUrl message = .ok text)
    (weighed : weightedCharsFor numbers message text = .ok weight) :
    (codePointLength text : ℕ∞) ≤ 2 * weight := by
  unfold weightedCharsFor at weighed
  split at weighed
  · rename_i content isAssistant
    unfold sourceText at rendered
    rw [isAssistant] at rendered
    cases rendered
    cases weighed
    exact assistantSourceText_le numbers content
  · obtain ⟨files, _, same⟩ := except_bind_ok weighed
    cases same
    rw [two_mul]
    exact le_add_right le_self_add

theorem canonicalRecord_canonical {ids : List JsString} {value : Json numbers.Number}
    {record : NativeCanonicalRecord}
    (made : canonicalRecord numbers redactUrl ids value = .ok record) :
    Canonical record ∧ record.raw.id ∉ ids := by
  obtain ⟨message, valid, checked⟩ := except_bind_ok made
  split at checked
  · cases checked
  · rename_i fresh
    obtain ⟨source, rendered, sized⟩ := except_bind_ok checked
    obtain ⟨text, isText, isSource⟩ := except_bind_ok rendered
    split at sized
    · cases sized
    · rename_i fits
      obtain ⟨weight, weighed, isRecord⟩ := except_bind_ok sized
      cases isSource
      cases isRecord
      have idLength := validateNativeHistoryMessage_id numbers valid
      refine ⟨?_, by simpa using fresh⟩
      exact
        { same := rfl
          nonempty := idLength.1
          short := idLength.2
          text := Nat.not_lt.mp fits
          weighed := weightedCharsFor_covers numbers redactUrl isText weighed }

theorem canonicalizeFrom_canonical {ids : List JsString} {history : List (Json numbers.Number)}
    {records : List NativeCanonicalRecord}
    (made : canonicalizeFrom numbers redactUrl ids history = .ok records) :
    (∀ record ∈ records, Canonical record) ∧ (recordIds records).Nodup ∧
      ∀ id ∈ recordIds records, id ∉ ids := by
  induction history generalizing ids records with
  | nil =>
      cases made
      exact ⟨fun record member => (nomatch member), List.nodup_nil, fun id member => (nomatch member)⟩
  | cons value rest ih =>
      obtain ⟨record, first, others⟩ := except_bind_ok made
      obtain ⟨remaining, second, same⟩ := except_bind_ok others
      cases same
      obtain ⟨canonical, fresh⟩ := canonicalRecord_canonical numbers redactUrl first
      obtain ⟨each, distinct, apart⟩ := ih second
      have split : recordIds (record :: remaining) = record.raw.id :: recordIds remaining := by
        rw [← canonical.same]
        rfl
      rw [split, List.nodup_cons]
      refine ⟨List.forall_mem_cons.mpr ⟨canonical, each⟩, ⟨?_, distinct⟩,
        List.forall_mem_cons.mpr ⟨fresh, ?_⟩⟩
      · intro repeated
        exact apart _ repeated List.mem_cons_self
      · intro id member seen
        exact apart id member (List.mem_cons_of_mem _ seen)

theorem canonicalizeNativeHistory_canonical {history : List (Json numbers.Number)}
    {records : List NativeCanonicalRecord}
    (made : canonicalizeNativeHistory numbers redactUrl history = .ok records) :
    (∀ record ∈ records, Canonical record) ∧ (recordIds records).Nodup := by
  obtain ⟨each, distinct, _⟩ := canonicalizeFrom_canonical numbers redactUrl made
  exact ⟨each, distinct⟩

end Records

/-! ### Submitted ranges -/

def DEFAULT_SOFT_LIMIT_CHARS : Nat := 20000

/-- The ranges of a packing that are submitted: the closed ones, and the open one where a
snapshot is wanted. -/
def submittedRanges (records : List NativeCanonicalRecord) (allowOpenSnapshot : Bool) :
    List (List NativeCanonicalRecord) :=
  let packing := pack recordWeight DEFAULT_SOFT_LIMIT_CHARS (completeRecords records)
  packing.1 ++ if packing.2 ≠ [] ∧ allowOpenSnapshot = true then [packing.2] else []

/-- What a weight does not bound: the number of messages and their ids after trimming. -/
structure Submittable (range : List NativeCanonicalRecord) : Prop where
  count : range.length ≤ 10000
  shown : ∀ record ∈ range, isBlank record.source.id = false
  distinct : (range.map fun record => trim record.source.id).Nodup

/-- A packed range stays within the text a request may carry. -/
theorem textChars_le {range : List NativeCanonicalRecord}
    (canonical : ∀ record ∈ range, Canonical record)
    (packed : UnderLimit recordWeight (DEFAULT_SOFT_LIMIT_CHARS : ℕ∞) range) :
    textChars range ≤ maxSegmentTextChars := by
  rcases packed with single | light
  · cases range with
    | nil => exact Nat.zero_le _
    | cons record rest =>
        have alone : rest = [] := List.length_eq_zero_iff.mp (by
          rw [List.length_cons] at single
          omega)
        have text := (canonical record List.mem_cons_self).text
        rw [alone]
        unfold textChars
        rw [List.map_cons, List.map_nil, List.sum_singleton]
        exact text.trans (by decide)
  · have covered : (textChars range : ℕ∞) ≤ 2 * weigh recordWeight range := by
      clear light
      induction range with
      | nil => exact le_refl _
      | cons record rest ih =>
          have own := (canonical record List.mem_cons_self).weighed
          have others := ih fun other member => canonical other (List.mem_cons_of_mem _ member)
          have sum : textChars (record :: rest) = codePointLength record.source.text + textChars rest :=
            rfl
          have weight : weigh recordWeight (record :: rest) =
              record.weightedChars + weigh recordWeight rest := rfl
          rw [sum, weight, Nat.cast_add, mul_add]
          exact add_le_add own others
    have small : (textChars range : ℕ∞) ≤ ((2 * DEFAULT_SOFT_LIMIT_CHARS : Nat) : ℕ∞) := by
      refine covered.trans ?_
      rw [Nat.cast_mul, Nat.cast_ofNat]
      gcongr
    exact (Nat.cast_le.mp small).trans (by decide)

section Requests

variable (sha256 : JsString → JsString) (source : SourceInfo) (sessionId : JsString)

theorem isIdentifier_trim {id : JsString} (short : id.length ≤ 500) :
    isIdentifier (trim id) = !isBlank id := by
  have within : (trim id).length ≤ 500 := (trim_length_le id).trans short
  unfold isIdentifier isBlank
  cases trimmed : trim id with
  | nil => rfl
  | cons first rest =>
      rw [trimmed, List.length_cons] at within
      simp only [List.length_cons, List.isEmpty_cons, Bool.not_false, Bool.and_eq_true, decide_eq_true_eq]
      omega

/-- A packed range becomes a request exactly when its count and its ids allow it. -/
theorem requestFor_ok_iff {range : List NativeCanonicalRecord} (nonempty : range ≠ [])
    (canonical : ∀ record ∈ range, Canonical record)
    (packed : UnderLimit recordWeight (DEFAULT_SOFT_LIMIT_CHARS : ℕ∞) range)
    (validSource : isSourceId (trim source.id) = true)
    (validSession : isIdentifier (trim sessionId) = true) :
    (∃ request, requestFor source sessionId range = .ok request) ↔ Submittable range := by
  obtain ⟨first, isFirst⟩ : ∃ first, range.head? = some first :=
    ⟨range.head nonempty, List.head?_eq_some_head nonempty⟩
  obtain ⟨last, isLast⟩ : ∃ last, range.getLast? = some last :=
    ⟨range.getLast nonempty, List.getLast?_eq_some_getLast nonempty⟩
  have firstInside : first ∈ range := List.mem_of_mem_head? isFirst
  have lastInside : last ∈ range := List.mem_of_getLast? isLast
  have total := textChars_le canonical packed
  have known : ∀ record ∈ range, isIdentifier (trim record.source.id) = !isBlank record.source.id :=
    fun record inside => isIdentifier_trim (canonical record inside).short
  have texts : ∀ record ∈ range, record.source.text.length ≤ maxMessageTextChars * 2 := by
    intro record inside
    have counted := length_le_codePointLength record.source.text
    have text := (canonical record inside).text
    omega
  unfold requestFor
  rw [isFirst, isLast]
  simp only [identityChecked_ok_iff, contractChecked_ok_iff, parseNativeSegmentCreate, parse_ok_iff]
  constructor
  · rintro ⟨request, rfl, accepted⟩
    simp only [nativeSegmentAccepted, normalizeNativeSegmentCreate, Bool.and_eq_true, decide_eq_true_eq,
      List.all_map, List.all_eq_true, List.map_map, List.length_map, Function.comp_def] at accepted
    obtain ⟨⟨⟨⟨⟨⟨⟨_, count⟩, ids⟩, distinct⟩, _⟩, _⟩, _⟩, _⟩ := accepted
    exact
      { count := count
        shown := by
          intro record inside
          have shown := (ids record inside).1
          rw [known record inside] at shown
          simpa using shown
        distinct := distinct }
  · intro submittable
    refine ⟨_, rfl, ?_⟩
    have shown : ∀ record ∈ range, isIdentifier (trim record.source.id) = true := by
      intro record inside
      rw [known record inside, submittable.shown record inside]
      rfl
    have some : 1 ≤ range.length := List.length_pos_iff.mpr nonempty
    simp only [nativeSegmentAccepted, normalizeNativeSegmentCreate, Bool.and_eq_true, decide_eq_true_eq,
      List.all_map, List.all_eq_true, List.map_map, List.length_map, Function.comp_def,
      List.head?_map, List.getLast?_map, isFirst, isLast, Option.map_some, beq_self_eq_true]
    exact ⟨⟨⟨⟨⟨⟨⟨⟨⟨⟨⟨⟨⟨validSource, validSession⟩, shown first firstInside⟩, shown last lastInside⟩, trivial⟩,
      by decide⟩, some⟩, submittable.count⟩, fun record inside => ⟨shown record inside, texts record inside⟩⟩,
      submittable.distinct⟩, fun record inside => (canonical record inside).text⟩, trivial⟩, trivial⟩, total⟩

/-- Whatever becomes a request of the registered source has an identity. -/
theorem identify_of_request {range : List NativeCanonicalRecord} {request : NativeSegmentCreate}
    (native : source.isNative = true) (validSource : isSourceId (trim source.id) = true)
    (requested : requestFor source sessionId range = .ok request) :
    ∃ identified, identify sha256 source sessionId range = .ok identified ∧
      identified.request = request ∧ parseNativeSegmentCreate request = .ok request := by
  have parsed : ∃ value, parseNativeSegmentCreate value = .ok request ∧ value.sourceId = source.id := by
    unfold requestFor at requested
    split at requested
    · exact ⟨_, contractChecked_ok_iff.mp (identityChecked_ok_iff.mp requested), rfl⟩
    · cases requested
  obtain ⟨value, accepted, owner⟩ := parsed
  have again := parseNativeSegmentCreate_parsed accepted
  have trimmedOwner : request.sourceId = trim source.id := by
    obtain ⟨same, _⟩ := parse_ok_iff.mp accepted
    rw [← same, ← owner]
    rfl
  have registered : parseSourceInfo source = .ok { source with id := trim source.id } := by
    unfold parseSourceInfo
    have known : parseSourceId source.id "source" = .ok (trim source.id) :=
      parse_ok_iff.mpr ⟨rfl, validSource⟩
    rw [known]
    rfl
  have named : ∃ name, nativeSegmentIdForRequest request source = .ok name := by
    unfold nativeSegmentIdForRequest
    have stillNative : SourceInfo.isNative { source with id := trim source.id } = true := native
    rw [again, registered]
    simp only [contractChecked_ok, except_ok_bind]
    rw [stillNative, trimmedOwner, if_neg (by simp), if_neg (by simp)]
    exact ⟨_, rfl⟩
  obtain ⟨name, isName⟩ := named
  have identified : identify sha256 source sessionId range =
      .ok
        { request := request
          id := name
          fingerprint := nativeSourceFingerprint sha256 request } := by
    unfold identify
    rw [requested, except_ok_bind, isName]
    rfl
  exact ⟨_, identified, rfl, again⟩

theorem planned_iff_submittable {range : List NativeCanonicalRecord} (closed : Bool)
    (nonempty : range ≠ []) (canonical : ∀ record ∈ range, Canonical record)
    (packed : UnderLimit recordWeight (DEFAULT_SOFT_LIMIT_CHARS : ℕ∞) range)
    (native : source.isNative = true) (validSource : isSourceId (trim source.id) = true)
    (validSession : isIdentifier (trim sessionId) = true) :
    (∃ segment, planned sha256 source sessionId range closed = .ok segment) ↔ Submittable range := by
  rw [← requestFor_ok_iff source sessionId nonempty canonical packed validSource validSession]
  constructor
  · rintro ⟨segment, made⟩
    obtain ⟨identified, found, _⟩ := (planned_ok_iff sha256 source sessionId).mp made
    obtain ⟨request, requested, _⟩ := except_bind_ok found
    exact ⟨request, requested⟩
  · rintro ⟨request, requested⟩
    obtain ⟨identified, found, _⟩ := identify_of_request sha256 source sessionId native validSource requested
    exact ⟨_, (planned_ok_iff sha256 source sessionId).mpr ⟨identified, found, rfl⟩⟩

/-- A planned segment carries a request the service accepts as it is. -/
theorem planned_request_accepted {range : List NativeCanonicalRecord} {closed : Bool}
    {segment : NativePlannedSegment} (native : source.isNative = true)
    (validSource : isSourceId (trim source.id) = true)
    (made : planned sha256 source sessionId range closed = .ok segment) :
    parseNativeSegmentCreate segment.request = .ok segment.request := by
  obtain ⟨identified, found, rfl⟩ := (planned_ok_iff sha256 source sessionId).mp made
  obtain ⟨request, requested, _⟩ := except_bind_ok found
  obtain ⟨again, foundAgain, same, accepted⟩ :=
    identify_of_request sha256 source sessionId native validSource requested
  rw [found] at foundAgain
  cases foundAgain
  rw [same]
  exact accepted

theorem plannedAll_exists_iff (closed : Bool) (chunks : List (List NativeCanonicalRecord)) :
    (∃ segments, plannedAll sha256 source sessionId closed chunks = .ok segments) ↔
      ∀ chunk ∈ chunks, ∃ segment, planned sha256 source sessionId chunk closed = .ok segment := by
  induction chunks with
  | nil => exact ⟨fun _ chunk member => (nomatch member), fun _ => ⟨[], rfl⟩⟩
  | cons chunk rest ih =>
      rw [List.forall_mem_cons, ← ih]
      constructor
      · rintro ⟨segments, made⟩
        obtain ⟨segment, first, others⟩ := except_bind_ok made
        obtain ⟨remaining, second, _⟩ := except_bind_ok others
        exact ⟨⟨segment, first⟩, remaining, second⟩
      · rintro ⟨⟨segment, first⟩, remaining, second⟩
        refine ⟨segment :: remaining, ?_⟩
        rw [plannedAll, first, except_ok_bind, second, except_ok_bind]

theorem plannedAll_made {closed : Bool} {chunks : List (List NativeCanonicalRecord)}
    {segments : List NativePlannedSegment}
    (made : plannedAll sha256 source sessionId closed chunks = .ok segments) :
    ∀ segment ∈ segments, ∃ chunk ∈ chunks,
      planned sha256 source sessionId chunk closed = .ok segment := by
  induction chunks generalizing segments with
  | nil =>
      cases made
      intro segment member
      cases member
  | cons chunk rest ih =>
      obtain ⟨first, isFirst, others⟩ := except_bind_ok made
      obtain ⟨remaining, isRest, same⟩ := except_bind_ok others
      cases same
      intro segment member
      rcases List.mem_cons.mp member with rfl | later
      · exact ⟨chunk, List.mem_cons_self, isFirst⟩
      · obtain ⟨other, inside, planned⟩ := ih isRest segment later
        exact ⟨other, List.mem_cons_of_mem _ inside, planned⟩

/-! ### Whole plans -/

section Plans

variable {records : List NativeCanonicalRecord}

theorem submittedRanges_inside (allowOpenSnapshot : Bool) :
    ∀ range ∈ submittedRanges records allowOpenSnapshot, range ≠ [] ∧
      (∀ record ∈ range, record ∈ records) ∧
        UnderLimit recordWeight (DEFAULT_SOFT_LIMIT_CHARS : ℕ∞) range := by
  intro range member
  have limits := pack_underLimit recordWeight (DEFAULT_SOFT_LIMIT_CHARS : ℕ∞) (completeRecords records)
  have flat := pack_flatten recordWeight (DEFAULT_SOFT_LIMIT_CHARS : ℕ∞) (completeRecords records)
  have complete : ∀ record ∈ completeRecords records, record ∈ records :=
    fun record inside => (List.takeWhile_prefix _).subset inside
  rcases List.mem_append.mp member with closed | snapshot
  · refine ⟨pack_closed_ne_nil _ _ _ range closed, fun record inside => complete record ?_,
      limits.1 range closed⟩
    rw [← flat]
    exact List.mem_append_left _ (List.mem_flatten.mpr ⟨range, closed, inside⟩)
  · split at snapshot
    · rename_i wanted
      rw [List.mem_singleton.mp snapshot]
      refine ⟨wanted.1, fun record inside => complete record ?_, limits.2⟩
      rw [← flat]
      exact List.mem_append_right _ inside
    · cases snapshot

/-- Without a manifest a plan succeeds when each submitted range can be planned. -/
theorem planNativeSegments_exists_iff (allowOpenSnapshot : Bool) (native : source.isNative = true)
    (valid : validateRecords records = .ok ()) :
    (∃ segments, planNativeSegments sha256 source sessionId records none DEFAULT_SOFT_LIMIT_CHARS
        allowOpenSnapshot = .ok segments) ↔
      ∀ range ∈ submittedRanges records allowOpenSnapshot,
        ∃ closed segment, planned sha256 source sessionId range closed = .ok segment := by
  have positive : (0 : Int) < DEFAULT_SOFT_LIMIT_CHARS := by decide
  rw [planNativeSegments_none_eq sha256 source sessionId records DEFAULT_SOFT_LIMIT_CHARS
    allowOpenSnapshot native positive valid, Int.toNat_natCast]
  constructor
  · rintro ⟨segments, made⟩ range member
    obtain ⟨closed, snapshot, _, allClosed, allOpen⟩ :=
      (planTail_ok_iff sha256 source sessionId _ _ _ _).mp made
    rcases List.mem_append.mp member with isClosed | isOpen
    · exact ⟨true, (plannedAll_exists_iff sha256 source sessionId true _).mp ⟨closed, allClosed⟩ range
        isClosed⟩
    · exact ⟨false, (plannedAll_exists_iff sha256 source sessionId false _).mp ⟨snapshot, allOpen⟩ range
        isOpen⟩
  · intro each
    have reclosed : ∀ range ∈ submittedRanges records allowOpenSnapshot, ∀ closed,
        ∃ segment, planned sha256 source sessionId range closed = .ok segment := by
      intro range member closed
      obtain ⟨other, segment, made⟩ := each range member
      have again := planned_reclosed sha256 source sessionId
        ((planned_closed sha256 source sessionId made).symm ▸ made) closed
      exact ⟨_, again⟩
    obtain ⟨closed, allClosed⟩ := (plannedAll_exists_iff sha256 source sessionId true _).mpr
      fun range member => reclosed range (List.mem_append_left _ member) true
    obtain ⟨snapshot, allOpen⟩ := (plannedAll_exists_iff sha256 source sessionId false _).mpr
      fun range member => reclosed range (List.mem_append_right _ member) false
    exact ⟨closed ++ snapshot, (planTail_ok_iff sha256 source sessionId _ _ _ _).mpr
      ⟨closed, snapshot, rfl, allClosed, allOpen⟩⟩

/-- Every request of a plan is one the service accepts as it is. -/
theorem planNativeSegments_requests {softLimitChars : Int} {allowOpenSnapshot : Bool}
    {segments : List NativePlannedSegment} (validSource : isSourceId (trim source.id) = true)
    (made : planNativeSegments sha256 source sessionId records none softLimitChars allowOpenSnapshot =
      .ok segments) :
    ∀ segment ∈ segments, parseNativeSegmentCreate segment.request = .ok segment.request := by
  obtain ⟨native, _, _, tail⟩ := (planNativeSegments_none sha256 source sessionId _ _ _ _).mp made
  obtain ⟨closed, snapshot, rfl, allClosed, allOpen⟩ :=
    (planTail_ok_iff sha256 source sessionId _ _ _ _).mp tail
  intro segment member
  rcases List.mem_append.mp member with isClosed | isOpen
  · obtain ⟨chunk, _, planned⟩ := plannedAll_made sha256 source sessionId allClosed segment isClosed
    exact planned_request_accepted sha256 source sessionId native validSource planned
  · obtain ⟨chunk, _, planned⟩ := plannedAll_made sha256 source sessionId allOpen segment isOpen
    exact planned_request_accepted sha256 source sessionId native validSource planned

variable (numbers : Numbers) (redactUrl : JsString → Option JsString)

/-- A canonical history can be planned exactly when its submitted ranges can be submitted. -/
theorem canonical_plan_iff {history : List (Json numbers.Number)}
    (canonicalized : canonicalizeNativeHistory numbers redactUrl history = .ok records)
    (native : source.isNative = true) (validSource : isSourceId (trim source.id) = true)
    (validSession : isIdentifier (trim sessionId) = true) (allowOpenSnapshot : Bool) :
    (∃ segments, planNativeSegments sha256 source sessionId records none DEFAULT_SOFT_LIMIT_CHARS
        allowOpenSnapshot = .ok segments) ↔
      ∀ range ∈ submittedRanges records allowOpenSnapshot, Submittable range := by
  obtain ⟨canonical, distinct⟩ := canonicalizeNativeHistory_canonical numbers redactUrl canonicalized
  have valid : validateRecords records = .ok () :=
    (validateRecords_ok_iff records).mpr
      ⟨fun record inside => ⟨(canonical record inside).same, (canonical record inside).text⟩, distinct⟩
  rw [planNativeSegments_exists_iff sha256 source sessionId allowOpenSnapshot native valid]
  refine forall₂_congr fun range member => ?_
  obtain ⟨nonempty, inside, packed⟩ := submittedRanges_inside allowOpenSnapshot range member
  have each := fun closed => planned_iff_submittable sha256 source sessionId closed nonempty
    (fun record member => canonical record (inside record member)) packed native validSource validSession
  constructor
  · rintro ⟨closed, made⟩
    exact (each closed).mp made
  · intro submittable
    exact ⟨true, (each true).mpr submittable⟩

end Plans

end Requests

end Reflection.Native.History
