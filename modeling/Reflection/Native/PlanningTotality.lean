/-
When planning a valid history succeeds.

Without a manifest and with the default limit a plan exists exactly when no submitted range has
more messages than a request may carry and no ids that trimming empties or makes equal. Weights
do not see either: records that weigh nothing pile up in one range.
-/

import Reflection.Shared.ToolRecognition
import Reflection.Native.HistoryLimits

namespace Reflection.Native.History

open JsString JsObject GreedyPacking

/-- A plan exists, and the service accepts its requests as they are, exactly when each submitted
range has at most 10000 messages with ids that stay distinct and visible when trimmed. -/
theorem canonical_plan_accepted_iff (numbers : Numbers) (redactUrl : JsString → Option JsString)
    (sha256 : JsString → JsString) (source : SourceInfo) (sessionId : JsString)
    (history : List (Json numbers.Number)) (records : List NativeCanonicalRecord)
    (canonicalized : canonicalizeNativeHistory numbers redactUrl history = .ok records)
    (native : source.isNative = true) (validSource : isSourceId (trim source.id) = true)
    (validSession : isIdentifier (trim sessionId) = true) (allowOpenSnapshot : Bool) :
    (∃ segments, planNativeSegments sha256 source sessionId records none DEFAULT_SOFT_LIMIT_CHARS
        allowOpenSnapshot = .ok segments ∧
      ∀ segment ∈ segments, parseNativeSegmentCreate segment.request = .ok segment.request) ↔
      ∀ range ∈ submittedRanges records allowOpenSnapshot, Submittable range := by
  rw [← canonical_plan_iff sha256 source sessionId numbers redactUrl canonicalized native validSource
    validSession allowOpenSnapshot]
  constructor
  · rintro ⟨segments, made, _⟩
    exact ⟨segments, made⟩
  · rintro ⟨segments, made⟩
    exact ⟨segments, made, planNativeSegments_requests sha256 source sessionId validSource made⟩

/-! ### A history of records that weigh nothing -/

def timeZero : Json digitNumbers.Number :=
  .object [(ofString "created", .number (⟨0, by decide⟩ : Fin 10))]

def idleFields (id : JsString) : Fields digitNumbers.Number :=
  [(ofString "id", .string id), (ofString "type", .string (ofString "idle")),
    (ofString "time", timeZero), (ofString "outcome", .string (ofString "succeeded"))]

def userFields (id text : JsString) : Fields digitNumbers.Number :=
  [(ofString "id", .string id), (ofString "type", .string (ofString "user")),
    (ofString "time", timeZero), (ofString "text", .string text)]

def idleRecord (id : JsString) : NativeCanonicalRecord :=
  { raw := { id := id }
    source :=
      { id := id
        type := .idle
        text := [] }
    complete := true
    weightedChars := 0 }

def userRecord (id text : JsString) : NativeCanonicalRecord :=
  { raw := { id := id }
    source :=
      { id := id
        type := .user
        text := text }
    complete := true
    weightedChars := codePointLength text }

/-- No URL parses. -/
def noUrls : JsString → Option JsString := fun _ => none

theorem canonicalRecord_idle {ids : List JsString} {id : JsString} (fresh : id ∉ ids)
    (nonempty : 1 ≤ id.length) (short : id.length ≤ 500) :
    canonicalRecord digitNumbers noUrls ids (.object (idleFields id)) = .ok (idleRecord id) := by
  have valid : validateNativeHistoryMessage digitNumbers (.object (idleFields id)) =
      .ok
        { id := id
          type := .idle
          raw := idleFields id
          body := .idle } := by
    change (if id.length = 0 ∨ id.length > 500 then _ else _) = _
    rw [if_neg (by omega)]
    rfl
  have absent : ids.contains id = false := by simpa using fresh
  unfold canonicalRecord
  rw [valid, except_ok_bind]
  dsimp only
  rw [absent]
  rfl

theorem canonicalRecord_user {ids : List JsString} {id text : JsString} (fresh : id ∉ ids)
    (nonempty : 1 ≤ id.length) (short : id.length ≤ 500)
    (fits : codePointLength text ≤ maxMessageTextChars) :
    canonicalRecord digitNumbers noUrls ids (.object (userFields id text)) =
      .ok (userRecord id text) := by
  have valid : validateNativeHistoryMessage digitNumbers (.object (userFields id text)) =
      .ok
        { id := id
          type := .user
          raw := userFields id text
          body := .text text } := by
    change (if id.length = 0 ∨ id.length > 500 then _ else _) = _
    rw [if_neg (by omega)]
    rfl
  have absent : ids.contains id = false := by simpa using fresh
  have rendered : sourceFor digitNumbers noUrls
      { id := id
        type := .user
        raw := userFields id text
        body := .text text } =
      .ok
        { id := id
          type := .user
          text := text ++ [] } := rfl
  unfold canonicalRecord
  rw [valid, except_ok_bind]
  dsimp only
  rw [absent, rendered, List.append_nil]
  simp only [Bool.false_eq_true, if_false, except_ok_bind]
  rw [if_neg (Nat.not_lt.mpr fits)]
  have weighed : weightedCharsFor digitNumbers
      { id := id
        type := .user
        raw := userFields id text
        body := .text text } text = .ok (codePointLength text + 0) := rfl
  rw [weighed, add_zero]
  rfl

/-- Records that weigh nothing behind each other, and a user message at the end. -/
def idleHistory (ids : List JsString) (last text : JsString) : List (Json digitNumbers.Number) :=
  ids.map (fun id => .object (idleFields id)) ++ [.object (userFields last text)]

def idleRecords (ids : List JsString) (last text : JsString) : List NativeCanonicalRecord :=
  ids.map idleRecord ++ [userRecord last text]

theorem canonicalizeFrom_idleHistory {ids seen : List JsString} {last text : JsString}
    (distinct : (ids ++ [last]).Nodup) (apart : ∀ id ∈ ids ++ [last], id ∉ seen)
    (nonempty : ∀ id ∈ ids ++ [last], 1 ≤ id.length) (short : ∀ id ∈ ids ++ [last], id.length ≤ 500)
    (fits : codePointLength text ≤ maxMessageTextChars) :
    canonicalizeFrom digitNumbers noUrls seen (idleHistory ids last text) =
      .ok (idleRecords ids last text) := by
  induction ids generalizing seen with
  | nil =>
      have fresh := apart last (List.mem_singleton.mpr rfl)
      have user := canonicalRecord_user fresh (nonempty last (List.mem_singleton.mpr rfl))
        (short last (List.mem_singleton.mpr rfl)) fits
      rw [idleHistory, List.map_nil, List.nil_append, canonicalizeFrom, user]
      rfl
  | cons id rest ih =>
      have idle := canonicalRecord_idle (apart id List.mem_cons_self) (nonempty id List.mem_cons_self)
        (short id List.mem_cons_self)
      obtain ⟨absent, others⟩ := List.nodup_cons.mp distinct
      have later := @ih (id :: seen) others
        (fun other member repeated => by
          rcases List.mem_cons.mp repeated with rfl | old
          · exact absent member
          · exact apart other (List.mem_cons_of_mem _ member) old)
        (fun other member => nonempty other (List.mem_cons_of_mem _ member))
        (fun other member => short other (List.mem_cons_of_mem _ member))
      rw [idleHistory] at later
      rw [idleHistory, List.map_cons, List.cons_append, canonicalizeFrom, idle, except_ok_bind, idleRecord,
        later]
      rfl

theorem weigh_idles (ids : List JsString) : weigh recordWeight (ids.map idleRecord) = 0 := by
  induction ids with
  | nil => rfl
  | cons id rest ih =>
      change (0 : ℕ∞) + weigh recordWeight (rest.map idleRecord) = 0
      rw [ih, add_zero]

/-- Records that weigh nothing share the range of the message that brings it to the limit. -/
theorem submittedRanges_idles {ids : List JsString} {last text : JsString}
    (full : codePointLength text = DEFAULT_SOFT_LIMIT_CHARS) (allowOpenSnapshot : Bool) :
    idleRecords ids last text ∈ submittedRanges (idleRecords ids last text) allowOpenSnapshot := by
  have complete : completeRecords (idleRecords ids last text) = idleRecords ids last text := by
    refine List.takeWhile_eq_self_iff.mpr fun record inside => ?_
    rcases List.mem_append.mp inside with idle | user
    · obtain ⟨id, _, rfl⟩ := List.mem_map.mp idle
      rfl
    · rw [List.mem_singleton.mp user]
      rfl
  have light : (pack recordWeight (DEFAULT_SOFT_LIMIT_CHARS : ℕ∞) (ids.map idleRecord)).1 = [] := by
    refine pack_closed_nil recordWeight _ ?_
    rw [weigh_idles]
    exact Nat.cast_pos.mpr (by decide)
  have isOpen : pack recordWeight (DEFAULT_SOFT_LIMIT_CHARS : ℕ∞) (ids.map idleRecord) =
      ([], ids.map idleRecord) := by
    have flat := pack_flatten recordWeight (DEFAULT_SOFT_LIMIT_CHARS : ℕ∞) (ids.map idleRecord)
    rw [light, List.flatten_nil, List.nil_append] at flat
    exact Prod.ext light flat
  have total : weigh recordWeight (ids.map idleRecord ++ [userRecord last text]) =
      (DEFAULT_SOFT_LIMIT_CHARS : ℕ∞) := by
    rw [weigh_snoc, weigh_idles, zero_add]
    exact congrArg Nat.cast full
  have packed : (pack recordWeight (DEFAULT_SOFT_LIMIT_CHARS : ℕ∞) (idleRecords ids last text)).1 =
      [idleRecords ids last text] := by
    rw [idleRecords, pack_append, isOpen]
    dsimp only
    rw [packFrom, total, if_neg (fun both => lt_irrefl _ both.2), if_pos le_rfl, packFrom_nil]
    rfl
  refine List.mem_append_left _ ?_
  rw [complete, packed]
  exact List.mem_singleton.mpr rfl

/-- Ids of one unit each. -/
def unitIds (count : Nat) : List JsString :=
  (List.range count).map fun index => [UInt16.ofNat (0x4e00 + index)]

theorem unitIds_nodup {count : Nat} (few : count ≤ 20000) : (unitIds count).Nodup := by
  refine List.Nodup.map_on ?_ List.nodup_range
  intro one inside other otherInside same
  have below := List.mem_range.mp inside
  have otherBelow := List.mem_range.mp otherInside
  have units := congrArg UInt16.toNat (List.head_eq_of_cons_eq same)
  rw [UInt16.toNat_ofNat', UInt16.toNat_ofNat'] at units
  omega

def crowdedHistory : List (Json digitNumbers.Number) :=
  idleHistory (unitIds 10001) [UInt16.ofNat (0x4e00 + 10001)] (List.replicate 20000 0x61)

def crowdedRecords : List NativeCanonicalRecord :=
  idleRecords (unitIds 10001) [UInt16.ofNat (0x4e00 + 10001)] (List.replicate 20000 0x61)

private theorem crowded_text : codePointLength (List.replicate 20000 0x61) = 20000 :=
  codePointLength_replicate 20000 (by decide)

private theorem crowded_canonical :
    canonicalizeNativeHistory digitNumbers noUrls crowdedHistory = .ok crowdedRecords := by
  have ids : unitIds 10001 ++ [[UInt16.ofNat (0x4e00 + 10001)]] = unitIds 10002 := by
    rw [unitIds, unitIds, List.range_succ (n := 10001), List.map_append]
    rfl
  have unit : ∀ id ∈ unitIds 10002, id.length = 1 := by
    intro id inside
    obtain ⟨index, _, rfl⟩ := List.mem_map.mp inside
    rfl
  refine canonicalizeFrom_idleHistory ?_ (fun id _ => List.not_mem_nil) ?_ ?_ ?_
  · rw [ids]
    exact unitIds_nodup (by decide)
  · intro id inside
    exact (unit id (ids ▸ inside)).ge
  · intro id inside
    rw [unit id (ids ▸ inside)]
    decide
  · rw [crowded_text]
    decide

/-- 10001 records that weigh nothing and a message of 20000 characters make a request of 10002
messages, which is one that planning a valid history cannot submit. -/
theorem canonical_plan_rejected :
    canonicalizeNativeHistory digitNumbers noUrls crowdedHistory = .ok crowdedRecords ∧
      sampleSource.isNative = true ∧ isSourceId (trim sampleSource.id) = true ∧
      isIdentifier (trim (ofString "session")) = true ∧
      ∀ allowOpenSnapshot, ¬ ∃ segments, planNativeSegments id sampleSource (ofString "session")
        crowdedRecords none DEFAULT_SOFT_LIMIT_CHARS allowOpenSnapshot = .ok segments := by
  refine ⟨crowded_canonical, by decide, by decide, by decide, fun allowOpenSnapshot planned => ?_⟩
  have submittable := (canonical_plan_iff id sampleSource (ofString "session") digitNumbers noUrls
    crowded_canonical (by decide) (by decide) (by decide) allowOpenSnapshot).mp planned _
    (submittedRanges_idles crowded_text allowOpenSnapshot)
  have count := submittable.count
  rw [idleRecords, List.length_append, List.length_map, unitIds, List.length_map, List.length_range] at count
  exact absurd count (by decide)

theorem canonical_plan_accepted_iff_sample :
    (∃ segments, planNativeSegments id sampleSource (ofString "session")
        (idleRecords [ofString "a", ofString "b"] (ofString "c") (ofString "text")) none
        DEFAULT_SOFT_LIMIT_CHARS true = .ok segments ∧
      ∀ segment ∈ segments, parseNativeSegmentCreate segment.request = .ok segment.request) ↔
      ∀ range ∈ submittedRanges
        (idleRecords [ofString "a", ofString "b"] (ofString "c") (ofString "text")) true,
        Submittable range :=
  canonical_plan_accepted_iff digitNumbers noUrls id sampleSource (ofString "session")
    (idleHistory [ofString "a", ofString "b"] (ofString "c") (ofString "text")) _
    (canonicalizeFrom_idleHistory (by decide) (fun id _ => List.not_mem_nil) (by decide) (by decide)
      (by decide))
    (by decide) (by decide) (by decide) true

end Reflection.Native.History
