/-
Incremental planning of a growing native history.

A writer that remembers how far it has submitted plans only the records after its
cursor; another plans the whole history. Without a manifest both see the same
greedy packing, so restarting after any number of closed segments gives the rest
of the full plan, and closed segments never change while the history grows.
-/

import Reflection.Native.Layout

namespace Reflection.Native

open GreedyPacking JsString

section Incremental

variable (sha256 : JsString → JsString) (source : SourceInfo) (sessionId : JsString)

theorem validateRecords_drop {records : List NativeCanonicalRecord}
    (valid : validateRecords records = .ok ()) (count : Nat) :
    validateRecords (records.drop count) = .ok () := by
  obtain ⟨matching, distinct⟩ := (validateRecords_ok_iff records).mp valid
  refine (validateRecords_ok_iff _).mpr ⟨fun record member => ?_, ?_⟩
  · exact matching record (List.mem_of_mem_drop member)
  · rw [recordIds, List.map_drop]
    exact distinct.sublist (List.drop_sublist count _)

theorem completeRecords_of_complete {records : List NativeCanonicalRecord}
    (complete : ∀ record ∈ records, record.complete = true) :
    completeRecords records = records :=
  List.takeWhile_eq_self_iff.mpr complete

/-- More records keep the complete records before the barrier. -/
theorem completeRecords_grows (records more : List NativeCanonicalRecord) :
    completeRecords records <+: completeRecords (records ++ more) := by
  induction records with
  | nil => exact List.nil_prefix
  | cons record rest ih =>
      unfold completeRecords at ih ⊢
      rw [List.cons_append, List.takeWhile_cons, List.takeWhile_cons]
      split
      · exact List.cons_prefix_cons.mpr ⟨rfl, ih⟩
      · exact List.nil_prefix

theorem completeRecords_kept {records later : List NativeCanonicalRecord}
    (kept : completeRecords records <+: later) :
    completeRecords records <+: completeRecords later := by
  obtain ⟨more, rfl⟩ := kept
  have stable := completeRecords_grows (completeRecords records) more
  have complete : ∀ record ∈ completeRecords records, record.complete = true :=
    fun record member => List.mem_takeWhile_imp member
  rwa [completeRecords_of_complete complete] at stable

private theorem plannedAll_closed {closed : Bool} {chunks : List (List NativeCanonicalRecord)}
    {segments : List NativePlannedSegment}
    (made : plannedAll sha256 source sessionId closed chunks = .ok segments) :
    ∀ segment ∈ segments, segment.closed = closed := by
  induction chunks generalizing segments with
  | nil => cases made; intro segment member; cases member
  | cons chunk rest ih =>
      obtain ⟨first, firstMade, others⟩ := except_bind_ok made
      obtain ⟨remaining, restMade, same⟩ := except_bind_ok others
      cases same
      intro segment member
      rcases List.mem_cons.mp member with same | later
      · rw [same]
        exact planned_closed sha256 source sessionId firstMade
      · exact ih restMade segment later

/-- The closed segments of a planned tail are the closed chunks of the packing. -/
theorem planTail_filter_closed {softLimit : ℕ∞} {allowOpenSnapshot : Bool}
    {remaining : List NativeCanonicalRecord} {segments : List NativePlannedSegment}
    (made : planTail sha256 source sessionId softLimit allowOpenSnapshot remaining [] =
      .ok segments) :
    plannedAll sha256 source sessionId true (pack recordWeight softLimit remaining).1 =
      .ok (segments.filter (·.closed)) := by
  obtain ⟨closed, snapshot, rfl, closedMade, snapshotMade⟩ :=
    (planTail_ok_iff sha256 source sessionId softLimit allowOpenSnapshot remaining segments).mp made
  have all := plannedAll_closed sha256 source sessionId closedMade
  have none := plannedAll_closed sha256 source sessionId snapshotMade
  rw [closedMade, List.filter_append, List.filter_eq_self.mpr all,
    List.filter_eq_nil_iff.mpr (fun segment member => by rw [none segment member]; simp),
    List.append_nil]

/-- Identified prefixes are prefixes of what is identified. -/
private theorem plannedAll_prefix {closed : Bool}
    {chunks later : List (List NativeCanonicalRecord)}
    {segments laterSegments : List NativePlannedSegment} (ahead : chunks <+: later)
    (made : plannedAll sha256 source sessionId closed chunks = .ok segments)
    (laterMade : plannedAll sha256 source sessionId closed later = .ok laterSegments) :
    segments <+: laterSegments := by
  obtain ⟨more, rfl⟩ := ahead
  rw [plannedAll_append, made, except_ok_bind] at laterMade
  obtain ⟨others, _, same⟩ := except_bind_ok laterMade
  cases same
  exact List.prefix_append _ _

/-- Closed segments are final as long as the complete records before the barrier stay. -/
theorem closed_segments_prefix {softLimitChars : Int} {allowOpen allowOpenLater : Bool}
    {records later : List NativeCanonicalRecord}
    {segments laterSegments : List NativePlannedSegment}
    (kept : completeRecords records <+: completeRecords later)
    (made : planNativeSegments sha256 source sessionId records none softLimitChars allowOpen =
      .ok segments)
    (laterMade : planNativeSegments sha256 source sessionId later none softLimitChars
      allowOpenLater = .ok laterSegments) :
    segments.filter (·.closed) <+: laterSegments.filter (·.closed) := by
  obtain ⟨_, _, _, tail⟩ := (planNativeSegments_none sha256 source sessionId records
    softLimitChars allowOpen segments).mp made
  obtain ⟨_, _, _, laterTail⟩ := (planNativeSegments_none sha256 source sessionId later
    softLimitChars allowOpenLater laterSegments).mp laterMade
  refine plannedAll_prefix sha256 source sessionId ?_
    (planTail_filter_closed sha256 source sessionId tail)
    (planTail_filter_closed sha256 source sessionId laterTail)
  obtain ⟨more, same⟩ := kept
  rw [← same]
  exact pack_closed_prefix recordWeight softLimitChars.toNat (completeRecords records) more

private theorem plannedAll_split {closed : Bool} {chunks : List (List NativeCanonicalRecord)}
    {segments : List NativePlannedSegment}
    (made : plannedAll sha256 source sessionId closed chunks = .ok segments) (count : Nat) :
    plannedAll sha256 source sessionId closed (chunks.take count) = .ok (segments.take count) ∧
      plannedAll sha256 source sessionId closed (chunks.drop count) =
        .ok (segments.drop count) := by
  induction count generalizing chunks segments with
  | zero => exact ⟨rfl, made⟩
  | succ count ih =>
      cases chunks with
      | nil => cases made; exact ⟨rfl, rfl⟩
      | cons chunk rest =>
          obtain ⟨first, firstMade, others⟩ := except_bind_ok made
          obtain ⟨remaining, restMade, same⟩ := except_bind_ok others
          cases same
          obtain ⟨before, after⟩ := ih restMade
          refine ⟨?_, after⟩
          rw [List.take_succ_cons, plannedAll, firstMade, before]
          rfl

private theorem plannedAll_ids {closed : Bool} {chunks : List (List NativeCanonicalRecord)}
    {segments : List NativePlannedSegment}
    (made : plannedAll sha256 source sessionId closed chunks = .ok segments) :
    segments.flatMap (·.sourceMessageIds) = recordIds chunks.flatten ∧
      segments.length = chunks.length := by
  -- A limit of zero makes every closed range a range of a layout.
  have laid := plannedAll_laid sha256 source sessionId 0 closed 0 chunks segments
    (fun _ _ _ _ _ => .inl zero_le) made
  exact ⟨laid.flatMap_sourceMessageIds, laid.length_eq⟩

/-- Restarting after the first closed segments plans exactly the remaining ones. -/
theorem plan_restart {softLimitChars : Int} {allowOpen : Bool}
    {records : List NativeCanonicalRecord} {segments : List NativePlannedSegment} {count : Nat}
    (complete : ∀ record ∈ records, record.complete = true)
    (made : planNativeSegments sha256 source sessionId records none softLimitChars allowOpen =
      .ok segments)
    (bound : count ≤ segments.length)
    (allClosed : ∀ segment ∈ segments.take count, segment.closed = true) :
    (segments.take count).flatMap (·.sourceMessageIds) =
        recordIds (records.take
          ((segments.take count).flatMap (·.sourceMessageIds)).length) ∧
      planNativeSegments sha256 source sessionId
          (records.drop ((segments.take count).flatMap (·.sourceMessageIds)).length) none
          softLimitChars allowOpen =
        .ok (segments.drop count) := by
  obtain ⟨native, positive, valid, tail⟩ := (planNativeSegments_none sha256 source sessionId
    records softLimitChars allowOpen segments).mp made
  rw [completeRecords_of_complete complete] at tail
  obtain ⟨closed, snapshot, rfl, closedMade, snapshotMade⟩ :=
    (planTail_ok_iff sha256 source sessionId softLimitChars.toNat allowOpen records segments).mp
      tail
  -- The open snapshot is not closed, so the first `count` segments are closed chunks.
  have within : count ≤ closed.length := by
    by_contra beyond
    have open_ := plannedAll_closed sha256 source sessionId snapshotMade
    cases snapshot with
    | nil =>
        rw [List.append_nil] at bound
        exact beyond bound
    | cons first others =>
        have member : first ∈ (closed ++ first :: others).take count := by
          refine List.mem_take_iff_getElem.mpr ⟨closed.length, ?_, ?_⟩
          · rw [List.length_append, List.length_cons]
            omega
          · simp
        have flag := open_ first List.mem_cons_self
        rw [allClosed first member] at flag
        cases flag
  rw [List.take_append_of_le_length within, List.drop_append_of_le_length within]
  obtain ⟨takenMade, droppedMade⟩ := plannedAll_split sha256 source sessionId closedMade count
  obtain ⟨ids, _⟩ := plannedAll_ids sha256 source sessionId takenMade
  obtain ⟨_, sameLength⟩ := plannedAll_ids sha256 source sessionId closedMade
  rw [sameLength] at within
  have split := pack_drop recordWeight softLimitChars.toNat records count within
  have position : ((closed.take count).flatMap (·.sourceMessageIds)).length =
      ((pack recordWeight softLimitChars.toNat records).1.take count).flatten.length := by
    rw [ids, recordIds, List.length_map]
  rw [position]
  constructor
  · rw [ids]
    congr 1
    have covered := pack_flatten recordWeight (softLimitChars.toNat : ℕ∞) records
    rw [← List.take_append_drop count
      (pack recordWeight (softLimitChars.toNat : ℕ∞) records).1, List.flatten_append,
      List.append_assoc] at covered
    have start := congrArg (List.take
      ((pack recordWeight (softLimitChars.toNat : ℕ∞) records).1.take count).flatten.length) covered
    rw [List.take_left] at start
    exact start
  · refine (planNativeSegments_none sha256 source sessionId _ softLimitChars allowOpen _).mpr
      ⟨native, positive, validateRecords_drop valid _, ?_⟩
    rw [completeRecords_of_complete
      (fun record member => complete record (List.mem_of_mem_drop member))]
    refine (planTail_ok_iff sha256 source sessionId _ allowOpen _ _).mpr
      ⟨closed.drop count, snapshot, rfl, ?_, ?_⟩
    · rw [split]
      exact droppedMade
    · rw [split]
      exact snapshotMade

/-- Incremental planning equals full planning. Complete records planned from a cursor
behind closed segments give the rest of the full plan, and closed segments stay a
prefix when the history grows or the record at the barrier becomes complete. -/
theorem incremental_planning (softLimitChars : Int) :
    (∀ (records : List NativeCanonicalRecord) (allowOpen : Bool)
        (segments : List NativePlannedSegment) (count : Nat),
      (∀ record ∈ records, record.complete = true) →
      planNativeSegments sha256 source sessionId records none softLimitChars allowOpen =
        .ok segments →
      count ≤ segments.length →
      (∀ segment ∈ segments.take count, segment.closed = true) →
      (segments.take count).flatMap (·.sourceMessageIds) =
          recordIds (records.take
            ((segments.take count).flatMap (·.sourceMessageIds)).length) ∧
        planNativeSegments sha256 source sessionId
            (records.drop ((segments.take count).flatMap (·.sourceMessageIds)).length) none
            softLimitChars allowOpen =
          .ok (segments.drop count)) ∧
    (∀ (records more : List NativeCanonicalRecord) (allowOpen allowOpenLater : Bool)
        (segments laterSegments : List NativePlannedSegment),
      planNativeSegments sha256 source sessionId records none softLimitChars allowOpen =
        .ok segments →
      planNativeSegments sha256 source sessionId (records ++ more) none softLimitChars
        allowOpenLater = .ok laterSegments →
      segments.filter (·.closed) <+: laterSegments.filter (·.closed)) ∧
    (∀ (records later : List NativeCanonicalRecord) (allowOpen allowOpenLater : Bool)
        (segments laterSegments : List NativePlannedSegment),
      completeRecords records <+: later →
      planNativeSegments sha256 source sessionId records none softLimitChars allowOpen =
        .ok segments →
      planNativeSegments sha256 source sessionId later none softLimitChars allowOpenLater =
        .ok laterSegments →
      segments.filter (·.closed) <+: laterSegments.filter (·.closed)) := by
  refine ⟨?_, ?_, ?_⟩
  · intro records allowOpen segments count complete made bound allClosed
    exact plan_restart sha256 source sessionId complete made bound allClosed
  · intro records more allowOpen allowOpenLater segments laterSegments made laterMade
    exact closed_segments_prefix sha256 source sessionId (completeRecords_grows records more) made
      laterMade
  · intro records later allowOpen allowOpenLater segments laterSegments kept made laterMade
    exact closed_segments_prefix sha256 source sessionId (completeRecords_kept kept) made
      laterMade

end Incremental

/-- Weights 4, 7 and 12 under a limit of 10: `a` closes because `b` would overflow it, and
the plans of `b, c` and of a history whose barrier `c` completes continue from there. -/
theorem incremental_planning_sample :
    planNativeSegments id sampleSource (ofString "session")
        ([sampleRecord "a" 4, sampleRecord "b" 7, sampleRecord "c" 12].drop 1) none 10 true =
      .ok ((sampleSegments [sampleRecord "a" 4, sampleRecord "b" 7, sampleRecord "c" 12] none 10
        true).drop 1) ∧
    (sampleSegments [sampleRecord "a" 4, sampleRecord "b" 7] none 10 false).filter (·.closed) <+:
      (sampleSegments [sampleRecord "a" 4, sampleRecord "b" 7, sampleRecord "c" 12] none 10
        true).filter (·.closed) ∧
    (sampleSegments [sampleRecord "a" 4, sampleRecord "b" 7,
        { sampleRecord "c" 0 with complete := false }] none 10 true).filter (·.closed) <+:
      (sampleSegments [sampleRecord "a" 4, sampleRecord "b" 7, sampleRecord "c" 12] none 10
        true).filter (·.closed) :=
  ⟨((incremental_planning id sampleSource (ofString "session") 10).1
      [sampleRecord "a" 4, sampleRecord "b" 7, sampleRecord "c" 12] true
      (sampleSegments [sampleRecord "a" 4, sampleRecord "b" 7, sampleRecord "c" 12] none 10 true) 1
      (by decide) rfl (by decide) (by decide)).2,
    (incremental_planning id sampleSource (ofString "session") 10).2.1
      [sampleRecord "a" 4, sampleRecord "b" 7] [sampleRecord "c" 12] false true
      (sampleSegments [sampleRecord "a" 4, sampleRecord "b" 7] none 10 false)
      (sampleSegments [sampleRecord "a" 4, sampleRecord "b" 7, sampleRecord "c" 12] none 10 true)
      rfl rfl,
    (incremental_planning id sampleSource (ofString "session") 10).2.2
      [sampleRecord "a" 4, sampleRecord "b" 7, { sampleRecord "c" 0 with complete := false }]
      [sampleRecord "a" 4, sampleRecord "b" 7, sampleRecord "c" 12] true true
      (sampleSegments [sampleRecord "a" 4, sampleRecord "b" 7,
        { sampleRecord "c" 0 with complete := false }] none 10 true)
      (sampleSegments [sampleRecord "a" 4, sampleRecord "b" 7, sampleRecord "c" 12] none 10 true)
      ⟨[sampleRecord "c" 12], rfl⟩ rfl rfl⟩

end Reflection.Native
