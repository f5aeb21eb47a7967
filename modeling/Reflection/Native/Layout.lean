/-
How a native plan lays out the history it was made for.

The packing loops of the planner are the greedy packing library run on records,
with every closed chunk identified in order. A layout relates the segments of a
plan to the consecutive record ranges they were planned from; the results say
that a plan lays out exactly the complete records before the barrier.
-/

import Reflection.Foundation.Results
import Reflection.Foundation.GreedyPacking
import Reflection.Native.Planning

namespace Reflection.Native

open GreedyPacking

/-- The weight the packing loops add up. -/
abbrev recordWeight (record : NativeCanonicalRecord) : ℕ∞ := record.weightedChars

theorem totalWeight_eq (records : List NativeCanonicalRecord) :
    totalWeight records = weigh recordWeight records := rfl

section Planned

variable (sha256 : JsString → JsString) (source : SourceInfo) (sessionId : JsString)

/-- Identify closed chunks in order. -/
def plannedAll (closed : Bool) :
    List (List NativeCanonicalRecord) → Except PlanError (List NativePlannedSegment)
  | [] => .ok []
  | chunk :: rest => do
      let segment ← planned sha256 source sessionId chunk closed
      let segments ← plannedAll closed rest
      .ok (segment :: segments)

/-- The packing loop is a greedy packing whose closed chunks are identified in order. -/
theorem packRecords_eq (softLimit : ℕ∞) (records chunk : List NativeCanonicalRecord)
    (result : List NativePlannedSegment) :
    packRecords sha256 source sessionId softLimit records chunk (weigh recordWeight chunk) result =
      (do
        let segments ← plannedAll sha256 source sessionId true
          (packFrom recordWeight softLimit chunk records).1
        .ok (result ++ segments, (packFrom recordWeight softLimit chunk records).2)) := by
  induction records generalizing chunk result with
  | nil => simp only [packRecords, packFrom_nil, plannedAll, except_ok_bind, List.append_nil]
  | cons candidate rest ih =>
      have fromEmpty := fun result => ih [] result
      rw [weigh_nil] at fromEmpty
      have fromOne := fun result => ih [candidate] result
      rw [show weigh recordWeight [candidate] = candidate.weightedChars by
        simp only [weigh, List.map_cons, List.map_nil, List.sum_singleton]] at fromOne
      have fromMore := fun result => ih (chunk ++ [candidate]) result
      rw [weigh_snoc] at fromMore
      unfold packRecords packFrom
      rw [weigh_snoc]
      by_cases overflow :
          chunk ≠ [] ∧ softLimit < weigh recordWeight chunk + recordWeight candidate
      · rw [if_pos overflow, if_pos overflow]
        cases first : planned sha256 source sessionId chunk true with
        | error error =>
            simp only [except_error_bind, close, plannedAll, first]
        | ok segment =>
            simp only [except_ok_bind, except_pure, zero_add, List.nil_append, close, plannedAll,
              first]
            by_cases full : softLimit ≤ candidate.weightedChars
            · rw [if_pos full, if_pos full]
              cases second : planned sha256 source sessionId [candidate] true with
              | error error => simp only [except_error_bind, plannedAll, second]
              | ok next =>
                  simp only [except_ok_bind, fromEmpty, plannedAll, second, List.append_assoc,
                    List.cons_append, List.nil_append]
                  cases plannedAll sha256 source sessionId true
                    (packFrom recordWeight softLimit [] rest).1 <;> rfl
            · rw [if_neg full, if_neg full]
              simp only [fromOne, List.append_assoc, List.cons_append, List.nil_append]
              cases plannedAll sha256 source sessionId true
                (packFrom recordWeight softLimit [candidate] rest).1 <;> rfl
      · rw [if_neg overflow, if_neg overflow]
        simp only [except_ok_bind, except_pure]
        by_cases full : softLimit ≤ weigh recordWeight chunk + recordWeight candidate
        · rw [if_pos full, if_pos full]
          cases first : planned sha256 source sessionId (chunk ++ [candidate]) true with
          | error error => simp only [except_error_bind, close, plannedAll, first]
          | ok segment =>
              simp only [except_ok_bind, fromEmpty, close, plannedAll, first, List.append_assoc,
                List.cons_append, List.nil_append]
              cases plannedAll sha256 source sessionId true
                (packFrom recordWeight softLimit [] rest).1 <;> rfl
        · rw [if_neg full, if_neg full, fromMore]

/-- What a planned segment says about the records it was planned from. -/
theorem planned_ok_iff {records : List NativeCanonicalRecord} {closed : Bool}
    {segment : NativePlannedSegment} :
    planned sha256 source sessionId records closed = .ok segment ↔
      ∃ identified, identify sha256 source sessionId records = .ok identified ∧
        segment =
          { request := identified.request
            id := identified.id
            fingerprint := identified.fingerprint
            closed := closed
            sourceMessageIds := recordIds records
            weightedChars := totalWeight records } := by
  unfold planned
  constructor
  · intro succeeded
    obtain ⟨identified, found, same⟩ := except_bind_ok succeeded
    exact ⟨identified, found, (Except.ok.inj same).symm⟩
  · rintro ⟨identified, found, rfl⟩
    rw [found]
    rfl

theorem planned_closed {records : List NativeCanonicalRecord} {closed : Bool}
    {segment : NativePlannedSegment}
    (made : planned sha256 source sessionId records closed = .ok segment) :
    segment.closed = closed := by
  obtain ⟨_, _, rfl⟩ := (planned_ok_iff sha256 source sessionId).mp made
  rfl

theorem planned_sourceMessageIds {records : List NativeCanonicalRecord} {closed : Bool}
    {segment : NativePlannedSegment}
    (made : planned sha256 source sessionId records closed = .ok segment) :
    segment.sourceMessageIds = recordIds records := by
  obtain ⟨_, _, rfl⟩ := (planned_ok_iff sha256 source sessionId).mp made
  rfl

/-- Only the flag depends on whether the range is closed. -/
theorem planned_reclosed {records : List NativeCanonicalRecord} {closed : Bool}
    {segment : NativePlannedSegment}
    (made : planned sha256 source sessionId records closed = .ok segment) (again : Bool) :
    planned sha256 source sessionId records again = .ok { segment with closed := again } := by
  obtain ⟨identified, found, rfl⟩ := (planned_ok_iff sha256 source sessionId).mp made
  exact (planned_ok_iff sha256 source sessionId).mpr ⟨identified, found, rfl⟩

/-- The request a range is identified by. -/
theorem identify_request {records : List NativeCanonicalRecord} {identified : Identified}
    (made : identify sha256 source sessionId records = .ok identified) :
    ∃ first last, records.head? = some first ∧ records.getLast? = some last ∧
      identified.request.startSourceMessageId = JsString.trim first.source.id ∧
      identified.request.endSourceMessageId = JsString.trim last.source.id ∧
      textChars records ≤ maxSegmentTextChars := by
  obtain ⟨request, requested, named⟩ := except_bind_ok made
  obtain ⟨name, _, same⟩ := except_bind_ok named
  unfold requestFor at requested
  cases first : records.head? with
  | none => rw [first] at requested; cases requested
  | some head =>
      cases last : records.getLast? with
      | none => rw [first, last] at requested; cases requested
      | some final =>
          rw [first, last] at requested
          obtain ⟨valueEq, accepted⟩ := parse_ok_iff.mp
            (contractChecked_ok_iff.mp (identityChecked_ok_iff.mp requested))
          subst valueEq
          cases same
          refine ⟨head, final, rfl, rfl, rfl, rfl, ?_⟩
          simp only [nativeSegmentAccepted, Bool.and_eq_true, decide_eq_true_eq] at accepted
          have total := accepted.2
          simpa [normalizeNativeSegmentCreate, textChars, Function.comp_def] using total

/-- No range is planned from nothing. -/
theorem planned_ne_nil {records : List NativeCanonicalRecord} {closed : Bool}
    {segment : NativePlannedSegment}
    (made : planned sha256 source sessionId records closed = .ok segment) : records ≠ [] := by
  obtain ⟨_, found, _⟩ := (planned_ok_iff sha256 source sessionId).mp made
  obtain ⟨first, _, headed, _⟩ := identify_request sha256 source sessionId found
  rintro rfl
  cases headed

/-- A range that could be planned passes the size check of anchored ranges. -/
theorem assertSegmentSize_planned {records : List NativeCanonicalRecord} {closed : Bool}
    {segment : NativePlannedSegment}
    (made : planned sha256 source sessionId records closed = .ok segment) :
    assertSegmentSize records = .ok () := by
  obtain ⟨_, found, _⟩ := (planned_ok_iff sha256 source sessionId).mp made
  obtain ⟨_, _, _, _, _, _, bounded⟩ := identify_request sha256 source sessionId found
  unfold assertSegmentSize
  rw [if_neg (Nat.not_lt.mpr bounded)]

theorem plannedAll_append (closed : Bool) (first second : List (List NativeCanonicalRecord)) :
    plannedAll sha256 source sessionId closed (first ++ second) =
      (do
        let before ← plannedAll sha256 source sessionId closed first
        let after ← plannedAll sha256 source sessionId closed second
        .ok (before ++ after)) := by
  induction first with
  | nil =>
      simp only [List.nil_append, plannedAll, except_ok_bind]
      cases plannedAll sha256 source sessionId closed second <;> rfl
  | cons chunk rest ih =>
      rw [List.cons_append, plannedAll, plannedAll, ih]
      cases planned sha256 source sessionId chunk closed with
      | error error => rfl
      | ok segment =>
          cases plannedAll sha256 source sessionId closed rest with
          | error error => rfl
          | ok segments =>
              cases plannedAll sha256 source sessionId closed second <;> rfl

/-! ### Layouts -/

/-- `Laid softLimit chunks segments after` says that `segments` were planned from the
consecutive ranges `chunks`, that `after` records follow them, and that a range is
closed only when it reached the limit or is not the last of the history. -/
inductive Laid (softLimit : ℕ∞) :
    List (List NativeCanonicalRecord) → List NativePlannedSegment → Nat → Prop
  | done (after : Nat) : Laid softLimit [] [] after
  | segment {chunk : List NativeCanonicalRecord} {segment : NativePlannedSegment}
      {chunks : List (List NativeCanonicalRecord)} {segments : List NativePlannedSegment}
      {after : Nat}
      (made : planned sha256 source sessionId chunk segment.closed = .ok segment)
      (cause : segment.closed = true →
        softLimit ≤ totalWeight chunk ∨ 0 < chunks.flatten.length + after)
      (rest : Laid softLimit chunks segments after) :
      Laid softLimit (chunk :: chunks) (segment :: segments) after

namespace Laid

variable {sha256 source sessionId}
variable {softLimit : ℕ∞} {chunks later : List (List NativeCanonicalRecord)}
variable {segments laterSegments : List NativePlannedSegment} {after : Nat}

theorem append (first : Laid sha256 source sessionId softLimit chunks segments
      (later.flatten.length + after))
    (second : Laid sha256 source sessionId softLimit later laterSegments after) :
    Laid sha256 source sessionId softLimit (chunks ++ later) (segments ++ laterSegments)
      after := by
  generalize total : later.flatten.length + after = following at first
  induction first with
  | done following => exact second
  | segment made cause rest ih =>
      refine .segment made (fun closed => ?_) (ih total)
      rcases cause closed with reached | follows
      · exact .inl reached
      · right
        change 0 < (_ ++ later).flatten.length + after
        rw [List.flatten_append, List.length_append]
        omega

/-- More records after a layout leave it a layout. -/
theorem mono (laid : Laid sha256 source sessionId softLimit chunks segments after)
    {more : Nat} (le : after ≤ more) :
    Laid sha256 source sessionId softLimit chunks segments more := by
  induction laid with
  | done after => exact .done more
  | segment made cause rest ih =>
      refine .segment made (fun closed => ?_) (ih le)
      rcases cause closed with reached | follows
      · exact .inl reached
      · exact .inr (by omega)

theorem chunk_ne_nil (laid : Laid sha256 source sessionId softLimit chunks segments after) :
    ∀ chunk ∈ chunks, chunk ≠ [] := by
  induction laid with
  | done after => intro chunk member; cases member
  | segment made cause rest ih =>
      intro chunk member
      rcases List.mem_cons.mp member with same | later
      · rw [same]
        exact planned_ne_nil sha256 source sessionId made
      · exact ih chunk later

/-- The segments of a layout carry exactly the ids of its records, in order. -/
theorem sourceMessageIds
    (laid : Laid sha256 source sessionId softLimit chunks segments after) :
    segments.map (·.sourceMessageIds) = chunks.map recordIds := by
  induction laid with
  | done after => rfl
  | segment made cause rest ih =>
      rw [List.map_cons, List.map_cons, ih, planned_sourceMessageIds sha256 source sessionId made]

theorem flatMap_sourceMessageIds
    (laid : Laid sha256 source sessionId softLimit chunks segments after) :
    segments.flatMap (·.sourceMessageIds) = recordIds chunks.flatten := by
  rw [List.flatMap_def, laid.sourceMessageIds, recordIds, List.map_flatten]
  rfl

theorem length_eq (laid : Laid sha256 source sessionId softLimit chunks segments after) :
    segments.length = chunks.length := by
  induction laid with
  | done after => rfl
  | segment made cause rest ih => rw [List.length_cons, List.length_cons, ih]

end Laid

/-- Closed chunks identified in order are a layout of those chunks. -/
theorem plannedAll_laid (softLimit : ℕ∞) (closed : Bool) (after : Nat)
    (chunks : List (List NativeCanonicalRecord)) (segments : List NativePlannedSegment)
    (cause : ∀ before chunk later, chunks = before ++ chunk :: later → closed = true →
      softLimit ≤ totalWeight chunk ∨ 0 < later.flatten.length + after)
    (made : plannedAll sha256 source sessionId closed chunks = .ok segments) :
    Laid sha256 source sessionId softLimit chunks segments after := by
  induction chunks generalizing segments with
  | nil => cases made; exact .done after
  | cons chunk rest ih =>
      obtain ⟨segment, first, others⟩ := except_bind_ok made
      obtain ⟨remaining, second, same⟩ := except_bind_ok others
      cases same
      have flag := planned_closed sha256 source sessionId first
      refine .segment (by rw [flag]; exact first) (fun isClosed => ?_) ?_
      · exact cause [] chunk rest rfl (flag ▸ isClosed)
      · refine ih remaining (fun before other later same => ?_) second
        exact cause (chunk :: before) other later (by rw [same]; rfl)

/-- The closed chunks of a packing are a layout in front of what stays open. -/
theorem packed_laid (softLimit : ℕ∞) (records : List NativeCanonicalRecord) (after : Nat)
    (segments : List NativePlannedSegment)
    (made : plannedAll sha256 source sessionId true (pack recordWeight softLimit records).1 =
      .ok segments) :
    Laid sha256 source sessionId softLimit (pack recordWeight softLimit records).1 segments
      ((pack recordWeight softLimit records).2.length + after) := by
  refine plannedAll_laid sha256 source sessionId softLimit true _ _ segments ?_ made
  intro before chunk later placed _
  rcases packFrom_closed_cause recordWeight softLimit [] records before later chunk placed with
    reached | follows
  · exact .inl reached
  · right
    have positive := List.length_pos_iff.mpr follows
    rw [List.length_append] at positive
    change 0 < _ + ((packFrom recordWeight softLimit [] records).2.length + after)
    omega

theorem packRecords_pack (softLimit : ℕ∞) (records : List NativeCanonicalRecord)
    (result : List NativePlannedSegment) :
    packRecords sha256 source sessionId softLimit records [] 0 result =
      (do
        let segments ← plannedAll sha256 source sessionId true
          (pack recordWeight softLimit records).1
        .ok (result ++ segments, (pack recordWeight softLimit records).2)) := by
  have equation := packRecords_eq sha256 source sessionId softLimit records [] result
  rwa [weigh_nil] at equation

/-! ### Tails and whole plans -/

/-- The tail is packed behind whatever was already pushed. -/
theorem planTail_result (softLimit : ℕ∞) (allowOpenSnapshot : Bool)
    (remaining : List NativeCanonicalRecord) (result : List NativePlannedSegment) :
    planTail sha256 source sessionId softLimit allowOpenSnapshot remaining result =
      (do
        let segments ← planTail sha256 source sessionId softLimit allowOpenSnapshot remaining []
        .ok (result ++ segments)) := by
  unfold planTail
  rw [packRecords_pack, packRecords_pack]
  cases plannedAll sha256 source sessionId true (pack recordWeight softLimit remaining).1 with
  | error error => rfl
  | ok closed =>
      simp only [except_ok_bind, List.nil_append]
      split
      · cases assertSegmentSize (pack recordWeight softLimit remaining).2 with
        | error error => rfl
        | ok checked =>
            cases planned sha256 source sessionId (pack recordWeight softLimit remaining).2 false
              with
            | error error => rfl
            | ok segment => simp only [except_ok_bind, except_pure, List.append_assoc]
      · rfl

/-- A planned tail is its closed chunks, then the open snapshot when one is wanted. -/
theorem planTail_ok_iff (softLimit : ℕ∞) (allowOpenSnapshot : Bool)
    (remaining : List NativeCanonicalRecord) (segments : List NativePlannedSegment) :
    planTail sha256 source sessionId softLimit allowOpenSnapshot remaining [] = .ok segments ↔
      ∃ closed snapshot, segments = closed ++ snapshot ∧
        plannedAll sha256 source sessionId true (pack recordWeight softLimit remaining).1 =
          .ok closed ∧
        plannedAll sha256 source sessionId false
          (if (pack recordWeight softLimit remaining).2 ≠ [] ∧ allowOpenSnapshot = true
            then [(pack recordWeight softLimit remaining).2] else []) = .ok snapshot := by
  unfold planTail
  rw [packRecords_pack]
  cases plannedAll sha256 source sessionId true (pack recordWeight softLimit remaining).1 with
  | error error => simp
  | ok closed =>
      simp only [except_ok_bind, List.nil_append]
      split
      · simp only [plannedAll]
        cases made : planned sha256 source sessionId (pack recordWeight softLimit remaining).2 false
          with
        | error error =>
            cases assertSegmentSize (pack recordWeight softLimit remaining).2 <;> simp
        | ok segment =>
            rw [assertSegmentSize_planned sha256 source sessionId made]
            simp [eq_comm]
      · simp [plannedAll, eq_comm]

/-- Without a manifest a plan is the tail of the records before the barrier. -/
theorem planNativeSegments_none_eq (records : List NativeCanonicalRecord) (softLimitChars : Int)
    (allowOpenSnapshot : Bool) (native : source.isNative = true) (positive : 0 < softLimitChars)
    (valid : validateRecords records = .ok ()) :
    planNativeSegments sha256 source sessionId records none softLimitChars allowOpenSnapshot =
      planTail sha256 source sessionId softLimitChars.toNat allowOpenSnapshot
        (completeRecords records) [] := by
  unfold planNativeSegments
  rw [native, if_neg (by simp), if_neg (Int.not_le.mpr positive), valid]
  rfl

theorem planNativeSegments_none (records : List NativeCanonicalRecord) (softLimitChars : Int)
    (allowOpenSnapshot : Bool) (segments : List NativePlannedSegment) :
    planNativeSegments sha256 source sessionId records none softLimitChars allowOpenSnapshot =
        .ok segments ↔
      source.isNative = true ∧ 0 < softLimitChars ∧ validateRecords records = .ok () ∧
        planTail sha256 source sessionId softLimitChars.toNat allowOpenSnapshot
          (completeRecords records) [] = .ok segments := by
  constructor
  · intro made
    have guarded := made
    unfold planNativeSegments at guarded
    split at guarded
    · cases guarded
    rename_i native
    split at guarded
    · cases guarded
    rename_i positive
    obtain ⟨_, valid, _⟩ := except_bind_ok guarded
    have isNative : source.isNative = true := by simpa using native
    rw [planNativeSegments_none_eq sha256 source sessionId records softLimitChars allowOpenSnapshot
      isNative (Int.not_le.mp positive) valid] at made
    exact ⟨isNative, Int.not_le.mp positive, valid, made⟩
  · rintro ⟨native, positive, valid, made⟩
    rwa [planNativeSegments_none_eq sha256 source sessionId records softLimitChars allowOpenSnapshot
      native positive valid]

end Planned

end Reflection.Native
