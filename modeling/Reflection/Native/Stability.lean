/-
Stability of native planning against its own manifest.

A plan with an open snapshot lays out every complete record before the barrier, and
each anchor of its manifest is one of its ranges. A manifest with one target for
each of these ranges therefore anchors the whole plan: planning a grown history
with it repeats the ranges and adds only segments of the new records.
-/

import Reflection.Native.Anchors
import Reflection.Native.Incremental

namespace Reflection.Native

open GreedyPacking JsString

/-! ### Ranges of consecutive chunks -/

/-- The ranges, both ends included, of consecutive chunks from a position on. -/
def rangesFrom {α : Type} : Nat → List (List α) → List (Nat × Nat)
  | _, [] => []
  | position, chunk :: rest =>
      (position, position + chunk.length - 1) :: rangesFrom (position + chunk.length) rest

theorem rangesFrom_bounds {α : Type} {position : Nat} {chunks : List (List α)}
    (nonempty : ∀ chunk ∈ chunks, chunk ≠ []) :
    ∀ range ∈ rangesFrom position chunks, position ≤ range.1 ∧ range.1 ≤ range.2 ∧
      range.2 < position + chunks.flatten.length := by
  induction chunks generalizing position with
  | nil => exact fun range member => nomatch member
  | cons chunk rest ih =>
      have positive := List.length_pos_iff.mpr (nonempty chunk List.mem_cons_self)
      intro range member
      rw [List.flatten_cons, List.length_append]
      rcases List.mem_cons.mp member with rfl | later
      · refine ⟨?_, ?_, ?_⟩ <;> dsimp only <;> omega
      · have bounds := ih (fun other otherIn => nonempty other (List.mem_cons_of_mem _ otherIn))
          range later
        omega

theorem rangesFrom_apart {α : Type} (position : Nat) {chunks : List (List α)}
    (nonempty : ∀ chunk ∈ chunks, chunk ≠ []) : Apart (rangesFrom position chunks) := by
  refine ⟨fun range member => (rangesFrom_bounds nonempty range member).2.1, ?_⟩
  induction chunks generalizing position with
  | nil => exact List.Pairwise.nil
  | cons chunk rest ih =>
      have positive := List.length_pos_iff.mpr (nonempty chunk List.mem_cons_self)
      have others : ∀ other ∈ rest, other ≠ [] :=
        fun other member => nonempty other (List.mem_cons_of_mem _ member)
      refine List.pairwise_cons.mpr ⟨fun range member => ?_, ih _ others⟩
      have bounds := (rangesFrom_bounds others range member).1
      dsimp only
      omega

section Stability

variable {sha256 : JsString → JsString} {source : SourceInfo} {sessionId : JsString}

/-! ### What a plan lays out -/

/-- A packed gap is laid out in closed ranges in front of the anchor that follows. -/
theorem packGap_laid {softLimit : ℕ∞} {gap : List NativeCanonicalRecord}
    {result extended : List NativePlannedSegment} {after : Nat} (follows : 0 < after)
    (made : packGap sha256 source sessionId softLimit gap result = .ok extended) :
    ∃ chunks segments, extended = result ++ segments ∧ chunks.flatten = gap ∧
      Laid sha256 source sessionId softLimit chunks segments after := by
  unfold packGap at made
  rw [packRecords_pack] at made
  obtain ⟨⟨pushed, chunk⟩, packed, finished⟩ := except_bind_ok made
  obtain ⟨closed, closedMade, same⟩ := except_bind_ok packed
  cases same
  have covered := pack_flatten recordWeight softLimit gap
  by_cases left : (pack recordWeight softLimit gap).2 = []
  · rw [left, List.append_nil] at covered
    simp only [left, ne_eq, not_true_eq_false, if_false] at finished
    cases finished
    refine ⟨_, closed, rfl, covered, ?_⟩
    exact plannedAll_laid sha256 source sessionId softLimit true after _ _
      (fun _ _ _ _ _ => .inr (by omega)) closedMade
  · simp only [ne_eq, left, not_false_eq_true, if_true] at finished
    obtain ⟨segment, last, same⟩ := except_bind_ok finished
    cases same
    refine ⟨(pack recordWeight softLimit gap).1 ++ [(pack recordWeight softLimit gap).2],
      closed ++ [segment], by rw [List.append_assoc], ?_, ?_⟩
    · rw [List.flatten_append, List.flatten_singleton]
      exact covered
    · refine plannedAll_laid sha256 source sessionId softLimit true after _ _
        (fun _ _ _ _ _ => .inr (by omega)) ?_
      rw [plannedAll_append, closedMade, except_ok_bind, plannedAll, last]
      rfl

/-- The tail is laid out whole when an open snapshot is allowed. -/
theorem planTail_laid {softLimit : ℕ∞} {remaining : List NativeCanonicalRecord}
    {segments : List NativePlannedSegment} (after : Nat)
    (made : planTail sha256 source sessionId softLimit true remaining [] = .ok segments) :
    ∃ chunks, chunks.flatten = remaining ∧
      Laid sha256 source sessionId softLimit chunks segments after := by
  obtain ⟨closed, snapshot, rfl, closedMade, snapshotMade⟩ :=
    (planTail_ok_iff sha256 source sessionId softLimit true remaining segments).mp made
  have covered := pack_flatten recordWeight softLimit remaining
  have front := packed_laid sha256 source sessionId softLimit remaining after closed closedMade
  by_cases left : (pack recordWeight softLimit remaining).2 = []
  · simp only [left, ne_eq, not_true_eq_false, false_and, if_false] at snapshotMade
    cases snapshotMade
    rw [left, List.append_nil] at covered
    rw [left, List.length_nil, Nat.zero_add] at front
    rw [List.append_nil]
    exact ⟨_, covered, front⟩
  · simp only [ne_eq, left, not_false_eq_true, and_self, if_true] at snapshotMade
    refine ⟨(pack recordWeight softLimit remaining).1 ++
      [(pack recordWeight softLimit remaining).2], ?_, ?_⟩
    · rw [List.flatten_append, List.flatten_singleton]
      exact covered
    · refine Laid.append (by rw [List.flatten_singleton]; exact front) ?_
      exact plannedAll_laid sha256 source sessionId softLimit false after _ _
        (fun _ _ _ _ isClosed => nomatch isClosed) snapshotMade

private theorem take_slice {α : Type} (values : List α) {start stop : Nat} (ordered : start ≤ stop) :
    values.take start ++ slice values start stop = values.take stop := by
  have joined := List.take_append_drop start (values.take stop)
  rwa [List.take_take, Nat.min_eq_left ordered] at joined

/-- The loop over the anchors lays out the records up to its cursor, each anchor one range. -/
theorem planAnchors_laid {softLimit : ℕ∞} {records complete : List NativeCanonicalRecord}
    (within : complete.length ≤ records.length) {anchors : List Anchor} {cursor finalCursor : Nat}
    {result finalResult : List NativePlannedSegment} (bound : cursor ≤ complete.length)
    (forward : ∀ anchor ∈ anchors, anchor.start ≤ anchor.stop)
    (inside : ∀ anchor ∈ anchors, anchor.stop < complete.length)
    (made : planAnchors sha256 source sessionId softLimit true records complete anchors cursor
      result = .ok (finalResult, finalCursor)) :
    ∃ chunks segments, finalResult = result ++ segments ∧ finalCursor ≤ complete.length ∧
      complete.take finalCursor = complete.take cursor ++ chunks.flatten ∧
      Laid sha256 source sessionId softLimit chunks segments (records.length - finalCursor) ∧
      ∀ anchor ∈ anchors, slice complete anchor.start (anchor.stop + 1) ∈ chunks := by
  induction anchors generalizing cursor result with
  | nil =>
      cases made
      refine ⟨[], [], by rw [List.append_nil], bound, by rw [List.flatten_nil, List.append_nil],
        .done _, fun anchor member => nomatch member⟩
  | cons anchor rest ih =>
      have ordered := forward anchor List.mem_cons_self
      have stops := inside anchor List.mem_cons_self
      unfold planAnchors at made
      rw [if_neg (by omega)] at made
      obtain ⟨gapResult, gapMade, made⟩ := except_bind_ok made
      split at made
      · cases made
      rename_i contiguous
      have reached : cursor ≤ anchor.start := by
        rw [not_not] at contiguous
        omega
      obtain ⟨_, _, made⟩ := except_bind_ok made
      obtain ⟨pushed, pushedMade, made⟩ := except_bind_ok made
      simp only [pushAnchored, Bool.or_true, if_true] at pushedMade
      obtain ⟨segment, anchored, same⟩ := except_bind_ok pushedMade
      cases same
      obtain ⟨laterChunks, laterSegments, rfl, finalBound, laterCovered, laterLaid, laterAnchors⟩ :=
        ih (by omega) (fun other member => forward other (List.mem_cons_of_mem _ member))
          (fun other member => inside other (List.mem_cons_of_mem _ member)) made
      have anchoredLength :
          (slice complete anchor.start (anchor.stop + 1)).length = anchor.stop + 1 - anchor.start := by
        unfold slice
        rw [List.length_drop, List.length_take]
        omega
      have follows : 0 < ([slice complete anchor.start (anchor.stop + 1)] ++
          laterChunks).flatten.length + (records.length - finalCursor) := by
        rw [List.flatten_append, List.length_append, List.flatten_singleton, anchoredLength]
        omega
      obtain ⟨gapChunks, gapSegments, rfl, gapCovered, gapLaid⟩ := packGap_laid follows gapMade
      have flag := planned_closed sha256 source sessionId anchored
      have laterLength : laterChunks.flatten.length = finalCursor - (anchor.stop + 1) := by
        have lengths := congrArg List.length laterCovered
        rw [List.length_append, List.length_take, List.length_take] at lengths
        omega
      have anchorLaid : Laid sha256 source sessionId softLimit
          ([slice complete anchor.start (anchor.stop + 1)] ++ laterChunks)
          ([segment] ++ laterSegments) (records.length - finalCursor) := by
        refine .segment (by rw [flag]; exact anchored) (fun isClosed => ?_) laterLaid
        rw [flag, Bool.or_eq_true, decide_eq_true_eq, decide_eq_true_eq] at isClosed
        rcases isClosed with earlier | reachedLimit
        · right
          change 0 < laterChunks.flatten.length + _
          omega
        · exact .inl reachedLimit
      refine ⟨gapChunks ++ ([slice complete anchor.start (anchor.stop + 1)] ++ laterChunks),
        gapSegments ++ ([segment] ++ laterSegments), ?_, finalBound, ?_,
        gapLaid.append anchorLaid, ?_⟩
      · simp only [List.append_assoc]
      · rw [laterCovered, List.flatten_append, List.flatten_append, List.flatten_singleton,
          gapCovered, ← take_slice complete (show anchor.start ≤ anchor.stop + 1 by omega),
          ← take_slice complete reached]
        simp only [List.append_assoc]
      · intro other member
        rcases List.mem_cons.mp member with rfl | later
        · exact List.mem_append_right _ (List.mem_append_left _ List.mem_cons_self)
        · exact List.mem_append_right _ (List.mem_append_right _ (laterAnchors other later))

/-- The steps of a plan that succeeded with a manifest. -/
theorem planNativeSegments_some {records : List NativeCanonicalRecord}
    {manifest : NativeSessionSegmentsResponse} {softLimitChars : Int} {allowOpenSnapshot : Bool}
    {segments : List NativePlannedSegment}
    (made : planNativeSegments sha256 source sessionId records (some manifest) softLimitChars
      allowOpenSnapshot = .ok segments) :
    source.isNative = true ∧ 0 < softLimitChars ∧ validateRecords records = .ok () ∧
      ∃ anchors front cursor tail,
        anchorsFor sha256 source sessionId (some manifest) records = .ok anchors ∧
        planAnchors sha256 source sessionId softLimitChars.toNat allowOpenSnapshot records
          (completeRecords records) anchors 0 [] = .ok (front, cursor) ∧
        planTail sha256 source sessionId softLimitChars.toNat allowOpenSnapshot
          ((completeRecords records).drop cursor) [] = .ok tail ∧
        segments = front ++ tail := by
  unfold planNativeSegments at made
  split at made
  · cases made
  rename_i native
  split at made
  · cases made
  rename_i positive
  obtain ⟨_, valid, made⟩ := except_bind_ok made
  obtain ⟨anchors, found, made⟩ := except_bind_ok made
  obtain ⟨⟨front, cursor⟩, anchored, made⟩ := except_bind_ok made
  dsimp only at made
  rw [planTail_result] at made
  obtain ⟨tail, tailMade, same⟩ := except_bind_ok made
  cases same
  exact ⟨by simpa using native, Int.not_le.mp positive, valid, anchors, front, cursor, tail, found,
    anchored, tailMade, rfl⟩

theorem completeRecords_length_le (records : List NativeCanonicalRecord) :
    (completeRecords records).length ≤ records.length :=
  (List.takeWhile_sublist _).length_le

/-- A plan with an open snapshot lays out the complete records before the barrier, and
every anchor of its manifest is one of the ranges. -/
theorem planNativeSegments_laid {records : List NativeCanonicalRecord}
    {manifest : NativeSessionSegmentsResponse} {softLimitChars : Int}
    {segments : List NativePlannedSegment} {anchors : List Anchor}
    (made : planNativeSegments sha256 source sessionId records (some manifest) softLimitChars true =
      .ok segments)
    (found : anchorsFor sha256 source sessionId (some manifest) records = .ok anchors)
    (inside : ∀ anchor ∈ anchors, anchor.stop < (completeRecords records).length) :
    ∃ chunks, chunks.flatten = completeRecords records ∧
      Laid sha256 source sessionId softLimitChars.toNat chunks segments
        (records.length - (completeRecords records).length) ∧
      ∀ anchor ∈ anchors, slice (completeRecords records) anchor.start (anchor.stop + 1) ∈ chunks := by
  obtain ⟨_, _, _, _, front, cursor, tail, foundAgain, anchored, tailMade, rfl⟩ :=
    planNativeSegments_some made
  cases found.symm.trans foundAgain
  obtain ⟨frontChunks, frontSegments, rfl, bound, covered, frontLaid, placed⟩ :=
    planAnchors_laid (completeRecords_length_le records) (Nat.zero_le _)
      (anchorsFor_forward found) inside anchored
  obtain ⟨tailChunks, tailCovered, tailLaid⟩ :=
    planTail_laid (records.length - (completeRecords records).length) tailMade
  refine ⟨frontChunks ++ tailChunks, ?_, ?_, fun anchor member => ?_⟩
  · rw [List.take_zero, List.nil_append] at covered
    rw [List.flatten_append, ← covered, tailCovered, List.take_append_drop]
  · refine Laid.append (frontLaid.mono ?_) tailLaid
    rw [tailCovered, List.length_drop]
    have := completeRecords_length_le records
    omega
  · exact List.mem_append_left _ (placed anchor member)

/-! ### Planning with known ranges anchored -/

/-- The segments were planned from the chunks, one each. -/
abbrev Made (sha256 : JsString → JsString) (source : SourceInfo) (sessionId : JsString) :
    List (List NativeCanonicalRecord) → List NativePlannedSegment → Prop :=
  List.Forall₂ fun chunk segment =>
    planned sha256 source sessionId chunk segment.closed = .ok segment

theorem Laid.toMade {softLimit : ℕ∞} {chunks : List (List NativeCanonicalRecord)}
    {segments : List NativePlannedSegment} {after : Nat}
    (laid : Laid sha256 source sessionId softLimit chunks segments after) :
    Made sha256 source sessionId chunks segments := by
  induction laid with
  | done after => exact .nil
  | segment made cause rest ih => exact .cons made ih

/-- The flags the anchored loop gives to known ranges with `after` records behind them. -/
def reclosed (softLimit : ℕ∞) (after : Nat) :
    List (List NativeCanonicalRecord) → List NativePlannedSegment → List NativePlannedSegment
  | chunk :: chunks, segment :: segments =>
      { segment with
        closed := decide (0 < chunks.flatten.length + after) ||
          decide (softLimit ≤ totalWeight chunk) } :: reclosed softLimit after chunks segments
  | _, _ => []

/-- Anchored ranges are pushed as they are, with no gap packed between them. -/
theorem planAnchors_made {softLimit : ℕ∞} {allowOpenSnapshot : Bool}
    {records complete remaining : List NativeCanonicalRecord}
    {chunks : List (List NativeCanonicalRecord)} {segments result : List NativePlannedSegment}
    {anchors : List Anchor} (before : List NativeCanonicalRecord) (within : complete.length ≤ records.length)
    (made : Made sha256 source sessionId chunks segments)
    (covered : complete = before ++ chunks.flatten ++ remaining)
    (ranges : anchors.map Anchor.range = rangesFrom before.length chunks) :
    planAnchors sha256 source sessionId softLimit allowOpenSnapshot records complete anchors
        before.length result =
      .ok (result ++ (reclosed softLimit
          (records.length - (before ++ chunks.flatten).length) chunks segments).filter
            (fun segment => segment.closed || allowOpenSnapshot),
        (before ++ chunks.flatten).length) := by
  induction made generalizing before result anchors with
  | nil =>
      rw [rangesFrom, List.map_eq_nil_iff] at ranges
      subst ranges
      simp [planAnchors, reclosed]
  | @cons chunk segment chunks segments first rest ih =>
      rw [rangesFrom] at ranges
      obtain ⟨anchor, others, rfl, here, later⟩ := List.map_eq_cons_iff.mp ranges
      have positive := List.length_pos_iff.mpr (planned_ne_nil sha256 source sessionId first)
      obtain ⟨startEq, stopEq⟩ : anchor.start = before.length ∧
          anchor.stop = before.length + chunk.length - 1 :=
        ⟨congrArg Prod.fst here, congrArg Prod.snd here⟩
      rw [List.flatten_cons] at covered
      have lengths := congrArg List.length covered
      simp only [List.length_append] at lengths
      have anchored : slice complete anchor.start (anchor.stop + 1) = chunk := by
        rw [startEq, stopEq, show before.length + chunk.length - 1 + 1 =
          before.length + chunk.length by omega, covered,
          show before ++ (chunk ++ chunks.flatten) ++ remaining =
            before ++ chunk ++ (chunks.flatten ++ remaining) by simp only [List.append_assoc]]
        exact slice_middle before chunk _
      have noGap : slice complete before.length anchor.start = [] := by
        rw [startEq, slice, List.drop_eq_nil_iff]
        exact List.length_take_le _ _
      have coveredNext : complete = before ++ chunk ++ chunks.flatten ++ remaining := by
        rw [covered]
        simp only [List.append_assoc]
      have laterRanges : others.map Anchor.range = rangesFrom (before ++ chunk).length chunks := by
        rw [later, List.length_append]
      have next := fun pushed : List NativePlannedSegment =>
        @ih pushed others (before ++ chunk) coveredNext laterRanges
      have stopNext : anchor.stop + 1 = (before ++ chunk).length := by
        rw [List.length_append]
        omega
      have flag : decide (anchor.stop + 1 < records.length) =
          decide (0 < chunks.flatten.length +
            (records.length - (before ++ (chunk :: chunks).flatten).length)) := by
        rw [decide_eq_decide, List.flatten_cons, List.length_append, List.length_append]
        omega
      unfold planAnchors
      rw [if_neg (by omega), noGap]
      simp only [packGap, packRecords, except_ok_bind, ne_eq, not_true_eq_false, if_false,
        except_pure]
      rw [if_neg (by rw [not_not]; omega), anchored,
        assertSegmentSize_planned sha256 source sessionId first, except_ok_bind]
      simp only [pushAnchored, flag, reclosed, List.filter_cons]
      rw [planned_reclosed sha256 source sessionId first]
      split
      · rw [except_ok_bind, except_ok_bind, stopNext, next]
        simp only [List.append_assoc, List.flatten_cons, List.singleton_append]
      · rw [except_ok_bind, stopNext, next]
        simp only [List.append_assoc, List.flatten_cons]

/-- The entries of consecutive planned ranges name these ranges. -/
theorem entries_at {records remaining : List NativeCanonicalRecord}
    {chunks : List (List NativeCanonicalRecord)} {segments : List NativePlannedSegment}
    (before : List NativeCanonicalRecord) (made : Made sha256 source sessionId chunks segments)
    (distinct : (recordIds records).Nodup)
    (trimmed : ∀ record ∈ chunks.flatten, JsString.Trimmed record.source.id)
    (covered : records = before ++ chunks.flatten ++ remaining) :
    List.Forall₂ (fun segment range =>
      EntryAt sha256 source sessionId records (entryOf segment) range.1 range.2)
      segments (rangesFrom before.length chunks) := by
  induction made generalizing before with
  | nil => exact .nil
  | @cons chunk segment chunks segments first rest ih =>
      rw [List.flatten_cons] at covered trimmed
      refine .cons ?_ ?_
      · have split : records = before ++ chunk ++ (chunks.flatten ++ remaining) := by
          rw [covered]
          simp only [List.append_assoc]
        rw [split] at distinct ⊢
        exact entryOf_at first distinct
          fun record member => trimmed record (List.mem_append_left _ member)
      · rw [show before.length + chunk.length = (before ++ chunk).length by rw [List.length_append]]
        apply ih (before ++ chunk)
          (fun record member => trimmed record (List.mem_append_right _ member))
        rw [covered]
        simp only [List.append_assoc]

/-- A plan whose anchors are known consecutive ranges is these ranges and a packed tail. -/
theorem planNativeSegments_made {records remaining : List NativeCanonicalRecord}
    {manifest : NativeSessionSegmentsResponse} {softLimitChars : Int} {allowOpenSnapshot : Bool}
    {chunks : List (List NativeCanonicalRecord)} {segments : List NativePlannedSegment}
    {anchors : List Anchor} (native : source.isNative = true) (positive : 0 < softLimitChars)
    (valid : validateRecords records = .ok ())
    (found : anchorsFor sha256 source sessionId (some manifest) records = .ok anchors)
    (ranges : anchors.map Anchor.range = rangesFrom 0 chunks)
    (made : Made sha256 source sessionId chunks segments)
    (covered : completeRecords records = chunks.flatten ++ remaining) :
    planNativeSegments sha256 source sessionId records (some manifest) softLimitChars
        allowOpenSnapshot =
      (do
        let tail ← planTail sha256 source sessionId softLimitChars.toNat allowOpenSnapshot
          remaining []
        .ok ((reclosed softLimitChars.toNat (records.length - chunks.flatten.length) chunks
          segments).filter (fun segment => segment.closed || allowOpenSnapshot) ++ tail)) := by
  unfold planNativeSegments
  rw [native, if_neg (by simp), if_neg (Int.not_le.mpr positive), valid, except_ok_bind, found,
    except_ok_bind]
  have looped : planAnchors sha256 source sessionId softLimitChars.toNat allowOpenSnapshot records
      (completeRecords records) anchors 0 [] = .ok ([] ++ (reclosed softLimitChars.toNat
        (records.length - ([] ++ chunks.flatten).length) chunks segments).filter
          (fun segment => segment.closed || allowOpenSnapshot), ([] ++ chunks.flatten).length) := by
    have coveredFrom : completeRecords records = [] ++ chunks.flatten ++ remaining := by
      rw [List.nil_append]
      exact covered
    exact planAnchors_made [] (completeRecords_length_le records) made coveredFrom ranges
  rw [List.nil_append, List.nil_append] at looped
  rw [looped, except_ok_bind]
  dsimp only
  rw [planTail_result, covered, List.drop_left]

/-! ### The manifest of a plan -/

/-- The same range planned again: only its flag may change, and only towards closed. -/
def SameRange (earlier later : NativePlannedSegment) : Prop :=
  ∃ closed, later = { earlier with closed := closed } ∧ (earlier.closed = true → closed = true)

theorem reclosed_same {softLimit : ℕ∞} {chunks : List (List NativeCanonicalRecord)}
    {segments : List NativePlannedSegment} {after more : Nat}
    (laid : Laid sha256 source sessionId softLimit chunks segments after) (le : after ≤ more) :
    List.Forall₂ SameRange segments (reclosed softLimit more chunks segments) := by
  induction laid with
  | done after => exact .nil
  | segment made cause rest ih =>
      refine .cons ⟨_, rfl, fun closed => ?_⟩ (ih le)
      rw [Bool.or_eq_true, decide_eq_true_eq, decide_eq_true_eq]
      rcases cause closed with reached | follows
      · exact .inr reached
      · exact .inl (by omega)

theorem completeRecords_append (records more : List NativeCanonicalRecord) :
    completeRecords (records ++ more) =
      completeRecords records ++
        completeRecords (if ∀ record ∈ records, record.complete = true then more else []) := by
  unfold completeRecords
  induction records with
  | nil => simp
  | cons record rest ih =>
      rw [List.cons_append, List.takeWhile_cons, List.takeWhile_cons]
      cases flag : record.complete with
      | false => simp [flag]
      | true =>
          simp only [if_true, ih, List.cons_append, List.forall_mem_cons, flag, true_and]

theorem validateRecords_append_right {records more : List NativeCanonicalRecord}
    (valid : validateRecords (records ++ more) = .ok ()) : validateRecords more = .ok () := by
  have dropped := validateRecords_drop valid records.length
  rwa [List.drop_left] at dropped

/-- The manifest with one target for each range of a plan anchors exactly these ranges. -/
theorem anchorsFor_own {records remaining : List NativeCanonicalRecord}
    {own : NativeSessionSegmentsResponse} {chunks : List (List NativeCanonicalRecord)}
    {segments : List NativePlannedSegment} (owned : Owned source sessionId own)
    (boundaries : own.boundaries = []) (targets : own.targets.Perm (segments.map entryOf))
    (made : Made sha256 source sessionId chunks segments)
    (distinct : (recordIds records).Nodup)
    (trimmed : ∀ record ∈ chunks.flatten, JsString.Trimmed record.source.id)
    (covered : records = chunks.flatten ++ remaining) :
    ∃ anchors, anchorsFor sha256 source sessionId (some own) records = .ok anchors ∧
      anchors.map Anchor.range = rangesFrom 0 chunks := by
  have nonempty : ∀ chunk ∈ chunks, chunk ≠ [] := by
    intro chunk member
    obtain ⟨_, _, here⟩ := exists_right_of_forall₂ made member
    exact planned_ne_nil sha256 source sessionId here
  have named : List.Forall₂ (fun segment range =>
      EntryAt sha256 source sessionId records (entryOf segment) range.1 range.2)
      segments (rangesFrom 0 chunks) :=
    entries_at [] made distinct trimmed covered
  refine anchorsFor_described (rangesFrom_apart 0 nonempty) owned ⟨?_, ?_, ?_, ?_⟩
  · intro entry member
    obtain ⟨segment, segmentIn, rfl⟩ := List.mem_map.mp (targets.mem_iff.mp member)
    exact exists_right_of_forall₂ named segmentIn
  · rw [boundaries]
    exact fun entry member => nomatch member
  · rw [boundaries]
    exact fun entry member => nomatch member
  · intro range member
    obtain ⟨segment, segmentIn, here⟩ := exists_left_of_forall₂ named member
    refine ⟨entryOf segment, ?_, _, here⟩
    exact List.mem_append_right _ (targets.mem_iff.mpr (List.mem_map_of_mem segmentIn))

/-- Native planning is stable against its own manifest. For ids without surrounding white
space, a plan covers the complete records before the barrier in order, every anchor is
one of its ranges, and with one target for each range a grown history repeats the ranges
and goes on with the plan of the new records. -/
theorem own_manifest_stable (softLimitChars : Int) (records : List NativeCanonicalRecord)
    (manifest : NativeSessionSegmentsResponse) (segments : List NativePlannedSegment)
    (anchors : List Anchor)
    (trimmed : ∀ record ∈ records, JsString.Trimmed record.source.id)
    (made : planNativeSegments sha256 source sessionId records (some manifest) softLimitChars true =
      .ok segments)
    (found : anchorsFor sha256 source sessionId (some manifest) records = .ok anchors)
    (inside : ∀ anchor ∈ anchors, anchor.stop < (completeRecords records).length) :
    (segments.flatMap (·.sourceMessageIds) = recordIds (completeRecords records) ∧
      ∀ segment ∈ segments,
        segment.sourceMessageIds.head? = some segment.request.startSourceMessageId ∧
        segment.sourceMessageIds.getLast? = some segment.request.endSourceMessageId) ∧
    (∀ anchor ∈ anchors, ∃ segment ∈ segments,
      segment.sourceMessageIds = recordIds (slice records anchor.start (anchor.stop + 1))) ∧
    ∀ (more : List NativeCanonicalRecord) (own : NativeSessionSegmentsResponse),
      (∀ record ∈ more, record.complete = true) →
      validateRecords (records ++ more) = .ok () →
      own.sourceId = manifest.sourceId → own.sessionId = manifest.sessionId →
      own.boundaries = [] → own.targets.Perm (segments.map entryOf) →
      ∃ kept, List.Forall₂ SameRange segments kept ∧
        planNativeSegments sha256 source sessionId (records ++ more) (some own) softLimitChars
            true =
          (do
            let rest ← planNativeSegments sha256 source sessionId
              (if ∀ record ∈ records, record.complete = true then more else []) none
              softLimitChars true
            .ok (kept ++ rest)) := by
  obtain ⟨chunks, covered, laid, placed⟩ := planNativeSegments_laid made found inside
  obtain ⟨native, positive, _, _⟩ := planNativeSegments_some made
  have madeFrom := laid.toMade
  have completePrefix : completeRecords records <+: records := List.takeWhile_prefix _
  have chunkTrimmed : ∀ record ∈ chunks.flatten, JsString.Trimmed record.source.id := by
    rw [covered]
    exact fun record member => trimmed record (completePrefix.subset member)
  refine ⟨⟨?_, ?_⟩, ?_, ?_⟩
  · rw [laid.flatMap_sourceMessageIds, covered]
  · intro segment member
    obtain ⟨chunk, chunkIn, here⟩ := exists_left_of_forall₂ madeFrom member
    obtain ⟨identified, named, same⟩ := (planned_ok_iff sha256 source sessionId).mp here
    obtain ⟨first, last, headed, ended, startEq, endEq, _⟩ :=
      identify_request sha256 source sessionId named
    have trimmedHere : ∀ record ∈ chunk, JsString.Trimmed record.source.id :=
      fun record recordIn => chunkTrimmed record (List.mem_flatten.mpr ⟨_, chunkIn, recordIn⟩)
    rw [same]
    dsimp only
    rw [recordIds, List.head?_map, List.getLast?_map, headed, ended, startEq, endEq,
      trimmedHere first (List.mem_of_mem_head? headed),
      trimmedHere last (List.mem_of_getLast? ended)]
    exact ⟨rfl, rfl⟩
  · intro anchor member
    obtain ⟨segment, segmentIn, here⟩ := exists_right_of_forall₂ madeFrom (placed anchor member)
    refine ⟨segment, segmentIn, ?_⟩
    obtain ⟨later, recordsEq⟩ := completePrefix
    rw [planned_sourceMessageIds sha256 source sessionId here]
    conv_rhs => rw [← recordsEq]
    rw [slice_append _ later (inside anchor member)]
  · intro more own complete valid ownSource ownSession boundaries targets
    have owned := owned_of_anchorsFor found
    have ownOwned : Owned source sessionId own := by
      unfold Owned
      rw [ownSource, ownSession]
      exact owned
    obtain ⟨later, recordsEq⟩ := completePrefix
    have coveredAll : records ++ more = chunks.flatten ++ (later ++ more) := by
      rw [covered, ← List.append_assoc, recordsEq]
    obtain ⟨ownAnchors, ownFound, ranges⟩ := anchorsFor_own ownOwned boundaries targets madeFrom
      ((validateRecords_ok_iff _).mp valid).2 chunkTrimmed coveredAll
    refine ⟨reclosed softLimitChars.toNat ((records ++ more).length - chunks.flatten.length) chunks
      segments, reclosed_same laid ?_, ?_⟩
    · rw [covered, List.length_append]
      omega
    · have restComplete : ∀ record ∈
          (if ∀ record ∈ records, record.complete = true then more else []),
          record.complete = true := by
        intro record member
        split at member
        · exact complete record member
        · cases member
      have restValid : validateRecords
          (if ∀ record ∈ records, record.complete = true then more else []) = .ok () := by
        split
        · exact validateRecords_append_right valid
        · rfl
      rw [planNativeSegments_made native positive valid ownFound ranges madeFrom
        (by rw [completeRecords_append, covered]),
        planNativeSegments_none_eq sha256 source sessionId _ softLimitChars true native positive
          restValid,
        List.filter_eq_self.mpr (fun segment _ => Bool.or_true _)]

end Stability

/-- The record `b` is anchored between `a` and `c`, and `d` is new. -/
theorem own_manifest_stable_sample :
    ∃ kept,
      List.Forall₂ SameRange
        (sampleSegments [sampleRecord "a" 4, sampleRecord "b" 7, sampleRecord "c" 5]
          (some (sampleManifest
            ((sampleSegments [sampleRecord "b" 7] none 10 true).map entryOf))) 10 true) kept ∧
      planNativeSegments id sampleSource (ofString "session")
          ([sampleRecord "a" 4, sampleRecord "b" 7, sampleRecord "c" 5] ++ [sampleRecord "d" 3])
          (some (sampleManifest
            ((sampleSegments [sampleRecord "a" 4, sampleRecord "b" 7, sampleRecord "c" 5]
              (some (sampleManifest
                ((sampleSegments [sampleRecord "b" 7] none 10 true).map entryOf))) 10 true).map
              entryOf))) 10 true =
        (do
          let rest ← planNativeSegments id sampleSource (ofString "session")
            (if ∀ record ∈ [sampleRecord "a" 4, sampleRecord "b" 7, sampleRecord "c" 5],
                record.complete = true then [sampleRecord "d" 3] else []) none 10 true
          .ok (kept ++ rest)) :=
  (own_manifest_stable 10 [sampleRecord "a" 4, sampleRecord "b" 7, sampleRecord "c" 5]
    (sampleManifest ((sampleSegments [sampleRecord "b" 7] none 10 true).map entryOf))
    (sampleSegments [sampleRecord "a" 4, sampleRecord "b" 7, sampleRecord "c" 5]
      (some (sampleManifest
        ((sampleSegments [sampleRecord "b" 7] none 10 true).map entryOf))) 10 true)
    [{ start := 1
       stop := 1
       target := true }]
    (by decide) rfl rfl (by decide)).2.2 [sampleRecord "d" 3] (sampleManifest _) (by decide)
    rfl rfl rfl rfl (List.Perm.refl _)

/-- An id with white space: the request trims it, the target no longer finds its record
and the grown history is planned as one other range. -/
theorem own_manifest_white_space :
    planNativeSegments id sampleSource (ofString "session") [sampleRecord " a" 5]
        (some (sampleManifest [])) 10 true =
      .ok (sampleSegments [sampleRecord " a" 5] (some (sampleManifest [])) 10 true) ∧
    anchorsFor id sampleSource (ofString "session") (some (sampleManifest []))
      [sampleRecord " a" 5] = .ok [] ∧
    validateRecords ([sampleRecord " a" 5] ++ [sampleRecord "b" 5]) = .ok () ∧
    ¬ ∃ kept rest,
      List.Forall₂ SameRange
        (sampleSegments [sampleRecord " a" 5] (some (sampleManifest [])) 10 true) kept ∧
      planNativeSegments id sampleSource (ofString "session")
          ([sampleRecord " a" 5] ++ [sampleRecord "b" 5])
          (some (sampleManifest ((sampleSegments [sampleRecord " a" 5]
            (some (sampleManifest [])) 10 true).map entryOf))) 10 true =
        .ok (kept ++ rest) := by
  refine ⟨rfl, rfl, rfl, ?_⟩
  rintro ⟨kept, rest, same, grown⟩
  have grownIds := congrArg
    (fun plan => plan.map (fun segments => segments.map (·.sourceMessageIds))) grown
  have keptIds : kept.map (·.sourceMessageIds) = [[ofString " a"]] := by
    have related : List.Forall₂ Eq
        ((sampleSegments [sampleRecord " a" 5] (some (sampleManifest [])) 10 true).map
          (·.sourceMessageIds)) (kept.map (·.sourceMessageIds)) := by
      rw [List.forall₂_map_left_iff, List.forall₂_map_right_iff]
      exact same.imp fun _ _ ⟨_, equal, _⟩ => by rw [equal]
    rw [List.forall₂_eq_eq_eq] at related
    exact related.symm
  have planIds : (.ok [[ofString " a", ofString "b"]] : Except PlanError (List (List JsString))) =
      .ok (kept.map (·.sourceMessageIds) ++ rest.map (·.sourceMessageIds)) := by
    rw [← List.map_append]
    exact grownIds
  rw [keptIds] at planIds
  have heads : [ofString " a", ofString "b"] = [ofString " a"] :=
    (List.cons.inj (Except.ok.inj planIds)).1
  exact absurd heads (by decide)

end Reflection.Native
