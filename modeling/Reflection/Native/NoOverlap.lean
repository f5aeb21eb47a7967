/-
Runs of the writers that keep the ranges of a session apart.

The cursor of the hook stands between two tiles. A hook pass whose packing closes at
the end of every tile it meets repeats these tiles, extends the last one or adds tiles
behind it; a pass that plans with the manifest repeats the tiles and adds some. So the
session stays tiled, and the anchors of its manifest never overlap.
-/

import Reflection.Native.Tiling

namespace Reflection.Native

open GreedyPacking JsString

section Passes

variable {sha256 : JsString → JsString} {source : SourceInfo} {sessionId : JsString}
variable {softLimit : ℕ∞} {state : WriterState} {tiles : List (List NativeCanonicalRecord)}

/-! ### Hook passes -/

/-- When another tile follows, the first chunk of a packing is the tile it starts at,
provided it closes at the end of the tile. -/
private theorem first_chunk_of_tile {tile next chunk beyond : List NativeCanonicalRecord}
    {rest more : List (List NativeCanonicalRecord)} (nonempty : tile ≠ [])
    (whole : Whole recordWeight softLimit tile)
    (closes : softLimit ≤ totalWeight tile ∨
      (∃ item items, next = item :: items ∧ softLimit < totalWeight (tile ++ [item])) ∨
      totalWeight (tile ++ ((next :: rest).flatten ++ beyond)) < softLimit)
    (packed : (pack recordWeight softLimit (tile ++ ((next :: rest).flatten ++ beyond))).1 =
      chunk :: more) : chunk = tile := by
  rcases closes with full | overflow | light
  · rcases pack_first_of_full recordWeight softLimit nonempty whole full
      ((next :: rest).flatten ++ beyond) with ⟨_, exactly⟩
    rw [packed] at exactly
    exact (List.cons.inj exactly).1
  · rcases overflow with ⟨item, items, nextEq, exceeds⟩
    rcases pack_first_of_overflow recordWeight softLimit nonempty whole exceeds
      (items ++ (rest.flatten ++ beyond)) with ⟨_, exactly⟩
    rw [nextEq, List.flatten_cons, List.append_assoc, List.cons_append] at packed
    rw [packed] at exactly
    exact (List.cons.inj exactly).1
  · rw [pack_closed_nil recordWeight softLimit light] at packed
    cases packed

/-- A packing that starts in front of tiles, closing at the end of each tile that another
one follows, retiles them one by one. -/
theorem hook_retiles {records : List NativeCanonicalRecord}
    {before after : List (List NativeCanonicalRecord)}
    (whole : ∀ tile ∈ after, Whole recordWeight softLimit tile)
    (nonempty : ∀ tile ∈ after, tile ≠ [])
    (covered : (before ++ after).flatten <+: records)
    (aligned : ∀ middle tile next rest, after = middle ++ tile :: next :: rest →
      softLimit ≤ totalWeight tile ∨
        (∃ item items, next = item :: items ∧ softLimit < totalWeight (tile ++ [item])) ∨
        totalWeight (records.drop (before ++ middle).flatten.length) < softLimit)
    (count : Nat) :
    ∃ later, RetilesAll records (before ++ after)
        ((pack recordWeight softLimit (records.drop before.flatten.length)).1.take count) later ∧
      ∀ fewer, fewer ≤ count → ∃ rest, later = before ++
        (pack recordWeight softLimit (records.drop before.flatten.length)).1.take fewer ++ rest := by
  induction count generalizing before after with
  | zero =>
      refine ⟨before ++ after, .done _, fun fewer le => ⟨after, ?_⟩⟩
      rw [Nat.le_zero.mp le, List.take_zero, List.append_nil]
  | succ count ih =>
      cases packed : pack recordWeight softLimit (records.drop before.flatten.length) with
      | mk chunks left =>
      cases chunks with
      | nil =>
          refine ⟨before ++ after, .done _, fun fewer _ => ⟨after, ?_⟩⟩
          rw [List.take_nil, List.append_nil]
      | cons chunk more =>
          have firstChunk : (pack recordWeight softLimit
              (records.drop before.flatten.length)).1 = chunk :: more := by rw [packed]
          have restarted := pack_restart recordWeight softLimit _ chunk more left packed
          rw [List.drop_drop] at restarted
          have positionNext : before.flatten.length + chunk.length =
              (before ++ [chunk]).flatten.length := by
            rw [List.flatten_append, List.length_append, List.flatten_singleton]
          rw [positionNext] at restarted
          rcases covered with ⟨beyond, recordsEq⟩
          have remaining : records.drop before.flatten.length = after.flatten ++ beyond := by
            rw [← recordsEq, List.flatten_append, List.append_assoc, List.drop_left]
          have coveredNext : (before ++ [chunk]).flatten <+: records := by
            have parts := pack_flatten recordWeight softLimit (records.drop before.flatten.length)
            rw [packed] at parts
            refine ⟨more.flatten ++ left, ?_⟩
            have recordsSplit := List.take_append_drop before.flatten.length records
            have beforeTake : records.take before.flatten.length = before.flatten := by
              rw [← recordsEq, List.flatten_append, List.append_assoc, List.take_left]
            rw [beforeTake, ← parts, List.flatten_cons] at recordsSplit
            rw [List.flatten_append, List.flatten_singleton, ← recordsSplit]
            simp only [List.append_assoc]
          -- One retiling, then the same pass behind the chunk.
          have continued : ∀ afterNext : List (List NativeCanonicalRecord),
              Retiles records chunk (before ++ after) ((before ++ [chunk]) ++ afterNext) →
              (∀ tile ∈ afterNext, tile ∈ after) →
              ((before ++ [chunk]) ++ afterNext).flatten <+: records →
              (∀ middle tile next rest, afterNext = middle ++ tile :: next :: rest →
                after = chunk :: afterNext) →
              ∃ later, RetilesAll records (before ++ after) ((chunk :: more).take (count + 1)) later ∧
                ∀ fewer, fewer ≤ count + 1 →
                  ∃ rest, later = before ++ (chunk :: more).take fewer ++ rest := by
            intro afterNext step subset coveredAll same
            rcases ih (fun tile member => whole tile (subset tile member))
              (fun tile member => nonempty tile (subset tile member)) coveredAll
              (by
                intro middle tile next rest split
                have afterEq := same middle tile next rest split
                have found := aligned (chunk :: middle) tile next rest (by rw [afterEq, split]; rfl)
                rw [show (before ++ [chunk]) ++ middle = before ++ (chunk :: middle) by
                  rw [List.append_assoc]; rfl]
                exact found) with ⟨later, steps, cuts⟩
            rw [restarted] at steps cuts
            refine ⟨later, .next step steps, fun fewer le => ?_⟩
            cases fewer with
            | zero =>
                rcases cuts 0 (Nat.zero_le _) with ⟨rest, laterEq⟩
                refine ⟨[chunk] ++ rest, ?_⟩
                rw [laterEq]
                simp only [List.take_zero, List.append_assoc, List.append_nil]
            | succ fewer =>
                rcases cuts fewer (Nat.le_of_succ_le_succ le) with ⟨rest, laterEq⟩
                refine ⟨rest, ?_⟩
                rw [laterEq, List.take_succ_cons]
                simp only [List.append_assoc, List.cons_append, List.nil_append]
          cases after with
          | nil =>
              apply continued []
              · rw [List.append_nil, List.append_nil]
                exact .add coveredNext
              · exact fun tile member => nomatch member
              · rw [List.append_nil]
                exact coveredNext
              · intro middle tile next rest split
                exact absurd split.symm (List.append_ne_nil_of_right_ne_nil _ (List.cons_ne_nil _ _))
          | cons tile others =>
              have tileWhole := whole tile List.mem_cons_self
              have tileNonempty := nonempty tile List.mem_cons_self
              rw [List.flatten_cons, List.append_assoc] at remaining
              rw [remaining] at firstChunk
              cases others with
              | nil =>
                  apply continued []
                  · rw [List.append_nil]
                    exact .extend (pack_first_extends recordWeight softLimit tileWhole firstChunk)
                      coveredNext
                  · exact fun other member => nomatch member
                  · rw [List.append_nil]
                    exact coveredNext
                  · intro middle other next rest split
                    exact absurd split.symm
                      (List.append_ne_nil_of_right_ne_nil _ (List.cons_ne_nil _ _))
              | cons next rest =>
                  have found := aligned [] tile next rest rfl
                  rw [List.append_nil, remaining] at found
                  have same : chunk = tile := first_chunk_of_tile tileNonempty tileWhole found firstChunk
                  subst same
                  apply continued (next :: rest)
                  · rw [List.append_assoc]
                    exact .again
                  · exact fun other member => List.mem_cons_of_mem _ member
                  · rw [List.append_assoc]
                    exact ⟨beyond, recordsEq⟩
                  · exact fun _ _ _ _ _ => rfl

/-- The condition of a hook pass, read on the tiles. -/
theorem Tiled.aligned {softLimitChars : Int} {before after : List (List NativeCanonicalRecord)}
    (tiled : Tiled sha256 source sessionId softLimitChars.toNat state (before ++ after))
    (grown : Grown state.records)
    (aligned : Aligned softLimitChars state before.flatten.length) :
    ∀ middle tile next rest, after = middle ++ tile :: next :: rest →
      (softLimitChars.toNat : ℕ∞) ≤ totalWeight tile ∨
        (∃ item items, next = item :: items ∧
          (softLimitChars.toNat : ℕ∞) < totalWeight (tile ++ [item])) ∨
        totalWeight (state.records.drop (before ++ middle).flatten.length) <
          softLimitChars.toNat := by
  rintro middle tile next rest rfl
  have split : before ++ (middle ++ tile :: next :: rest) =
      (before ++ middle) ++ (tile :: next :: rest) := by
    rw [List.append_assoc]
  have nonempty := tiled.nonempty
  have tilePositive : 0 < tile.length :=
    List.length_pos_iff.mpr (nonempty tile (by rw [split]; simp))
  have nextNonempty : next ≠ [] := nonempty next (by rw [split]; simp)
  generalize startEq : (before ++ middle).flatten.length = start
  have ranges : rangesFrom 0 (before ++ (middle ++ tile :: next :: rest)) =
      rangesFrom 0 (before ++ middle) ++ (start, start + tile.length - 1) ::
        (start + tile.length, start + tile.length + next.length - 1) ::
          rangesFrom (start + tile.length + next.length) rest := by
    rw [split, rangesFrom_append, Nat.zero_add, startEq]
    rfl
  have tileIn : (start, start + tile.length - 1) ∈ state.effectiveRanges := by
    apply tiled.mem_effectiveRanges grown
    rw [ranges]
    exact List.mem_append_right _ List.mem_cons_self
  have nextIn : (start + tile.length, start + tile.length + next.length - 1) ∈
      state.effectiveRanges := by
    apply tiled.mem_effectiveRanges grown
    rw [ranges]
    exact List.mem_append_right _ (List.mem_cons_of_mem _ List.mem_cons_self)
  rcases tiled.covered with ⟨beyond, recordsEq⟩
  rw [split, List.flatten_append, List.flatten_cons, List.flatten_cons] at recordsEq
  have behind : before.flatten.length ≤ start := by
    rw [← startEq, List.flatten_append, List.length_append]
    omega
  have found := aligned _ tileIn behind
    ⟨_, nextIn, show start + tile.length - 1 < start + tile.length by omega⟩
  dsimp only at found
  rcases List.exists_cons_of_ne_nil nextNonempty with ⟨item, items, nextEq⟩
  have tileSlice : slice state.records start (start + tile.length - 1 + 1) = tile := by
    rw [← recordsEq, ← startEq, show (before ++ middle).flatten.length + tile.length - 1 + 1 =
      (before ++ middle).flatten.length + tile.length by omega,
      show (before ++ middle).flatten ++ (tile ++ (next ++ rest.flatten)) ++ beyond =
        (before ++ middle).flatten ++ tile ++ (next ++ rest.flatten ++ beyond) by
          simp only [List.append_assoc]]
    exact slice_middle _ tile _
  have longerSlice : slice state.records start (start + tile.length - 1 + 2) = tile ++ [item] := by
    rw [← recordsEq, ← startEq, show (before ++ middle).flatten.length + tile.length - 1 + 2 =
      (before ++ middle).flatten.length + (tile ++ [item]).length by
        rw [List.length_append, List.length_singleton]
        omega,
      show (before ++ middle).flatten ++ (tile ++ (next ++ rest.flatten)) ++ beyond =
        (before ++ middle).flatten ++ (tile ++ [item]) ++ (items ++ rest.flatten ++ beyond) by
          rw [nextEq]
          simp only [List.append_assoc, List.cons_append, List.nil_append]]
    exact slice_middle _ (tile ++ [item]) _
  rw [tileSlice, longerSlice] at found
  rcases found with full | overflow | light
  · exact .inl full
  · exact .inr (.inl ⟨item, items, nextEq, overflow⟩)
  · exact .inr (.inr light)

/-! ### Passes that plan with the manifest -/

theorem RetilesAll.append {records : List NativeCanonicalRecord}
    {middle later first second : List (List NativeCanonicalRecord)}
    (earlier : RetilesAll records tiles first middle)
    (rest : RetilesAll records middle second later) :
    RetilesAll records tiles (first ++ second) later := by
  induction earlier with
  | done tiles => exact rest
  | next step others ih => exact .next step (ih rest)

theorem retiles_again {records : List NativeCanonicalRecord}
    {sent : List (List NativeCanonicalRecord)} (known : ∀ tile ∈ sent, tile ∈ tiles) :
    RetilesAll records tiles sent tiles := by
  induction sent with
  | nil => exact .done tiles
  | cons tile rest ih =>
      rcases List.append_of_mem (known tile List.mem_cons_self) with ⟨before, after, split⟩
      have again : Retiles records tile tiles tiles := by
        rw [split]
        exact .again
      exact .next again (ih fun other member => known other (List.mem_cons_of_mem _ member))

theorem retiles_add {records : List NativeCanonicalRecord}
    {sent : List (List NativeCanonicalRecord)} (covered : (tiles ++ sent).flatten <+: records) :
    RetilesAll records tiles sent (tiles ++ sent) := by
  induction sent generalizing tiles with
  | nil =>
      rw [List.append_nil]
      exact .done tiles
  | cons tile rest ih =>
      have regrouped : tiles ++ tile :: rest = (tiles ++ [tile]) ++ rest := by
        rw [List.append_assoc, List.singleton_append]
      rw [regrouped] at covered ⊢
      apply RetilesAll.next (Retiles.add _) (ih covered)
      rw [List.flatten_append] at covered
      exact (List.prefix_append _ _).trans covered

/-- Known ranges pushed by the anchored loop are planned from their chunks. -/
theorem reclosed_made {chunks : List (List NativeCanonicalRecord)}
    {segments : List NativePlannedSegment} {after : Nat}
    (made : Made sha256 source sessionId chunks segments) :
    Made sha256 source sessionId chunks (reclosed softLimit after chunks segments) := by
  induction made with
  | nil => exact .nil
  | cons first rest ih => exact .cons (planned_reclosed sha256 source sessionId first _) ih

/-- A filter on the right of related lists keeps partners on the left. -/
private theorem exists_filtered {α β : Type} {related : α → β → Prop} {left : List α}
    {right : List β} (all : List.Forall₂ related left right) (keep : β → Bool) :
    ∃ kept, List.Forall₂ related kept (right.filter keep) ∧ ∀ one ∈ kept, one ∈ left := by
  induction all with
  | nil => exact ⟨[], .nil, fun one member => member⟩
  | @cons one other left right here rest ih =>
      rcases ih with ⟨kept, keptRelated, subset⟩
      rw [List.filter_cons]
      split
      · refine ⟨one :: kept, .cons here keptRelated, fun item member => ?_⟩
        rcases List.mem_cons.mp member with rfl | later
        · exact List.mem_cons_self
        · exact List.mem_cons_of_mem _ (subset item later)
      · exact ⟨kept, keptRelated, fun item member => List.mem_cons_of_mem _ (subset item member)⟩

private theorem exists_made (made : ∀ tile ∈ tiles, ∃ segment,
      planned sha256 source sessionId tile true = .ok segment) :
    ∃ segments, Made sha256 source sessionId tiles segments := by
  induction tiles with
  | nil => exact ⟨[], .nil⟩
  | cons tile rest ih =>
      rcases made tile List.mem_cons_self with ⟨segment, first⟩
      rcases ih fun other member => made other (List.mem_cons_of_mem _ member) with
        ⟨segments, others⟩
      refine ⟨segment :: segments, .cons ?_ others⟩
      rw [planned_closed sha256 source sessionId first]
      exact first

/-- A planned tail is made from consecutive whole chunks. -/
theorem planTail_made {allowOpenSnapshot : Bool} {remaining : List NativeCanonicalRecord}
    {segments : List NativePlannedSegment}
    (made : planTail sha256 source sessionId softLimit allowOpenSnapshot remaining [] =
      .ok segments) :
    ∃ chunks, Made sha256 source sessionId chunks segments ∧
      (∀ chunk ∈ chunks, Whole recordWeight softLimit chunk) ∧ chunks.flatten <+: remaining := by
  rcases (planTail_ok_iff sha256 source sessionId softLimit allowOpenSnapshot remaining
    segments).mp made with ⟨closed, snapshot, rfl, closedMade, snapshotMade⟩
  have front := (packed_laid sha256 source sessionId softLimit remaining 0 closed closedMade).toMade
  have covered := pack_flatten recordWeight softLimit remaining
  have wholeClosed := pack_closed_whole recordWeight softLimit remaining
  split at snapshotMade
  · have back := (plannedAll_laid sha256 source sessionId softLimit false 0 _ _
      (fun _ _ _ _ isClosed => nomatch isClosed) snapshotMade).toMade
    refine ⟨_, List.rel_append front back, fun chunk member => ?_, ?_⟩
    · rcases List.mem_append.mp member with isClosed | isOpen
      · exact wholeClosed chunk isClosed
      · rw [List.mem_singleton.mp isOpen]
        exact pack_left_whole recordWeight softLimit remaining
    · rw [List.flatten_append, List.flatten_singleton, covered]
  · cases snapshotMade
    rw [List.append_nil]
    exact ⟨_, front, wholeClosed, _, covered⟩

theorem completeRecords_of_grown {records : List NativeCanonicalRecord} (grown : Grown records) :
    completeRecords records = records :=
  completeRecords_of_complete grown.complete

/-- The anchors of a tiled session are its tiles. -/
theorem Tiled.anchorsFor_ok (registered : parseSourceInfo source = .ok source)
    (tiled : Tiled sha256 source sessionId softLimit state tiles) :
    ∃ anchors, anchorsFor sha256 source sessionId (some (state.manifest source sessionId))
        state.records = .ok anchors ∧
      anchors.map Anchor.range = rangesFrom 0 tiles := by
  apply anchorsFor_described (rangesFrom_apart 0 tiled.nonempty) _ tiled.described
  obtain ⟨id, parsed, same⟩ := except_bind_ok registered
  have idEq : id = source.id := congrArg SourceInfo.id (Except.ok.inj same)
  rw [idEq] at parsed
  have again := parseSourceId_parsed "native session segments response" parsed
  exact ⟨⟨source.id, again, again⟩, rfl⟩

/-- A plan with the manifest repeats tiles and adds chunks behind them. -/
theorem update_retiles {softLimitChars : Int} {allowOpenSnapshot : Bool}
    {segments : List NativePlannedSegment} (registered : parseSourceInfo source = .ok source)
    (tiled : Tiled sha256 source sessionId softLimitChars.toNat state tiles)
    (grown : Grown state.records)
    (plan : planNativeSegments sha256 source sessionId state.records
      (some (state.manifest source sessionId)) softLimitChars allowOpenSnapshot = .ok segments)
    (count : Nat) :
    ∃ sent added, Made sha256 source sessionId sent (segments.take count) ∧
      (∀ tile ∈ sent, Whole recordWeight softLimitChars.toNat tile) ∧
      RetilesAll state.records tiles sent (tiles ++ added) := by
  rcases planNativeSegments_some plan with ⟨native, positive, valid, _⟩
  rcases tiled.anchorsFor_ok registered with ⟨anchors, found, ranges⟩
  rcases exists_made tiled.made with ⟨known, knownMade⟩
  rcases tiled.covered with ⟨remaining, recordsEq⟩
  have coveredComplete : completeRecords state.records = tiles.flatten ++ remaining := by
    rw [completeRecords_of_grown grown, recordsEq]
  rw [planNativeSegments_made native positive valid found ranges knownMade coveredComplete] at plan
  obtain ⟨tail, tailMade, same⟩ := except_bind_ok plan
  cases same
  rcases planTail_made tailMade with ⟨chunks, chunksMade, chunksWhole, chunksCovered⟩
  rcases exists_filtered (reclosed_made knownMade)
    (fun segment => segment.closed || allowOpenSnapshot) with ⟨kept, keptMade, subset⟩
  refine ⟨(kept ++ chunks).take count, chunks.take (count - kept.length), ?_, ?_, ?_⟩
  · exact List.forall₂_take count (List.rel_append keptMade chunksMade)
  · intro tile member
    rcases List.mem_append.mp (List.mem_of_mem_take member) with old | new
    · exact tiled.whole tile (subset tile old)
    · exact chunksWhole tile new
  · rw [List.take_append]
    apply RetilesAll.append (retiles_again fun tile member => subset tile (List.mem_of_mem_take member))
    apply retiles_add
    rw [List.flatten_append, ← recordsEq]
    apply (List.prefix_append_right_inj _).mpr
    rcases List.take_prefix (count - kept.length) chunks with ⟨others, chunksEq⟩
    refine (List.prefix_append _ others.flatten).trans ?_
    rw [← List.flatten_append, chunksEq]
    exact chunksCovered

/-! ### The cursor and the invariant of a run -/

/-- The cursor, if any, is the last record of some first tiles. -/
def CursorAt (records : List NativeCanonicalRecord) (before : List (List NativeCanonicalRecord))
    (id : JsString) : Prop :=
  before.flatten ≠ [] ∧ positionOf records id = some (before.flatten.length - 1)

/-- The session is tiled and its cursor stands between two tiles. -/
structure Sound (sha256 : JsString → JsString) (source : SourceInfo) (sessionId : JsString)
    (softLimit : ℕ∞) (state : WriterState) : Prop where
  grown : Grown state.records
  tiled : ∃ tiles, Tiled sha256 source sessionId softLimit state tiles ∧
    ∀ id, state.submittedThrough = some id →
      ∃ before after, tiles = before ++ after ∧ CursorAt state.records before id

theorem CursorAt.append {records : List NativeCanonicalRecord}
    {before : List (List NativeCanonicalRecord)} {id : JsString}
    (cursor : CursorAt records before id) (more : List NativeCanonicalRecord) :
    CursorAt (records ++ more) before id :=
  ⟨cursor.1, positionOf_append cursor.2 more⟩

/-- The hook resumes between two tiles. -/
theorem Tiled.resumes {cursor : Option JsString} {start : Nat}
    (tiled : Tiled sha256 source sessionId softLimit state tiles)
    (cursorAt : ∀ id, state.submittedThrough = some id →
      ∃ before after, tiles = before ++ after ∧ CursorAt state.records before id)
    (resumed : Resumes state cursor start) :
    ∃ before after, tiles = before ++ after ∧ start = before.flatten.length ∧
      ∀ id, cursor = some id → CursorAt state.records before id := by
  cases resumed with
  | @kept id position stored found =>
      rcases cursorAt id stored with ⟨before, after, split, nonempty, there⟩
      have positive := List.length_pos_iff.mpr nonempty
      rw [found] at there
      refine ⟨before, after, split, ?_, ?_⟩
      · have positionEq := Option.some.inj there
        omega
      · intro other same
        cases same
        exact ⟨nonempty, found.trans there⟩
  | @summary entry position lost inForce found =>
      rcases tiled.effective_at inForce with ⟨range, rangeIn, placed⟩
      rcases exists_tile rangeIn with ⟨before, tile, after, split, rangeEq⟩
      have positive := List.length_pos_iff.mpr (tiled.nonempty tile (by rw [split]; simp))
      have positionEq : position = before.flatten.length + tile.length - 1 := by
        have same := placed.last
        rw [found] at same
        have stops := Option.some.inj same
        rw [rangeEq] at stops
        dsimp only at stops
        omega
      have lengthEq : (before ++ [tile]).flatten.length = before.flatten.length + tile.length := by
        rw [List.flatten_append, List.length_append, List.flatten_singleton]
      refine ⟨before ++ [tile], after, by rw [split, List.append_assoc]; rfl, by omega, ?_⟩
      intro id same
      cases same
      refine ⟨List.ne_nil_of_length_pos (by omega), ?_⟩
      rw [found, lengthEq, positionEq]
  | restart lost =>
      exact ⟨[], tiles, rfl, rfl, fun id same => nomatch same⟩

/-- The cursor left behind by a hook pass stands behind the last acknowledged tile. -/
theorem cursor_after {records : List NativeCanonicalRecord}
    {before later rest sent : List (List NativeCanonicalRecord)}
    {segments : List NativePlannedSegment} {cursor : Option JsString} (grown : Grown records)
    (made : Made sha256 source sessionId sent segments) (laterEq : later = before ++ sent ++ rest)
    (within : later.flatten <+: records)
    (cursorAt : ∀ id, cursor = some id → CursorAt records before id) :
    ∀ id, (segments.getLast?.map (·.request.endSourceMessageId)).or cursor = some id →
      ∃ first others, later = first ++ others ∧ CursorAt records first id := by
  intro id found
  rcases List.eq_nil_or_concat segments with empty | ⟨front, segment, concat⟩
  · rw [empty] at found made
    cases made
    exact ⟨before, rest, by rw [laterEq, List.append_nil], cursorAt id found⟩
  · rw [List.concat_eq_append] at concat
    rw [concat] at made found
    rcases List.eq_nil_or_concat sent with empty | ⟨frontTiles, tile, tilesEq⟩
    · rw [empty] at made
      have lengths := made.length_eq
      rw [List.length_append] at lengths
      exact absurd lengths (by simp)
    · rw [List.concat_eq_append] at tilesEq
      rw [tilesEq] at made laterEq
      have lastMade : planned sha256 source sessionId tile segment.closed = .ok segment := by
        have reversed := List.rel_reverse made
        rw [List.reverse_append, List.reverse_append] at reversed
        exact (List.forall₂_cons.mp reversed).1
      rw [List.getLast?_append_of_ne_nil _ (List.cons_ne_nil _ _)] at found
      have endEq : segment.request.endSourceMessageId = id := by simpa using found
      have regrouped : later = (before ++ frontTiles) ++ tile :: rest := by
        rw [laterEq]
        simp only [List.append_assoc, List.singleton_append]
      have placed := (tile_entry grown regrouped within lastMade rfl).1.last
      have positive := List.length_pos_iff.mpr (planned_ne_nil sha256 source sessionId lastMade)
      have lengthEq : ((before ++ frontTiles) ++ [tile]).flatten.length =
          (before ++ frontTiles).flatten.length + tile.length := by
        rw [List.flatten_append, List.length_append, List.flatten_singleton]
      refine ⟨(before ++ frontTiles) ++ [tile], rest, ?_, ?_, ?_⟩
      · rw [regrouped, List.append_assoc _ [tile]]
        rfl
      · exact List.ne_nil_of_length_pos (by omega)
      · rw [← endEq, lengthEq]
        exact placed

theorem RetilesAll.covered {records : List NativeCanonicalRecord}
    {sent later : List (List NativeCanonicalRecord)}
    (steps : RetilesAll records tiles sent later) (within : tiles.flatten <+: records) :
    later.flatten <+: records := by
  induction steps with
  | done tiles => exact within
  | next step others ih => exact ih (step.covered within)

/-- Every step that meets its condition keeps the session tiled. -/
theorem Sound.step {softLimitChars : Int} {later : WriterState} {pass : Pass}
    (registered : parseSourceInfo source = .ok source)
    (sound : Sound sha256 source sessionId softLimitChars.toNat state)
    (taken : Step sha256 source sessionId softLimitChars state pass later)
    (meets : Meets softLimitChars state pass) :
    Sound sha256 source sessionId softLimitChars.toNat later := by
  rcases sound.tiled with ⟨tiles, tiled, cursorAt⟩
  cases taken with
  | grow complete matching fresh =>
      refine ⟨sound.grown.snoc complete matching meets fresh, tiles, tiled.grow, ?_⟩
      intro id stored
      rcases cursorAt id stored with ⟨before, after, split, cursor⟩
      exact ⟨before, after, split, cursor.append _⟩
  | @hook cursor start posted acknowledged segments targets resumed plan seen sent =>
      rcases tiled.resumes cursorAt resumed with ⟨before, after, rfl, startEq, cursorFrom⟩
      subst startEq
      have planTail := ((planNativeSegments_none sha256 source sessionId _ softLimitChars false
        segments).mp plan).2.2.2
      have complete : completeRecords (state.records.drop before.flatten.length) =
          state.records.drop before.flatten.length :=
        completeRecords_of_complete fun record member =>
          sound.grown.complete record (List.mem_of_mem_drop member)
      rw [complete] at planTail
      have closedMade := (plannedAll_laid sha256 source sessionId 0 true 0 _ _
        (fun _ _ _ _ _ => .inl zero_le)
        (planTail_filter_closed sha256 source sessionId planTail)).toMade
      rcases hook_retiles (fun tile member => tiled.whole tile (List.mem_append_right _ member))
        (fun tile member => tiled.nonempty tile (List.mem_append_right _ member)) tiled.covered
        (tiled.aligned sound.grown meets) posted with ⟨later, steps, cuts⟩
      have whole := pack_closed_whole recordWeight (softLimitChars.toNat : ℕ∞)
        (state.records.drop before.flatten.length)
      refine ⟨sound.grown, later, ?_, ?_⟩
      · have resent := Tiled.submits sound.grown sent tiled steps
          (fun tile member => whole tile (List.mem_of_mem_take member))
          (List.forall₂_take posted closedMade)
        exact ⟨resent.covered, resent.made, resent.whole, resent.described⟩
      · rcases cuts acknowledged seen with ⟨rest, laterEq⟩
        exact cursor_after sound.grown (List.forall₂_take acknowledged closedMade) laterEq
          (steps.covered tiled.covered) cursorFrom
  | @update allowOpenSnapshot posted segments targets plan sent =>
      rcases update_retiles registered tiled sound.grown plan posted with
        ⟨chunks, added, made, whole, steps⟩
      refine ⟨sound.grown, tiles ++ added,
        Tiled.submits sound.grown sent tiled steps whole made, ?_⟩
      intro id stored
      rcases cursorAt id stored with ⟨before, after, split, cursor⟩
      exact ⟨before, after ++ added, by rw [split, List.append_assoc], cursor⟩
  | settle desired =>
      exact ⟨sound.grown, tiles, tiled.settle sound.grown desired, cursorAt⟩

theorem sound_initial : Sound sha256 source sessionId softLimit WriterState.initial := by
  refine ⟨⟨?_, ?_, ?_, List.nodup_nil⟩, [], ⟨List.nil_prefix, ?_, ?_, ⟨?_, ?_, ?_, ?_⟩⟩, ?_⟩
  all_goals intro item member
  all_goals cases member

/-! ### No overlap -/

/-- A failure that is not an overlap of anchors does not become one later. -/
private theorem bind_no_overlap {α β : Type} {first : Except PlanError α}
    {next : α → Except PlanError β} (firstFine : first ≠ .error .anchorOverlap)
    (nextFine : ∀ value, next value ≠ .error .anchorOverlap) :
    (first >>= next) ≠ .error .anchorOverlap := by
  cases first with
  | error error => exact fun failed => firstFine (congrArg Except.error (Except.error.inj failed))
  | ok value => exact nextFine value

private theorem identityChecked_no_overlap {α : Type} (result : Except IdentityError α) :
    identityChecked result ≠ .error .anchorOverlap := by
  cases result with
  | error error => exact fun failed => nomatch failed
  | ok value => exact fun failed => nomatch failed

private theorem planned_no_overlap (records : List NativeCanonicalRecord) (closed : Bool) :
    planned sha256 source sessionId records closed ≠ .error .anchorOverlap := by
  apply bind_no_overlap
  · apply bind_no_overlap
    · unfold requestFor
      cases records.head? with
      | none => exact fun failed => nomatch failed
      | some first =>
          cases records.getLast? with
          | none => exact fun failed => nomatch failed
          | some last => exact identityChecked_no_overlap _
    · intro request
      exact bind_no_overlap (identityChecked_no_overlap _) fun name failed => nomatch failed
  · exact fun identified failed => nomatch failed

private theorem plannedAll_no_overlap (closed : Bool) (chunks : List (List NativeCanonicalRecord)) :
    plannedAll sha256 source sessionId closed chunks ≠ .error .anchorOverlap := by
  induction chunks with
  | nil => exact fun failed => nomatch failed
  | cons chunk rest ih =>
      apply bind_no_overlap (planned_no_overlap chunk closed)
      exact fun segment => bind_no_overlap ih fun segments failed => nomatch failed

private theorem planTail_no_overlap (allowOpenSnapshot : Bool)
    (remaining : List NativeCanonicalRecord) :
    planTail sha256 source sessionId softLimit allowOpenSnapshot remaining [] ≠
      .error .anchorOverlap := by
  unfold planTail
  rw [packRecords_pack]
  apply bind_no_overlap
  · exact bind_no_overlap (plannedAll_no_overlap _ _) fun segments failed => nomatch failed
  · intro packed
    dsimp only
    split
    · apply bind_no_overlap
      · unfold assertSegmentSize
        split <;> exact fun failed => nomatch failed
      · intro checked
        exact bind_no_overlap (planned_no_overlap _ _) fun segment failed => nomatch failed
    · exact fun failed => nomatch failed

private theorem validateRecordsFrom_no_overlap (seen : List JsString)
    (records : List NativeCanonicalRecord) :
    validateRecordsFrom seen records ≠ .error .anchorOverlap := by
  intro failed
  induction records generalizing seen with
  | nil => cases failed
  | cons record rest ih =>
      unfold validateRecordsFrom at failed
      split at failed
      · cases failed
      · split at failed
        · cases failed
        · exact ih _ failed

/-- A tiled session never makes the planner throw on overlapping anchors. -/
theorem Tiled.plan_no_overlap (registered : parseSourceInfo source = .ok source)
    (tiled : Tiled sha256 source sessionId softLimit state tiles) (grown : Grown state.records)
    (limit : Int) (allowOpenSnapshot : Bool) :
    planNativeSegments sha256 source sessionId state.records
        (some (state.manifest source sessionId)) limit allowOpenSnapshot ≠
      .error .anchorOverlap := by
  by_cases native : source.isNative = true
  · by_cases positive : 0 < limit
    · by_cases valid : validateRecords state.records = .ok ()
      · rcases tiled.anchorsFor_ok registered with ⟨anchors, found, ranges⟩
        rcases exists_made tiled.made with ⟨known, knownMade⟩
        rcases tiled.covered with ⟨remaining, recordsEq⟩
        have coveredComplete : completeRecords state.records = tiles.flatten ++ remaining := by
          rw [completeRecords_of_grown grown, recordsEq]
        rw [planNativeSegments_made native positive valid found ranges knownMade coveredComplete]
        exact bind_no_overlap (planTail_no_overlap _ _) fun tail failed => nomatch failed
      · unfold planNativeSegments
        rw [native, if_neg (by simp), if_neg (Int.not_le.mpr positive)]
        cases failed : validateRecords state.records with
        | error error =>
            intro same
            have errorEq : error = .anchorOverlap := Except.error.inj same
            rw [errorEq] at failed
            exact validateRecordsFrom_no_overlap [] _ failed
        | ok checked => exact absurd failed valid
    · unfold planNativeSegments
      rw [native, if_neg (by simp), if_pos (Int.not_lt.mp positive)]
      exact fun failed => nomatch failed
  · unfold planNativeSegments
    rw [if_pos (by simpa using native)]
    exact fun failed => nomatch failed

/-- The writers never create overlapping ranges in a run whose steps meet their condition:
new ids carry no surrounding white space, and each hook pass starts where every range in
force behind its cursor that another range follows ends where the packing closes. Then the
anchors of every manifest reached lie apart and planning never fails on overlapping anchors. -/
theorem writers_keep_ranges_apart (registered : parseSourceInfo source = .ok source)
    (softLimitChars : Int) (state : WriterState)
    (run : Reaches (Step sha256 source sessionId softLimitChars) (Meets softLimitChars)
      WriterState.initial state) :
    (∃ anchors, anchorsFor sha256 source sessionId (some (state.manifest source sessionId))
        state.records = .ok anchors ∧
      (∀ anchor ∈ anchors, anchor.start ≤ anchor.stop) ∧
      anchors.Pairwise fun left right => left.stop < right.start) ∧
    ∀ (limit : Int) (allowOpenSnapshot : Bool),
      planNativeSegments sha256 source sessionId state.records
          (some (state.manifest source sessionId)) limit allowOpenSnapshot ≠
        .error .anchorOverlap := by
  have sound : Sound sha256 source sessionId softLimitChars.toNat state :=
    run.invariant (fun _ _ _ before taken meets => before.step registered taken meets) sound_initial
  rcases sound.tiled with ⟨tiles, tiled, _⟩
  constructor
  · rcases tiled.anchorsFor_ok registered with ⟨anchors, found, ranges⟩
    refine ⟨anchors, found, anchorsFor_forward found, ?_⟩
    have ordered := (rangesFrom_apart 0 tiled.nonempty).ordered
    rw [← ranges, List.pairwise_map] at ordered
    exact ordered
  · exact tiled.plan_no_overlap registered sound.grown

end Passes

/-- A hook pass over `a`, `b` and `c` closes `a, b`; the sweep after it adds the open `c`. -/
theorem writers_keep_ranges_apart_sample :
    ∃ state : WriterState, state.targets.length = 2 ∧
      ∃ anchors, anchorsFor id sampleSource (ofString "session")
          (some (state.manifest sampleSource (ofString "session"))) state.records = .ok anchors ∧
        (∀ anchor ∈ anchors, anchor.start ≤ anchor.stop) ∧
        anchors.Pairwise fun left right => left.stop < right.start := by
  have evaluated : (performAll id sampleSource (ofString "session") 20000
      (fun state pass => decide (Meets 20000 state pass)) WriterState.initial
      [.grow (sampleRecord "a" 5000), .grow (sampleRecord "b" 14000),
        .grow (sampleRecord "c" 10000), .hook 0, .update true]).map (·.targets.length) = some 2 := by
    decide +kernel
  rcases Option.map_eq_some_iff.mp evaluated with ⟨state, performed, two⟩
  have run := performAll_reaches id sampleSource (ofString "session") 20000 performed
  simp only [decide_eq_true_eq] at run
  exact ⟨state, two, (writers_keep_ranges_apart rfl 20000 state run).1⟩

/-- A sweep submits the open `a`, an idle update freezes it and submits `b`, and the hook,
which has no cursor yet, submits `a, b` as one range: the anchors now overlap. -/
theorem writers_overlap :
    ∃ state, Reaches (Step id sampleSource (ofString "session") 20000) (fun _ _ => True)
        WriterState.initial state ∧
      anchorsFor id sampleSource (ofString "session")
          (some (state.manifest sampleSource (ofString "session"))) state.records =
        .error .anchorOverlap ∧
      planNativeSegments id sampleSource (ofString "session") state.records
          (some (state.manifest sampleSource (ofString "session"))) 20000 false =
        .error .anchorOverlap := by
  have evaluated : (performAll id sampleSource (ofString "session") 20000 (fun _ _ => true)
      WriterState.initial
      [.grow (sampleRecord "a" 5000), .update true, .grow (sampleRecord "b" 14000),
        .grow (sampleRecord "c" 10000), .update false, .hook 0]).map
      (fun state =>
        (anchorsFor id sampleSource (ofString "session")
            (some (state.manifest sampleSource (ofString "session"))) state.records,
          planNativeSegments id sampleSource (ofString "session") state.records
            (some (state.manifest sampleSource (ofString "session"))) 20000 false)) =
      some (.error .anchorOverlap, .error .anchorOverlap) := by
    decide +kernel
  rcases Option.map_eq_some_iff.mp evaluated with ⟨state, performed, failed⟩
  have run := performAll_reaches id sampleSource (ofString "session") 20000 performed
  simp only at run
  refine ⟨state, run, ?_, ?_⟩
  · exact congrArg Prod.fst failed
  · exact congrArg Prod.snd failed

end Reflection.Native
