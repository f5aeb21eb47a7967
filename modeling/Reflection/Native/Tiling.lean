/-
Sessions whose entries tile a prefix of the history.

Each tile is one chunk of the packing and every entry in force is one tile. Posting a
tile again, a longer last tile or a new tile at the end keeps a session tiled, and so
do new records and settled targets.
-/

import Reflection.Native.Writers

namespace Reflection.Native

open GreedyPacking JsString

/-! ### Ranges of tiles -/

theorem rangesFrom_append {α : Type} (position : Nat) (first second : List (List α)) :
    rangesFrom position (first ++ second) =
      rangesFrom position first ++ rangesFrom (position + first.flatten.length) second := by
  induction first generalizing position with
  | nil => rfl
  | cons chunk rest ih =>
      rw [List.cons_append, rangesFrom, rangesFrom, ih, List.flatten_cons, List.length_append,
        Nat.add_assoc]
      rfl

/-- A range of a tiling belongs to one tile. -/
theorem exists_tile {α : Type} {position : Nat} {tiles : List (List α)} {range : Nat × Nat}
    (member : range ∈ rangesFrom position tiles) :
    ∃ before tile after, tiles = before ++ tile :: after ∧
      range = (position + before.flatten.length,
        position + before.flatten.length + tile.length - 1) := by
  induction tiles generalizing position with
  | nil => cases member
  | cons chunk rest ih =>
      rcases List.mem_cons.mp member with same | later
      · exact ⟨[], chunk, rest, rfl, same⟩
      · rcases ih later with ⟨before, tile, after, split, same⟩
        refine ⟨chunk :: before, tile, after, by rw [split]; rfl, ?_⟩
        rw [same, List.flatten_cons, List.length_append, Nat.add_assoc]

section Tiling

variable {sha256 : JsString → JsString} {source : SourceInfo} {sessionId : JsString}

/-! ### Entries and their ids -/

/-- The id of an entry is made from the id of its first record. -/
theorem EntryAt.id_eq {records : List NativeCanonicalRecord} {entry : ManifestEntry}
    {start stop : Nat} (placed : EntryAt sha256 source sessionId records entry start stop) :
    entry.id = .source (trim source.id) (trim sessionId) 3 (trim entry.startSourceMessageId) := by
  rcases placed.named with ⟨identified, found, same⟩
  obtain ⟨request, requested, named⟩ := except_bind_ok found
  obtain ⟨name, nameMade, identifiedEq⟩ := except_bind_ok named
  cases identifiedEq
  rw [← same]
  have startBound := List.findIdx?_eq_some_iff_getElem.mp placed.first
  rcases startBound with ⟨inside, isStart, _⟩
  have headEq : (slice records start (stop + 1)).head? = some records[start] := by
    have ordered := placed.ordered
    unfold slice
    rw [List.head?_drop, List.getElem?_take_of_lt (by omega), List.getElem?_eq_getElem inside]
  unfold requestFor at requested
  rw [headEq] at requested
  cases ended : (slice records start (stop + 1)).getLast? with
  | none => rw [ended] at requested; cases requested
  | some last =>
      rw [ended] at requested
      have parsed := (parse_ok_iff.mp
        (contractChecked_ok_iff.mp (identityChecked_ok_iff.mp requested))).1
      unfold nativeSegmentIdForRequest at nameMade
      rw [parseNativeSegmentCreate_parsed
        (contractChecked_ok_iff.mp (identityChecked_ok_iff.mp requested))] at nameMade
      have named := identityChecked_ok_iff.mp nameMade
      obtain ⟨again, sameAgain, named⟩ := except_bind_ok named
      cases sameAgain
      obtain ⟨registry, _, named⟩ := except_bind_ok named
      split at named
      · cases named
      · split at named
        · cases named
        · cases named
          rw [← parsed]
          simp only [normalizeNativeSegmentCreate]
          rw [eq_of_beq isStart]

/-- Entries at one position have one id. -/
theorem EntryAt.id_of_start {records : List NativeCanonicalRecord} {one two : ManifestEntry}
    {start oneStop twoStop : Nat}
    (first : EntryAt sha256 source sessionId records one start oneStop)
    (second : EntryAt sha256 source sessionId records two start twoStop) : one.id = two.id := by
  rcases List.findIdx?_eq_some_iff_getElem.mp first.first with ⟨_, oneStart, _⟩
  rcases List.findIdx?_eq_some_iff_getElem.mp second.first with ⟨_, twoStart, _⟩
  rw [first.id_eq, second.id_eq, ← eq_of_beq oneStart, ← eq_of_beq twoStart]

/-- With trimmed ids, entries of one id stand at one position. -/
theorem EntryAt.start_of_id {records : List NativeCanonicalRecord} {one two : ManifestEntry}
    {oneStart oneStop twoStart twoStop : Nat}
    (trimmed : ∀ record ∈ records, Trimmed record.source.id)
    (first : EntryAt sha256 source sessionId records one oneStart oneStop)
    (second : EntryAt sha256 source sessionId records two twoStart twoStop)
    (same : one.id = two.id) : oneStart = twoStart := by
  have trimmedStart : ∀ {entry : ManifestEntry} {start stop : Nat},
      EntryAt sha256 source sessionId records entry start stop →
      trim entry.startSourceMessageId = entry.startSourceMessageId := by
    intro entry start stop placed
    rcases List.findIdx?_eq_some_iff_getElem.mp placed.first with ⟨inside, isStart, _⟩
    rw [← eq_of_beq isStart]
    exact trimmed _ (List.getElem_mem inside)
  rw [first.id_eq, second.id_eq, trimmedStart first, trimmedStart second] at same
  injection same with _ _ _ starts
  have positions := second.first
  rw [← starts, first.first] at positions
  exact Option.some.inj positions

/-! ### Tiled sessions -/

/-- The entries in force are the tiles of a prefix of the history. -/
structure Tiled (sha256 : JsString → JsString) (source : SourceInfo) (sessionId : JsString)
    (softLimit : ℕ∞) (state : WriterState) (tiles : List (List NativeCanonicalRecord)) : Prop where
  covered : tiles.flatten <+: state.records
  made : ∀ tile ∈ tiles, ∃ segment, planned sha256 source sessionId tile true = .ok segment
  whole : ∀ tile ∈ tiles, Whole recordWeight softLimit tile
  described : ManifestDescribes sha256 source sessionId state.records (rangesFrom 0 tiles)
    (state.manifest source sessionId)

/-- What every record of a session satisfies. -/
structure Grown (records : List NativeCanonicalRecord) : Prop where
  complete : ∀ record ∈ records, record.complete = true
  matching : ∀ record ∈ records, record.source.id = record.raw.id
  trimmed : ∀ record ∈ records, Trimmed record.source.id
  distinct : (recordIds records).Nodup

variable {softLimit : ℕ∞} {state : WriterState} {tiles : List (List NativeCanonicalRecord)}

theorem Tiled.nonempty (tiled : Tiled sha256 source sessionId softLimit state tiles) :
    ∀ tile ∈ tiles, tile ≠ [] := by
  intro tile member
  rcases tiled.made tile member with ⟨segment, made⟩
  exact planned_ne_nil sha256 source sessionId made

/-- One tile repeated, the last tile extended, or a tile added at the end. -/
inductive Retiles (records tile : List NativeCanonicalRecord) :
    List (List NativeCanonicalRecord) → List (List NativeCanonicalRecord) → Prop
  | again {before after : List (List NativeCanonicalRecord)} :
      Retiles records tile (before ++ tile :: after) (before ++ tile :: after)
  | extend {before : List (List NativeCanonicalRecord)} {last : List NativeCanonicalRecord}
      (longer : last <+: tile) (covered : (before ++ [tile]).flatten <+: records) :
      Retiles records tile (before ++ [last]) (before ++ [tile])
  | add {before : List (List NativeCanonicalRecord)}
      (covered : (before ++ [tile]).flatten <+: records) :
      Retiles records tile before (before ++ [tile])

/-- The tile of a retiling stands at one position, and elsewhere nothing changes. -/
theorem Retiles.ranges {records tile : List NativeCanonicalRecord}
    {later : List (List NativeCanonicalRecord)} (step : Retiles records tile tiles later) :
    ∃ before after, later = before ++ tile :: after ∧
      ∀ range : Nat × Nat, range.1 ≠ before.flatten.length →
        (range ∈ rangesFrom 0 tiles ↔ range ∈ rangesFrom 0 later) := by
  cases step with
  | @again before after => exact ⟨before, after, rfl, fun range _ => Iff.rfl⟩
  | @extend before last longer covered =>
      refine ⟨before, [], rfl, fun range elsewhere => ?_⟩
      rw [rangesFrom_append, rangesFrom_append, List.mem_append, List.mem_append]
      simp only [rangesFrom, List.mem_singleton, Nat.zero_add]
      constructor
      · rintro (earlier | same)
        · exact .inl earlier
        · exact absurd (congrArg Prod.fst same) elsewhere
      · rintro (earlier | same)
        · exact .inl earlier
        · exact absurd (congrArg Prod.fst same) elsewhere
  | add covered =>
      refine ⟨tiles, [], rfl, fun range elsewhere => ?_⟩
      rw [rangesFrom_append, List.mem_append]
      simp only [rangesFrom, List.mem_singleton, Nat.zero_add]
      constructor
      · exact .inl
      · rintro (earlier | same)
        · exact earlier
        · exact absurd (congrArg Prod.fst same) elsewhere

theorem Retiles.covered {records tile : List NativeCanonicalRecord}
    {later : List (List NativeCanonicalRecord)} (step : Retiles records tile tiles later)
    (within : tiles.flatten <+: records) : later.flatten <+: records := by
  cases step with
  | again => exact within
  | extend longer covered => exact covered
  | add covered => exact covered

theorem Retiles.mem {records tile : List NativeCanonicalRecord}
    {later : List (List NativeCanonicalRecord)} (step : Retiles records tile tiles later) :
    ∀ one ∈ later, one ∈ tiles ∨ one = tile := by
  intro one member
  cases step with
  | again => exact .inl member
  | extend longer covered =>
      rcases List.mem_append.mp member with earlier | last
      · exact .inl (List.mem_append_left _ earlier)
      · exact .inr (List.mem_singleton.mp last)
  | add covered =>
      rcases List.mem_append.mp member with earlier | last
      · exact .inl earlier
      · exact .inr (List.mem_singleton.mp last)

/-- The entry posted for the tile of a retiling names its range. -/
theorem tile_entry {records tile before : List NativeCanonicalRecord}
    {earlier after later : List (List NativeCanonicalRecord)} {closed : Bool}
    {segment : NativePlannedSegment} (grown : Grown records)
    (laterEq : later = earlier ++ tile :: after) (within : later.flatten <+: records)
    (made : planned sha256 source sessionId tile closed = .ok segment)
    (beforeEq : before = earlier.flatten) :
    EntryAt sha256 source sessionId records (entryOf segment) before.length
        (before.length + tile.length - 1) ∧
      (before.length, before.length + tile.length - 1) ∈ rangesFrom 0 later := by
  subst laterEq beforeEq
  constructor
  · rcases within with ⟨rest, same⟩
    have split : records = earlier.flatten ++ tile ++ (after.flatten ++ rest) := by
      rw [← same, List.flatten_append, List.flatten_cons]
      simp only [List.append_assoc]
    have distinct := grown.distinct
    have trimmed := grown.trimmed
    rw [split] at distinct trimmed ⊢
    exact entryOf_at made distinct fun record member => trimmed record
      (List.mem_append_left _ (List.mem_append_right _ member))
  · rw [rangesFrom_append]
    apply List.mem_append_right
    rw [Nat.zero_add]
    exact List.mem_cons_self

private theorem mem_postTarget {targets : List ManifestEntry} {entry other : ManifestEntry} :
    other ∈ postTarget targets entry ↔ (other ∈ targets ∧ other.id ≠ entry.id) ∨ other = entry := by
  simp [postTarget]

/-- Posting the tile of a retiling leaves the session tiled. -/
theorem Tiled.post {tile : List NativeCanonicalRecord} {later : List (List NativeCanonicalRecord)}
    {closed : Bool} {segment : NativePlannedSegment}
    (tiled : Tiled sha256 source sessionId softLimit state tiles) (grown : Grown state.records)
    (step : Retiles state.records tile tiles later) (whole : Whole recordWeight softLimit tile)
    (made : planned sha256 source sessionId tile closed = .ok segment) :
    Tiled sha256 source sessionId softLimit
      { state with targets := postTarget state.targets (entryOf segment) } later := by
  have within := step.covered tiled.covered
  rcases step.ranges with ⟨before, after, laterEq, elsewhere⟩
  obtain ⟨posted, postedIn⟩ := tile_entry grown laterEq within made rfl
  -- An entry of another id stands at another position, where the ranges are as before.
  have moved : ∀ {entry : ManifestEntry} {start stop : Nat},
      EntryAt sha256 source sessionId state.records entry start stop →
      entry.id ≠ segment.id → start ≠ before.flatten.length := by
    intro entry start stop placed differs same
    subst same
    exact differs (placed.id_of_start posted)
  refine ⟨within, ?_, ?_, ?_, ?_, tiled.described.agree, ?_⟩
  · intro one member
    rcases step.mem one member with earlier | same
    · exact tiled.made one earlier
    · rw [same]
      exact ⟨_, planned_reclosed sha256 source sessionId made true⟩
  · intro one member
    rcases step.mem one member with earlier | same
    · exact tiled.whole one earlier
    · rw [same]
      exact whole
  · intro entry member
    rcases mem_postTarget.mp member with ⟨old, differs⟩ | same
    · rcases tiled.described.targets entry old with ⟨range, rangeIn, placed⟩
      exact ⟨range, (elsewhere range (moved placed differs)).mp rangeIn, placed⟩
    · rw [same]
      exact ⟨_, postedIn, posted⟩
  · intro entry member
    rcases tiled.described.boundaries entry member with ⟨start, stop, placed, either⟩
    refine ⟨start, stop, placed, ?_⟩
    by_cases here : start = before.flatten.length
    · right
      refine ⟨entryOf segment, mem_postTarget.mpr (.inr rfl),
        before.flatten.length + tile.length - 1, ?_⟩
      rw [here]
      exact posted
    · rcases either with isTile | ⟨target, targetIn, last, targetAt⟩
      · exact .inl ((elsewhere (start, stop) here).mp isTile)
      · right
        refine ⟨target, mem_postTarget.mpr (.inl ⟨targetIn, fun same => here ?_⟩), last, targetAt⟩
        exact targetAt.start_of_id grown.trimmed posted same
  · intro range member
    by_cases here : range.1 = before.flatten.length
    · refine ⟨entryOf segment, List.mem_append_right _ (mem_postTarget.mpr (.inr rfl)),
        before.flatten.length + tile.length - 1, ?_⟩
      rw [here]
      exact posted
    · rcases tiled.described.all range ((elsewhere range here).mpr member) with
        ⟨entry, entryIn, stop, placed⟩
      refine ⟨entry, ?_, stop, placed⟩
      rcases List.mem_append.mp entryIn with boundary | target
      · exact List.mem_append_left _ boundary
      · apply List.mem_append_right
        apply mem_postTarget.mpr
        exact .inl ⟨target, fun same => here (placed.start_of_id grown.trimmed posted same)⟩

/-- A confirmed entry is a tile already, so the retiling changes nothing. -/
theorem Tiled.confirmed {tile : List NativeCanonicalRecord}
    {later : List (List NativeCanonicalRecord)} {closed : Bool} {segment : NativePlannedSegment}
    (tiled : Tiled sha256 source sessionId softLimit state tiles) (grown : Grown state.records)
    (step : Retiles state.records tile tiles later)
    (made : planned sha256 source sessionId tile closed = .ok segment)
    (inForce : entryOf segment ∈ state.targets ∨
      entryOf segment ∈ state.boundaries ∧ ∀ target ∈ state.targets, target.id ≠ segment.id) :
    later = tiles := by
  have within := step.covered tiled.covered
  have placedRange : ∀ {start stop : Nat},
      EntryAt sha256 source sessionId state.records (entryOf segment) start stop →
      (start, stop) ∈ rangesFrom 0 tiles := by
    intro start stop placed
    rcases inForce with target | ⟨boundary, noTarget⟩
    · rcases tiled.described.targets _ target with ⟨range, rangeIn, there⟩
      rcases entryAt_unique placed there with ⟨startEq, stopEq⟩
      rw [startEq, stopEq]
      exact rangeIn
    · rcases tiled.described.boundaries _ boundary with ⟨_, _, there, isTile | others⟩
      · rcases entryAt_unique placed there with ⟨startEq, stopEq⟩
        rw [startEq, stopEq]
        exact isTile
      · rcases others with ⟨target, targetIn, last, targetAt⟩
        exact absurd (targetAt.id_of_start there) (noTarget target targetIn)
  cases step with
  | again => rfl
  | @extend before last longer covered =>
      have range := placedRange (tile_entry grown rfl within made rfl).1
      rw [rangesFrom_append, List.mem_append, Nat.zero_add] at range
      have nonempty : ∀ one ∈ before, one ≠ [] :=
        fun one member => tiled.nonempty one (List.mem_append_left _ member)
      have positive := List.length_pos_iff.mpr
        (tiled.nonempty last (List.mem_append_right _ List.mem_cons_self))
      rcases range with earlier | same
      · have bounds := rangesFrom_bounds nonempty _ earlier
        dsimp only at bounds
        omega
      · simp only [rangesFrom, List.mem_singleton, Prod.mk.injEq, true_and] at same
        have tilePositive := List.length_pos_iff.mpr (planned_ne_nil sha256 source sessionId made)
        rw [longer.eq_of_length (by omega)]
  | add covered =>
      have range := placedRange (tile_entry grown rfl within made rfl).1
      have bounds := rangesFrom_bounds tiled.nonempty _ range
      dsimp only at bounds
      omega

/-- Retilings one after another. -/
inductive RetilesAll (records : List NativeCanonicalRecord) :
    List (List NativeCanonicalRecord) → List (List NativeCanonicalRecord) →
      List (List NativeCanonicalRecord) → Prop
  | done (tiles : List (List NativeCanonicalRecord)) : RetilesAll records tiles [] tiles
  | next {tiles middle later : List (List NativeCanonicalRecord)}
      {tile : List NativeCanonicalRecord} {rest : List (List NativeCanonicalRecord)}
      (step : Retiles records tile tiles middle) (others : RetilesAll records middle rest later) :
      RetilesAll records tiles (tile :: rest) later

/-- Submitting the tiles of retilings leaves the session tiled. -/
theorem Tiled.submits {sent later : List (List NativeCanonicalRecord)}
    {segments : List NativePlannedSegment} {targets finish : List ManifestEntry}
    (grown : Grown state.records)
    (submitted : Submits state.boundaries targets segments finish)
    (tiled : Tiled sha256 source sessionId softLimit { state with targets := targets } tiles)
    (steps : RetilesAll state.records tiles sent later)
    (whole : ∀ tile ∈ sent, Whole recordWeight softLimit tile)
    (made : Made sha256 source sessionId sent segments) :
    Tiled sha256 source sessionId softLimit { state with targets := finish } later := by
  induction submitted generalizing tiles sent with
  | done targets =>
      cases made
      cases steps
      exact tiled
  | post others ih =>
      rcases List.forall₂_cons_right_iff.mp made with ⟨tile, tilesLeft, here, more, sentEq⟩
      subst sentEq
      cases steps with
      | next step remaining =>
          have posted := tiled.post grown step (whole tile List.mem_cons_self) here
          exact ih posted remaining (fun one member => whole one (List.mem_cons_of_mem _ member)) more
  | skip confirmed others ih =>
      rcases List.forall₂_cons_right_iff.mp made with ⟨tile, tilesLeft, here, more, sentEq⟩
      subst sentEq
      cases steps with
      | next step remaining =>
          have unchanged := tiled.confirmed grown step here confirmed
          subst unchanged
          exact ih tiled remaining (fun one member => whole one (List.mem_cons_of_mem _ member)) more

/-- A settled target becomes the boundary of its tile. -/
theorem Tiled.settle {entry : ManifestEntry}
    (tiled : Tiled sha256 source sessionId softLimit state tiles) (grown : Grown state.records)
    (desired : entry ∈ state.targets) :
    Tiled sha256 source sessionId softLimit
      { state with
        targets := state.targets.filter fun target => target.id ≠ entry.id
        boundaries := (state.boundaries.filter fun boundary => boundary.id ≠ entry.id) ++ [entry] }
      tiles := by
  rcases tiled.described.targets entry desired with ⟨tile, tileIn, settled⟩
  have keptTarget : ∀ {target : ManifestEntry}, target ∈ state.targets → target.id ≠ entry.id →
      target ∈ state.targets.filter fun target => target.id ≠ entry.id := by
    intro target member differs
    exact List.mem_filter.mpr ⟨member, decide_eq_true differs⟩
  have oldOrSettled : ∀ {boundary : ManifestEntry},
      boundary ∈ (state.boundaries.filter fun boundary => boundary.id ≠ entry.id) ++ [entry] →
      (boundary ∈ state.boundaries ∧ boundary.id ≠ entry.id) ∨ boundary = entry := by
    intro boundary member
    rcases List.mem_append.mp member with old | new
    · exact .inl ⟨(List.mem_filter.mp old).1, of_decide_eq_true (List.mem_filter.mp old).2⟩
    · exact .inr (List.mem_singleton.mp new)
  refine ⟨tiled.covered, tiled.made, tiled.whole, ?_, ?_, ?_, ?_⟩
  · intro target member
    exact tiled.described.targets target (List.mem_filter.mp member).1
  · intro boundary member
    rcases oldOrSettled member with ⟨old, differs⟩ | same
    · rcases tiled.described.boundaries boundary old with ⟨start, stop, placed, either⟩
      refine ⟨start, stop, placed, ?_⟩
      rcases either with isTile | ⟨target, targetIn, last, targetAt⟩
      · exact .inl isTile
      · right
        refine ⟨target, keptTarget targetIn ?_, last, targetAt⟩
        rw [targetAt.id_of_start placed]
        exact differs
    · rw [same]
      exact ⟨tile.1, tile.2, settled, .inl tileIn⟩
  · intro left leftIn right rightIn start leftStop rightStop leftAt rightAt
    rcases oldOrSettled leftIn with ⟨leftOld, leftDiffers⟩ | leftSame
    · rcases oldOrSettled rightIn with ⟨rightOld, _⟩ | rightSame
      · exact tiled.described.agree left leftOld right rightOld start leftStop rightStop leftAt
          rightAt
      · rw [rightSame] at rightAt
        exact absurd (leftAt.id_of_start rightAt) leftDiffers
    · rcases oldOrSettled rightIn with ⟨_, rightDiffers⟩ | rightSame
      · rw [leftSame] at leftAt
        exact absurd (rightAt.id_of_start leftAt) rightDiffers
      · rw [leftSame] at leftAt
        rw [rightSame] at rightAt
        exact (entryAt_unique leftAt rightAt).2
  · intro range member
    rcases tiled.described.all range member with ⟨other, otherIn, stop, placed⟩
    by_cases same : other.id = entry.id
    · have start := placed.start_of_id grown.trimmed settled same
      refine ⟨entry, List.mem_append_left _ (List.mem_append_right _ List.mem_cons_self), tile.2, ?_⟩
      rw [start]
      exact settled
    · refine ⟨other, ?_, stop, placed⟩
      rcases List.mem_append.mp otherIn with boundary | target
      · apply List.mem_append_left
        apply List.mem_append_left
        exact List.mem_filter.mpr ⟨boundary, decide_eq_true same⟩
      · exact List.mem_append_right _ (keptTarget target same)

/-- New records leave the tiles where they are. -/
theorem Tiled.grow {record : NativeCanonicalRecord}
    (tiled : Tiled sha256 source sessionId softLimit state tiles) :
    Tiled sha256 source sessionId softLimit { state with records := state.records ++ [record] }
      tiles := by
  refine ⟨tiled.covered.trans (List.prefix_append _ _), tiled.made, tiled.whole, ?_, ?_, ?_, ?_⟩
  · intro entry member
    rcases tiled.described.targets entry member with ⟨range, rangeIn, placed⟩
    exact ⟨range, rangeIn, placed.append [record]⟩
  · intro entry member
    rcases tiled.described.boundaries entry member with ⟨start, stop, placed, either⟩
    refine ⟨start, stop, placed.append [record], ?_⟩
    rcases either with isTile | ⟨target, targetIn, last, targetAt⟩
    · exact .inl isTile
    · exact .inr ⟨target, targetIn, last, targetAt.append [record]⟩
  · intro left leftIn right rightIn start leftStop rightStop leftAt rightAt
    -- Both entries stand where they stood before the new record.
    rcases tiled.described.boundaries left leftIn with ⟨leftStart, leftEnd, leftOld, _⟩
    rcases tiled.described.boundaries right rightIn with ⟨rightStart, rightEnd, rightOld, _⟩
    rcases entryAt_unique leftAt (leftOld.append [record]) with ⟨leftStartEq, leftStopEq⟩
    rcases entryAt_unique rightAt (rightOld.append [record]) with ⟨rightStartEq, rightStopEq⟩
    rw [← leftStartEq] at leftOld
    rw [← rightStartEq] at rightOld
    rw [leftStopEq, rightStopEq]
    exact tiled.described.agree left leftIn right rightIn start leftEnd rightEnd leftOld rightOld
  · intro range member
    rcases tiled.described.all range member with ⟨entry, entryIn, stop, placed⟩
    exact ⟨entry, entryIn, stop, placed.append [record]⟩

theorem Grown.snoc {records : List NativeCanonicalRecord} (grown : Grown records)
    {record : NativeCanonicalRecord} (complete : record.complete = true)
    (matching : record.source.id = record.raw.id) (trimmed : Trimmed record.source.id)
    (fresh : record.source.id ∉ recordIds records) : Grown (records ++ [record]) := by
  have either : ∀ {other : NativeCanonicalRecord}, other ∈ records ++ [record] →
      other ∈ records ∨ other = record := by
    intro other member
    rcases List.mem_append.mp member with old | new
    · exact .inl old
    · exact .inr (List.mem_singleton.mp new)
  refine ⟨?_, ?_, ?_, ?_⟩
  · intro other member
    rcases either member with old | rfl
    · exact grown.complete other old
    · exact complete
  · intro other member
    rcases either member with old | rfl
    · exact grown.matching other old
    · exact matching
  · intro other member
    rcases either member with old | rfl
    · exact grown.trimmed other old
    · exact trimmed
  · have distinct := grown.distinct
    unfold recordIds at distinct fresh ⊢
    rw [List.map_append, List.nodup_append]
    refine ⟨distinct, List.nodup_singleton _, fun one oneIn two twoIn same => fresh ?_⟩
    rw [List.map_singleton, List.mem_singleton] at twoIn
    rw [← twoIn, ← same]
    exact oneIn

/-- The entries in force are the tiles. -/
theorem Tiled.effective_at (tiled : Tiled sha256 source sessionId softLimit state tiles)
    {entry : ManifestEntry} (inForce : entry ∈ state.effective) :
    ∃ range ∈ rangesFrom 0 tiles,
      EntryAt sha256 source sessionId state.records entry range.1 range.2 := by
  rcases List.mem_append.mp inForce with target | boundary
  · exact tiled.described.targets entry target
  · rcases List.mem_filter.mp boundary with ⟨isBoundary, noTarget⟩
    rcases tiled.described.boundaries entry isBoundary with ⟨start, stop, placed, either⟩
    rcases either with isTile | ⟨target, targetIn, last, targetAt⟩
    · exact ⟨(start, stop), isTile, placed⟩
    · have differs := of_decide_eq_true (List.all_eq_true.mp noTarget target targetIn)
      exact absurd (targetAt.id_of_start placed) differs

theorem Tiled.mem_effectiveRanges
    (tiled : Tiled sha256 source sessionId softLimit state tiles) (grown : Grown state.records)
    {range : Nat × Nat} (member : range ∈ rangesFrom 0 tiles) : range ∈ state.effectiveRanges := by
  have apart := rangesFrom_apart 0 tiled.nonempty
  -- Some entry in force starts where the tile starts, so it is the tile.
  have starts : ∃ entry ∈ state.effective, ∃ stop,
      EntryAt sha256 source sessionId state.records entry range.1 stop := by
    rcases tiled.described.all range member with ⟨entry, entryIn, stop, placed⟩
    rcases List.mem_append.mp entryIn with boundary | target
    · by_cases noTarget : ∀ target ∈ state.targets, target.id ≠ entry.id
      · refine ⟨entry, List.mem_append_right _ (List.mem_filter.mpr ⟨boundary, ?_⟩), stop, placed⟩
        exact List.all_eq_true.mpr fun target targetIn => decide_eq_true (noTarget target targetIn)
      · push Not at noTarget
        rcases noTarget with ⟨target, targetIn, same⟩
        rcases tiled.described.targets target targetIn with ⟨tile, _, targetAt⟩
        rw [targetAt.start_of_id grown.trimmed placed same] at targetAt
        exact ⟨target, List.mem_append_left _ targetIn, tile.2, targetAt⟩
    · exact ⟨entry, List.mem_append_left _ target, stop, placed⟩
  rcases starts with ⟨entry, inForce, stop, placed⟩
  rcases tiled.effective_at inForce with ⟨tile, tileIn, tileAt⟩
  have same := apart.eq_of_start tileIn member (entryAt_unique tileAt placed).1
  rw [same] at tileAt
  refine List.mem_filterMap.mpr ⟨entry, inForce, ?_⟩
  rw [tileAt.first, tileAt.last]

end Tiling

end Reflection.Native
