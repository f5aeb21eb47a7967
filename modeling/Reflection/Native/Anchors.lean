/-
Anchors of a manifest that describes a tiling of the history.

Every entry of such a manifest names a range of the history by its first and last
id. Targets are tiles; a boundary is a tile or starts where a target starts. The
sorted anchors then reduce to exactly the tiles, in order and without overlap.
-/

import Reflection.Foundation.Lists
import Reflection.Native.Layout

namespace Reflection.Native

/-! ### Reducing sorted anchors -/

/-- Ranges, both ends included, that lie apart and in order. -/
structure Apart (ranges : List (Nat × Nat)) : Prop where
  forward : ∀ range ∈ ranges, range.1 ≤ range.2
  ordered : ranges.Pairwise (fun left right => left.2 < right.1)

namespace Apart

variable {ranges : List (Nat × Nat)}

private theorem either (apart : Apart ranges) {left right : Nat × Nat} (leftIn : left ∈ ranges)
    (rightIn : right ∈ ranges) : left = right ∨ left.2 < right.1 ∨ right.2 < left.1 :=
  List.Pairwise.forall_of_forall_of_flip
    (R := fun left right : Nat × Nat => left = right ∨ left.2 < right.1 ∨ right.2 < left.1)
    (fun _ _ => .inl rfl) (apart.ordered.imp fun before => .inr (.inl before))
    (apart.ordered.imp fun before => .inr (.inr before)) leftIn rightIn

/-- Ranges that start together are one range. -/
theorem eq_of_start (apart : Apart ranges) {left right : Nat × Nat} (leftIn : left ∈ ranges)
    (rightIn : right ∈ ranges) (same : left.1 = right.1) : left = right := by
  have leftForward := apart.forward left leftIn
  have rightForward := apart.forward right rightIn
  rcases apart.either leftIn rightIn with equal | before | after
  · exact equal
  · omega
  · omega

/-- A range ends before any range that starts later. -/
theorem before_of_start (apart : Apart ranges) {left right : Nat × Nat} (leftIn : left ∈ ranges)
    (rightIn : right ∈ ranges) (earlier : left.1 < right.1) : left.2 < right.1 := by
  have rightForward := apart.forward right rightIn
  rcases apart.either leftIn rightIn with equal | before | after
  · rw [equal] at earlier
    exact absurd earlier (Nat.lt_irrefl _)
  · exact before
  · omega

end Apart

/-- Anchors that describe given ranges: targets are ranges, and a boundary is a range
or shares its start with a target. -/
structure Describes (ranges : List (Nat × Nat)) (anchors : List Anchor) : Prop where
  targets : ∀ anchor ∈ anchors, anchor.target = true → (anchor.start, anchor.stop) ∈ ranges
  boundaries : ∀ anchor ∈ anchors, anchor.target = false →
    (anchor.start, anchor.stop) ∈ ranges ∨
      ∃ target ∈ anchors, target.target = true ∧ target.start = anchor.start
  agree : ∀ left ∈ anchors, ∀ right ∈ anchors, left.target = false → right.target = false →
    left.start = right.start → left.stop = right.stop

namespace Describes

variable {ranges : List (Nat × Nat)} {anchors : List Anchor}

theorem perm (described : Describes ranges anchors) {others : List Anchor}
    (same : anchors.Perm others) : Describes ranges others where
  targets anchor member := described.targets anchor (same.mem_iff.mpr member)
  boundaries anchor member isBoundary := by
    rcases described.boundaries anchor (same.mem_iff.mpr member) isBoundary with
      placed | ⟨target, targetIn, rest⟩
    · exact .inl placed
    · exact .inr ⟨target, same.mem_iff.mp targetIn, rest⟩
  agree left leftIn right rightIn :=
    described.agree left (same.mem_iff.mpr leftIn) right (same.mem_iff.mpr rightIn)

/-- Every anchor starts where a range starts. -/
theorem start_mem (described : Describes ranges anchors) {anchor : Anchor}
    (member : anchor ∈ anchors) : ∃ range ∈ ranges, range.1 = anchor.start := by
  cases flag : anchor.target with
  | true => exact ⟨_, described.targets anchor member flag, rfl⟩
  | false =>
      rcases described.boundaries anchor member flag with placed | ⟨target, targetIn, isTarget, same⟩
      · exact ⟨_, placed, rfl⟩
      · exact ⟨_, described.targets target targetIn isTarget, same⟩

/-- One of two anchors with one start may be left out, unless it is the only target. -/
theorem merge {left right kept : Anchor} {rest : List Anchor}
    (described : Describes ranges (left :: right :: rest)) (same : right.start = left.start)
    (chosen : kept = left ∨ kept = right)
    (target : left.target = true ∨ right.target = true → kept.target = true) :
    Describes ranges (kept :: rest) := by
  have keptStart : kept.start = left.start := by
    rcases chosen with rfl | rfl
    · rfl
    · exact same
  have subset : ∀ anchor ∈ kept :: rest, anchor ∈ left :: right :: rest := by
    intro anchor member
    rcases List.mem_cons.mp member with rfl | later
    · rcases chosen with rfl | rfl
      · exact List.mem_cons_self
      · exact List.mem_cons_of_mem _ List.mem_cons_self
    · exact List.mem_cons_of_mem _ (List.mem_cons_of_mem _ later)
  refine ⟨fun anchor member => described.targets anchor (subset anchor member), ?_, ?_⟩
  · intro anchor member isBoundary
    rcases described.boundaries anchor (subset anchor member) isBoundary with
      placed | ⟨witness, witnessIn, isTarget, sameStart⟩
    · exact .inl placed
    · right
      rcases List.mem_cons.mp witnessIn with rfl | others
      · exact ⟨kept, List.mem_cons_self, target (.inl isTarget), keptStart.trans sameStart⟩
      · rcases List.mem_cons.mp others with rfl | later
        · exact ⟨kept, List.mem_cons_self, target (.inr isTarget),
            keptStart.trans (same.symm.trans sameStart)⟩
        · exact ⟨witness, List.mem_cons_of_mem _ later, isTarget, sameStart⟩
  · intro one oneIn two twoIn
    exact described.agree one (subset one oneIn) two (subset two twoIn)

/-- When the first anchor starts alone it is a range, and the others describe theirs. -/
theorem alone {first : Anchor} {rest : List Anchor} (described : Describes ranges (first :: rest))
    (later : ∀ anchor ∈ rest, first.start < anchor.start) :
    (first.start, first.stop) ∈ ranges ∧ Describes ranges rest := by
  constructor
  · cases flag : first.target with
    | true => exact described.targets first List.mem_cons_self flag
    | false =>
        rcases described.boundaries first List.mem_cons_self flag with
          placed | ⟨target, targetIn, isTarget, same⟩
        · exact placed
        · rcases List.mem_cons.mp targetIn with rfl | member
          · rw [flag] at isTarget
            cases isTarget
          · exact absurd same (Nat.ne_of_gt (later target member))
  · refine ⟨fun anchor member => described.targets anchor (List.mem_cons_of_mem _ member), ?_, ?_⟩
    · intro anchor member isBoundary
      rcases described.boundaries anchor (List.mem_cons_of_mem _ member) isBoundary with
        placed | ⟨target, targetIn, isTarget, same⟩
      · exact .inl placed
      · rcases List.mem_cons.mp targetIn with rfl | others
        · exact absurd same (Nat.ne_of_lt (later anchor member))
        · exact .inr ⟨target, others, isTarget, same⟩
    · intro one oneIn two twoIn
      exact described.agree one (List.mem_cons_of_mem _ oneIn) two (List.mem_cons_of_mem _ twoIn)

end Describes

/-- The reduction keeps one anchor for each start, and that anchor is a range. -/
theorem uniqueAnchorsFrom_ok {ranges : List (Nat × Nat)} (apart : Apart ranges)
    (kept : List Anchor) (previous : Anchor) (rest : List Anchor)
    (sorted : (previous :: rest).Pairwise Anchor.Le)
    (described : Describes ranges (previous :: rest)) :
    ∃ more, uniqueAnchorsFrom kept previous rest = .ok (kept ++ more) ∧
      more.Pairwise (fun left right => left.start < right.start) ∧
      (∀ anchor ∈ more, previous.start ≤ anchor.start ∧ (anchor.start, anchor.stop) ∈ ranges) ∧
      ∀ anchor ∈ previous :: rest, ∃ one ∈ more, one.start = anchor.start := by
  induction rest generalizing kept previous with
  | nil =>
      refine ⟨[previous], rfl, List.pairwise_singleton _ _, ?_, ?_⟩
      · intro anchor member
        rw [List.mem_singleton.mp member]
        exact ⟨Nat.le_refl _, (described.alone fun _ none => nomatch none).1⟩
      · intro anchor member
        exact ⟨previous, List.mem_singleton_self _, by rw [List.mem_singleton.mp member]⟩
  | cons anchor rest ih =>
      obtain ⟨previousLe, sortedRest⟩ := List.pairwise_cons.mp sorted
      obtain ⟨anchorLe, _⟩ := List.pairwise_cons.mp sortedRest
      unfold uniqueAnchorsFrom
      by_cases same : anchor.start = previous.start
      · rw [if_pos same]
        -- Both anchors stand for one range; the kept one is a target if either is.
        have merged : ∀ chosen : Anchor, chosen = previous ∨ chosen = anchor →
            (previous.target = true ∨ anchor.target = true → chosen.target = true) →
            ∃ more, uniqueAnchorsFrom kept chosen rest = .ok (kept ++ more) ∧
              more.Pairwise (fun left right => left.start < right.start) ∧
              (∀ one ∈ more, previous.start ≤ one.start ∧ (one.start, one.stop) ∈ ranges) ∧
              ∀ one ∈ previous :: anchor :: rest, ∃ found ∈ more, found.start = one.start := by
          intro chosen either target
          have chosenStart : chosen.start = previous.start := by
            rcases either with rfl | rfl
            · rfl
            · exact same
          have chosenSorted : (chosen :: rest).Pairwise Anchor.Le := by
            rcases either with rfl | rfl
            · exact sorted.sublist (List.cons_sublist_cons.mpr (List.sublist_cons_self _ _))
            · exact sortedRest
          obtain ⟨more, reduced, increasing, placed, covered⟩ :=
            ih kept chosen chosenSorted (described.merge same either target)
          refine ⟨more, reduced, increasing, fun one member => ?_, fun one member => ?_⟩
          · rw [← chosenStart]
            exact placed one member
          · rcases List.mem_cons.mp member with rfl | others
            · obtain ⟨found, foundIn, start⟩ := covered chosen List.mem_cons_self
              exact ⟨found, foundIn, start.trans chosenStart⟩
            · rcases List.mem_cons.mp others with rfl | later
              · obtain ⟨found, foundIn, start⟩ := covered chosen List.mem_cons_self
                exact ⟨found, foundIn, start.trans (chosenStart.trans same.symm)⟩
              · exact covered one (List.mem_cons_of_mem _ later)
        by_cases differ : anchor.target ≠ previous.target
        · rw [if_pos differ]
          refine merged _ ?_ ?_
          · split
            · exact .inr rfl
            · exact .inl rfl
          · intro isTarget
            cases flag : anchor.target with
            | true => exact flag
            | false =>
                rcases isTarget with previousTarget | anchorTarget
                · exact previousTarget
                · rw [flag] at anchorTarget
                  cases anchorTarget
        · rw [if_neg differ]
          rw [not_not] at differ
          have stops : anchor.stop = previous.stop := by
            cases flag : anchor.target with
            | true =>
                have one := described.targets anchor (by simp) flag
                have two := described.targets previous (by simp) (differ ▸ flag)
                exact congrArg Prod.snd (apart.eq_of_start one two same)
            | false =>
                exact described.agree anchor (by simp) previous (by simp) flag (differ ▸ flag) same
          rw [if_neg (not_not.mpr stops)]
          refine merged previous (.inl rfl) ?_
          rintro (isTarget | isTarget)
          · exact isTarget
          · rw [← differ]
            exact isTarget
      · rw [if_neg same]
        have increases : previous.start < anchor.start := by
          rcases previousLe anchor List.mem_cons_self with less | ⟨equal, _⟩
          · exact less
          · exact absurd equal.symm same
        have alone := described.alone (fun other member => by
          rcases List.mem_cons.mp member with rfl | later
          · exact increases
          · rcases anchorLe other later with less | ⟨equal, _⟩
            · exact Nat.lt_trans increases less
            · exact equal ▸ increases)
        obtain ⟨range, rangeIn, rangeStart⟩ := alone.2.start_mem List.mem_cons_self
        have separate := apart.before_of_start alone.1 rangeIn (by rw [rangeStart]; exact increases)
        rw [if_neg (by rw [rangeStart] at separate; exact Nat.not_le.mpr separate)]
        obtain ⟨more, reduced, increasing, placed, covered⟩ :=
          ih (kept ++ [previous]) anchor sortedRest alone.2
        refine ⟨previous :: more, by rw [reduced, List.append_assoc]; rfl, ?_, ?_, ?_⟩
        · refine List.pairwise_cons.mpr ⟨fun one member => ?_, increasing⟩
          exact Nat.lt_of_lt_of_le increases (placed one member).1
        · intro one member
          rcases List.mem_cons.mp member with rfl | later
          · exact ⟨Nat.le_refl _, alone.1⟩
          · exact ⟨Nat.le_trans (Nat.le_of_lt increases) (placed one later).1,
              (placed one later).2⟩
        · intro one member
          rcases List.mem_cons.mp member with rfl | later
          · exact ⟨one, List.mem_cons_self, rfl⟩
          · obtain ⟨found, foundIn, start⟩ := covered one later
            exact ⟨found, List.mem_cons_of_mem _ foundIn, start⟩

private theorem anchorLe_total (left right : Anchor) : Anchor.Le left right ∨ Anchor.Le right left := by
  unfold Anchor.Le
  omega

private theorem anchorLe_trans (one two three : Anchor) (first : Anchor.Le one two)
    (second : Anchor.Le two three) : Anchor.Le one three := by
  unfold Anchor.Le at *
  omega

instance : Std.Total Anchor.Le := ⟨anchorLe_total⟩

instance : IsTrans Anchor Anchor.Le := ⟨anchorLe_trans⟩

def Anchor.range (anchor : Anchor) : Nat × Nat := (anchor.start, anchor.stop)

/-- Anchors that describe every range of a list reduce to exactly that list. -/
theorem uniqueAnchors_ok {ranges : List (Nat × Nat)} (apart : Apart ranges)
    {anchors : List Anchor} (described : Describes ranges anchors)
    (all : ∀ range ∈ ranges, ∃ anchor ∈ anchors, anchor.start = range.1) :
    ∃ unique, uniqueAnchors (anchors.insertionSort Anchor.Le) = .ok unique ∧
      unique.map Anchor.range = ranges := by
  have sorted := List.pairwise_insertionSort Anchor.Le anchors
  have permuted := (List.perm_insertionSort Anchor.Le anchors).symm
  have sortedDescribed := described.perm permuted
  cases shape : anchors.insertionSort Anchor.Le with
  | nil =>
      refine ⟨[], rfl, ?_⟩
      cases ranges with
      | nil => rfl
      | cons range others =>
          obtain ⟨anchor, member, _⟩ := all range List.mem_cons_self
          rw [permuted.mem_iff, shape] at member
          cases member
  | cons first rest =>
      rw [shape] at sorted sortedDescribed permuted
      obtain ⟨unique, reduced, increasing, placed, covered⟩ :=
        uniqueAnchorsFrom_ok apart [] first rest sorted sortedDescribed
      refine ⟨unique, reduced, ?_⟩
      have uniqueStarts : (unique.map Anchor.range).Pairwise
          (fun left right => left.1 < right.1) := List.pairwise_map.mpr increasing
      have rangeStarts : ranges.Pairwise (fun left right : Nat × Nat => left.1 < right.1) :=
        apart.ordered.imp_of_mem fun leftIn _ before =>
          Nat.lt_of_le_of_lt (apart.forward _ leftIn) before
      refine List.Pairwise.eq_of_mem_iff uniqueStarts rangeStarts fun range => ⟨?_, ?_⟩
      · intro member
        obtain ⟨anchor, anchorIn, rfl⟩ := List.mem_map.mp member
        exact (placed anchor anchorIn).2
      · intro member
        obtain ⟨anchor, anchorIn, start⟩ := all range member
        obtain ⟨one, oneIn, oneStart⟩ := covered anchor (permuted.mem_iff.mp anchorIn)
        refine List.mem_map.mpr ⟨one, oneIn, ?_⟩
        exact apart.eq_of_start (placed one oneIn).2 member (oneStart.trans start)

/-- The reduction invents no anchor. -/
theorem uniqueAnchorsFrom_mem {kept : List Anchor} {previous : Anchor} {rest unique : List Anchor}
    (reduced : uniqueAnchorsFrom kept previous rest = .ok unique) :
    ∀ anchor ∈ unique, anchor ∈ kept ++ previous :: rest := by
  induction rest generalizing kept previous with
  | nil =>
      cases reduced
      exact fun anchor member => member
  | cons next rest ih =>
      intro anchor member
      unfold uniqueAnchorsFrom at reduced
      split at reduced
      · split at reduced
        · have found := ih reduced anchor member
          simp only [List.mem_append, List.mem_cons] at found ⊢
          split at found <;> tauto
        · split at reduced
          · cases reduced
          · have found := ih reduced anchor member
            simp only [List.mem_append, List.mem_cons] at found ⊢
            tauto
      · split at reduced
        · cases reduced
        · have found := ih reduced anchor member
          simp only [List.mem_append, List.mem_cons, List.append_assoc, List.singleton_append]
            at found ⊢
          exact found

/-! ### Entries that name ranges of the history -/

theorem positionOf_append {records : List NativeCanonicalRecord} {id : JsString} {position : Nat}
    (found : positionOf records id = some position) (more : List NativeCanonicalRecord) :
    positionOf (records ++ more) id = some position := by
  unfold positionOf at found ⊢
  rw [List.findIdx?_append, found]
  rfl

theorem positionOf_lt {records : List NativeCanonicalRecord} {id : JsString} {position : Nat}
    (found : positionOf records id = some position) : position < records.length :=
  (List.findIdx?_eq_some_iff_getElem.mp found).1

/-- In a history with distinct ids every record is found where it stands. -/
theorem positionOf_middle {before after : List NativeCanonicalRecord}
    {record : NativeCanonicalRecord}
    (distinct : (recordIds (before ++ record :: after)).Nodup) :
    positionOf (before ++ record :: after) record.source.id = some before.length := by
  have absent : positionOf before record.source.id = none := by
    refine List.findIdx?_eq_none_iff.mpr fun other member => ?_
    rw [recordIds, List.map_append, List.nodup_append] at distinct
    exact beq_eq_false_iff_ne.mpr
      (distinct.2.2 _ (List.mem_map_of_mem member) _ List.mem_cons_self)
  unfold positionOf at absent ⊢
  rw [List.findIdx?_append, absent, List.findIdx?_cons, beq_self_eq_true]
  simp

theorem slice_middle {α : Type} (before middle after : List α) :
    slice (before ++ middle ++ after) before.length (before.length + middle.length) = middle := by
  unfold slice
  rw [← List.length_append, List.take_left, List.drop_left]

theorem slice_append {α : Type} (values more : List α) {start stop : Nat}
    (inside : stop ≤ values.length) : slice (values ++ more) start stop = slice values start stop := by
  unfold slice
  rw [List.take_append_of_le_length inside]

section Entries

variable (sha256 : JsString → JsString) (source : SourceInfo) (sessionId : JsString)

/-- `entry` names the records from position `start` to position `stop`. -/
structure EntryAt (records : List NativeCanonicalRecord) (entry : ManifestEntry)
    (start stop : Nat) : Prop where
  ordered : start ≤ stop
  first : positionOf records entry.startSourceMessageId = some start
  last : positionOf records entry.endSourceMessageId = some stop
  named : ∃ identified,
    identify sha256 source sessionId (slice records start (stop + 1)) = .ok identified ∧
      identified.id = entry.id

/-- The entry a server keeps for a submitted segment. -/
def entryOf (segment : NativePlannedSegment) : ManifestEntry :=
  { id := segment.id
    startSourceMessageId := segment.request.startSourceMessageId
    endSourceMessageId := segment.request.endSourceMessageId }

variable {sha256 source sessionId}

theorem EntryAt.append {records : List NativeCanonicalRecord} {entry : ManifestEntry}
    {start stop : Nat} (placed : EntryAt sha256 source sessionId records entry start stop)
    (more : List NativeCanonicalRecord) :
    EntryAt sha256 source sessionId (records ++ more) entry start stop where
  ordered := placed.ordered
  first := positionOf_append placed.first more
  last := positionOf_append placed.last more
  named := by
    rw [slice_append records more (Nat.succ_le_of_lt (positionOf_lt placed.last))]
    exact placed.named

/-- The entry of a planned range names that range when its ids carry no white space. -/
theorem entryOf_at {before chunk after : List NativeCanonicalRecord} {closed : Bool}
    {segment : NativePlannedSegment}
    (made : planned sha256 source sessionId chunk closed = .ok segment)
    (distinct : (recordIds (before ++ chunk ++ after)).Nodup)
    (trimmed : ∀ record ∈ chunk, JsString.Trimmed record.source.id) :
    EntryAt sha256 source sessionId (before ++ chunk ++ after) (entryOf segment) before.length
      (before.length + chunk.length - 1) := by
  obtain ⟨identified, found, rfl⟩ := (planned_ok_iff sha256 source sessionId).mp made
  obtain ⟨first, last, headed, ended, startEq, endEq, _⟩ :=
    identify_request sha256 source sessionId found
  have positive : 0 < chunk.length := by
    cases chunk with
    | nil => cases headed
    | cons _ _ => exact Nat.succ_pos _
  refine ⟨by omega, ?_, ?_, identified, ?_, rfl⟩
  · obtain ⟨rest, rfl⟩ := List.head?_eq_some_iff.mp headed
    change positionOf _ identified.request.startSourceMessageId = _
    rw [startEq, trimmed first List.mem_cons_self]
    rw [List.append_assoc, List.cons_append] at distinct ⊢
    exact positionOf_middle distinct
  · obtain ⟨rest, rfl⟩ := List.getLast?_eq_some_iff.mp ended
    change positionOf _ identified.request.endSourceMessageId = _
    rw [endEq, trimmed last (List.mem_append_right _ List.mem_cons_self)]
    have split : before ++ (rest ++ [last]) ++ after = (before ++ rest) ++ last :: after := by
      simp only [List.append_assoc, List.singleton_append]
    rw [split] at distinct ⊢
    rw [positionOf_middle distinct, List.length_append, List.length_append, List.length_singleton]
    rfl
  · rw [show before.length + chunk.length - 1 + 1 = before.length + chunk.length by omega,
      slice_middle]
    exact found

theorem anchorFor_at {records : List NativeCanonicalRecord} {entry : ManifestEntry}
    {start stop : Nat} (placed : EntryAt sha256 source sessionId records entry start stop)
    (target : Bool) :
    anchorFor sha256 source sessionId records entry target =
      .ok (some { start := start, stop := stop, target := target }) := by
  obtain ⟨identified, found, same⟩ := placed.named
  unfold anchorFor
  rw [placed.first, placed.last]
  change (if stop < start then _ else _) = _
  rw [if_neg (Nat.not_lt.mpr placed.ordered), found, except_ok_bind, if_neg (not_not.mpr same)]

/-- Entries that all name ranges are collected one by one. -/
theorem collectAnchors_at {records : List NativeCanonicalRecord}
    {entries : List (ManifestEntry × Bool)}
    (placed : ∀ pair ∈ entries, ∃ start stop,
      EntryAt sha256 source sessionId records pair.1 start stop) :
    ∃ anchors, collectAnchors sha256 source sessionId records entries = .ok anchors ∧
      List.Forall₂ (fun (pair : ManifestEntry × Bool) (anchor : Anchor) =>
        EntryAt sha256 source sessionId records pair.1 anchor.start anchor.stop ∧
          anchor.target = pair.2) entries anchors := by
  induction entries with
  | nil => exact ⟨[], rfl, .nil⟩
  | cons pair rest ih =>
      obtain ⟨anchors, collected, related⟩ :=
        ih fun other member => placed other (List.mem_cons_of_mem _ member)
      obtain ⟨start, stop, here⟩ := placed pair List.mem_cons_self
      refine ⟨{ start := start, stop := stop, target := pair.2 } :: anchors, ?_,
        .cons ⟨here, rfl⟩ related⟩
      unfold collectAnchors
      rw [anchorFor_at here pair.2, collected]
      rfl

/-- A manifest its source and session accept. -/
def Owned (source : SourceInfo) (sessionId : JsString) (manifest : NativeSessionSegmentsResponse) :
    Prop :=
  (∃ owner, parseSourceId manifest.sourceId "native session segments response" = .ok owner ∧
    parseSourceId source.id "native session segments response" = .ok owner) ∧
    manifest.sessionId = sessionId

theorem Owned.parsed {manifest : NativeSessionSegmentsResponse}
    (owned : Owned source sessionId manifest) :
    ∃ owner, parseManifest manifest source.id = .ok { manifest with sourceId := owner } := by
  obtain ⟨⟨owner, sourceParsed, expectedParsed⟩, _⟩ := owned
  refine ⟨owner, ?_⟩
  unfold parseManifest
  rw [sourceParsed, expectedParsed, except_ok_bind, except_ok_bind, if_neg (not_not.mpr rfl)]

/-- Reading anchors from a manifest starts by checking its owner. -/
theorem owned_of_anchorsFor {manifest : NativeSessionSegmentsResponse}
    {records : List NativeCanonicalRecord} {anchors : List Anchor}
    (found : anchorsFor sha256 source sessionId (some manifest) records = .ok anchors) :
    Owned source sessionId manifest := by
  obtain ⟨parsed, accepted, checked⟩ := except_bind_ok found
  have parsedManifest := contractChecked_ok_iff.mp (identityChecked_ok_iff.mp accepted)
  obtain ⟨owner, sourceParsed, rest⟩ := except_bind_ok parsedManifest
  obtain ⟨expected, expectedParsed, same⟩ := except_bind_ok rest
  split at same
  · cases same
  rename_i equal
  cases same
  rw [not_not] at equal
  split at checked
  · cases checked
  rename_i session
  exact ⟨⟨owner, sourceParsed, equal ▸ expectedParsed⟩, not_not.mp session⟩

variable (sha256 source sessionId) in
/-- The entries of a manifest that describes a list of ranges. -/
structure ManifestDescribes (records : List NativeCanonicalRecord) (ranges : List (Nat × Nat))
    (manifest : NativeSessionSegmentsResponse) : Prop where
  targets : ∀ entry ∈ manifest.targets, ∃ range ∈ ranges,
    EntryAt sha256 source sessionId records entry range.1 range.2
  boundaries : ∀ entry ∈ manifest.boundaries, ∃ start stop,
    EntryAt sha256 source sessionId records entry start stop ∧
      ((start, stop) ∈ ranges ∨ ∃ target ∈ manifest.targets, ∃ last,
        EntryAt sha256 source sessionId records target start last)
  agree : ∀ left ∈ manifest.boundaries, ∀ right ∈ manifest.boundaries,
    ∀ start leftStop rightStop,
      EntryAt sha256 source sessionId records left start leftStop →
      EntryAt sha256 source sessionId records right start rightStop → leftStop = rightStop
  all : ∀ range ∈ ranges, ∃ entry ∈ manifest.boundaries ++ manifest.targets, ∃ stop,
    EntryAt sha256 source sessionId records entry range.1 stop

theorem entryAt_unique {records : List NativeCanonicalRecord} {entry : ManifestEntry}
    {start stop otherStart otherStop : Nat}
    (one : EntryAt sha256 source sessionId records entry start stop)
    (two : EntryAt sha256 source sessionId records entry otherStart otherStop) :
    start = otherStart ∧ stop = otherStop :=
  ⟨Option.some.inj (one.first.symm.trans two.first), Option.some.inj (one.last.symm.trans two.last)⟩

/-- Entries of a manifest, with the flag that says whether they are targets. -/
private theorem mem_manifestEntries {manifest : NativeSessionSegmentsResponse}
    {pair : ManifestEntry × Bool} :
    pair ∈ manifestEntries manifest ↔
      pair.1 ∈ manifest.boundaries ∧ pair.2 = false ∨ pair.1 ∈ manifest.targets ∧ pair.2 = true := by
  obtain ⟨entry, flag⟩ := pair
  cases flag <;> simp [manifestEntries]

/-- The anchors of a manifest that describes ranges are these ranges. -/
theorem anchorsFor_described {records : List NativeCanonicalRecord} {ranges : List (Nat × Nat)}
    {manifest : NativeSessionSegmentsResponse} (apart : Apart ranges)
    (owned : Owned source sessionId manifest)
    (described : ManifestDescribes sha256 source sessionId records ranges manifest) :
    ∃ unique, anchorsFor sha256 source sessionId (some manifest) records = .ok unique ∧
      unique.map Anchor.range = ranges := by
  obtain ⟨owner, parsed⟩ := owned.parsed
  have placed : ∀ pair ∈ manifestEntries manifest, ∃ start stop,
      EntryAt sha256 source sessionId records pair.1 start stop := by
    intro pair member
    rcases mem_manifestEntries.mp member with ⟨isBoundary, _⟩ | ⟨isTarget, _⟩
    · obtain ⟨start, stop, here, _⟩ := described.boundaries pair.1 isBoundary
      exact ⟨start, stop, here⟩
    · obtain ⟨range, _, here⟩ := described.targets pair.1 isTarget
      exact ⟨range.1, range.2, here⟩
  obtain ⟨anchors, collected, related⟩ := collectAnchors_at placed
  -- Every collected anchor comes from an entry and every entry gives one.
  have entryOfAnchor : ∀ anchor ∈ anchors, ∃ pair ∈ manifestEntries manifest,
      EntryAt sha256 source sessionId records pair.1 anchor.start anchor.stop ∧
        anchor.target = pair.2 := fun anchor member => exists_left_of_forall₂ related member
  have anchorOfEntry : ∀ pair ∈ manifestEntries manifest, ∃ anchor ∈ anchors,
      EntryAt sha256 source sessionId records pair.1 anchor.start anchor.stop ∧
        anchor.target = pair.2 := fun pair member => exists_right_of_forall₂ related member
  have describes : Describes ranges anchors := by
    refine ⟨fun anchor member isTarget => ?_, fun anchor member isBoundary => ?_, ?_⟩
    · obtain ⟨pair, pairIn, here, flag⟩ := entryOfAnchor anchor member
      rcases mem_manifestEntries.mp pairIn with ⟨_, no⟩ | ⟨inTargets, _⟩
      · rw [flag, no] at isTarget
        cases isTarget
      · obtain ⟨range, rangeIn, there⟩ := described.targets pair.1 inTargets
        obtain ⟨startEq, stopEq⟩ := entryAt_unique here there
        rw [startEq, stopEq]
        exact rangeIn
    · obtain ⟨pair, pairIn, here, flag⟩ := entryOfAnchor anchor member
      rcases mem_manifestEntries.mp pairIn with ⟨inBoundaries, _⟩ | ⟨_, no⟩
      · obtain ⟨start, stop, there, either⟩ := described.boundaries pair.1 inBoundaries
        obtain ⟨startEq, stopEq⟩ := entryAt_unique here there
        rcases either with isRange | ⟨target, targetIn, last, targetAt⟩
        · exact .inl (by rw [startEq, stopEq]; exact isRange)
        · obtain ⟨other, otherIn, otherAt, otherFlag⟩ :=
            anchorOfEntry (target, true) (mem_manifestEntries.mpr (.inr ⟨targetIn, rfl⟩))
          exact .inr ⟨other, otherIn, otherFlag,
            (entryAt_unique otherAt targetAt).1.trans startEq.symm⟩
      · rw [flag, no] at isBoundary
        cases isBoundary
    · intro left leftIn right rightIn leftFlag rightFlag same
      obtain ⟨one, oneIn, oneAt, oneFlag⟩ := entryOfAnchor left leftIn
      obtain ⟨two, twoIn, twoAt, twoFlag⟩ := entryOfAnchor right rightIn
      rcases mem_manifestEntries.mp oneIn with ⟨oneBoundary, _⟩ | ⟨_, no⟩
      · rcases mem_manifestEntries.mp twoIn with ⟨twoBoundary, _⟩ | ⟨_, no⟩
        · exact described.agree one.1 oneBoundary two.1 twoBoundary left.start left.stop right.stop
            oneAt (same ▸ twoAt)
        · rw [twoFlag, no] at rightFlag
          cases rightFlag
      · rw [oneFlag, no] at leftFlag
        cases leftFlag
  have all : ∀ range ∈ ranges, ∃ anchor ∈ anchors, anchor.start = range.1 := by
    intro range member
    obtain ⟨entry, entryIn, stop, here⟩ := described.all range member
    have listed : ∃ flag, (entry, flag) ∈ manifestEntries manifest := by
      rcases List.mem_append.mp entryIn with inBoundaries | inTargets
      · exact ⟨false, mem_manifestEntries.mpr (.inl ⟨inBoundaries, rfl⟩)⟩
      · exact ⟨true, mem_manifestEntries.mpr (.inr ⟨inTargets, rfl⟩)⟩
    obtain ⟨flag, pairIn⟩ := listed
    obtain ⟨anchor, anchorIn, there, _⟩ := anchorOfEntry _ pairIn
    exact ⟨anchor, anchorIn, (entryAt_unique there here).1⟩
  obtain ⟨unique, reduced, same⟩ := uniqueAnchors_ok apart describes all
  refine ⟨unique, ?_, same⟩
  simp only [anchorsFor, parsed, contractChecked_ok, identityChecked_ok, except_ok_bind]
  rw [if_neg (not_not.mpr owned.2)]
  change (collectAnchors sha256 source sessionId records (manifestEntries manifest) >>= _) = _
  rw [collected]
  exact reduced

/-- Anchors never end before they start. -/
theorem anchorsFor_forward {records : List NativeCanonicalRecord}
    {manifest : Option NativeSessionSegmentsResponse} {anchors : List Anchor}
    (found : anchorsFor sha256 source sessionId manifest records = .ok anchors) :
    ∀ anchor ∈ anchors, anchor.start ≤ anchor.stop := by
  cases manifest with
  | none =>
      cases found
      exact fun anchor member => nomatch member
  | some manifest =>
      obtain ⟨parsed, _, checked⟩ := except_bind_ok found
      split at checked
      · cases checked
      obtain ⟨collected, gathered, reduced⟩ := except_bind_ok checked
      have forward : ∀ anchor ∈ collected, anchor.start ≤ anchor.stop := by
        clear reduced
        generalize manifestEntries parsed = entries at gathered
        induction entries generalizing collected with
        | nil =>
            cases gathered
            exact fun anchor member => nomatch member
        | cons pair rest ih =>
            obtain ⟨head, here, others⟩ := except_bind_ok gathered
            obtain ⟨tail, more, same⟩ := except_bind_ok others
            cases same
            intro anchor member
            rcases List.mem_append.mp member with isHead | later
            · rw [Option.mem_toList] at isHead
              cases isHead
              unfold anchorFor at here
              split at here
              · split at here
                · cases here
                · rename_i ordered
                  obtain ⟨_, _, named⟩ := except_bind_ok here
                  split at named
                  · cases named
                  · cases named
                    exact Nat.not_lt.mp ordered
              · cases here
            · exact ih tail more anchor later
      intro anchor member
      refine forward anchor ?_
      rw [← List.mem_insertionSort Anchor.Le]
      cases shape : collected.insertionSort Anchor.Le with
      | nil =>
          rw [shape] at reduced
          cases reduced
          cases member
      | cons first rest =>
          rw [shape] at reduced
          exact uniqueAnchorsFrom_mem reduced anchor member

end Entries

end Reflection.Native
