/-
What the notice says about the messages it replaces.

A message with an id before the tail lies in the range of a summary that ends by the cut,
in an explicit marker, or among the messages counted as dropped. When summaries cannot be
read, the previous notice's archive is repeated instead, and it stands for what it accounted
for then. A ledger carries that along a run.
-/

import Reflection.Cursor.LatestUser
import Reflection.Cursor.PrefixStability

namespace Reflection.Cursor

open JsString

/-! ### The scan for gaps -/

def gapMarker (first last : JsString) : JsString :=
  ofString "[Reflection omitted " ++ first ++ ofString ".." ++ last ++
    ofString ": missing-or-stale-summary]"

/-- A message with this id is at this position. -/
def Named (messages : List Message) (position : Nat) (id : JsString) : Prop :=
  ∃ message, messages[position]? = some message ∧ message.id = some id

/-- A marker among the parts names messages around a position. -/
def InMarker (messages : List Message) (parts : List JsString) (index : Nat) : Prop :=
  ∃ first last from_ to_, gapMarker first last ∈ parts ∧ Named messages from_ first ∧
    Named messages to_ last ∧ from_ ≤ index ∧ index ≤ to_

def InRange (ranges : List (Nat × Nat)) (index : Nat) : Prop :=
  ∃ range ∈ ranges, range.1 ≤ index ∧ index ≤ range.2

/-- The gap that is still open reaches around a position. -/
def InPending (messages : List Message) (pending : Option (JsString × JsString)) (index : Nat) :
    Prop :=
  ∃ first last from_ to_, pending = some (first, last) ∧ Named messages from_ first ∧
    Named messages to_ last ∧ from_ ≤ index ∧ index ≤ to_

theorem InMarker.mono {messages : List Message} {parts more : List JsString} {index : Nat}
    (subset : parts ⊆ more) (marked : InMarker messages parts index) :
    InMarker messages more index := by
  obtain ⟨first, last, from_, to_, member, rest⟩ := marked
  exact ⟨first, last, from_, to_, subset member, rest⟩

theorem GapScan.close_parts (scan : GapScan) : scan.parts ⊆ scan.close.parts := by
  unfold GapScan.close
  split
  · exact List.Subset.refl _
  · exact List.subset_append_left _ _

theorem GapScan.close_ranges (scan : GapScan) : scan.close.ranges = scan.ranges := by
  unfold GapScan.close
  split <;> rfl

theorem GapScan.close_pending (scan : GapScan) : scan.close.pending = none := by
  unfold GapScan.close
  split
  · assumption
  · rfl

theorem GapScan.close_marks (scan : GapScan) {messages : List Message} {index : Nat}
    (pending : InPending messages scan.pending index) :
    InMarker messages scan.close.parts index := by
  obtain ⟨first, last, from_, to_, isPending, rest⟩ := pending
  refine ⟨first, last, from_, to_, ?_, rest⟩
  unfold GapScan.close
  rw [isPending]
  exact List.mem_append_right _ List.mem_cons_self

/-- What the scan knows after some messages: each with an id is covered by a range, in a
marker or in the open gap. -/
structure GapsScanned (messages : List Message) (source : ArchiveSource) (entries : List (Message × Nat))
    (scan : GapScan) : Prop where
  parts : source.parts ⊆ scan.parts
  ranges : scan.ranges ⊆ source.ranges
  opened : ∀ first last, scan.pending = some (first, last) →
    ∃ entry ∈ entries, entry.1.id = some first
  found : ∀ entry ∈ entries, entry.1.id ≠ none →
    InRange source.ranges entry.2 ∨ InMarker messages scan.parts entry.2 ∨
      InPending messages scan.pending entry.2

private theorem gapsScanned_snoc {messages : List Message} {source : ArchiveSource}
    {entries : List (Message × Nat)} {scan : GapScan} {entry : Message × Nat}
    (scanned : GapsScanned messages source entries scan)
    (genuine : ∀ known ∈ entries ++ [entry], messages[known.2]? = some known.1)
    (ordered : ∀ known ∈ entries, known.2 < entry.2) :
    GapsScanned messages source (entries ++ [entry]) (scan.visit entry) := by
  have here : messages[entry.2]? = some entry.1 :=
    genuine entry (List.mem_append_right _ List.mem_cons_self)
  unfold GapScan.visit
  cases named : entry.1.id with
  | none =>
      refine ⟨scanned.parts, scanned.ranges, fun first last isPending => ?_, fun known member hasId => ?_⟩
      · obtain ⟨opener, inside, isFirst⟩ := scanned.opened first last isPending
        exact ⟨opener, List.mem_append_left _ inside, isFirst⟩
      · rcases List.mem_append.mp member with old | new
        · exact scanned.found known old hasId
        · rw [List.mem_singleton.mp new] at hasId
          exact absurd named hasId
  | some id =>
      have dropped : (scan.ranges.dropWhile fun range => decide (range.2 < entry.2)) ⊆ source.ranges :=
        fun range member => scanned.ranges (List.dropWhile_subset _ member)
      -- A message outside every range joins the open gap, or opens one.
      have opens : GapsScanned messages source (entries ++ [entry])
          { scan with
            ranges := scan.ranges.dropWhile fun range => decide (range.2 < entry.2)
            pending := some ((scan.pending.map (·.1)).getD id, id) } := by
        have last : Named messages entry.2 id := ⟨entry.1, here, named⟩
        constructor
        · exact scanned.parts
        · exact dropped
        · intro first _ isPending
          cases isPending
          cases isOpen : scan.pending with
          | none => exact ⟨entry, List.mem_append_right _ List.mem_cons_self, named⟩
          | some gap =>
              obtain ⟨opener, inside, isFirst⟩ := scanned.opened gap.1 gap.2 isOpen
              exact ⟨opener, List.mem_append_left _ inside, isFirst⟩
        · intro known member hasId
          rcases List.mem_append.mp member with old | new
          · rcases scanned.found known old hasId with ranged | marked | pending
            · exact .inl ranged
            · exact .inr (.inl marked)
            · obtain ⟨first, _, from_, to_, isOpen, isFirst, _, starts, _⟩ := pending
              refine .inr (.inr ⟨first, id, from_, entry.2, ?_, isFirst, last, starts, ?_⟩)
              · rw [isOpen]
                rfl
              · exact Nat.le_of_lt (ordered known old)
          · rw [List.mem_singleton.mp new]
            right
            right
            cases isOpen : scan.pending with
            | none => exact ⟨id, id, entry.2, entry.2, rfl, last, last, Nat.le_refl _, Nat.le_refl _⟩
            | some gap =>
                obtain ⟨opener, inside, isFirst⟩ := scanned.opened gap.1 gap.2 isOpen
                exact ⟨gap.1, id, opener.2, entry.2, rfl,
                  ⟨opener.1, genuine opener (List.mem_append_left _ inside), isFirst⟩, last,
                  Nat.le_of_lt (ordered opener inside), Nat.le_refl _⟩
      dsimp only
      split
      · rename_i start stop rest isRanges
        split
        · rename_i starts
          have stops : entry.2 ≤ stop := by
            have head := List.head?_dropWhile_not (fun range => decide (range.2 < entry.2)) scan.ranges
            rw [isRanges] at head
            exact Nat.le_of_not_lt (of_decide_eq_false head)
          have ranged : InRange source.ranges entry.2 := by
            refine ⟨(start, stop), dropped ?_, starts, stops⟩
            rw [isRanges]
            exact List.mem_cons_self
          constructor
          · exact fun part member => GapScan.close_parts _ (scanned.parts member)
          · rw [GapScan.close_ranges]
            exact dropped
          · intro first last isPending
            rw [GapScan.close_pending] at isPending
            cases isPending
          · intro known member hasId
            rcases List.mem_append.mp member with old | new
            · rcases scanned.found known old hasId with inRange | marked | pending
              · exact .inl inRange
              · exact .inr (.inl (marked.mono (GapScan.close_parts _)))
              · exact .inr (.inl (GapScan.close_marks _ pending))
            · rw [List.mem_singleton.mp new]
              exact .inl ranged
        · exact opens
      · exact opens

private theorem gapsScanned_foldl {messages : List Message} {source : ArchiveSource}
    (entries : List (Message × Nat))
    (genuine : ∀ known ∈ entries, messages[known.2]? = some known.1)
    (ordered : entries.Pairwise fun left right => left.2 < right.2) :
    GapsScanned messages source entries
      (entries.foldl GapScan.visit
        { ranges := source.ranges, pending := none, parts := source.parts, missing := 0 }) := by
  induction entries using List.reverseRecOn with
  | nil =>
      constructor
      · exact List.Subset.refl _
      · exact List.Subset.refl _
      · intro first last isPending
        cases isPending
      · intro known impossible
        cases impossible
  | append_singleton entries entry ih =>
      obtain ⟨before, _, across⟩ := List.pairwise_append.mp ordered
      rw [List.foldl_append]
      apply gapsScanned_snoc (ih (fun known member => genuine known (List.mem_append_left _ member)) before)
        genuine
      exact fun known member => across known member entry (List.mem_singleton.mpr rfl)

private theorem gapsScanned_slice (messages : List Message) (source : ArchiveSource) (stop : Nat) :
    GapsScanned messages source ((messages.zipIdx.take stop).drop source.begin)
      (((messages.zipIdx.take stop).drop source.begin).foldl GapScan.visit
        { ranges := source.ranges, pending := none, parts := source.parts, missing := 0 }) := by
  have increasing : messages.zipIdx.Pairwise fun left right => left.2 < right.2 := by
    rw [List.pairwise_iff_getElem]
    intro one two _ _ earlier
    rw [List.getElem_zipIdx, List.getElem_zipIdx]
    omega
  apply gapsScanned_foldl
  · intro known member
    exact List.mem_zipIdx_iff_getElem?.mp (List.mem_of_mem_take (List.mem_of_mem_drop member))
  · exact (increasing.sublist (List.take_sublist _ _)).sublist (List.drop_sublist _ _)

theorem scanGaps_parts (messages : List Message) (source : ArchiveSource) (stop : Nat) :
    source.parts ⊆ (scanGaps messages source stop).parts :=
  fun _ member => GapScan.close_parts _ ((gapsScanned_slice messages source stop).parts member)

/-- Behind its beginning the scan leaves no message with an id out. -/
theorem scanGaps_found {messages : List Message} (source : ArchiveSource) {stop index : Nat}
    {message : Message} (present : messages[index]? = some message) (hasId : message.id ≠ none)
    (behind : source.begin ≤ index) (before : index < stop) :
    InRange source.ranges index ∨ InMarker messages (scanGaps messages source stop).parts index := by
  have member : (message, index) ∈ (messages.zipIdx.take stop).drop source.begin := by
    rw [List.mem_iff_getElem?]
    refine ⟨index - source.begin, ?_⟩
    rw [List.getElem?_drop, Nat.add_sub_cancel' behind, List.getElem?_take_of_lt before,
      List.getElem?_zipIdx, present, Option.map_some, Nat.zero_add]
  rcases (gapsScanned_slice messages source stop).found _ member hasId with ranged | marked | pending
  · exact .inl ranged
  · exact .inr (marked.mono (GapScan.close_parts _))
  · exact .inr (GapScan.close_marks _ pending)

section Accounting

variable {N : Type} [Add N] [Sub N] [NatCast N] [LinearOrder N]

/-! ### What an archive accounts for -/

def segmentText (item : LocatedSummary) : JsString :=
  ofString "Segment " ++ item.segment.id ++ ofString "\n" ++ item.segment.summary

def omittedMarker (omitted : Nat) : JsString :=
  ofString "[" ++ decimal omitted ++ ofString " older summaries omitted; use memory_search]"

/-- A summary is selected, or fewer are selected than there are. -/
theorem selectSummaries_mem (estimators : Estimators N) (older : List LocatedSummary) (remaining : N)
    (selected : List LocatedSummary) :
    selected ⊆ selectSummaries estimators remaining selected older ∧
      (selectSummaries estimators remaining selected older).length ≤ older.length + selected.length ∧
      ∀ item ∈ older, item ∈ selectSummaries estimators remaining selected older ∨
        (selectSummaries estimators remaining selected older).length <
          older.length + selected.length := by
  induction older generalizing remaining selected with
  | nil =>
      refine ⟨List.Subset.refl _, ?_, fun item impossible => nomatch impossible⟩
      exact Nat.le_of_eq (Nat.zero_add _).symm
  | cons first rest ih =>
      unfold selectSummaries
      dsimp only
      split
      · refine ⟨List.Subset.refl _, ?_, fun item _ => .inr ?_⟩
        · exact Nat.le_add_left _ _
        · rw [List.length_cons]
          omega
      · obtain ⟨kept, bound, others⟩ := ih (remaining - (estimators.textTokens (ofString "Segment " ++
          first.segment.id ++ ofString "\n" ++ first.segment.summary) + ((2 : Nat) : N)))
            (first :: selected)
        rw [List.length_cons] at bound others
        refine ⟨fun item member => kept (List.mem_cons_of_mem _ member), ?_, fun item member => ?_⟩
        · rw [List.length_cons]
          omega
        · rcases List.mem_cons.mp member with same | later
          · rw [same]
            exact .inl (kept List.mem_cons_self)
          · rcases others item later with found | short
            · exact .inl found
            · right
              rw [List.length_cons]
              omega

/-- A summary that ends by the cut is rendered among the parts or counted as omitted. -/
def Rendered (parts : List JsString) (item : LocatedSummary) : Prop :=
  segmentText item ∈ parts ∨ ∃ omitted > 0, omittedMarker omitted ∈ parts

theorem summarizedSource_rendered (estimators : Estimators N) (input : ProjectionInput N)
    {through : Nat} {item : LocatedSummary}
    (included : item ∈ includedSummaries input.messages input.summaries through) :
    Rendered (summarizedSource estimators input through).parts item := by
  obtain ⟨_, bound, others⟩ := selectSummaries_mem estimators
    (includedSummaries input.messages input.summaries through).reverse
    (estimators.summaryShare input.contextLimit) []
  rw [List.length_nil, Nat.add_zero, List.length_reverse] at bound others
  rcases others item (List.mem_reverse.mpr included) with selected | short
  · left
    exact List.mem_append_right _ (List.mem_map_of_mem selected)
  · right
    refine ⟨_, Nat.sub_pos_of_lt short, List.mem_append_left _ ?_⟩
    rw [if_pos (Nat.sub_pos_of_lt short)]
    exact List.mem_cons_self

variable (estimators : Estimators N) (input : ProjectionInput N)

def archiveParts (through stop : Nat) : List JsString :=
  (scanGaps input.messages (archiveSource estimators input through) stop).parts

/-- A position is accounted for by the archive behind a cut: by a marker, by a summary that
ends by the cut, or by the cached block the archive repeats, which accounted for `known`. -/
def AccountedIn (known : Nat → Prop) (through stop index : Nat) : Prop :=
  InMarker input.messages (archiveParts estimators input through stop) index ∨
    match standIn input through with
    | some (block, _) => known index ∧ block.text ∈ archiveParts estimators input through stop
    | none => ∃ item ∈ includedSummaries input.messages input.summaries through,
        item.start ≤ index ∧ index ≤ item.stop ∧
          Rendered (archiveParts estimators input through stop) item

variable {estimators input}

/-- An archive accounts for every message with an id before its end that the repeated block
does not leave out. -/
theorem accountedIn_of_lt {known : Nat → Prop} {through stop index : Nat} {message : Message}
    (present : input.messages[index]? = some message) (hasId : message.id ≠ none) (before : index < stop)
    (repeated : ∀ block position, standIn input through = some (block, position) → index ≤ position →
      known index) : AccountedIn estimators input known through stop index := by
  have found (behind : (archiveSource estimators input through).begin ≤ index) :=
    scanGaps_found (archiveSource estimators input through) present hasId behind before
  have subset := scanGaps_parts input.messages (archiveSource estimators input through) stop
  unfold AccountedIn
  cases stands : standIn input through with
  | some entry =>
      obtain ⟨block, position⟩ := entry
      have source : archiveSource estimators input through =
          { parts := [block.text], omitted := 0, begin := position + 1, ranges := [] } := by
        unfold archiveSource
        rw [stands]
      rcases Nat.lt_or_ge position index with behind | inside
      · rw [source] at found
        rcases found behind with ⟨range, impossible, _⟩ | marked
        · cases impossible
        · left
          unfold archiveParts
          rw [source]
          exact marked
      · right
        refine ⟨repeated block position stands inside, subset ?_⟩
        rw [source]
        exact List.mem_cons_self
  | none =>
      have source : archiveSource estimators input through =
          summarizedSource estimators input through := by
        unfold archiveSource
        rw [stands]
      rcases found (by rw [source]; exact Nat.zero_le _) with ranged | marked
      · right
        obtain ⟨range, member, starts, stops⟩ := ranged
        rw [source] at member
        obtain ⟨item, included, rfl⟩ := List.mem_map.mp member
        refine ⟨item, included, starts, stops, ?_⟩
        rcases summarizedSource_rendered estimators input included with shown | ⟨omitted, positive, counted⟩
        · left
          apply subset
          rw [source]
          exact shown
        · right
          refine ⟨omitted, positive, subset ?_⟩
          rw [source]
          exact counted
      · exact .inl marked

/-! ### What a request accounts for -/

/-- The first paragraphs sent are these, in front of the messages from a start on. -/
def SentBehind (messages sent : List Message) (start : Nat) (parts : List JsString) : Prop :=
  ∃ notice, sent = notice :: messages.drop start ∧
    notice.content.head? = some (.text (joinParts parts))

variable (input) in
/-- The paragraphs of a notice whose archive ends at `stop`, in front of a tail from `start` on. -/
def noticeParts (archived : JsString) (stop start : Nat) : List JsString :=
  [noticePrefix, ofString "[Reflection source_id=" ++ jsonString input.sourceId ++ ofString "]"] ++
    (if archived = [] then [] else [archived]) ++
    if start - stop > 0 then [droppedMarker (start - stop)] else []

variable (estimators input) in
/-- Every message with an id is in the tail, or accounted for by the archive that the notice
shows, or behind the archive's end, where the notice's marker counts all messages up to the
tail. -/
def Accounts (known : Nat → Prop) (result : Projection N) : Prop :=
  result.messages = input.messages ∨ ∃ start,
    match result.projectedThrough.bind (positionOf input.messages) with
    | none => SentBehind input.messages result.messages start (noticeParts input [] 0 start)
    | some through =>
        SentBehind input.messages result.messages start
            (noticeParts input
              (joinParts (archiveParts estimators input through (startBehind input.messages through)))
              (startBehind input.messages through) start) ∧
          ∀ index message, index < startBehind input.messages through →
            input.messages[index]? = some message → message.id ≠ none →
            AccountedIn estimators input known through (startBehind input.messages through) index

omit [Add N] [Sub N] [NatCast N] [LinearOrder N] in
theorem noticeMessage_head (text : JsString) (anchor : Option Message) :
    (noticeMessage estimators text anchor).content.head? = some (.text text) := by
  unfold noticeMessage
  cases anchor with
  | none => rfl
  | some anchor => rfl

/-- The tail of a request and the paragraphs in front of it. -/
theorem Built.sentBehind {costs : List N} {cut : Option Cut} {start : Nat} {bounded : Bool}
    {made : Candidate N} {head : Option (Notice N)}
    (built : Built estimators input costs cut start bounded made head) :
    made.messages = input.messages ∨
      SentBehind input.messages made.messages start
        (noticeParts input (archive estimators input cut (archivedTo cut)).text (archivedTo cut)
          start) := by
  rcases built.archived with ⟨noHead, _, whole⟩ | ⟨archived, isHead, isNotice⟩
  · left
    rw [built.messages, noHead, whole]
    rfl
  · right
    rw [notice_eq] at isNotice
    obtain ⟨_, _, same⟩ := Option.map_eq_some_iff.mp isNotice
    refine ⟨archived.message, ?_, ?_⟩
    · rw [built.messages, isHead]
      rfl
    · rw [← same]
      exact noticeMessage_head _ _

/-- A reported request accounts for its messages when its cut's archive does. -/
theorem Reported.accounts {known : Nat → Prop} {costs : List N} {projection : Candidate N} {mode : Mode}
    {result : Projection N} {start : Nat} {made : Candidate N} {head : Option (Notice N)}
    (chosen : Chosen estimators input costs projection mode)
    (reported : Reported estimators input costs projection mode result start made head)
    (archived : ∀ through index message,
      result.projectedThrough.bind (positionOf input.messages) = some through →
      index < startBehind input.messages through → input.messages[index]? = some message →
      message.id ≠ none →
      AccountedIn estimators input known through (startBehind input.messages through) index) :
    Accounts estimators input known result := by
  obtain ⟨_, built⟩ := reported.built
  have behind := built.sentBehind
  rw [← reported.messages] at behind
  rcases behind with whole | behind
  · exact .inl whole
  · right
    refine ⟨start, ?_⟩
    have isThrough := built.projectedThrough
    rw [← reported.projectedThrough] at isThrough
    rcases chosen.cut_cases with whole | ⟨id, anchor, cut, isMade, isCut, starts⟩
    · rw [isThrough, whole]
      rw [whole] at behind
      exact behind
    · obtain ⟨through, found, _, same⟩ := cutThrough_eq_some_iff.mp isMade
      have cutIs := withAnchor_eq input.messages cut anchor (by rw [same])
      have position : result.projectedThrough.bind (positionOf input.messages) = some through := by
        rw [isThrough, isCut, cutIs, same]
        exact found
      rw [position]
      constructor
      · rw [isCut, archive_eq, cutIs, same] at behind
        exact behind
      · exact fun index message => archived through index message position

/-! ### The ledger of a run -/

/-- A session with the positions its last block accounts for. -/
structure Ledger (N : Type) where
  session : Session N
  accounted : Nat → Prop

def Ledger.fresh (messages : List Message) (projectedThrough : Option JsString) : Ledger N :=
  { session := Session.fresh messages projectedThrough
    accounted := fun _ => False }

/-- One call. Only a call without summaries receives the last block. -/
structure Posts (before : Ledger N) (call : Call N) (after : Ledger N) : Prop where
  step : Step before.session call after.session
  cachedBlock : call.input.cachedBlock =
    if call.input.summaries = [] then before.session.last.bind (·.block) else none
  accounted : ∀ index, after.accounted index ↔ ∃ through,
    after.session.projectedThrough.bind (positionOf call.input.messages) = some through ∧
      AccountedIn call.estimators call.input before.accounted through
        (startBehind call.input.messages through) index

/-- The last block is the one of the reported cut, and it accounts for every message with an
id before the tail. -/
structure Ledger.Complete (ledger : Ledger N) : Prop where
  block : ∀ result ∈ ledger.session.last, ∀ block ∈ result.block,
    ledger.session.projectedThrough = some block.through ∧
      ∃ position, positionOf ledger.session.messages block.through = some position
  accounted : ∀ result ∈ ledger.session.last, ∀ id position,
    ledger.session.projectedThrough = some id →
    positionOf ledger.session.messages id = some position → ∀ index message,
      index < startBehind ledger.session.messages position →
      ledger.session.messages[index]? = some message → message.id ≠ none → ledger.accounted index

/-- Ids name one message. In a call that repeats a block, a message with an id that the last
request still held although it does not lie behind the block's message was accounted for all
the same, or no cut at or behind that message archives it. -/
def Covered (before : Ledger N) (call : Call N) : Prop :=
  DistinctIds call.input.messages ∧
    (call.input.summaries = [] → ∀ block ∈ before.session.last.bind (·.block), ∀ position,
      positionOf before.session.messages block.through = some position → ∀ index message,
        startBehind before.session.messages position ≤ index → index ≤ position →
        before.session.messages[index]? = some message → message.id ≠ none →
        before.accounted index ∨ ∀ other cut, cutThrough call.input.messages other = some cut →
          position ≤ cut.through → cut.start ≤ index)

/-- The block an archive repeats accounts for what is archived up to the block's message. -/
theorem Posts.repeated {before after : Ledger N} {call : Call N} (posts : Posts before call after)
    (covered : Covered before call) (complete : before.Complete) {other : JsString} {cut : Cut}
    (isMade : cutThrough call.input.messages other = some cut) {index : Nat} {message : Message}
    (present : call.input.messages[index]? = some message) (hasId : message.id ≠ none)
    (archived : index < cut.start) :
    ∀ block position, standIn call.input cut.through = some (block, position) → index ≤ position →
      before.accounted index := by
  intro block position stands inside
  obtain ⟨distinct, held⟩ := covered
  obtain ⟨appended, grown⟩ := posts.step.grown
  unfold standIn at stands
  by_cases outage : call.input.summaries = []
  · rw [if_pos outage, posts.cachedBlock, if_pos outage] at stands
    obtain ⟨_, isBlock, isFound⟩ := Option.bind_eq_some_iff.mp stands
    obtain ⟨_, found, same⟩ := Option.map_eq_some_iff.mp isFound
    cases same
    obtain ⟨found, within⟩ := Option.filter_eq_some_iff.mp found
    obtain ⟨result, isLast, ofResult⟩ := Option.bind_eq_some_iff.mp isBlock
    obtain ⟨isThrough, old, isOld⟩ := complete.block result isLast block ofResult
    have same : old = position := by
      rw [grown] at distinct found
      rw [positionOf_append distinct isOld] at found
      exact Option.some.inj found
    rw [same] at isOld
    have known := positionOf_lt isOld
    rw [grown, List.getElem?_append_left (by omega)] at present
    by_cases before' : index < startBehind before.session.messages position
    · exact complete.accounted result isLast _ position isThrough isOld index message before' present
        hasId
    · rcases held outage block isBlock position isOld index message (Nat.le_of_not_lt before') inside
        present hasId with accounted | kept
      · exact accounted
      · have stays := kept other cut isMade (of_decide_eq_true within)
        omega
  · rw [if_neg outage] at stands
    cases stands

/-- One call on a complete ledger: it accounts for everything, and so does its block. -/
theorem Posts.accounts {before after : Ledger N} {call : Call N} (posts : Posts before call after)
    (covered : Covered before call) (complete : before.Complete) :
    after.Complete ∧ ∀ result ∈ after.session.last,
      Accounts call.estimators call.input before.accounted result := by
  obtain ⟨session, accounted⟩ := after
  obtain ⟨result, selected, isAfter⟩ := posts.step.returned
  change session = _ at isAfter
  subst isAfter
  obtain ⟨costs, projection, mode, start, made, head, chosen, reported⟩ :=
    selectCursorProjection_reported selected
  obtain ⟨_, built⟩ := reported.built
  have archived : ∀ through index message,
      result.projectedThrough.bind (positionOf call.input.messages) = some through →
      index < startBehind call.input.messages through →
      call.input.messages[index]? = some message → message.id ≠ none →
      AccountedIn call.estimators call.input before.accounted through
        (startBehind call.input.messages through) index := by
    intro through index message isThrough inside present hasId
    apply accountedIn_of_lt present hasId inside
    obtain ⟨id, isId, found⟩ := Option.bind_eq_some_iff.mp isThrough
    have isMade := cutThrough_eq_some_iff.mpr
      ⟨through, found, Nat.lt_of_le_of_lt (Nat.zero_le _) inside, rfl⟩
    exact posts.repeated covered complete isMade present hasId inside
  constructor
  · constructor
    · intro last isLast block isBlock
      cases isLast
      change result.projectedThrough = _ ∧ _
      rw [reported.block] at isBlock
      rw [reported.projectedThrough, built.projectedThrough]
      rcases chosen.cut_cases with whole | ⟨id, anchor, cut, isMade, isCut, starts⟩
      · rw [whole] at built
        rw [built.noBlock] at isBlock
        cases isBlock
      · rw [isCut] at built ⊢
        obtain ⟨_, _, blockIs⟩ := built.behind
        rw [blockIs] at isBlock
        cases isBlock
        obtain ⟨through, found, _, same⟩ := cutThrough_eq_some_iff.mp isMade
        refine ⟨rfl, through, ?_⟩
        rw [withAnchor_eq _ _ _ (by rw [same]), same]
        exact found
    · intro last isLast id position isThrough found index message inside present hasId
      apply (posts.accounted index).mpr
      change result.projectedThrough = some id at isThrough
      have isPosition : result.projectedThrough.bind (positionOf call.input.messages) =
          some position := by
        rw [isThrough]
        exact found
      exact ⟨position, isPosition, archived position index message isPosition inside present hasId⟩
  · intro last isLast
    cases isLast
    exact reported.accounts chosen archived

/-- In every run whose calls are covered, each result accounts for every message that is not
in its tail. -/
theorem archived_accounted {messages : List Message} {projectedThrough : Option JsString}
    {before after : Ledger N} {call : Call N}
    (run : Reaches Posts Covered (Ledger.fresh messages projectedThrough) before)
    (posts : Posts before call after) (covered : Covered before call) :
    ∀ result ∈ after.session.last, Accounts call.estimators call.input before.accounted result := by
  have complete : before.Complete := by
    apply run.invariant
    · exact fun _ _ _ complete posts covered => (posts.accounts covered complete).1
    · constructor
      · intro result impossible
        cases impossible
      · intro result impossible
        cases impossible
  exact (posts.accounts covered complete).2

/-- The ledger after a call. -/
def Ledger.record (before : Ledger N) (call : Call N) (session : Session N) : Ledger N :=
  { session := session
    accounted := fun index => ∃ through,
      session.projectedThrough.bind (positionOf call.input.messages) = some through ∧
        AccountedIn call.estimators call.input before.accounted through
          (startBehind call.input.messages through) index }

theorem Ledger.record_posts {before : Ledger N} {call : Call N} {session : Session N}
    (step : Step before.session call session)
    (cachedBlock : call.input.cachedBlock =
      if call.input.summaries = [] then before.session.last.bind (·.block) else none) :
    Posts before call (before.record call session) :=
  ⟨step, cachedBlock, fun _ => Iff.rfl⟩

end Accounting

/-! ### A message that disappears -/

/-- Whether no marker among the parts names a message up to a position and one from it on. -/
def unmarked (messages : List Message) (parts : List JsString) (index : Nat) : Bool :=
  (messages.take (index + 1)).all fun one => (messages.drop index).all fun other =>
    one.id.all fun first => other.id.all fun last => !parts.contains (gapMarker first last)

private theorem not_inMarker {messages : List Message} {parts : List JsString} {index : Nat}
    (checked : unmarked messages parts index = true) : ¬ InMarker messages parts index := by
  rintro ⟨first, last, from_, to_, shown, ⟨one, isOne, oneId⟩, ⟨other, isOther, otherId⟩, starts, stops⟩
  have oneIn : one ∈ messages.take (index + 1) := by
    apply List.mem_of_getElem? (i := from_)
    rw [List.getElem?_take_of_lt (by omega)]
    exact isOne
  have otherIn : other ∈ messages.drop index := by
    apply List.mem_of_getElem? (i := to_ - index)
    rw [List.getElem?_drop, Nat.add_sub_cancel' stops]
    exact isOther
  have absent := List.all_eq_true.mp (List.all_eq_true.mp checked one oneIn) other otherIn
  rw [oneId, otherId, Option.all_some, Option.all_some, List.contains_iff_mem.mpr shown] at absent
  cases absent

def outageMessages : List Message :=
  [sampleMessage "u1" .user [.text (words 2)], readCall, readResult]

/-- The call's results are the latest messages, so its cut leaves the call in the tail. -/
def outageInput : ProjectionInput Int :=
  { asciiInput 600 10000 with
    messages := outageMessages
    contextLimit := 40 }

/-- What the first call returned is fed back, and one more message has been appended. -/
def continuedInput : ProjectionInput Int :=
  { asciiInput 600 10000 with
    messages := outageMessages ++ [shortAnswer "a2"]
    cachedBlock := some
      { through := ofString "a1"
        text := gapMarker (ofString "u1") (ofString "u1") }
    projectedThrough := some (ofString "a1")
    projectedAnchor := some (some (ofString "u1"))
    contextLimit := 40 }

private theorem first_result : ∃ result,
    selectCursorProjection (measuredAs 700) outageInput = some result ∧
      result.projectedThrough = continuedInput.projectedThrough ∧
      some result.projectedAnchor = continuedInput.projectedAnchor ∧
      result.block = continuedInput.cachedBlock := by
  have ran : (selectCursorProjection (measuredAs 700) outageInput).map (fun result =>
      decide (result.projectedThrough = continuedInput.projectedThrough ∧
        some result.projectedAnchor = continuedInput.projectedAnchor ∧
        result.block = continuedInput.cachedBlock)) = some true := by
    decide +kernel
  obtain ⟨result, selected, holds⟩ := Option.map_eq_some_iff.mp ran
  exact ⟨result, selected, of_decide_eq_true holds⟩

private theorem second_result : ∃ result,
    selectCursorProjection (measuredAs 100) continuedInput = some result ∧
      result.messages.length = 2 ∧ result.projectedThrough = some (ofString "a1") := by
  have ran : (selectCursorProjection (measuredAs 100) continuedInput).map (fun result =>
      decide (result.messages.length = 2 ∧ result.projectedThrough = some (ofString "a1"))) =
        some true := by
    decide +kernel
  obtain ⟨result, selected, holds⟩ := Option.map_eq_some_iff.mp ran
  exact ⟨result, selected, of_decide_eq_true holds⟩

def outageCall : Call Int :=
  { estimators := measuredAs 700
    input := outageInput }

def continuedCall : Call Int :=
  { estimators := measuredAs 100
    input := continuedInput }

/-- The two calls of the outage, for any condition the first one meets. -/
private theorem outage_run {allowed : Ledger Int → Call Int → Prop}
    (permitted : allowed (Ledger.fresh [] none) outageCall) :
    ∃ before after, Reaches Posts allowed (Ledger.fresh [] none) before ∧
      Posts before continuedCall after ∧
      (∀ index, before.accounted index → InMarker outageMessages
        (archiveParts (measuredAs 700) outageInput 1 1) index) ∧
      ∃ result ∈ after.session.last, selectCursorProjection (measuredAs 100) continuedInput = some result ∧
        result.messages.length = 2 ∧ result.projectedThrough = some (ofString "a1") := by
  obtain ⟨first, selected, through, anchor, block⟩ := first_result
  obtain ⟨second, selected', length, through'⟩ := second_result
  have one : Step (Session.fresh [] none) outageCall (Session.recorded outageMessages first) :=
    ⟨⟨outageMessages, rfl⟩, rfl, rfl, first, selected, rfl⟩
  have two : Step (Session.recorded outageMessages first) continuedCall
      (Session.recorded continuedInput.messages second) :=
    ⟨⟨[shortAnswer "a2"], rfl⟩, through.symm, anchor.symm, second, selected', rfl⟩
  have posted := @Ledger.record_posts Int _ _ _ _ (Ledger.fresh [] none) outageCall _ one rfl
  refine ⟨_, _, (Reaches.refl _).snoc _ posted permitted, Ledger.record_posts two ?_, ?_,
    second, rfl, selected', length, through'⟩
  · have outage : continuedCall.input.summaries = [] := rfl
    rw [if_pos outage]
    exact block.symm
  · rintro index ⟨position, isPosition, accounted⟩
    change first.projectedThrough.bind (positionOf outageMessages) = some position at isPosition
    rw [through] at isPosition
    have here : (some (ofString "a1")).bind (positionOf outageMessages) = some 1 := by
      decide +kernel
    have position : 1 = position := Option.some.inj (here.symm.trans isPosition)
    have start : startBehind outageMessages 1 = 1 := by
      decide +kernel
    rw [← position] at accounted
    change AccountedIn (measuredAs 700) outageInput _ 1 (startBehind outageMessages 1) index at accounted
    rw [start] at accounted
    rcases accounted with marked | summarized
    · exact marked
    · obtain ⟨item, impossible, _⟩ := summarized
      cases impossible

/-- During an outage the call is archived once its results are no longer the latest messages,
and the notice repeats a block that does not mention it. -/
theorem archived_message_disappears :
    ∃ before after : Ledger Int,
      Reaches Posts (fun _ call => DistinctIds call.input.messages) (Ledger.fresh [] none) before ∧
        Posts before continuedCall after ∧ DistinctIds continuedInput.messages ∧
        ∃ result ∈ after.session.last,
          ¬ Accounts (measuredAs 100) continuedInput before.accounted result := by
  obtain ⟨before, after, reached, posts, known, result, isLast, _, length, through⟩ :=
    @outage_run (fun _ call => DistinctIds call.input.messages) (by decide +kernel)
  refine ⟨before, after, reached, posts, by decide +kernel, result, isLast, fun accounts => ?_⟩
  rcases accounts with whole | ⟨start, shown⟩
  · rw [whole] at length
    cases length
  · have here : (some (ofString "a1")).bind (positionOf continuedInput.messages) = some 1 := by
      decide +kernel
    have stop : startBehind continuedInput.messages 1 = 3 := by
      decide +kernel
    rw [through, here] at shown
    dsimp only at shown
    rw [stop] at shown
    have present : continuedInput.messages[1]? = some readCall := rfl
    rcases shown.2 1 readCall (by omega) present (by decide +kernel) with marked | repeated
    · exact not_inMarker (by decide +kernel) marked
    · have stands : standIn continuedInput 1 =
          continuedInput.cachedBlock.map fun block => (block, 1) := by
        decide +kernel
      rw [stands] at repeated
      exact not_inMarker (by decide +kernel) (known 1 repeated.1)

def settledInput : ProjectionInput Int :=
  { outageInput with messages := outageMessages ++ [shortAnswer "a2"] }

def repeatedInput (first : Projection Int) : ProjectionInput Int :=
  { settledInput with
    messages := settledInput.messages ++ [shortAnswer "a3"]
    cachedBlock := first.block
    projectedThrough := first.projectedThrough
    projectedAnchor := some first.projectedAnchor }

/-- With a message behind the results from the start, the repeated block covers the call. -/
theorem archived_accounted_sample :
    ∃ (before after : Ledger Int) (call : Call Int),
      before.session.last.isSome ∧ call.input.summaries = [] ∧ Posts before call after ∧
        ∀ result ∈ after.session.last, Accounts call.estimators call.input before.accounted result := by
  have ran : ((selectCursorProjection (measuredAs 700) settledInput).bind fun first =>
      (selectCursorProjection (measuredAs 100) (repeatedInput first)).map fun _ =>
        decide (first.block.map (·.through) = some (ofString "a1"))) = some true := by
    decide +kernel
  obtain ⟨first, selected, afterFirst⟩ := Option.bind_eq_some_iff.mp ran
  obtain ⟨second, selected', holds⟩ := Option.map_eq_some_iff.mp afterFirst
  obtain ⟨block, isBlock, through⟩ := Option.map_eq_some_iff.mp (of_decide_eq_true holds)
  have one : Step (Session.fresh [] none) { estimators := measuredAs 700, input := settledInput }
      (Session.recorded settledInput.messages first) :=
    ⟨⟨settledInput.messages, rfl⟩, rfl, rfl, first, selected, rfl⟩
  have two : Step (Session.recorded settledInput.messages first)
      { estimators := measuredAs 100, input := repeatedInput first }
      (Session.recorded (repeatedInput first).messages second) :=
    ⟨⟨[shortAnswer "a3"], rfl⟩, rfl, rfl, second, selected', rfl⟩
  have posted := @Ledger.record_posts Int _ _ _ _ (Ledger.fresh [] none) _ _ one rfl
  have permitted : Covered (Ledger.fresh [] none : Ledger Int)
      { estimators := measuredAs 700, input := settledInput } :=
    ⟨by decide +kernel, fun _ _ impossible => nomatch impossible⟩
  have posted' := @Ledger.record_posts Int _ _ _ _
    ((Ledger.fresh [] none).record { estimators := measuredAs 700, input := settledInput }
      (Session.recorded settledInput.messages first)) _ _ two rfl
  have distinct : DistinctIds (settledInput.messages ++ [shortAnswer "a3"]) := by
    decide +kernel
  refine ⟨_, _, _, rfl, rfl, posted', archived_accounted ((Reaches.refl _).snoc _ posted permitted)
    posted' ⟨distinct, fun _ other isOther position found index message starts stops => ?_⟩⟩
  -- The block's message lies before the tail of the first call.
  have same : other = block := by
    change first.block = some other at isOther
    rw [isBlock] at isOther
    exact (Option.some.inj isOther).symm
  have here : positionOf settledInput.messages (ofString "a1") = some 1 := by
    decide +kernel
  have first : position = 1 := by
    change positionOf settledInput.messages other.through = some position at found
    rw [same, through, here] at found
    exact (Option.some.inj found).symm
  have start : startBehind settledInput.messages 1 = 3 := by
    decide +kernel
  change startBehind settledInput.messages position ≤ index at starts
  rw [first, start] at starts
  omega

end Reflection.Cursor
