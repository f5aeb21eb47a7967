/-
When a kept cut leaves the prompt prefix as it was.

The second call recomputes the tail's start from the cut's message. Appended messages move
it when the tool results behind that message were the latest messages before, and when a
late result answers a call the first request had archived. Otherwise the notice and the
first message of the tail are the same, and the request grows by what was appended.
-/

import Reflection.Cursor.HardBudget

namespace Reflection.Cursor

open JsString

/-! ### Safe starts of a grown history -/

theorem occurrences_append (messages appended : List Message) :
    ∃ later, occurrences (messages ++ appended) = occurrences messages ++ later := by
  unfold occurrences
  rw [List.zipIdx_append, List.flatMap_append]
  exact ⟨_, rfl⟩

/-- A start that separates nothing in the grown history separated nothing before. -/
theorem KeepsToolCalls.initial {messages appended : List Message} {start : Nat}
    (keeps : KeepsToolCalls (messages ++ appended) start) : KeepsToolCalls messages start := by
  intro earlier later index call id payload split found before reaches
  obtain ⟨more, grown⟩ := occurrences_append messages appended
  apply keeps earlier (later ++ more) index call id payload _ found before reaches
  rw [grown, split, List.append_assoc, List.cons_append]

theorem isSafe_initial {messages appended : List Message} {start : Nat}
    (inside : start ≤ messages.length)
    (safe : isSafe (toolSafeStarts (messages ++ appended)) start = true) :
    isSafe (toolSafeStarts messages) start = true := by
  rw [toolSafeStarts_iff messages inside]
  exact ((toolSafeStarts_iff _ (isSafe_le safe)).mp safe).initial

/-! ### The start of the tail -/

theorem skipToolResults_append (messages appended : List Message) {start : Nat}
    (stops : skipToolResults messages start < start + messages.length) :
    skipToolResults (messages ++ appended) start = skipToolResults messages start := by
  induction messages generalizing start with
  | nil => exact absurd stops (Nat.lt_irrefl _)
  | cons message rest ih =>
      rw [List.cons_append, skipToolResults, skipToolResults]
      split
      · rename_i skipped
        apply ih
        rw [skipToolResults, if_pos skipped, List.length_cons] at stops
        omega
      · rfl

/-- The retreat stops where it did when it still may. -/
theorem retreatToSafe_append {messages appended : List Message} {start : Nat}
    (inside : start ≤ messages.length)
    (safe : retreatToSafe (toolSafeStarts messages) start = 0 ∨
      isSafe (toolSafeStarts (messages ++ appended)) (retreatToSafe (toolSafeStarts messages) start) =
        true) :
    retreatToSafe (toolSafeStarts (messages ++ appended)) start =
      retreatToSafe (toolSafeStarts messages) start := by
  induction start with
  | zero => rfl
  | succ start ih =>
      rw [retreatToSafe] at safe ⊢
      rw [retreatToSafe]
      by_cases here : isSafe (toolSafeStarts messages) (start + 1) = true
      · rw [if_pos here] at safe ⊢
        rw [if_pos (safe.resolve_left (Nat.succ_ne_zero start))]
      · rw [if_neg here] at safe ⊢
        rw [if_neg fun grown => here (isSafe_initial inside grown)]
        exact ih (Nat.le_of_succ_le inside) safe

/-- A message other than the results of the cut's message follows it before anything is
appended, or nothing does and no result of it is appended. No appended result answers a
call from before the tail. -/
structure Undisturbed (messages appended : List Message) (through : Nat) : Prop where
  results : skippedFrom messages through < messages.length ∨
    through + 1 = messages.length ∧
      ∀ first ∈ appended.head?, ¬ (first.id = none ∧ first.role = .tool)
  calls : KeepsToolCalls (messages ++ appended) (startBehind messages through)

/-- The end of a history is a safe start. -/
theorem isSafe_length (messages : List Message) :
    isSafe (toolSafeStarts messages) messages.length = true := by
  rw [toolSafeStarts_iff _ (Nat.le_refl _)]
  intro earlier later index call id payload split found before reaches
  have inside := occurrences_lt messages (index, .toolResult id payload)
    (by rw [split]; exact List.mem_append_right _ List.mem_cons_self)
  dsimp only at inside
  omega

theorem startBehind_le_length (messages : List Message) (through : Nat) :
    startBehind messages through ≤ messages.length := by
  rcases startBehind_safe messages through with zero | safe
  · omega
  · exact isSafe_le safe

private theorem startBehind_append_followed {messages appended : List Message} {through : Nat}
    (known : through < messages.length) (followed : skippedFrom messages through < messages.length)
    (safeStart : isSafe (toolSafeStarts (messages ++ appended)) (startBehind messages through) =
      true) : startBehind (messages ++ appended) through = startBehind messages through := by
  have same : skippedFrom (messages ++ appended) through = skippedFrom messages through := by
    unfold skippedFrom
    rw [List.drop_append_of_le_length known]
    apply skipToolResults_append
    change skippedFrom messages through < through + 1 + (messages.drop (through + 1)).length
    rw [List.length_drop]
    omega
  have longer : skippedFrom messages through < (messages ++ appended).length := by
    rw [List.length_append]
    omega
  by_cases safe : isSafe (toolSafeStarts messages) (skippedFrom messages through) = true
  · rw [startBehind_goes followed safe] at safeStart ⊢
    rw [← same] at safeStart longer
    rw [startBehind_goes longer safeStart, same]
  · rw [Bool.not_eq_true] at safe
    have grown : isSafe (toolSafeStarts (messages ++ appended)) (skippedFrom messages through) =
        false := by
      rw [← Bool.not_eq_true] at safe ⊢
      exact fun grown => safe (isSafe_initial (Nat.le_of_lt followed) grown)
    rw [startBehind_retreats (.inr safe)] at safeStart ⊢
    rw [← same] at grown
    rw [startBehind_retreats (.inr grown)]
    exact retreatToSafe_append known (.inr safeStart)

private theorem startBehind_last {messages : List Message} {through : Nat}
    (isLast : through + 1 = messages.length) : startBehind messages through = messages.length := by
  have skipped : skippedFrom messages through = messages.length := by
    unfold skippedFrom
    rw [List.drop_eq_nil_of_le (Nat.le_of_eq isLast.symm), skipToolResults]
    exact isLast
  rw [startBehind_retreats (.inl (Nat.le_of_eq skipped.symm)), retreatToSafe, isLast,
    if_pos (isSafe_length messages)]

/-- Appended messages that do not disturb a cut leave its tail's start where it was. -/
theorem startBehind_append {messages appended : List Message} {through : Nat}
    (known : through < messages.length) (undisturbed : Undisturbed messages appended through) :
    startBehind (messages ++ appended) through = startBehind messages through := by
  have safeStart : isSafe (toolSafeStarts (messages ++ appended)) (startBehind messages through) =
      true := by
    rw [toolSafeStarts_iff]
    · exact undisturbed.calls
    · rw [List.length_append]
      have own := startBehind_le_length messages through
      omega
  rcases undisturbed.results with followed | ⟨isLast, noResult⟩
  · exact startBehind_append_followed known followed safeStart
  · rw [startBehind_last isLast] at safeStart ⊢
    cases appended with
    | nil =>
        rw [List.append_nil]
        exact startBehind_last isLast
    | cons first rest =>
        have skipped : skippedFrom (messages ++ first :: rest) through = messages.length := by
          unfold skippedFrom
          rw [List.drop_append_of_le_length known, List.drop_eq_nil_of_le (Nat.le_of_eq isLast.symm),
            List.nil_append, skipToolResults, if_neg (noResult first rfl)]
          exact isLast
        rw [← skipped] at safeStart
        rw [startBehind_goes _ safeStart, skipped]
        rw [skipped, List.length_append, List.length_cons]
        omega

deriving instance DecidableEq for Projection

/-! ### The notice -/

instance : IsTrans LocatedSummary LocatedSummary.Le :=
  ⟨fun left middle right before behind => by
    unfold LocatedSummary.Le at before behind ⊢
    omega⟩

instance : Std.Total LocatedSummary.Le :=
  ⟨fun left right => by
    unfold LocatedSummary.Le
    omega⟩

private theorem located_within {start? stop? : Option Nat} {segment : NativeSegmentSummary}
    {through : Nat} {item : LocatedSummary} :
    ((match start?, stop? with
      | some start, some stop =>
          if stop < start then none
          else some ({ segment := segment, start := start, stop := stop } : LocatedSummary)
      | _, _ => none).filter fun item => decide (item.stop ≤ through)) = some item ↔
      start? = some item.start ∧ stop? = some item.stop ∧ item.start ≤ item.stop ∧
        item.stop ≤ through ∧ item.segment = segment := by
  cases start? with
  | none => simp
  | some start =>
      cases stop? with
      | none => simp
      | some stop =>
          rw [Option.filter_eq_some_iff, decide_eq_true_eq]
          dsimp only
          split
          · rename_i backwards
            constructor
            · rintro ⟨impossible, _⟩
              cases impossible
            · rintro ⟨starts, stops, ordered, _⟩
              cases starts
              cases stops
              omega
          · rename_i ordered
            constructor
            · rintro ⟨same, within⟩
              cases same
              exact ⟨rfl, rfl, Nat.le_of_not_lt ordered, within, rfl⟩
            · rintro ⟨starts, stops, _, within, same⟩
              cases starts
              cases stops
              cases same
              exact ⟨rfl, within⟩

/-- The summaries that end by an old position are the ones that did before. -/
theorem locate_append {messages appended : List Message} (distinct : DistinctIds (messages ++ appended))
    (summaries : List NativeSegmentSummary) {through : Nat} (known : through < messages.length) :
    ((locate (messages ++ appended) summaries).filter fun item => decide (item.stop ≤ through)) =
      (locate messages summaries).filter fun item => decide (item.stop ≤ through) := by
  unfold locate
  rw [filter_insertionSort, filter_insertionSort, List.filter_filterMap, List.filter_filterMap]
  congr 1
  apply List.filterMap_congr
  intro segment _
  apply Option.ext
  intro item
  apply Iff.trans located_within
  apply Iff.trans _ located_within.symm
  constructor
  · rintro ⟨starts, stops, ordered, within, same⟩
    rw [positionOf_append_iff distinct (by omega)] at starts stops
    exact ⟨starts, stops, ordered, within, same⟩
  · rintro ⟨starts, stops, rest⟩
    exact ⟨positionOf_append distinct starts, positionOf_append distinct stops, rest⟩

section Stability

variable {N : Type} [Add N] [Sub N] [NatCast N] [LinearOrder N]

/-- A later call on a grown history. Its measurements and its system prompt may differ. -/
structure Grown (first second : ProjectionInput N) (estimators later : Estimators N)
    (appended : List Message) : Prop where
  messages : second.messages = first.messages ++ appended
  sourceId : second.sourceId = first.sourceId
  summaries : second.summaries = first.summaries
  cachedBlock : second.cachedBlock = first.cachedBlock
  contextLimit : second.contextLimit = first.contextLimit
  textTokens : later.textTokens = estimators.textTokens
  sha256 : later.sha256 = estimators.sha256
  summaryShare : later.summaryShare = estimators.summaryShare

variable {first second : ProjectionInput N} {estimators later : Estimators N}
  {appended : List Message}

omit [Sub N] [NatCast N] [LinearOrder N] [Add N] in
theorem Grown.standIn (grown : Grown first second estimators later appended)
    (distinct : DistinctIds second.messages) {through : Nat} (known : through < first.messages.length) :
    standIn second through = standIn first through := by
  have same (block : ArchiveBlock) :
      ((positionOf second.messages block.through).filter fun position =>
          decide (position ≤ through)) =
        (positionOf first.messages block.through).filter fun position =>
          decide (position ≤ through) := by
    rw [grown.messages] at distinct ⊢
    apply Option.ext
    intro position
    rw [Option.filter_eq_some_iff, Option.filter_eq_some_iff, decide_eq_true_eq]
    constructor
    · rintro ⟨found, within⟩
      rw [positionOf_append_iff distinct (by omega)] at found
      exact ⟨found, within⟩
    · rintro ⟨found, within⟩
      exact ⟨positionOf_append distinct found, within⟩
  unfold Cursor.standIn
  rw [grown.summaries, grown.cachedBlock]
  simp only [same]

theorem Grown.selectSummaries (grown : Grown first second estimators later appended)
    (remaining : N) (selected older : List LocatedSummary) :
    selectSummaries later remaining selected older =
      selectSummaries estimators remaining selected older := by
  induction older generalizing remaining selected with
  | nil => rfl
  | cons item rest ih =>
      unfold Cursor.selectSummaries
      rw [grown.textTokens]
      dsimp only
      split
      · rfl
      · exact ih _ _

theorem Grown.archiveSource (grown : Grown first second estimators later appended)
    (distinct : DistinctIds second.messages) {through : Nat} (known : through < first.messages.length) :
    archiveSource later second through = archiveSource estimators first through := by
  have included : includedSummaries second.messages second.summaries through =
      includedSummaries first.messages first.summaries through := by
    unfold includedSummaries
    rw [grown.messages] at distinct ⊢
    rw [grown.summaries]
    exact locate_append distinct _ known
  unfold Cursor.archiveSource summarizedSource
  rw [grown.standIn distinct known, included, grown.contextLimit, grown.summaryShare]
  simp only [grown.selectSummaries]

/-- The archive behind an old cut says the same on the grown history. -/
theorem Grown.archive (grown : Grown first second estimators later appended)
    (distinct : DistinctIds second.messages) {cut cut' : Cut} (same : cut'.through = cut.through)
    (known : cut.through < first.messages.length) {stop : Nat} (inside : stop ≤ first.messages.length) :
    archive later second (some cut') stop = archive estimators first (some cut) stop := by
  have scanned (source : ArchiveSource) :
      scanGaps second.messages source stop = scanGaps first.messages source stop := by
    unfold scanGaps
    rw [grown.messages, List.zipIdx_append, List.take_append_of_le_length]
    rw [List.length_zipIdx]
    exact inside
  rw [archive_eq, archive_eq, same, grown.archiveSource distinct known, scanned]

theorem Grown.noticeText (grown : Grown first second estimators later appended)
    (distinct : DistinctIds second.messages) {cut cut' : Cut} (same : cut'.through = cut.through)
    (starts : cut'.start = cut.start) (known : cut.through < first.messages.length)
    (inside : cut.start ≤ first.messages.length) :
    noticeText later second (some cut') cut'.start = noticeText estimators first (some cut) cut.start := by
  unfold Cursor.noticeText
  rw [grown.sourceId]
  simp only [archivedTo, starts, grown.archive distinct same known inside]
  rfl

/-! ### The anchor -/

omit [Add N] [Sub N] [NatCast N] [LinearOrder N] in
/-- The anchor a notice reported is the one the next call copies. -/
theorem noticeAnchor_append {messages appended : List Message} {cut cut' : Cut}
    (distinct : DistinctIds (messages ++ appended)) (starts : cut'.start = cut.start)
    (inside : cut.start ≤ messages.length)
    (anchored : ∀ position, cut.anchor = some position → position < cut.start ∧
      ∃ message id, messages[position]? = some message ∧ message.id = some id)
    (fedBack : cut'.anchor =
      (anchorPosition (messages ++ appended)
        (some ((noticeAnchor messages (some cut) cut.start).bind (·.id)))).filter
          fun position => decide (position < cut'.start)) :
    noticeAnchor (messages ++ appended) (some cut') cut'.start =
      noticeAnchor messages (some cut) cut.start := by
  cases copied : (cut.anchor).or ((latestUser messages).bind fun latest =>
      if latest < cut.start then some latest else none) with
  | some position =>
      have isCopied : position < cut.start ∧
          ∃ message id, messages[position]? = some message ∧ message.id = some id := by
        rcases Option.or_eq_some_iff.mp copied with ofCut | ⟨_, fallback⟩
        · exact anchored position ofCut
        · obtain ⟨latest, isLatest, isPosition⟩ := Option.bind_eq_some_iff.mp fallback
          split at isPosition
          · rename_i before
            cases isPosition
            obtain ⟨message, id, present, _, named⟩ := latestUser_some isLatest
            exact ⟨before, message, id, present, named⟩
          · cases isPosition
      obtain ⟨before, message, id, present, named⟩ := isCopied
      have here : noticeAnchor messages (some cut) cut.start = some message := by
        unfold noticeAnchor
        rw [Option.bind_some, copied, Option.bind_some, present]
      have there : (messages ++ appended)[position]? = some message := by
        rw [List.getElem?_append_left (by omega)]
        exact present
      rw [here, Option.bind_some, named] at fedBack
      change cut'.anchor = (positionOf (messages ++ appended) id).filter _ at fedBack
      rw [distinct.positionOf there named, Option.filter_some, starts,
        if_pos (decide_eq_true before)] at fedBack
      rw [here]
      unfold noticeAnchor
      rw [Option.bind_some, fedBack, Option.some_or, Option.bind_some, there]
  | none =>
      obtain ⟨noAnchor, noUser⟩ := Option.or_eq_none_iff.mp copied
      have here : noticeAnchor messages (some cut) cut.start = none := by
        unfold noticeAnchor
        rw [Option.bind_some, copied, Option.bind_none]
      rw [here, Option.bind_none] at fedBack
      change cut'.anchor = none at fedBack
      have later : ((latestUser (messages ++ appended)).bind fun latest =>
          if latest < cut'.start then some latest else none) = none := by
        rw [starts, latestUser_append]
        cases new : latestUser appended with
        | none => exact noUser
        | some offset =>
            change (if messages.length + offset < cut.start then _ else none) = none
            rw [if_neg (by omega)]
      rw [here]
      unfold noticeAnchor
      rw [Option.bind_some, fedBack, Option.none_or, later, Option.bind_none]

/-! ### The kept request -/

/-- The chosen request as it is sent when it is not trimmed. -/
def wholeRequest (estimators : Estimators N) (input : ProjectionInput N) : Option (Projection N) :=
  (messageCosts estimators input).bind fun costs =>
    (chosenRequest estimators input costs).map fun chosen => chosen.1.finish chosen.2

/-- The selection returns its chosen request without trimming it. -/
def SentWhole (estimators : Estimators N) (input : ProjectionInput N) (result : Projection N) : Prop :=
  selectCursorProjection estimators input = some result ∧ wholeRequest estimators input = some result

theorem SentWhole.chosen {input : ProjectionInput N} {result : Projection N}
    (whole : SentWhole estimators input result) :
    ∃ costs projection mode, Chosen estimators input costs projection mode ∧
      result = projection.finish mode := by
  obtain ⟨costs, _, afterCosts⟩ := Option.bind_eq_some_iff.mp whole.2
  obtain ⟨⟨projection, mode⟩, isChosen, same⟩ := Option.map_eq_some_iff.mp afterCosts
  exact ⟨costs, projection, mode, chosenRequest_chosen isChosen, same.symm⟩

/-- A kept request is below the soft limit, so a hard limit no lower than that never trims it. -/
theorem SentWhole.of_kept {input : ProjectionInput N} {result : Projection N}
    (limits : input.softTokens ≤ input.hardTokens)
    (selected : selectCursorProjection estimators input = some result) (kept : result.mode = .kept) :
    SentWhole estimators input result := by
  refine ⟨selected, ?_⟩
  obtain ⟨costs, projection, mode, isCosts, chosen, isChosen, fitted⟩ :=
    selectCursorProjection_cases selected
  unfold wholeRequest
  rw [isCosts, Option.bind_some, isChosen, Option.map_some]
  rcases fit_cases fitted with ⟨unchanged, _⟩ | ⟨trimmed, trim, resized⟩
  · rw [unchanged]
  · rw [resized] at kept
    change mode = .kept at kept
    rw [kept] at chosen
    cases chosen with
    | kept _ _ small => exact absurd (le_trans small limits) (not_le_of_gt trim.exceeds)

omit [Add N] [Sub N] [NatCast N] [LinearOrder N] in
/-- What is known of a cut with its anchor, in terms of the message it goes through. -/
private theorem withAnchor_parts {messages : List Message} {id : JsString} {cut : Cut}
    (made : cutThrough messages id = some cut) (anchor : Option (Option JsString)) :
    positionOf messages id = some cut.through ∧ cut.start = startBehind messages cut.through ∧
      (withAnchor messages cut anchor).id = id ∧
      (withAnchor messages cut anchor).through = cut.through ∧
      (withAnchor messages cut anchor).anchor =
        (anchorPosition messages anchor).filter fun position => decide (position < cut.start) := by
  obtain ⟨through, found, _, rfl⟩ := cutThrough_eq_some_iff.mp made
  rw [withAnchor_eq _ _ _ rfl]
  exact ⟨found, rfl, rfl, rfl, rfl⟩

omit [Add N] [Sub N] [NatCast N] [LinearOrder N] in
private theorem anchorPosition_named {messages : List Message} {anchor : Option (Option JsString)}
    {position : Nat} (named : anchorPosition messages anchor = some position) :
    ∃ message id, messages[position]? = some message ∧ message.id = some id := by
  cases anchor with
  | none =>
      obtain ⟨message, id, present, _, isId⟩ := latestUser_some named
      exact ⟨message, id, present, isId⟩
  | some recorded =>
      cases recorded with
      | none => cases named
      | some id =>
          obtain ⟨message, present, isId⟩ := positionOf_some named
          exact ⟨message, id, present, isId⟩

/-- A kept request whose cut is not disturbed and that is not trimmed, behind one that was
not trimmed, is the previous request followed by what was appended. -/
theorem kept_prefix_stable {previous result : Projection N}
    (grown : Grown first second estimators later appended) (distinct : DistinctIds second.messages)
    (undisturbed : ∀ id through, previous.projectedThrough = some id →
      positionOf first.messages id = some through → Undisturbed first.messages appended through)
    (fedThrough : second.projectedThrough = previous.projectedThrough)
    (fedAnchor : second.projectedAnchor = some previous.projectedAnchor)
    (beforeWhole : SentWhole estimators first previous)
    (afterWhole : SentWhole later second result) (kept : result.mode = .kept) :
    result.messages = previous.messages ++ appended := by
  obtain ⟨costs, projection, mode, chosen, rfl⟩ := beforeWhole.chosen
  obtain ⟨costs', projection', mode', chosen', rfl⟩ := afterWhole.chosen
  change mode' = .kept at kept
  rw [kept] at chosen'
  obtain ⟨_, _, built⟩ := chosen.built
  cases chosen' with
  | @kept cut' _ isCut' isBuilt' small =>
      obtain ⟨id, isId, isMade'⟩ := Option.bind_eq_some_iff.mp isCut'
      obtain ⟨found', starts', _, through', anchor'⟩ := withAnchor_parts isMade' second.projectedAnchor
      obtain ⟨_, built'⟩ := candidate_built isBuilt'
      rw [fedThrough] at isId
      have isThrough : projection.cut.map (·.id) = some id := by
        rw [← built.projectedThrough]
        exact isId
      rcases chosen.cut_cases with whole | ⟨_, recorded, cut, isMade, isCut, starts⟩
      · rw [whole] at isThrough
        cases isThrough
      · obtain ⟨found, cutStart, cutId, through, anchor⟩ := withAnchor_parts isMade recorded
        rw [isCut, Option.map_some, cutId] at isThrough
        cases isThrough
        -- Both calls cut through the same message, and the tail starts at the same one.
        have known := positionOf_lt found
        have throughs : cut'.through = cut.through := by
          rw [grown.messages] at distinct found'
          rw [positionOf_append distinct found] at found'
          exact (Option.some.inj found').symm
        have sameStart : cut'.start = cut.start := by
          rw [starts', cutStart, grown.messages, throughs]
          exact startBehind_append known (undisturbed _ cut.through isId found)
        have inside : cut.start ≤ first.messages.length := by
          rw [cutStart]
          exact startBehind_le_length first.messages cut.through
        rw [isCut, starts] at built
        obtain ⟨messages, anchorIs, _⟩ := built.behind
        obtain ⟨messages', _, _⟩ := built'.behind
        generalize isAnchored : withAnchor first.messages cut recorded = anchored at *
        generalize isAnchored' : withAnchor second.messages cut' second.projectedAnchor = anchored' at *
        have start : anchored.start = cut.start := by
          rw [← isAnchored, withAnchor_start]
        have start' : anchored'.start = cut.start := by
          rw [← isAnchored', withAnchor_start, sameStart]
        have text : noticeText later second (some anchored') anchored'.start =
            noticeText estimators first (some anchored) anchored.start := by
          apply grown.noticeText distinct
          · rw [through', through, throughs]
          · rw [start', start]
          · rw [through]
            exact known
          · rw [start]
            exact inside
        have copied : noticeAnchor second.messages (some anchored') anchored'.start =
            noticeAnchor first.messages (some anchored) anchored.start := by
          rw [grown.messages] at distinct ⊢
          apply noticeAnchor_append distinct
          · rw [start', start]
          · rw [start]
            exact inside
          · intro position isPosition
            rw [anchor] at isPosition
            obtain ⟨named, before⟩ := Option.filter_eq_some_iff.mp isPosition
            rw [start]
            exact ⟨of_decide_eq_true before, anchorPosition_named named⟩
          · rw [anchor', fedAnchor, start', sameStart, grown.messages, start]
            change (anchorPosition _ (some projection.projectedAnchor)).filter _ = _
            rw [anchorIs]
        rw [start', start] at text copied
        change projection'.messages = projection.messages ++ appended
        rw [messages, messages', sameStart, text, copied, grown.messages,
          List.drop_append_of_le_length inside, List.cons_append]
        unfold noticeMessage
        rw [grown.sha256]

end Stability

/-! ### Prefixes that change -/

/-- The input of the next call with the same limits. -/
def nextInput (first : ProjectionInput Int) (previous : Projection Int) (appended : List Message) :
    ProjectionInput Int :=
  { first with
    messages := first.messages ++ appended
    projectedThrough := previous.projectedThrough
    projectedAnchor := some previous.projectedAnchor }

/-- The second call keeps the cut of the first one and is sent whole, yet it is not the first
request followed by what was appended. -/
def ChangesPrefix (estimators later : Estimators Int) (first : ProjectionInput Int)
    (appended : List Message) : Prop :=
  ∃ previous result, selectCursorProjection estimators first = some previous ∧
    SentWhole later (nextInput first previous appended) result ∧ result.mode = .kept ∧
    result.projectedThrough = previous.projectedThrough ∧
    result.messages ≠ previous.messages ++ appended

private theorem changesPrefix_of_run {estimators later : Estimators Int} {first : ProjectionInput Int}
    {appended : List Message} (limits : first.softTokens ≤ first.hardTokens)
    (ran : ((selectCursorProjection estimators first).bind fun previous =>
      (selectCursorProjection later (nextInput first previous appended)).map fun result =>
        decide (result.mode = .kept ∧ result.projectedThrough = previous.projectedThrough ∧
          result.messages.length ≠ previous.messages.length + appended.length)) = some true) :
    ChangesPrefix estimators later first appended := by
  obtain ⟨previous, before, afterPrevious⟩ := Option.bind_eq_some_iff.mp ran
  obtain ⟨result, selected, holds⟩ := Option.map_eq_some_iff.mp afterPrevious
  obtain ⟨kept, through, changed⟩ := of_decide_eq_true holds
  refine ⟨previous, result, before, .of_kept limits selected kept, kept, through,
    fun same => changed ?_⟩
  rw [same, List.length_append]

def cutInput (messages : List Message) (through : String) : ProjectionInput Int :=
  { asciiInput 1000 1000 with
    messages := messages
    projectedThrough := some (JsString.ofString through) }

def readCall : Message :=
  sampleMessage "a1" .assistant [.toolCall (JsString.ofString "c1") (JsString.ofString "read")]

def readResult : Message :=
  sampleMessage "" .tool [.toolResult (JsString.ofString "c1") (JsString.ofString "text")]

def shortAnswer (id : String) : Message := sampleMessage id .assistant [.text (words 10)]

def trimmedInput : ProjectionInput Int :=
  { asciiInput 240 240 with
    messages := [shortAnswer "a0", shortAnswer "a1", shortAnswer "a2"]
    contextLimit := 4000 }

/-- The prefix changes when results stop being the latest messages, when a late result answers
an archived call, when an id is repeated and when the first request was trimmed. -/
theorem kept_prefix_changes :
    ChangesPrefix (measuredAs 100) (measuredAs 100)
        (cutInput [shortAnswer "a0", readCall, readResult] "a1") [shortAnswer "a2"] ∧
      ChangesPrefix (measuredAs 100) (measuredAs 100)
        (cutInput [shortAnswer "a0", readCall, shortAnswer "a2"] "a1") [readResult] ∧
      ChangesPrefix (measuredAs 100) (measuredAs 100)
        (cutInput [shortAnswer "a0", shortAnswer "a1", shortAnswer "a2"] "a1")
        [shortAnswer "a1", shortAnswer "a3"] ∧
      ChangesPrefix (measuredAs 300) (measuredAs 100) trimmedInput [shortAnswer "a3"] := by
  refine ⟨?_, ?_, ?_, ?_⟩
  · exact changesPrefix_of_run (by decide) (by decide +kernel)
  · exact changesPrefix_of_run (by decide) (by decide +kernel)
  · exact changesPrefix_of_run (by decide) (by decide +kernel)
  · exact changesPrefix_of_run (by decide) (by decide +kernel)

/-- A message behind an archived exchange that others follow: the kept request grows by it. -/
theorem kept_prefix_stable_sample :
    ∃ previous result,
      selectCursorProjection (measuredAs 100)
          (cutInput [readCall, readResult, shortAnswer "a2"] "a1") = some previous ∧
        selectCursorProjection (measuredAs 100)
            (nextInput (cutInput [readCall, readResult, shortAnswer "a2"] "a1") previous
              [shortAnswer "a3"]) = some result ∧
          result.messages = previous.messages ++ [shortAnswer "a3"] := by
  have ran : ((selectCursorProjection (measuredAs 100)
      (cutInput [readCall, readResult, shortAnswer "a2"] "a1")).bind fun previous =>
        (selectCursorProjection (measuredAs 100)
          (nextInput (cutInput [readCall, readResult, shortAnswer "a2"] "a1") previous
            [shortAnswer "a3"])).map fun result =>
              decide (previous.mode = .kept ∧ result.mode = .kept ∧
                previous.projectedThrough = some (JsString.ofString "a1"))) = some true := by
    decide +kernel
  obtain ⟨previous, before, afterPrevious⟩ := Option.bind_eq_some_iff.mp ran
  obtain ⟨result, selected, holds⟩ := Option.map_eq_some_iff.mp afterPrevious
  obtain ⟨keptBefore, kept, through⟩ := of_decide_eq_true holds
  have limits : (1000 : Int) ≤ 1000 := le_refl _
  refine ⟨previous, result, before, selected, ?_⟩
  have grown : Grown (cutInput [readCall, readResult, shortAnswer "a2"] "a1")
      (nextInput (cutInput [readCall, readResult, shortAnswer "a2"] "a1") previous [shortAnswer "a3"])
      (measuredAs 100) (measuredAs 100) [shortAnswer "a3"] :=
    ⟨rfl, rfl, rfl, rfl, rfl, rfl, rfl, rfl⟩
  apply kept_prefix_stable grown _ _ rfl rfl
    (SentWhole.of_kept limits before keptBefore) (SentWhole.of_kept limits selected kept) kept
  · change DistinctIds ([readCall, readResult, shortAnswer "a2"] ++ [shortAnswer "a3"])
    decide +kernel
  · intro id position isThrough found
    rw [through] at isThrough
    cases isThrough
    have position : position = 0 := by
      have here : positionOf [readCall, readResult, shortAnswer "a2"] (JsString.ofString "a1") =
          some 0 := by
        decide +kernel
      exact (Option.some.inj (here.symm.trans found)).symm
    rw [position]
    constructor
    · left
      decide +kernel
    · rw [← toolSafeStarts_iff]
      · decide +kernel
      · decide +kernel

end Reflection.Cursor
