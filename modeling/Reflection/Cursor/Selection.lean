/-
What a selection can end with: the request that is chosen, and that request trimmed.

Every result about a projection starts from these two case analyses, so that nothing else
looks into the branches of the selection.
-/

import Reflection.Cursor.Cuts

namespace Reflection.Cursor

open JsString

section Selection

variable {N : Type} [Add N] [Sub N] [NatCast N] [LE N] [DecidableLE N] [LT N] [DecidableLT N]
variable (estimators : Estimators N) (input : ProjectionInput N)

/-! ### The chosen request -/

/-- The request that is chosen before it is checked against the hard budget. -/
def chosenRequest (costs : List N) : Option (Candidate N × Mode) := do
  let kept ← keptCandidate estimators input costs
  match kept.filter fun kept => decide (kept.estimatedTokens ≤ input.softTokens) with
  | some kept => some (kept, .kept)
  | none => do
      let raw ← candidate estimators input costs none 0 true
      if raw.estimatedTokens ≤ input.softTokens ∨ input.messages.length < 2 then some (raw, .raw)
      else do
        let cut ← fireCut estimators input costs
        match cut with
        | none => some (raw, .raw)
        | some cut => do
            let fired ← candidate estimators input costs (some (withAnchor input.messages cut none))
              cut.start false
            if input.hardTokens < fired.estimatedTokens ∧ raw.estimatedTokens ≤ input.hardTokens then
              some (raw, .raw)
            else some (fired, .fired)

theorem selectCursorProjection_eq :
    selectCursorProjection estimators input =
      (messageCosts estimators input).bind fun costs =>
        (chosenRequest estimators input costs).bind fun chosen =>
          fit estimators input costs chosen.1 chosen.2 := by
  unfold selectCursorProjection chosenRequest
  cases messageCosts estimators input with
  | none => rfl
  | some costs =>
      simp only [Option.bind_some, Option.bind_eq_bind]
      cases keptCandidate estimators input costs with
      | none => rfl
      | some kept =>
          simp only [Option.bind_some]
          cases kept.filter fun kept => decide (kept.estimatedTokens ≤ input.softTokens) with
          | some kept => rfl
          | none =>
              cases candidate estimators input costs none 0 true with
              | none => rfl
              | some raw =>
                  simp only [Option.bind_some]
                  split
                  · rfl
                  · cases fireCut estimators input costs with
                    | none => rfl
                    | some cut =>
                        cases cut with
                        | none => rfl
                        | some cut =>
                            simp only [Option.bind_some]
                            cases candidate estimators input costs
                              (some (withAnchor input.messages cut none)) cut.start false with
                            | none => rfl
                            | some fired =>
                                simp only [Option.bind_some]
                                split <;> rfl

/-- The requests a selection chooses from, each with the mode it is reported under. -/
inductive Chosen (costs : List N) : Candidate N → Mode → Prop
  | kept {previous : Cut} {made : Candidate N}
      (isCut : input.projectedThrough.bind (cutThrough input.messages) = some previous)
      (built : candidate estimators input costs
        (some (withAnchor input.messages previous input.projectedAnchor)) previous.start true =
          some made)
      (small : made.estimatedTokens ≤ input.softTokens) : Chosen costs made .kept
  | raw {made : Candidate N} (built : candidate estimators input costs none 0 true = some made) :
      Chosen costs made .raw
  | fired {cut : Cut} {made : Candidate N} (isCut : fireCut estimators input costs = some (some cut))
      (built : candidate estimators input costs (some (withAnchor input.messages cut none)) cut.start
        false = some made) : Chosen costs made .fired

variable {estimators input}

theorem chosenRequest_chosen {costs : List N} {made : Candidate N} {mode : Mode}
    (chosen : chosenRequest estimators input costs = some (made, mode)) :
    Chosen estimators input costs made mode := by
  rcases Option.bind_eq_some_iff.mp chosen with ⟨kept, isKept, afterKept⟩
  split at afterKept
  · rename_i keptMade isSmall
    cases afterKept
    rw [Option.filter_eq_some_iff, decide_eq_true_eq] at isSmall
    rw [isSmall.1] at isKept
    unfold keptCandidate at isKept
    split at isKept
    · cases isKept
    · rename_i previous isPrevious
      rcases Option.map_eq_some_iff.mp isKept with ⟨_, built, same⟩
      cases same
      exact .kept isPrevious built isSmall.2
  · rcases Option.bind_eq_some_iff.mp afterKept with ⟨raw, isRaw, afterRaw⟩
    split at afterRaw
    · cases afterRaw
      exact .raw isRaw
    · rcases Option.bind_eq_some_iff.mp afterRaw with ⟨cut, isCut, afterCut⟩
      split at afterCut
      · cases afterCut
        exact .raw isRaw
      · rcases Option.bind_eq_some_iff.mp afterCut with ⟨fired, isFired, afterFired⟩
        split at afterFired
        · cases afterFired
          exact .raw isRaw
        · cases afterFired
          exact .fired isCut isFired

/-! ### Cuts of a fired request -/

omit [Add N] [Sub N] [LT N] [DecidableLT N] in
theorem beyondSummaries_made {suffix : List N} {lowest : Nat} {latest : Option Cut}
    {messages : List Message}
    (known : ∀ cut ∈ latest, ∃ id, cutThrough input.messages id = some cut) :
    ∀ cut ∈ beyondSummaries estimators input suffix lowest latest messages,
      ∃ id, cutThrough input.messages id = some cut := by
  induction messages generalizing latest with
  | nil => exact known
  | cons message rest ih =>
      unfold beyondSummaries
      split
      · exact ih known
      · rename_i next made
        have nextMade : ∀ cut ∈ some next, ∃ id, cutThrough input.messages id = some cut := by
          intro cut isNext
          cases isNext
          obtain ⟨id, _, cutMade⟩ := Option.bind_eq_some_iff.mp made
          exact ⟨id, cutMade⟩
        split
        · exact ih known
        · split
          · exact nextMade
          · exact ih nextMade

/-- A request is only ever fired at the cut through some message. -/
theorem fireCut_made {costs : List N} {cut : Cut}
    (chosen : fireCut estimators input costs = some (some cut)) :
    ∃ id, cutThrough input.messages id = some cut := by
  obtain ⟨tooLarge, _, taken⟩ := Option.bind_eq_some_iff.mp chosen
  generalize isFirst : ((summaryCuts input).find? fun cut =>
    decide ((suffixCosts costs).getD cut.start ((0 : Nat) : N) ≤
      estimators.tailShare input.contextLimit)).or (summaryCuts input).getLast? = first at taken
  have summary : ∀ found ∈ first, ∃ id, cutThrough input.messages id = some found := by
    intro found isFound
    have member : found ∈ summaryCuts input := by
      rw [← isFirst] at isFound
      rcases Option.or_eq_some_iff.mp isFound with fits | ⟨_, last⟩
      · exact List.mem_of_find?_eq_some fits
      · exact List.mem_of_getLast? last
    obtain ⟨item, _, made⟩ := List.mem_filterMap.mp member
    exact ⟨_, made⟩
  split at taken
  · rcases Option.or_eq_some_iff.mp (Option.some.inj taken) with further | ⟨_, kept⟩
    · exact beyondSummaries_made (fun other absent => absurd absent (Option.not_mem_none other)) cut
        further
    · exact summary cut kept
  · exact summary cut (Option.some.inj taken)

/-! ### Archives -/

/-- What an archive says before the gaps are looked for: its parts, from which message on
gaps are, and the ranges that are summarized. -/
structure ArchiveSource where
  parts : List JsString
  omitted : Nat
  begin : Nat
  ranges : List (Nat × Nat)

/-- The summaries that end by a cut's message. -/
def includedSummaries (messages : List Message) (summaries : List NativeSegmentSummary)
    (through : Nat) : List LocatedSummary :=
  (locate messages summaries).filter fun item => item.stop ≤ through

variable (estimators input) in
def summarizedSource (through : Nat) : ArchiveSource :=
  let included := includedSummaries input.messages input.summaries through
  let selected := selectSummaries estimators (estimators.summaryShare input.contextLimit) []
    included.reverse
  let omitted := included.length - selected.length
  { parts := (if omitted > 0 then
        [ofString "[" ++ decimal omitted ++ ofString " older summaries omitted; use memory_search]"]
      else []) ++
        selected.map fun item =>
          ofString "Segment " ++ item.segment.id ++ ofString "\n" ++ item.segment.summary
    omitted := omitted
    begin := 0
    ranges := included.map fun item => (item.start, item.stop) }

variable (input) in
/-- The cached block and its position when it stands in for summaries that could not be read. -/
def standIn (through : Nat) : Option (ArchiveBlock × Nat) :=
  if input.summaries = [] then
    input.cachedBlock.bind fun block =>
      ((positionOf input.messages block.through).filter fun position =>
        decide (position ≤ through)).map fun position => (block, position)
  else none

variable (estimators input) in
def archiveSource (through : Nat) : ArchiveSource :=
  match standIn input through with
  | some (block, position) =>
      { parts := [block.text]
        omitted := 0
        begin := position + 1
        ranges := [] }
  | none => summarizedSource estimators input through

/-- The scan for gaps over the messages before `stop`. -/
def scanGaps (messages : List Message) (source : ArchiveSource) (stop : Nat) : GapScan :=
  (((messages.zipIdx.take stop).drop source.begin).foldl GapScan.visit
    { ranges := source.ranges, pending := none, parts := source.parts, missing := 0 }).close

omit [LE N] [DecidableLE N] in
theorem archive_eq (cut : Cut) (stop : Nat) :
    archive estimators input (some cut) stop =
      { text := joinParts
          (scanGaps input.messages (archiveSource estimators input cut.through) stop).parts
        omitted := (archiveSource estimators input cut.through).omitted
        missing :=
          (scanGaps input.messages (archiveSource estimators input cut.through) stop).missing } := by
  unfold archive archiveSource standIn
  cases cached : input.cachedBlock with
  | none =>
      by_cases outage : input.summaries = []
      · rw [if_pos outage]
        rfl
      · rw [if_neg outage]
        rfl
  | some block =>
      by_cases outage : input.summaries = []
      · simp only [if_pos outage, Option.bind_some]
        cases positionOf input.messages block.through with
        | none => rfl
        | some position =>
            by_cases before : position ≤ cut.through
            · simp only [Option.map_some, Option.filter_some, decide_eq_true before, if_true,
                if_pos before]
              rfl
            · simp only [Option.map_some, Option.filter_some, decide_eq_false before, if_neg before,
                Bool.false_eq_true, if_false, Option.map_none]
              rfl
      · simp only [if_neg outage]
        rfl

/-! ### Notices -/

/-- Where the archive behind a notice ends. -/
def archivedTo : Option Cut → Nat
  | none => 0
  | some cut => cut.start

/-- The message a notice copies. -/
def noticeAnchor (messages : List Message) (cut : Option Cut) (start : Nat) : Option Message :=
  ((cut.bind (·.anchor)).or
    ((latestUser messages).bind fun latest => if latest < start then some latest else none)).bind
      fun position => messages[position]?

variable (estimators input) in
def noticeText (cut : Option Cut) (start : Nat) : JsString :=
  let block := archive estimators input cut (archivedTo cut)
  joinParts
    ([noticePrefix,
        ofString "[Reflection source_id=" ++ jsonString input.sourceId ++ ofString "]"] ++
      (if block.text = [] then [] else [block.text]) ++
      if start - archivedTo cut > 0 then [droppedMarker (start - archivedTo cut)] else [])

variable (estimators) in
def noticeMessage (text : JsString) (anchor : Option Message) : Message :=
  { id := some (ofString "reflection-cursor-" ++
      (estimators.sha256 (ofString "[" ++ jsonString text ++ ofString "," ++
        (match anchor.bind (·.id) with
        | some id => jsonString id
        | none => ofString "null") ++ ofString "]")).take 32)
    role := .user
    content :=
      match anchor with
      | some anchor => [.text text, .text anchorHeader] ++ anchor.content ++ [.text anchorFooter]
      | none => [.text text]
    providerMetadata := anchor.bind (·.providerMetadata) }

omit [LE N] [DecidableLE N] in
theorem notice_eq (cut : Option Cut) (start : Nat) :
    notice estimators input cut start =
      (estimators.messageTokens (noticeMessage estimators (noticeText estimators input cut start)
        (noticeAnchor input.messages cut start))).map fun tokens =>
          { message := noticeMessage estimators (noticeText estimators input cut start)
              (noticeAnchor input.messages cut start)
            cost := ((8 : Nat) : N) + tokens
            omitted := (archive estimators input cut (archivedTo cut)).omitted
            missing := (archive estimators input cut (archivedTo cut)).missing
            block := cut.map fun cut =>
              { through := cut.id
                text := (archive estimators input (some cut) cut.start).text }
            anchor := (noticeAnchor input.messages cut start).bind (·.id) } := by
  cases cut with
  | none => rfl
  | some cut => rfl

/-! ### Candidates -/

variable (estimators input) in
/-- A request from `start` on: the notice in front of it, unless it drops nothing, and how it
is sized. -/
structure Built (costs : List N) (cut : Option Cut) (start : Nat) (bounded : Bool)
    (made : Candidate N) (head : Option (Notice N)) : Prop where
  archived : head = none ∧ cut = none ∧ start = 0 ∨
    ∃ archived, head = some archived ∧ notice estimators input cut start = some archived
  messages : made.messages = (head.map (·.message)).toList ++ input.messages.drop start
  sized : made.estimatedTokens = ((estimators.measure made.messages).or
    (if (estimators.measure made.messages).isNone && bounded
      then estimators.bound made.messages else none)).getD
      (input.systemTokens + made.headCost + (suffixCosts costs).getD start ((0 : Nat) : N))
  heuristic : made.source = .heuristic → made.estimatedTokens =
    input.systemTokens + made.headCost + (suffixCosts costs).getD start ((0 : Nat) : N)
  headCost : made.headCost = (head.map (·.cost)).getD ((0 : Nat) : N)
  projectedThrough : made.projectedThrough = cut.map (·.id)
  projectedAnchor : made.projectedAnchor = head.bind (·.anchor)
  block : made.block = head.bind (·.block)
  cut : made.cut = cut
  start : made.start = start

omit [Add N] [Sub N] [NatCast N] [LE N] [DecidableLE N] [LT N] [DecidableLT N] in
private theorem unsized {measured bound : Option N} (estimate : N)
    (source : (if measured.isSome then EstimateSource.provider
      else if bound.isSome then .providerBound else .heuristic) = .heuristic) :
    (measured.or bound).getD estimate = estimate := by
  cases measured with
  | some measured => cases source
  | none =>
      cases bound with
      | some bound => cases source
      | none => rfl

omit [LE N] [DecidableLE N] in
theorem candidate_built {costs : List N} {cut : Option Cut} {start : Nat} {bounded : Bool}
    {made : Candidate N} (built : candidate estimators input costs cut start bounded = some made) :
    ∃ head, Built estimators input costs cut start bounded made head := by
  unfold candidate at built
  by_cases whole : cut = none ∧ start = 0
  · rw [if_pos whole] at built
    cases built
    exact ⟨none, .inl ⟨rfl, whole⟩, rfl, rfl, unsized _, rfl, rfl, rfl, rfl, rfl, rfl⟩
  · rw [if_neg whole] at built
    cases archived : notice estimators input cut start with
    | none =>
        rw [archived] at built
        cases built
    | some archived' =>
        rw [archived] at built
        cases built
        exact ⟨some archived', .inr ⟨archived', rfl, archived⟩, rfl, rfl, unsized _, rfl, rfl, rfl,
          rfl, rfl, rfl⟩

omit [LE N] [DecidableLE N] in
/-- A request behind a cut: its notice, the message it copies and the messages it keeps. -/
theorem Built.behind {costs : List N} {cut : Cut} {start : Nat} {bounded : Bool}
    {made : Candidate N} {head : Option (Notice N)}
    (built : Built estimators input costs (some cut) start bounded made head) :
    made.messages =
        noticeMessage estimators (noticeText estimators input (some cut) start)
          (noticeAnchor input.messages (some cut) start) :: input.messages.drop start ∧
      made.projectedAnchor = (noticeAnchor input.messages (some cut) start).bind (·.id) ∧
      made.block =
        some
          { through := cut.id
            text := (archive estimators input (some cut) cut.start).text } := by
  rcases built.archived with ⟨_, impossible, _⟩ | ⟨archived, isHead, isNotice⟩
  · cases impossible
  · rw [notice_eq] at isNotice
    obtain ⟨_, _, same⟩ := Option.map_eq_some_iff.mp isNotice
    rw [built.messages, built.projectedAnchor, built.block, isHead, ← same]
    exact ⟨rfl, rfl, rfl⟩

omit [LE N] [DecidableLE N] in
theorem Built.noBlock {costs : List N} {start : Nat} {bounded : Bool} {made : Candidate N}
    {head : Option (Notice N)}
    (built : Built estimators input costs none start bounded made head) : made.block = none := by
  rw [built.block]
  rcases built.archived with ⟨noHead, _⟩ | ⟨archived, isHead, isNotice⟩
  · rw [noHead]
    rfl
  · rw [notice_eq] at isNotice
    obtain ⟨_, _, same⟩ := Option.map_eq_some_iff.mp isNotice
    rw [isHead, ← same]
    rfl

/-! ### Trimming -/

variable (estimators input) in
/-- Where the two loops of `fit` end, and the estimate they leave. -/
def trimTo (costs : List N) (projection : Candidate N) : Nat × N :=
  let safe := toolSafeStarts input.messages
  let forward := dropOldest input safe
    (estimators.textTokens (droppedMarker input.messages.length) + ((2 : Nat) : N))
    (costs.drop projection.start) projection.start projection.estimatedTokens
  backToSafe safe costs projection.start forward.1 forward.2

omit [NatCast N] [LE N] [DecidableLE N] in
theorem le_dropOldest (safe : List Bool) (reserve : N) (costs : List N) (start : Nat)
    (estimated : N) : start ≤ (dropOldest input safe reserve costs start estimated).1 := by
  induction costs generalizing start estimated with
  | nil => exact Nat.le_refl _
  | cons cost rest ih =>
      cases rest with
      | nil => exact Nat.le_refl _
      | cons next rest =>
          rw [dropOldest]
          split
          · exact Nat.le_trans (Nat.le_succ start) (ih (start + 1) (estimated - cost))
          · exact Nat.le_refl _

omit [Sub N] [LE N] [DecidableLE N] [LT N] [DecidableLT N] in
/-- Backing off stops at a safe start, or where the projection started. -/
theorem backToSafe_stops (safe : List Bool) (costs : List N) {lowest start : Nat}
    (behind : lowest ≤ start) (estimated : N) :
    lowest ≤ (backToSafe safe costs lowest start estimated).1 ∧
      ((backToSafe safe costs lowest start estimated).1 = lowest ∨
        isSafe safe (backToSafe safe costs lowest start estimated).1 = true) := by
  induction start generalizing estimated with
  | zero =>
      have here := Nat.le_zero.mp behind
      exact ⟨behind, .inl here.symm⟩
  | succ start ih =>
      rw [backToSafe]
      split
      · rename_i goes
        rw [Bool.and_eq_true, decide_eq_true_eq] at goes
        exact ih (Nat.le_of_lt_succ goes.1) _
      · rename_i stops
        refine ⟨behind, ?_⟩
        rw [Bool.and_eq_true, decide_eq_true_eq, Bool.not_eq_true', not_and_or,
          Bool.not_eq_false] at stops
        rcases stops with reached | safeHere
        · left
          exact Nat.le_antisymm (Nat.le_of_not_lt reached) behind
        · exact .inr safeHere

omit [LE N] [DecidableLE N] in
variable (estimators input) in
theorem trimTo_stops (costs : List N) (projection : Candidate N) :
    projection.start ≤ (trimTo estimators input costs projection).1 ∧
      ((trimTo estimators input costs projection).1 = projection.start ∨
        isSafe (toolSafeStarts input.messages) (trimTo estimators input costs projection).1 =
          true) := by
  unfold trimTo
  exact backToSafe_stops _ costs (le_dropOldest _ _ _ _ _) _

variable (estimators input) in
/-- A request past the hard budget and what is sent in its place. -/
structure Trimmed (costs : List N) (projection trimmed : Candidate N) : Prop where
  exceeds : input.hardTokens < projection.estimatedTokens
  later : projection.start < (trimTo estimators input costs projection).1
  safe : isSafe (toolSafeStarts input.messages) (trimTo estimators input costs projection).1 = true
  built : candidate estimators input costs projection.cut (trimTo estimators input costs projection).1
    false = some trimmed

/-- What is reported for a trimmed request: its size is edited, never measured. -/
def Candidate.resized (trimmed projection : Candidate N) (estimated : N) : Candidate N :=
  { trimmed with
    estimatedTokens := estimated - projection.headCost + trimmed.headCost
    measured := false
    source := .heuristic }

omit [LE N] [DecidableLE N] in
theorem fit_cases {costs : List N} {projection : Candidate N} {mode : Mode} {result : Projection N}
    (fitted : fit estimators input costs projection mode = some result) :
    (result = projection.finish mode ∧
      (input.hardTokens < projection.estimatedTokens →
        (trimTo estimators input costs projection).1 = projection.start)) ∨
      ∃ trimmed, Trimmed estimators input costs projection trimmed ∧
        result = (trimmed.resized projection (trimTo estimators input costs projection).2).finish
          mode := by
  unfold fit at fitted
  split at fitted
  · rename_i exceeds
    have stops := trimTo_stops estimators input costs projection
    dsimp only at fitted
    change (if (trimTo estimators input costs projection).1 ≠ projection.start then _ else _) =
      some result at fitted
    split at fitted
    · rename_i moved
      rcases Option.bind_eq_some_iff.mp fitted with ⟨trimmed, built, finished⟩
      right
      refine ⟨trimmed, ⟨exceeds, by omega, stops.2.resolve_left moved, built⟩, ?_⟩
      exact (Option.some.inj finished).symm
    · rename_i stays
      left
      exact ⟨(Option.some.inj fitted).symm, fun _ => not_not.mp stays⟩
  · rename_i fits
    left
    exact ⟨(Option.some.inj fitted).symm, fun exceeds => absurd exceeds fits⟩

/-- Every result is a chosen request, as it is or trimmed. -/
theorem selectCursorProjection_cases {result : Projection N}
    (selected : selectCursorProjection estimators input = some result) :
    ∃ costs projection mode, messageCosts estimators input = some costs ∧
      Chosen estimators input costs projection mode ∧
      chosenRequest estimators input costs = some (projection, mode) ∧
      fit estimators input costs projection mode = some result := by
  rw [selectCursorProjection_eq] at selected
  rcases Option.bind_eq_some_iff.mp selected with ⟨costs, isCosts, afterCosts⟩
  rcases Option.bind_eq_some_iff.mp afterCosts with ⟨⟨projection, mode⟩, isChosen, fitted⟩
  exact ⟨costs, projection, mode, isCosts, chosenRequest_chosen isChosen, isChosen, fitted⟩

variable (estimators input) in
/-- The request a result reports: the chosen one, or the chosen one from a later start. -/
structure Reported (costs : List N) (projection : Candidate N) (mode : Mode) (result : Projection N)
    (start : Nat) (made : Candidate N) (head : Option (Notice N)) : Prop where
  built : ∃ bounded, Built estimators input costs projection.cut start bounded made head
  later : projection.start ≤ start
  trimmed : projection.start < start → input.hardTokens < projection.estimatedTokens
  messages : result.messages = made.messages
  projectedThrough : result.projectedThrough = made.projectedThrough
  projectedAnchor : result.projectedAnchor = made.projectedAnchor
  block : result.block = made.block
  mode : result.mode = mode

theorem Chosen.built {costs : List N} {made : Candidate N} {mode : Mode}
    (chosen : Chosen estimators input costs made mode) :
    ∃ bounded head, Built estimators input costs made.cut made.start bounded made head := by
  have own {cut : Option Cut} {start : Nat} {bounded : Bool}
      (isBuilt : candidate estimators input costs cut start bounded = some made) :
      ∃ bounded head, Built estimators input costs made.cut made.start bounded made head := by
    obtain ⟨head, built⟩ := candidate_built isBuilt
    rw [built.cut, built.start]
    exact ⟨bounded, head, built⟩
  cases chosen with
  | kept _ isBuilt _ => exact own isBuilt
  | raw isBuilt => exact own isBuilt
  | fired _ isBuilt => exact own isBuilt

/-- A chosen request is whole, or it starts where some message's cut does. -/
theorem Chosen.cut_cases {costs : List N} {made : Candidate N} {mode : Mode}
    (chosen : Chosen estimators input costs made mode) :
    made.cut = none ∨ ∃ id anchor cut, cutThrough input.messages id = some cut ∧
      made.cut = some (withAnchor input.messages cut anchor) ∧ made.start = cut.start := by
  cases chosen with
  | kept isCut isBuilt _ =>
      obtain ⟨id, _, isMade⟩ := Option.bind_eq_some_iff.mp isCut
      obtain ⟨_, built⟩ := candidate_built isBuilt
      exact .inr ⟨id, _, _, isMade, built.cut, built.start⟩
  | raw isBuilt =>
      obtain ⟨_, built⟩ := candidate_built isBuilt
      exact .inl built.cut
  | fired isCut isBuilt =>
      obtain ⟨id, isMade⟩ := fireCut_made isCut
      obtain ⟨_, built⟩ := candidate_built isBuilt
      exact .inr ⟨id, _, _, isMade, built.cut, built.start⟩

theorem selectCursorProjection_reported {result : Projection N}
    (selected : selectCursorProjection estimators input = some result) :
    ∃ costs projection mode start made head, Chosen estimators input costs projection mode ∧
      Reported estimators input costs projection mode result start made head := by
  obtain ⟨costs, projection, mode, _, chosen, _, fitted⟩ := selectCursorProjection_cases selected
  rcases fit_cases fitted with ⟨unchanged, _⟩ | ⟨trimmed, trim, resized⟩
  · obtain ⟨bounded, head, built⟩ := chosen.built
    rw [unchanged]
    exact ⟨costs, projection, mode, projection.start, projection, head, chosen, ⟨bounded, built⟩,
      Nat.le_refl _, fun later => absurd later (Nat.lt_irrefl _), rfl, rfl, rfl, rfl, rfl⟩
  · obtain ⟨head, built⟩ := candidate_built trim.built
    rw [resized]
    exact ⟨costs, projection, mode, _, trimmed, head, chosen, ⟨false, built⟩,
      Nat.le_of_lt trim.later, fun _ => trim.exceeds, rfl, rfl, rfl, rfl, rfl⟩

end Selection

end Reflection.Cursor
