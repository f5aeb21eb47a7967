/-
Selection of the projected request of one session.

The request is sent whole while it is small, behind the previous cut while that still
fits, and otherwise behind a new cut through a summary. Everything before a cut is
replaced by one generated notice. Sizes are numbers of any type with the operations the
code uses; the estimators, the digest and the provider's measurements are parameters.
-/

import Reflection.Foundation.IntervalCount
import Reflection.Shared.Json

namespace Reflection.Cursor

open JsString

inductive Role
  | system
  | user
  | assistant
  | tool
deriving DecidableEq

/-- Message content. What a call, a result or another part carries is opaque here. -/
inductive Part
  | text (text : JsString)
  | toolCall (id payload : JsString)
  | toolResult (id payload : JsString)
  | other (payload : JsString)
deriving DecidableEq

structure Message where
  id : Option JsString
  role : Role
  content : List Part
  providerMetadata : Option JsString
deriving DecidableEq

structure NativeSegmentSummary where
  id : JsString
  startSourceMessageId : JsString
  endSourceMessageId : JsString
  summary : JsString
deriving DecidableEq

/-- Rendered archive description, persisted so a manifest outage keeps it. -/
structure ArchiveBlock where
  through : JsString
  text : JsString
deriving DecidableEq

/-- Archive `messages[0, start)`: `through` is the last message the summaries may cover and
`id` names it. `anchor` is the archived latest user message copied into the notice. -/
structure Cut where
  id : JsString
  through : Nat
  start : Nat
  anchor : Option Nat
deriving DecidableEq

inductive EstimateSource
  | provider
  | providerBound
  | heuristic
deriving DecidableEq

inductive Mode
  | raw
  | kept
  | fired
deriving DecidableEq

def noticePrefix : JsString :=
  ofString "[System-generated Reflection context, not a new user instruction. Archived material may omit details; use memory_search and memory_read_segment with source_id and segment_id.]"

def anchorHeader : JsString := ofString "\n[Latest actual user input, copied verbatim]\n"

def anchorFooter : JsString := ofString "\n[End latest actual user input]"

def droppedMarker (dropped : Nat) : JsString :=
  ofString "[" ++ decimal dropped ++
    ofString " earlier messages omitted to fit the input budget; use memory_search]"

/-- `parts.join("\n\n")`. -/
def joinParts (parts : List JsString) : JsString := (ofString "\n\n").intercalate parts

/-! ### Tool-safe starts -/

/-- The calls seen so far, latest first, and the difference array. -/
structure ToolScan where
  calls : List (JsString × Nat)
  unsafeMarks : List Int

def scanPart (index : Nat) (scan : ToolScan) : Part → ToolScan
  | .toolCall id _ => { scan with calls := (id, index) :: scan.calls }
  | .toolResult id _ =>
      match scan.calls.lookup id with
      | none => scan
      | some call =>
          if call = index then scan
          else { scan with unsafeMarks := IntervalCount.mark scan.unsafeMarks call index }
  | .text _ | .other _ => scan

def scanMessage (scan : ToolScan) (entry : Message × Nat) : ToolScan :=
  entry.1.content.foldl (scanPart entry.2) scan

/-- A tail may not start between a tool call and its result. -/
def toolSafeStarts (messages : List Message) : List Bool :=
  let scan := messages.zipIdx.foldl scanMessage
    { calls := [], unsafeMarks := List.replicate (messages.length + 2) 0 }
  (IntervalCount.uncovered 0 scan.unsafeMarks).take (messages.length + 1)

/-! ### Positions and cuts -/

/-- The last message with an id, as `positions.get` finds it. -/
def positionOf (messages : List Message) (id : JsString) : Option Nat :=
  (messages.zipIdx.reverse.find? fun entry => entry.1.id == some id).map (·.2)

def latestUser (messages : List Message) : Option Nat :=
  (messages.zipIdx.reverse.find? fun entry => entry.1.role == .user && entry.1.id.isSome).map (·.2)

structure LocatedSummary where
  segment : NativeSegmentSummary
  start : Nat
  stop : Nat

def LocatedSummary.Le (left right : LocatedSummary) : Prop :=
  left.start < right.start ∨ left.start = right.start ∧ left.stop ≤ right.stop

instance : DecidableRel LocatedSummary.Le := fun _ _ =>
  inferInstanceAs (Decidable (_ ∨ _ ∧ _))

def locate (messages : List Message) (summaries : List NativeSegmentSummary) :
    List LocatedSummary :=
  (summaries.filterMap fun segment =>
    match positionOf messages segment.startSourceMessageId,
      positionOf messages segment.endSourceMessageId with
    | some start, some stop =>
        if stop < start then none else some { segment := segment, start := start, stop := stop }
    | _, _ => none).insertionSort LocatedSummary.Le

/-- `safe[start]`; a position past the end reads `undefined`. -/
def isSafe (safe : List Bool) (start : Nat) : Bool := safe.getD start false

/-- Move over the tool results that follow an archived assistant. -/
def skipToolResults : List Message → Nat → Nat
  | message :: rest, start =>
      if message.id = none ∧ message.role = .tool then skipToolResults rest (start + 1) else start
  | [], start => start

/-- `while (start > 0 && !safe[start]) start--`. -/
def retreatToSafe (safe : List Bool) : Nat → Nat
  | 0 => 0
  | start + 1 => if isSafe safe (start + 1) then start + 1 else retreatToSafe safe start

/-- An assistant's source record includes its tool results, so they are archived with it
when later messages follow; otherwise the call stays in the tail. -/
def cutThrough (messages : List Message) (id : JsString) : Option Cut :=
  match positionOf messages id with
  | none => none
  | some through =>
      let safe := toolSafeStarts messages
      let skipped := skipToolResults (messages.drop (through + 1)) (through + 1)
      let start :=
        if skipped ≥ messages.length || !isSafe safe skipped then retreatToSafe safe (through + 1)
        else skipped
      if start > 0 then some { id := id, through := through, start := start, anchor := none }
      else none

/-- The anchor named by the previous projection: unknown, none, or a message id. -/
def withAnchor (messages : List Message) (cut : Cut) (anchor : Option (Option JsString)) : Cut :=
  let position :=
    match anchor with
    | none => latestUser messages
    | some none => none
    | some (some id) => positionOf messages id
  match position with
  | some position => if position < cut.start then { cut with anchor := some position } else cut
  | none => cut

/-! ### Sizes -/

/-- Functions from outside the model: token estimates, the digest of a notice and the
provider's measurements. An estimate fails on a payload it cannot bound. -/
structure Estimators (N : Type) where
  /-- `estimateNativeTokens` of role and content of the estimation copy of a message. -/
  messageTokens : Message → Option N
  textTokens : JsString → N
  sha256 : JsString → JsString
  measure : List Message → Option N
  bound : List Message → Option N
  /-- `Math.floor(limit * 0.25)` and `Math.floor(limit * 0.05)`. -/
  tailShare : N → N
  summaryShare : N → N

structure ProjectionInput (N : Type) where
  sourceId : JsString
  messages : List Message
  summaries : List NativeSegmentSummary
  cachedBlock : Option ArchiveBlock
  projectedThrough : Option JsString
  /-- `undefined`, `null` or a message id. -/
  projectedAnchor : Option (Option JsString)
  contextLimit : N
  softTokens : N
  hardTokens : N
  systemTokens : N

section Selection

variable {N : Type} [Add N] [Sub N] [NatCast N] [LE N] [DecidableLE N] [LT N] [DecidableLT N]
variable (estimators : Estimators N) (input : ProjectionInput N)

/-! ### The archive notice -/

/-- The newest summaries within the budget, oldest first. -/
def selectSummaries (remaining : N) (selected : List LocatedSummary) :
    List LocatedSummary → List LocatedSummary
  | [] => selected
  | item :: older =>
      let cost := estimators.textTokens
        (ofString "Segment " ++ item.segment.id ++ ofString "\n" ++ item.segment.summary) +
          ((2 : Nat) : N)
      if remaining < cost then selected else selectSummaries (remaining - cost) (item :: selected) older

/-- Archived source messages that no available summary covers, as the loop collects them. -/
structure GapScan where
  ranges : List (Nat × Nat)
  pending : Option (JsString × JsString)
  parts : List JsString
  missing : Nat

def GapScan.close (scan : GapScan) : GapScan :=
  match scan.pending with
  | none => scan
  | some (first, last) =>
      { scan with
        pending := none
        parts := scan.parts ++
          [ofString "[Reflection omitted " ++ first ++ ofString ".." ++ last ++
            ofString ": missing-or-stale-summary]"]
        missing := scan.missing + 1 }

def GapScan.visit (scan : GapScan) (entry : Message × Nat) : GapScan :=
  match entry.1.id with
  | none => scan
  | some id =>
      let ranges := scan.ranges.dropWhile fun range => range.2 < entry.2
      let moved := { scan with ranges := ranges }
      match ranges with
      | (start, _) :: _ =>
          if start ≤ entry.2 then moved.close
          else { moved with pending := some ((moved.pending.map (·.1)).getD id, id) }
      | [] => { moved with pending := some ((moved.pending.map (·.1)).getD id, id) }

structure Archive where
  text : JsString
  omitted : Nat
  missing : Nat

/-- Summaries through the cut, newest first within budget, then explicit markers for
archived source messages no available summary covers. -/
def archive (cut : Option Cut) (stop : Nat) : Archive :=
  let cached :=
    match input.cachedBlock with
    | some block =>
        if input.summaries = [] then
          (positionOf input.messages block.through).map fun position => (block, position)
        else none
    | none => none
  let located := locate input.messages input.summaries
  let summarized (cut : Cut) : List JsString × Nat × Nat × List (Nat × Nat) :=
    let included := located.filter fun item => item.stop ≤ cut.through
    let selected := selectSummaries estimators (estimators.summaryShare input.contextLimit) []
      included.reverse
    let omitted := included.length - selected.length
    ((if omitted > 0 then
        [ofString "[" ++ decimal omitted ++ ofString " older summaries omitted; use memory_search]"]
      else []) ++
        selected.map fun item =>
          ofString "Segment " ++ item.segment.id ++ ofString "\n" ++ item.segment.summary,
      omitted, 0, included.map fun item => (item.start, item.stop))
  let (parts, omitted, begin, ranges) :=
    match cut with
    | none => ([], 0, 0, [])
    | some cut =>
        match cached with
        | some (block, position) =>
            if position ≤ cut.through then ([block.text], 0, position + 1, []) else summarized cut
        | none => summarized cut
  let scan := (((input.messages.zipIdx.take stop).drop begin).foldl GapScan.visit
    { ranges := ranges, pending := none, parts := parts, missing := 0 }).close
  { text := joinParts scan.parts, omitted := omitted, missing := scan.missing }

structure Notice (N : Type) where
  message : Message
  cost : N
  omitted : Nat
  missing : Nat
  block : Option ArchiveBlock
  anchor : Option JsString

def notice (cut : Option Cut) (start : Nat) : Option (Notice N) :=
  let stop :=
    match cut with
    | none => 0
    | some cut => cut.start
  let block := archive estimators input cut stop
  let dropped := start - stop
  let text := joinParts
    ([noticePrefix,
        ofString "[Reflection source_id=" ++ jsonString input.sourceId ++ ofString "]"] ++
      (if block.text = [] then [] else [block.text]) ++
      if dropped > 0 then [droppedMarker dropped] else [])
  let position := (cut.bind (·.anchor)).or
    ((latestUser input.messages).bind fun latest => if latest < start then some latest else none)
  let anchor := position.bind fun position => input.messages[position]?
  let anchorId := anchor.bind (·.id)
  let message : Message :=
    { id := some (ofString "reflection-cursor-" ++
        (estimators.sha256 (ofString "[" ++ jsonString text ++ ofString "," ++
          (match anchorId with
          | some id => jsonString id
          | none => ofString "null") ++ ofString "]")).take 32)
      role := .user
      content :=
        match anchor with
        | some anchor =>
            [.text text, .text anchorHeader] ++ anchor.content ++ [.text anchorFooter]
        | none => [.text text]
      providerMetadata := anchor.bind (·.providerMetadata) }
  (estimators.messageTokens message).map fun tokens =>
    { message := message
      cost := ((8 : Nat) : N) + tokens
      omitted := block.omitted
      missing := block.missing
      block := cut.map fun cut => { through := cut.id, text := block.text }
      anchor := anchorId }

/-! ### Candidates -/

/-- The size of each message. -/
def messageCosts : Option (List N) :=
  input.messages.mapM fun message =>
    (estimators.messageTokens message).map fun tokens => ((8 : Nat) : N) + tokens

/-- `suffix[index]`: the size of all messages from `index` on. -/
def suffixCosts (costs : List N) : List N :=
  costs.foldr (fun cost sums => (sums.headD ((0 : Nat) : N) + cost) :: sums) [((0 : Nat) : N)]

structure Candidate (N : Type) where
  messages : List Message
  estimatedTokens : N
  measured : Bool
  source : EstimateSource
  omittedSummaries : Nat
  missingRanges : Nat
  projectedThrough : Option JsString
  projectedAnchor : Option JsString
  block : Option ArchiveBlock
  cut : Option Cut
  start : Nat
  headCost : N

/-- The request that starts at `start` behind a notice. A request that drops nothing has
none. -/
def candidate (costs : List N) (cut : Option Cut) (start : Nat) (bounded : Bool) :
    Option (Candidate N) := do
  let head ←
    if cut = none ∧ start = 0 then some none
    else (notice estimators input cut start).map some
  let messages := (head.map (·.message)).toList ++ input.messages.drop start
  let measured := estimators.measure messages
  let bound := if measured.isNone && bounded then estimators.bound messages else none
  let headCost := (head.map (·.cost)).getD ((0 : Nat) : N)
  some
    { messages := messages
      estimatedTokens := (measured.or bound).getD
        (input.systemTokens + headCost + (suffixCosts costs).getD start ((0 : Nat) : N))
      measured := measured.isSome
      source :=
        if measured.isSome then .provider else if bound.isSome then .providerBound else .heuristic
      omittedSummaries := (head.map (·.omitted)).getD 0
      missingRanges := (head.map (·.missing)).getD 0
      projectedThrough := cut.map (·.id)
      projectedAnchor := head.bind (·.anchor)
      block := head.bind (·.block)
      cut := cut
      start := start
      headCost := headCost }

structure Projection (N : Type) where
  messages : List Message
  estimatedTokens : N
  measured : Bool
  source : EstimateSource
  omittedSummaries : Nat
  missingRanges : Nat
  projectedThrough : Option JsString
  projectedAnchor : Option JsString
  block : Option ArchiveBlock
  mode : Mode

/-- The first loop of `fit` over the costs from `start` on; it never drops the last message. -/
def dropOldest (safe : List Bool) (reserve : N) : List N → Nat → N → Nat × N
  | cost :: next :: rest, start, estimated =>
      if input.hardTokens < estimated + reserve || !isSafe safe start then
        dropOldest safe reserve (next :: rest) (start + 1) (estimated - cost)
      else (start, estimated)
  | _, start, estimated => (start, estimated)

/-- The second loop of `fit`: back to a safe start, or to where the projection started. -/
def backToSafe (safe : List Bool) (costs : List N) (lowest : Nat) : Nat → N → Nat × N
  | 0, estimated => (0, estimated)
  | start + 1, estimated =>
      if lowest < start + 1 && !isSafe safe (start + 1) then
        backToSafe safe costs lowest start (estimated + costs.getD start ((0 : Nat) : N))
      else (start + 1, estimated)

def Candidate.finish (chosen : Candidate N) (mode : Mode) : Projection N :=
  { messages := chosen.messages
    estimatedTokens := chosen.estimatedTokens
    measured := chosen.measured
    source := chosen.source
    omittedSummaries := chosen.omittedSummaries
    missingRanges := chosen.missingRanges
    projectedThrough := chosen.projectedThrough
    projectedAnchor := chosen.projectedAnchor
    block := chosen.block
    mode := mode }

/-- Past the hard budget, drop the oldest tail messages without separating a tool result
from its call, and say so in the notice. -/
def fit (costs : List N) (projection : Candidate N) (mode : Mode) : Option (Projection N) :=
  if input.hardTokens < projection.estimatedTokens then
    let safe := toolSafeStarts input.messages
    let reserve := estimators.textTokens (droppedMarker input.messages.length) + ((2 : Nat) : N)
    let (forward, dropped) := dropOldest input safe reserve (costs.drop projection.start)
      projection.start projection.estimatedTokens
    let (start, estimated) := backToSafe safe costs projection.start forward dropped
    if start ≠ projection.start then do
      let trimmed ← candidate estimators input costs projection.cut start false
      some
        (Candidate.finish
          { trimmed with
            estimatedTokens := estimated - projection.headCost + trimmed.headCost
            measured := false
            source := .heuristic } mode)
    else some (projection.finish mode)
  else some (projection.finish mode)

/-! ### Selection -/

/-- The loop that archives past the summaries, over the messages behind `cut.through`. -/
def beyondSummaries (suffix : List N) (lowest : Nat) (latest : Option Cut) :
    List Message → Option Cut
  | [] => latest
  | message :: rest =>
      match message.id.bind (cutThrough input.messages) with
      | none => beyondSummaries suffix lowest latest rest
      | some next =>
          if next.start ≥ input.messages.length || next.start ≤ lowest then
            beyondSummaries suffix lowest latest rest
          else if suffix.getD next.start ((0 : Nat) : N) ≤ estimators.tailShare input.contextLimit then
            some next
          else beyondSummaries suffix lowest (some next) rest

def summaryCuts : List Cut :=
  (locate input.messages input.summaries).filterMap fun item =>
    cutThrough input.messages item.segment.endSourceMessageId

/-- Whether the request behind a new cut is still too large; without one it is. -/
def stillTooLarge (costs : List N) : Option Cut → Option Bool
  | none => some true
  | some cut =>
      (candidate estimators input costs (some (withAnchor input.messages cut none)) cut.start
        false).map fun projection => decide (input.softTokens < projection.estimatedTokens)

/-- The cut to fire at: the earliest summary that leaves a small enough tail or the latest
one, moved further when the request behind it is still too large. -/
def fireCut (costs : List N) : Option (Option Cut) := do
  let suffix := suffixCosts costs
  let cuts := summaryCuts input
  let cut := (cuts.find? fun cut => suffix.getD cut.start ((0 : Nat) : N) ≤
    estimators.tailShare input.contextLimit).or cuts.getLast?
  if ← stillTooLarge estimators input costs cut then
    some ((beyondSummaries estimators input suffix ((cut.map (·.start)).getD 0) none
      (input.messages.drop ((cut.map (·.through + 1)).getD 0))).or cut)
  else some cut

/-- The request behind the previous cut, when there is one. -/
def keptCandidate (costs : List N) : Option (Option (Candidate N)) :=
  match input.projectedThrough.bind (cutThrough input.messages) with
  | none => some none
  | some previous =>
      (candidate estimators input costs
        (some (withAnchor input.messages previous input.projectedAnchor)) previous.start true).map some

def selectCursorProjection : Option (Projection N) := do
  let costs ← messageCosts estimators input
  let kept ← keptCandidate estimators input costs
  match kept.filter fun kept => decide (kept.estimatedTokens ≤ input.softTokens) with
  | some kept => fit estimators input costs kept .kept
  | none => do
      let raw ← candidate estimators input costs none 0 true
      if raw.estimatedTokens ≤ input.softTokens ∨ input.messages.length < 2 then
        fit estimators input costs raw .raw
      else do
        let cut ← fireCut estimators input costs
        match cut with
        | none => fit estimators input costs raw .raw
        | some cut => do
            let fired ← candidate estimators input costs (some (withAnchor input.messages cut none))
              cut.start false
            if input.hardTokens < fired.estimatedTokens ∧ raw.estimatedTokens ≤ input.hardTokens then
              fit estimators input costs raw .raw
            else fit estimators input costs fired .fired

end Selection

end Reflection.Cursor
