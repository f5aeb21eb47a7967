/-
A projected request never separates a tool result from its call.

The difference array counts, at each start, the results whose call lies before it. So a
start is safe exactly when it separates no result from its latest call, and every start
a projection can end up with is the whole request or safe.
-/

import Reflection.Cursor.Selection

namespace Reflection.Cursor

/-! ### What a start separates -/

/-- The content parts of the messages with the index of their message, in order. -/
def occurrences (messages : List Message) : List (Nat × Part) :=
  messages.zipIdx.flatMap fun entry => entry.1.content.map fun part => (entry.2, part)

/-- The message of the latest call with an id among earlier parts. -/
def latestCall (earlier : List (Nat × Part)) (id : JsString) : Option Nat :=
  earlier.reverse.findSome? fun entry =>
    match entry.2 with
    | .toolCall call _ => if call = id then some entry.1 else none
    | _ => none

/-- No result at or behind `start` has its latest earlier call in a message before `start`,
calls of its own message apart. -/
def KeepsToolCalls (messages : List Message) (start : Nat) : Prop :=
  ∀ (earlier later : List (Nat × Part)) (index call : Nat) (id payload : JsString),
    occurrences messages = earlier ++ (index, .toolResult id payload) :: later →
    latestCall earlier id = some call → call < index → start ≤ index → start ≤ call

/-! ### The scan -/

/-- The scan of one part, over the flat list of parts. -/
private def scanOccurrence (scan : ToolScan) (entry : Nat × Part) : ToolScan :=
  scanPart entry.1 scan entry.2

private theorem scan_occurrences (entries : List (Message × Nat)) (scan : ToolScan) :
    entries.foldl scanMessage scan =
      (entries.flatMap fun entry => entry.1.content.map fun part => (entry.2, part)).foldl
        scanOccurrence scan := by
  induction entries generalizing scan with
  | nil => rfl
  | cons entry rest ih =>
      rw [List.foldl_cons, ih, List.flatMap_cons, List.foldl_append, List.foldl_map]
      rfl

private theorem latestCall_snoc (earlier : List (Nat × Part)) (entry : Nat × Part) (id : JsString) :
    latestCall (earlier ++ [entry]) id =
      match entry.2 with
      | .toolCall call _ => if call = id then some entry.1 else latestCall earlier id
      | _ => latestCall earlier id := by
  unfold latestCall
  rw [List.reverse_append, List.reverse_singleton, List.singleton_append, List.findSome?_cons]
  cases entry.2 with
  | toolCall call payload =>
      dsimp only
      by_cases same : call = id
      · rw [if_pos same, if_pos same]
      · rw [if_neg same, if_neg same]
  | text text => rfl
  | toolResult id payload => rfl
  | other payload => rfl

/-- A result that a start in its interval would separate from its call. -/
private def Separates (entries : List (Nat × Part)) (position : Nat) : Prop :=
  ∃ earlier later index call id payload,
    entries = earlier ++ (index, .toolResult id payload) :: later ∧
      latestCall earlier id = some call ∧ call < position ∧ position ≤ index

/-- What the scan knows after some parts: the latest calls, and at each position a count
that is zero exactly when no result is separated there. -/
private structure Scanned (size : Nat) (entries : List (Nat × Part)) (scan : ToolScan) : Prop where
  calls : ∀ id, scan.calls.lookup id = latestCall entries id
  length : scan.unsafeMarks.length = size + 2
  counted : ∀ position, 0 ≤ (scan.unsafeMarks.take (position + 1)).sum ∧
    ((scan.unsafeMarks.take (position + 1)).sum = 0 ↔ ¬ Separates entries position)

private theorem separates_snoc {entries : List (Nat × Part)} {entry : Nat × Part} {position : Nat} :
    Separates (entries ++ [entry]) position ↔ Separates entries position ∨
      ∃ call id payload, entry.2 = .toolResult id payload ∧ latestCall entries id = some call ∧
        call < position ∧ position ≤ entry.1 := by
  constructor
  · rintro ⟨earlier, later, index, call, id, payload, split, found, before, behind⟩
    rcases List.eq_nil_or_concat later with empty | ⟨front, last, concat⟩
    · rw [empty] at split
      rcases List.append_inj' split rfl with ⟨same, lastEq⟩
      have entryEq : entry = (index, .toolResult id payload) := (List.cons.inj lastEq).1
      right
      rw [entryEq, same]
      exact ⟨call, id, payload, rfl, found, before, behind⟩
    · rw [concat, List.concat_eq_append, ← List.cons_append, ← List.append_assoc] at split
      left
      exact ⟨earlier, front, index, call, id, payload, (List.append_inj' split rfl).1, found, before,
        behind⟩
  · rintro (old | new)
    · rcases old with ⟨earlier, later, index, call, id, payload, split, rest⟩
      refine ⟨earlier, later ++ [entry], index, call, id, payload, ?_, rest⟩
      rw [split, List.append_assoc, List.cons_append]
    · rcases new with ⟨call, id, payload, isResult, found, before, behind⟩
      refine ⟨entries, [], entry.1, call, id, payload, ?_, found, before, behind⟩
      rw [← isResult]

private theorem scanned_snoc {size : Nat} {entries : List (Nat × Part)} {scan : ToolScan}
    (scanned : Scanned size entries scan) (entry : Nat × Part) (inside : entry.1 < size)
    (ordered : ∀ earlier ∈ entries, earlier.1 ≤ entry.1) :
    Scanned size (entries ++ [entry]) (scanOccurrence scan entry) := by
  rcases entry with ⟨index, part⟩
  have unchanged : (∀ id payload, part ≠ .toolResult id payload) → ∀ position,
      (Separates (entries ++ [(index, part)]) position ↔ Separates entries position) := by
    intro noResult position
    rw [separates_snoc]
    constructor
    · rintro (old | ⟨_, id, payload, isResult, _⟩)
      · exact old
      · exact absurd isResult (noResult id payload)
    · exact .inl
  cases part with
  | text text =>
      refine ⟨fun id => ?_, scanned.length, fun position => ?_⟩
      · rw [latestCall_snoc]
        exact scanned.calls id
      · rw [unchanged (fun _ _ same => nomatch same)]
        exact scanned.counted position
  | other payload =>
      refine ⟨fun id => ?_, scanned.length, fun position => ?_⟩
      · rw [latestCall_snoc]
        exact scanned.calls id
      · rw [unchanged (fun _ _ same => nomatch same)]
        exact scanned.counted position
  | toolCall call payload =>
      refine ⟨fun id => ?_, scanned.length, fun position => ?_⟩
      · rw [latestCall_snoc]
        change ((call, index) :: scan.calls).lookup id = if call = id then some index else _
        rw [List.lookup_cons]
        by_cases same : call = id
        · rw [if_pos same, same, beq_self_eq_true]
        · rw [if_neg same, beq_eq_false_iff_ne.mpr (Ne.symm same)]
          exact scanned.calls id
      · rw [unchanged (fun _ _ same => nomatch same)]
        exact scanned.counted position
  | toolResult id payload =>
      have callsKept : (scanOccurrence scan (index, .toolResult id payload)).calls = scan.calls := by
        simp only [scanOccurrence, scanPart]
        split
        · rfl
        · split <;> rfl
      refine ⟨fun other => ?_, ?_, fun position => ?_⟩
      · rw [latestCall_snoc, callsKept]
        exact scanned.calls other
      · simp only [scanOccurrence, scanPart]
        split
        · exact scanned.length
        · split
          · exact scanned.length
          · rw [IntervalCount.mark_length]
            exact scanned.length
      · rw [separates_snoc]
        have old := scanned.counted position
        have newIff : (∃ call other payload',
            (index, Part.toolResult id payload).2 = .toolResult other payload' ∧
              latestCall entries other = some call ∧ call < position ∧
              position ≤ (index, Part.toolResult id payload).1) ↔
            ∃ call, latestCall entries id = some call ∧ call < position ∧ position ≤ index := by
          constructor
          · rintro ⟨call, other, payload', same, rest⟩
            cases same
            exact ⟨call, rest⟩
          · rintro ⟨call, rest⟩
            exact ⟨call, id, payload, rfl, rest⟩
        rw [newIff, ← scanned.calls id]
        simp only [scanOccurrence, scanPart]
        cases found : scan.calls.lookup id with
        | none =>
            simp only [reduceCtorEq, false_and, exists_false, or_false]
            exact old
        | some call =>
            simp only [Option.some.injEq, exists_eq_left']
            by_cases same : call = index
            · rw [if_pos same]
              have none : ¬ (call < position ∧ position ≤ index) := by omega
              simp only [none, or_false]
              exact old
            · rw [if_neg same]
              have before : call < index := by
                have calledAt := found
                rw [scanned.calls id] at calledAt
                rcases List.exists_of_findSome?_eq_some calledAt with ⟨entry, member, isCall⟩
                have le := ordered entry (List.mem_reverse.mp member)
                have here : entry.1 = call := by
                  split at isCall
                  · split at isCall
                    · exact Option.some.inj isCall
                    · cases isCall
                  · cases isCall
                dsimp only at le
                omega
              rw [IntervalCount.sum_take_mark scan.unsafeMarks before
                (by rw [scanned.length]; dsimp only at inside; omega) position]
              rcases old with ⟨nonnegative, zero⟩
              by_cases covered : call < position ∧ position ≤ index
              · rw [if_pos covered]
                refine ⟨by omega, ?_⟩
                constructor
                · intro none
                  omega
                · intro none
                  exact absurd (Or.inr covered) none
              · rw [if_neg covered, Int.add_zero, or_iff_left covered]
                exact ⟨nonnegative, zero⟩

private theorem scanned_foldl {size : Nat} {entries more : List (Nat × Part)} {scan : ToolScan}
    (scanned : Scanned size entries scan) (inside : ∀ entry ∈ more, entry.1 < size)
    (ordered : (entries ++ more).Pairwise fun left right => left.1 ≤ right.1) :
    Scanned size (entries ++ more) (more.foldl scanOccurrence scan) := by
  induction more generalizing entries scan with
  | nil =>
      rw [List.append_nil]
      exact scanned
  | cons entry rest ih =>
      have regrouped : entries ++ entry :: rest = (entries ++ [entry]) ++ rest := by
        rw [List.append_assoc, List.singleton_append]
      rw [List.foldl_cons, regrouped]
      apply ih
      · apply scanned_snoc scanned entry (inside entry List.mem_cons_self)
        intro earlier member
        exact (List.pairwise_append.mp ordered).2.2 earlier member entry List.mem_cons_self
      · exact fun other member => inside other (List.mem_cons_of_mem _ member)
      · rw [← regrouped]
        exact ordered

theorem occurrences_lt (messages : List Message) :
    ∀ entry ∈ occurrences messages, entry.1 < messages.length := by
  intro entry member
  rcases List.mem_flatMap.mp member with ⟨source, sourceIn, partIn⟩
  rcases List.mem_map.mp partIn with ⟨part, _, rfl⟩
  have bounds := List.mem_zipIdx sourceIn
  omega

theorem occurrences_ordered (messages : List Message) :
    (occurrences messages).Pairwise fun left right => left.1 ≤ right.1 := by
  unfold occurrences
  rw [List.pairwise_flatMap]
  constructor
  · intro entry _
    rw [List.pairwise_map]
    exact List.pairwise_of_forall fun _ _ => Nat.le_refl _
  · have increasing : messages.zipIdx.Pairwise fun left right => left.2 < right.2 := by
      rw [List.pairwise_iff_getElem]
      intro one two oneBound twoBound before
      rw [List.getElem_zipIdx, List.getElem_zipIdx]
      omega
    apply increasing.imp
    intro left right before one oneIn two twoIn
    rcases List.mem_map.mp oneIn with ⟨_, _, rfl⟩
    rcases List.mem_map.mp twoIn with ⟨_, _, rfl⟩
    exact Nat.le_of_lt before

/-- `toolSafeStarts` marks exactly the starts that separate no result from its call. -/
theorem toolSafeStarts_iff (messages : List Message) {start : Nat}
    (inside : start ≤ messages.length) :
    isSafe (toolSafeStarts messages) start = true ↔ KeepsToolCalls messages start := by
  have scanned : Scanned messages.length (occurrences messages)
      (messages.zipIdx.foldl scanMessage
        { calls := [], unsafeMarks := List.replicate (messages.length + 2) 0 }) := by
    rw [scan_occurrences]
    apply @scanned_foldl _ []
    · refine ⟨fun id => rfl, List.length_replicate, fun position => ?_⟩
      rw [List.take_replicate, List.sum_replicate, smul_zero]
      refine ⟨le_refl _, ?_⟩
      simp [Separates]
    · exact occurrences_lt messages
    · exact occurrences_ordered messages
  have zero := (scanned.counted start).2
  unfold isSafe toolSafeStarts
  rw [List.getD_eq_getElem?_getD, List.getElem?_take_of_lt (by omega),
    IntervalCount.uncovered_getElem? 0 _ start (by rw [scanned.length]; omega)]
  rw [Option.getD_some, decide_eq_true_eq, zero_add, zero]
  constructor
  · intro separatesNone earlier later index call id payload split found _ reaches
    by_contra separated
    exact separatesNone ⟨earlier, later, index, call, id, payload, split, found, by omega, reaches⟩
  · rintro keeps ⟨earlier, later, index, call, id, payload, split, found, before, reaches⟩
    have kept := keeps earlier later index call id payload split found (by omega) reaches
    omega

/-! ### The starts of a projection -/

theorem keepsToolCalls_zero (messages : List Message) : KeepsToolCalls messages 0 :=
  fun _ _ _ _ _ _ _ _ _ _ => Nat.zero_le _

/-- Starts the selection may use: the whole request, or a safe start. -/
def Usable (messages : List Message) (start : Nat) : Prop :=
  start = 0 ∨ isSafe (toolSafeStarts messages) start = true

theorem isSafe_le {messages : List Message} {start : Nat}
    (safe : isSafe (toolSafeStarts messages) start = true) : start ≤ messages.length := by
  by_contra outside
  have short : (toolSafeStarts messages).length ≤ start := by
    have bound : (toolSafeStarts messages).length ≤ messages.length + 1 := List.length_take_le _ _
    omega
  rw [isSafe, List.getD_eq_getElem?_getD, List.getElem?_eq_none short] at safe
  cases safe

theorem Usable.keepsToolCalls {messages : List Message} {start : Nat}
    (usable : Usable messages start) : KeepsToolCalls messages start := by
  rcases usable with whole | safe
  · rw [whole]
    exact keepsToolCalls_zero messages
  · exact (toolSafeStarts_iff messages (isSafe_le safe)).mp safe

/-- Every cut starts at a safe start. -/
theorem cutThrough_usable {messages : List Message} {id : JsString} {cut : Cut}
    (made : cutThrough messages id = some cut) : Usable messages cut.start := by
  obtain ⟨through, _, _, rfl⟩ := cutThrough_eq_some_iff.mp made
  exact startBehind_safe messages through

section Selection

variable {N : Type} [Add N] [Sub N] [NatCast N] [LE N] [DecidableLE N] [LT N] [DecidableLT N]
variable (estimators : Estimators N) (input : ProjectionInput N)

/-- The messages sent are the input's from a start on, behind at most one generated notice. -/
def SentFrom (sent : List Message) (start : Nat) : Prop :=
  (sent = input.messages.drop start ∧ start = 0) ∨
    ∃ cut archived, notice estimators input cut start = some archived ∧
      sent = archived.message :: input.messages.drop start

variable {estimators input}

omit [LE N] [DecidableLE N] in
theorem Built.sentFrom {costs : List N} {cut : Option Cut} {start : Nat} {bounded : Bool}
    {made : Candidate N} {head : Option (Notice N)}
    (built : Built estimators input costs cut start bounded made head) :
    SentFrom estimators input made.messages start := by
  rcases built.archived with ⟨noHead, _, whole⟩ | ⟨archived, isHead, isNotice⟩
  · left
    rw [built.messages, noHead]
    exact ⟨rfl, whole⟩
  · right
    refine ⟨cut, archived, isNotice, ?_⟩
    rw [built.messages, isHead]
    rfl

theorem Chosen.usable {costs : List N} {made : Candidate N} {mode : Mode}
    (chosen : Chosen estimators input costs made mode) :
    Usable input.messages made.start ∧ SentFrom estimators input made.messages made.start := by
  have from_built {cut : Option Cut} {start : Nat} {bounded : Bool}
      (usable : Usable input.messages start)
      (isBuilt : candidate estimators input costs cut start bounded = some made) :
      Usable input.messages made.start ∧ SentFrom estimators input made.messages made.start := by
    obtain ⟨head, built⟩ := candidate_built isBuilt
    rw [built.start]
    exact ⟨usable, built.sentFrom⟩
  cases chosen with
  | kept isCut isBuilt small =>
      obtain ⟨_, _, made⟩ := Option.bind_eq_some_iff.mp isCut
      exact from_built (cutThrough_usable made) isBuilt
  | raw isBuilt => exact from_built (.inl rfl) isBuilt
  | fired isCut isBuilt =>
      obtain ⟨_, made⟩ := fireCut_made isCut
      exact from_built (cutThrough_usable made) isBuilt

/-- The request sent is a suffix of the input behind at most one notice, and no result in it
is separated from its latest earlier call. -/
theorem selectCursorProjection_keepsToolCalls {result : Projection N}
    (selected : selectCursorProjection estimators input = some result) :
    ∃ start, SentFrom estimators input result.messages start ∧
      KeepsToolCalls input.messages start := by
  obtain ⟨costs, projection, mode, _, chosen, _, fitted⟩ := selectCursorProjection_cases selected
  rcases fit_cases fitted with ⟨unchanged, _⟩ | ⟨trimmed, trim, resized⟩
  · rw [unchanged]
    exact ⟨projection.start, chosen.usable.2, chosen.usable.1.keepsToolCalls⟩
  · rw [resized]
    obtain ⟨_, built⟩ := candidate_built trim.built
    have usable : Usable input.messages (trimTo estimators input costs projection).1 := .inr trim.safe
    exact ⟨_, built.sentFrom, usable.keepsToolCalls⟩

end Selection

/-! ### A request past its hard budget -/

/-- Every part costs one token, and nothing is measured. -/
def sampleEstimators : Estimators Nat :=
  { messageTokens := fun message => some message.content.length
    textTokens := fun _ => 0
    sha256 := fun text => text
    measure := fun _ => none
    bound := fun _ => none
    tailShare := fun limit => limit / 4
    summaryShare := fun limit => limit / 20 }

def sampleMessage (id : String) (role : Role) (content : List Part) : Message :=
  { id := if id = "" then none else some (JsString.ofString id)
    role := role
    content := content
    providerMetadata := none }

def sampleInput : ProjectionInput Nat :=
  { sourceId := JsString.ofString "source"
    messages :=
      [ sampleMessage "u1" .user [.text (JsString.ofString "first")],
        sampleMessage "a1" .assistant [.toolCall (JsString.ofString "c1") []],
        sampleMessage "" .tool [.toolResult (JsString.ofString "c1") []],
        sampleMessage "a2" .assistant [.toolCall (JsString.ofString "c2") []],
        sampleMessage "" .tool [.toolResult (JsString.ofString "c2") []],
        sampleMessage "u2" .user [.text (JsString.ofString "second")] ]
    summaries := []
    cachedBlock := none
    projectedThrough := none
    projectedAnchor := none
    contextLimit := 200
    softTokens := 20
    hardTokens := 30
    systemTokens := 0 }

/-- The request is archived through the first message and then trimmed over both calls. -/
theorem selectCursorProjection_keepsToolCalls_sample :
    ∃ result, selectCursorProjection sampleEstimators sampleInput = some result ∧
      result.mode = .fired ∧ result.messages.length = 2 ∧
      ∃ start, SentFrom sampleEstimators sampleInput result.messages start ∧
        KeepsToolCalls sampleInput.messages start := by
  have ran : (selectCursorProjection sampleEstimators sampleInput).map
      (fun result => (result.mode, result.messages.length)) = some (.fired, 2) := by
    decide +kernel
  rcases Option.map_eq_some_iff.mp ran with ⟨result, selected, same⟩
  rcases Prod.mk.inj same with ⟨mode, length⟩
  exact ⟨result, selected, mode, length, selectCursorProjection_keepsToolCalls selected⟩

end Reflection.Cursor
