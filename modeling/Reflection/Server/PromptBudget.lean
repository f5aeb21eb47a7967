/-
The bytes of a resolution prompt are counted exactly.

The text of the lists is a sum over their candidates, so the difference that one candidate makes is
the difference of the whole. With an exact count a field is left out only where it would not fit.
-/

import Reflection.Foundation.IndexedLists
import Reflection.Server.ResolutionPrompt

namespace Reflection

open JsString

section Budget

variable (numbers : Numbers)

/-! ### The bytes of a list -/

theorem utf8ByteLength_ascii {text : JsString} (ascii : AsciiUnits text) : utf8ByteLength text = text.length := by
  induction text with
  | nil => rfl
  | cons unit rest ih =>
      have low : unit < 0x80 := by
        have isAscii := ascii unit List.mem_cons_self
        rw [UInt16.le_iff_toNat_le] at isAscii
        rw [UInt16.lt_iff_toNat_lt]
        simp only [UInt16.reduceToNat] at isAscii ⊢
        omega
      rw [utf8ByteLength.eq_def]
      dsimp only
      rw [if_pos low, ih fun other inside => ascii other (List.mem_cons_of_mem _ inside), List.length_cons]

theorem compactAsciiJsonByteLength_eq (value : Json numbers.Number) :
    compactAsciiJsonByteLength numbers value = (asciiText (stringify numbers value)).length :=
  utf8ByteLength_ascii (asciiText_ascii _)

theorem length_asciiText_commaSeparated (texts : List JsString) :
    (asciiText (commaSeparated texts)).length =
      (texts.map fun text => (asciiText text).length).sum + (texts.length - 1) := by
  induction texts with
  | nil => rfl
  | cons first rest ih =>
      cases rest with
      | nil => rw [commaSeparated]; simp
      | cons second rest =>
          have comma : asciiText (ofString ",") = [0x2c] := rfl
          rw [commaSeparated, asciiText_append, asciiText_append, comma, List.length_append,
            List.length_append, ih]
          simp only [List.map_cons, List.sum_cons, List.length_cons, List.length_nil]
          omega

theorem byteLength_array (items : List (Json numbers.Number)) :
    compactAsciiJsonByteLength numbers (.array items) =
      (items.map (compactAsciiJsonByteLength numbers)).sum + (items.length - 1) + 2 := by
  have opening : (asciiText [0x5b]).length = 1 := rfl
  have closing : (asciiText [0x5d]).length = 1 := rfl
  have whole : stringify numbers (.array items) =
      [0x5b] ++ (commaSeparated (items.map (stringify numbers)) ++ [0x5d]) := stringify_array items
  rw [compactAsciiJsonByteLength_eq, whole, asciiText_append, asciiText_append, List.length_append,
    List.length_append, opening, closing, length_asciiText_commaSeparated, List.map_map, List.length_map]
  have each : items.map ((fun text => (asciiText text).length) ∘ stringify numbers) =
      items.map (compactAsciiJsonByteLength numbers) :=
    List.map_congr_left fun item _ => (compactAsciiJsonByteLength_eq numbers item).symm
  rw [each]
  omega

/-- The bytes of the candidates of a mention, and of all. -/
def rowBytes (row : List ProjectedCandidate) : Nat :=
  compactAsciiJsonByteLength numbers (.array (row.map (·.json numbers)))

def payloadBytes (candidates : List (List ProjectedCandidate)) : Nat :=
  compactAsciiJsonByteLength numbers (candidatesJson numbers candidates)

def candidateSize (candidate : ProjectedCandidate) : Nat :=
  compactAsciiJsonByteLength numbers (candidate.json numbers)

theorem rowBytes_eq (row : List ProjectedCandidate) :
    rowBytes numbers row = (row.map (candidateSize numbers)).sum + (row.length - 1) + 2 := by
  rw [rowBytes, byteLength_array, List.map_map, List.length_map]
  rfl

theorem payloadBytes_eq (candidates : List (List ProjectedCandidate)) :
    payloadBytes numbers candidates =
      (candidates.map (rowBytes numbers)).sum + (candidates.length - 1) + 2 := by
  rw [payloadBytes, candidatesJson, byteLength_array, List.map_map, List.length_map]
  rfl

theorem rowBytes_set {row : List ProjectedCandidate} {index : Nat} {old : ProjectedCandidate}
    (found : row[index]? = some old) (new : ProjectedCandidate) :
    rowBytes numbers (row.set index new) + candidateSize numbers old =
      rowBytes numbers row + candidateSize numbers new := by
  have sum := sum_map_set (candidateSize numbers) found new
  rw [rowBytes_eq, rowBytes_eq, List.length_set]
  omega

/-- What one candidate adds, the payload adds. -/
theorem payloadBytes_put {candidates : List (List ProjectedCandidate)} {mentionIndex candidateIndex : Nat}
    {old : ProjectedCandidate} (found : candidateAt candidates mentionIndex candidateIndex = some old)
    (new : ProjectedCandidate) :
    payloadBytes numbers (putCandidate candidates mentionIndex candidateIndex new) +
        candidateSize numbers old =
      payloadBytes numbers candidates + candidateSize numbers new := by
  obtain ⟨row, isRow, inRow⟩ := Option.bind_eq_some_iff.mp found
  have changed := rowBytes_set numbers inRow new
  have sum := sum_map_modify (rowBytes numbers) isRow fun row => row.set candidateIndex new
  rw [payloadBytes_eq, payloadBytes_eq, putCandidate, List.length_modify]
  omega

theorem putCandidate_same {candidates : List (List ProjectedCandidate)} {mentionIndex candidateIndex : Nat}
    {old : ProjectedCandidate} (found : candidateAt candidates mentionIndex candidateIndex = some old) :
    putCandidate candidates mentionIndex candidateIndex old = candidates := by
  obtain ⟨row, isRow, inRow⟩ := Option.bind_eq_some_iff.mp found
  refine List.ext_getElem? fun place => ?_
  rw [putCandidate, List.getElem?_modify]
  split
  · rename_i same
    rw [← same, isRow]
    exact congrArg some (set_same inRow)
  · cases candidates[place]? with
    | none => rfl
    | some row => rfl

/-! ### One step -/

def addField : PromptField → ProjectedCandidate → ProjectedCandidate
  | .description value, candidate => { candidate with description := truncateUtf8Bytes value 1000 }
  | .aliasName value, candidate =>
      { candidate with aliases := candidate.aliases ++ [truncateUtf8Bytes value 256] }

/-- An alias of which nothing is left is passed over. -/
def isSkipped : PromptField → Bool
  | .description _ => false
  | .aliasName value => (truncateUtf8Bytes value 256).isEmpty

/-- The lists with the field of a step added. -/
def addAt (candidates : List (List ProjectedCandidate)) (step : PromptStep) :
    List (List ProjectedCandidate) :=
  match candidateAt candidates step.mentionIndex step.candidateIndex with
  | none => candidates
  | some old => putCandidate candidates step.mentionIndex step.candidateIndex (addField step.field old)

def Exact (state : PromptState) : Prop := state.candidateBytes = payloadBytes numbers state.candidates

/-- A description is added to a candidate that has none. -/
def Fresh (field : PromptField) (candidate : ProjectedCandidate) : Prop :=
  ∀ value, field = .description value → candidate.description = []

/-- What a step does to its candidate and the count. -/
theorem fillField_eq {field : PromptField} {old : ProjectedCandidate} (fresh : Fresh field old)
    (candidateBytes : Int) :
    fillField numbers old candidateBytes field =
      if isSkipped field then (old, candidateBytes)
      else if withinBudget candidateBytes (candidateSize numbers (addField field old))
          (candidateSize numbers old) then
        (addField field old, candidateBytes +
          ((candidateSize numbers (addField field old) : Int) - candidateSize numbers old))
      else (old, candidateBytes) := by
  cases field with
  | description value =>
      have reset : ({ old with description := [] } : ProjectedCandidate) = old := by
        rw [← fresh value rfl]
      rw [if_neg (by exact Bool.false_ne_true), fillField]
      dsimp only
      rw [reset]
      rfl
  | aliasName value =>
      have popped : ({ old with aliases := (old.aliases ++ [truncateUtf8Bytes value 256]).dropLast } :
          ProjectedCandidate) = old := by
        rw [List.dropLast_concat]
      rw [fillField, isSkipped]
      dsimp only
      by_cases empty : (truncateUtf8Bytes value 256).length = 0
      · rw [if_pos empty, if_pos (List.isEmpty_iff_length_eq_zero.mpr empty)]
      · rw [if_neg empty, if_neg (mt List.isEmpty_iff_length_eq_zero.mp empty), popped]
        rfl

/-- With an exact count a field that is not passed over is added exactly where it fits. -/
theorem promptStep_spec {state : PromptState} (exact : Exact numbers state) {step : PromptStep}
    {old : ProjectedCandidate}
    (found : candidateAt state.candidates step.mentionIndex step.candidateIndex = some old)
    (fresh : Fresh step.field old) :
    (promptStep numbers state step = state ∧ (isSkipped step.field = true ∨
        MAX_RESOLUTION_CANDIDATE_PAYLOAD_BYTES < payloadBytes numbers (addAt state.candidates step))) ∨
      (promptStep numbers state step =
          { candidates := addAt state.candidates step
            candidateBytes := payloadBytes numbers (addAt state.candidates step) } ∧
        payloadBytes numbers (addAt state.candidates step) ≤ MAX_RESOLUTION_CANDIDATE_PAYLOAD_BYTES) := by
  have added : addAt state.candidates step =
      putCandidate state.candidates step.mentionIndex step.candidateIndex (addField step.field old) := by
    rw [addAt, found]
  have accounted := payloadBytes_put numbers found (addField step.field old)
  rw [← added] at accounted
  have unchanged : ({ candidates := putCandidate state.candidates step.mentionIndex step.candidateIndex old
                      candidateBytes := state.candidateBytes } : PromptState) = state := by
    rw [putCandidate_same found]
  have unfolded : promptStep numbers state step =
      { candidates := putCandidate state.candidates step.mentionIndex step.candidateIndex
          (fillField numbers old state.candidateBytes step.field).1
        candidateBytes := (fillField numbers old state.candidateBytes step.field).2 } := by
    rw [promptStep, found]
  rw [unfolded, fillField_eq numbers fresh]
  split
  · rename_i skipped
    exact .inl ⟨unchanged, .inl skipped⟩
  · split
    · rename_i within
      right
      rw [withinBudget, exact] at within
      have fits : payloadBytes numbers (addAt state.candidates step) ≤
          MAX_RESOLUTION_CANDIDATE_PAYLOAD_BYTES := by
        generalize MAX_RESOLUTION_CANDIDATE_PAYLOAD_BYTES = limit at within ⊢
        omega
      have total : state.candidateBytes +
          ((candidateSize numbers (addField step.field old) : Int) - candidateSize numbers old) =
            payloadBytes numbers (addAt state.candidates step) := by
        rw [exact]
        omega
      rw [total, ← added]
      exact ⟨rfl, fits⟩
    · rename_i notWithin
      rw [withinBudget, exact] at notWithin
      have exceeds : MAX_RESOLUTION_CANDIDATE_PAYLOAD_BYTES <
          payloadBytes numbers (addAt state.candidates step) := by
        generalize MAX_RESOLUTION_CANDIDATE_PAYLOAD_BYTES = limit at notWithin ⊢
        omega
      exact .inl ⟨unchanged, .inr exceeds⟩

end Budget

/-! ### What becomes of a candidate -/

/-- A candidate after some of its fields, each added or left out. -/
inductive Filled : List PromptField → ProjectedCandidate → ProjectedCandidate → Prop
  | nil (candidate : ProjectedCandidate) : Filled [] candidate candidate
  | skip {field : PromptField} {fields : List PromptField} {old new : ProjectedCandidate}
      (rest : Filled fields old new) : Filled (field :: fields) old new
  | add {field : PromptField} {fields : List PromptField} {old new : ProjectedCandidate}
      (rest : Filled fields (addField field old) new) : Filled (field :: fields) old new

namespace Filled

variable {fields more : List PromptField} {old middle new : ProjectedCandidate}

theorem append (first : Filled fields old middle) (second : Filled more middle new) :
    Filled (fields ++ more) old new := by
  induction first with
  | nil => exact second
  | skip rest ih => exact .skip (ih second)
  | add rest ih => exact .add (ih second)

theorem identity (filled : Filled fields old new) :
    new.entityId = old.entityId ∧ new.canonicalName = old.canonicalName := by
  induction filled with
  | nil => exact ⟨rfl, rfl⟩
  | skip rest ih => exact ih
  | @add field fields old new rest ih =>
      cases field with
      | description value => exact ih
      | aliasName value => exact ih

theorem description (filled : Filled fields old new) : new.description = old.description ∨
    ∃ value, .description value ∈ fields ∧ new.description = truncateUtf8Bytes value 1000 := by
  induction filled with
  | nil => exact .inl rfl
  | skip rest ih =>
      rcases ih with kept | ⟨value, inside, same⟩
      · exact .inl kept
      · exact .inr ⟨value, List.mem_cons_of_mem _ inside, same⟩
  | @add field fields old new rest ih =>
      rcases ih with kept | ⟨value, inside, same⟩
      · cases field with
        | description value => exact .inr ⟨value, List.mem_cons_self, kept⟩
        | aliasName value => exact .inl kept
      · exact .inr ⟨value, List.mem_cons_of_mem _ inside, same⟩

def boundedAlias : PromptField → Option JsString
  | .description _ => none
  | .aliasName value => some (truncateUtf8Bytes value 256)

theorem aliases (filled : Filled fields old new) :
    ∃ kept, new.aliases = old.aliases ++ kept ∧ kept.Sublist (fields.filterMap boundedAlias) := by
  induction filled with
  | nil => exact ⟨[], (List.append_nil _).symm, List.Sublist.refl _⟩
  | @skip field fields old new rest ih =>
      obtain ⟨kept, same, inside⟩ := ih
      refine ⟨kept, same, inside.trans ?_⟩
      exact (List.sublist_cons_self field fields).filterMap boundedAlias
  | @add field fields old new rest ih =>
      obtain ⟨kept, same, inside⟩ := ih
      cases field with
      | description value => exact ⟨kept, same, inside⟩
      | aliasName value =>
          refine ⟨truncateUtf8Bytes value 256 :: kept, ?_, ?_⟩
          · rw [same]
            exact List.append_assoc _ _ _
          · exact List.cons_sublist_cons.mpr inside

end Filled

/-! ### The steps of a candidate -/

def isAt (mentionIndex candidateIndex : Nat) (step : PromptStep) : Bool :=
  step.mentionIndex == mentionIndex && step.candidateIndex == candidateIndex

def fieldsAt (mentionIndex candidateIndex : Nat) (steps : List PromptStep) : List PromptField :=
  (steps.filter (isAt mentionIndex candidateIndex)).map (·.field)

def candidateFields (candidate : EntityCandidate) : List PromptField :=
  .description candidate.description :: (candidate.aliases.take 10).map .aliasName

/-- The candidate the steps at some indices come from. -/
def sourceAt (mentions : List MentionContext) (mentionIndex candidateIndex : Nat) :
    Option EntityCandidate :=
  mentions[mentionIndex]?.bind fun mention => mention.candidates[candidateIndex]?

theorem fieldsAt_append (mentionIndex candidateIndex : Nat) (steps more : List PromptStep) :
    fieldsAt mentionIndex candidateIndex (steps ++ more) =
      fieldsAt mentionIndex candidateIndex steps ++ fieldsAt mentionIndex candidateIndex more := by
  rw [fieldsAt, List.filter_append, List.map_append]
  rfl

theorem fieldsAt_own (step : PromptStep) (rest : List PromptStep) :
    fieldsAt step.mentionIndex step.candidateIndex (step :: rest) =
      step.field :: fieldsAt step.mentionIndex step.candidateIndex rest := by
  have isHere : isAt step.mentionIndex step.candidateIndex step = true :=
    Bool.and_eq_true_iff.mpr ⟨beq_iff_eq.mpr rfl, beq_iff_eq.mpr rfl⟩
  rw [fieldsAt, List.filter_cons, if_pos isHere]
  rfl

theorem mem_candidateSteps {mentionIndex candidateIndex : Nat} {candidate : EntityCandidate}
    {step : PromptStep} (inside : step ∈ candidateSteps mentionIndex candidateIndex candidate) :
    step.mentionIndex = mentionIndex ∧ step.candidateIndex = candidateIndex := by
  obtain ⟨field, _, rfl⟩ := List.mem_map.mp inside
  exact ⟨rfl, rfl⟩

theorem mem_mentionSteps {mentionIndex : Nat} {mention : MentionContext} {step : PromptStep}
    (inside : step ∈ mentionSteps mentionIndex mention) :
    step.mentionIndex = mentionIndex ∧ ∃ source, mention.candidates[step.candidateIndex]? = some source := by
  obtain ⟨⟨candidate, place⟩, isEntry, isStep⟩ := List.mem_flatMap.mp inside
  obtain ⟨sameMention, samePlace⟩ := mem_candidateSteps isStep
  have found : mention.candidates[place]? = some candidate := by
    obtain ⟨_, bound, same⟩ := List.mem_zipIdx isEntry
    rw [List.getElem?_eq_some_iff]
    exact ⟨by simpa using bound, by simpa using same.symm⟩
  exact ⟨sameMention, candidate, samePlace ▸ found⟩

theorem mem_promptSteps {mentions : List MentionContext} {step : PromptStep}
    (inside : step ∈ promptSteps mentions) :
    ∃ source, sourceAt mentions step.mentionIndex step.candidateIndex = some source := by
  obtain ⟨⟨mention, place⟩, isEntry, isStep⟩ := List.mem_flatMap.mp inside
  obtain ⟨samePlace, source, isSource⟩ := mem_mentionSteps isStep
  have found : mentions[place]? = some mention := by
    obtain ⟨_, bound, same⟩ := List.mem_zipIdx isEntry
    rw [List.getElem?_eq_some_iff]
    exact ⟨by simpa using bound, by simpa using same.symm⟩
  refine ⟨source, ?_⟩
  rw [sourceAt, samePlace, found, Option.bind_some]
  exact isSource

/-- All the fields of a candidate have their turn, the description first. -/
theorem fieldsAt_promptSteps {mentions : List MentionContext} {mentionIndex candidateIndex : Nat}
    {source : EntityCandidate} (found : sourceAt mentions mentionIndex candidateIndex = some source) :
    fieldsAt mentionIndex candidateIndex (promptSteps mentions) = candidateFields source := by
  obtain ⟨mention, isMention, isSource⟩ := Option.bind_eq_some_iff.mp found
  have ofMentions : (promptSteps mentions).filter (isAt mentionIndex candidateIndex) =
      (mentionSteps mentionIndex mention).filter (isAt mentionIndex candidateIndex) := by
    have single := flatMap_zipIdx_single isMention
      (fun entry => (mentionSteps entry.2 entry.1).filter (isAt mentionIndex candidateIndex)) 0 ?_
    · rw [promptSteps, List.filter_flatMap, single, Nat.zero_add]
    · intro other place different
      refine List.filter_eq_nil_iff.mpr fun step inside isHere => different ?_
      have same : step.mentionIndex = place := (mem_mentionSteps inside).1
      rw [Nat.zero_add, ← same]
      exact eq_of_beq (Bool.and_eq_true_iff.mp isHere).1
  have ofCandidates : (mentionSteps mentionIndex mention).filter (isAt mentionIndex candidateIndex) =
      (candidateSteps mentionIndex candidateIndex source).filter (isAt mentionIndex candidateIndex) := by
    have single := flatMap_zipIdx_single isSource
      (fun entry => (candidateSteps mentionIndex entry.2 entry.1).filter
        (isAt mentionIndex candidateIndex)) 0 ?_
    · rw [mentionSteps, List.filter_flatMap, single, Nat.zero_add]
    · intro other place different
      refine List.filter_eq_nil_iff.mpr fun step inside isHere => different ?_
      have same : step.candidateIndex = place := (mem_candidateSteps inside).2
      rw [Nat.zero_add, ← same]
      exact eq_of_beq (Bool.and_eq_true_iff.mp isHere).2
  have own : (candidateSteps mentionIndex candidateIndex source).filter (isAt mentionIndex candidateIndex) =
      candidateSteps mentionIndex candidateIndex source := by
    refine List.filter_eq_self.mpr fun step inside => ?_
    obtain ⟨sameMention, sameCandidate⟩ := mem_candidateSteps inside
    exact Bool.and_eq_true_iff.mpr ⟨beq_iff_eq.mpr sameMention, beq_iff_eq.mpr sameCandidate⟩
  rw [fieldsAt, ofMentions, ofCandidates, own, candidateSteps, List.map_map]
  exact List.map_id _

/-- A description has its turn before every other field, and only one. -/
theorem description_first {candidate : EntityCandidate} {front behind : List PromptField} {value : JsString}
    (split : candidateFields candidate = front ++ .description value :: behind) :
    front = [] ∧ ∀ other, .description other ∉ behind := by
  have noOther : ∀ other, PromptField.description other ∉ (candidate.aliases.take 10).map .aliasName := by
    intro other inside
    obtain ⟨_, _, same⟩ := List.mem_map.mp inside
    cases same
  cases front with
  | nil =>
      rw [candidateFields, List.nil_append] at split
      rw [← (List.cons.inj split).2]
      exact ⟨rfl, noOther⟩
  | cons first rest =>
      rw [candidateFields, List.cons_append] at split
      have inside : PromptField.description value ∈ (candidate.aliases.take 10).map .aliasName := by
        rw [(List.cons.inj split).2]
        exact List.mem_append_right _ List.mem_cons_self
      exact absurd inside (noOther value)

/-! ### Runs -/

def identityLists (mentions : List MentionContext) : List (List ProjectedCandidate) :=
  mentions.map fun mention => mention.candidates.map identityOnly

theorem candidateAt_identityLists (mentions : List MentionContext) (mentionIndex candidateIndex : Nat) :
    candidateAt (identityLists mentions) mentionIndex candidateIndex =
      (sourceAt mentions mentionIndex candidateIndex).map identityOnly := by
  rw [candidateAt, identityLists, List.getElem?_map, sourceAt]
  cases mentions[mentionIndex]? with
  | none => rfl
  | some mention => exact List.getElem?_map

theorem length_putCandidate (candidates : List (List ProjectedCandidate)) (mentionIndex candidateIndex : Nat)
    (new : ProjectedCandidate) :
    (putCandidate candidates mentionIndex candidateIndex new).map List.length =
      candidates.map List.length := by
  refine List.ext_getElem? fun place => ?_
  rw [List.getElem?_map, List.getElem?_map, putCandidate, List.getElem?_modify]
  cases candidates[place]? with
  | none => rfl
  | some row =>
      split
      · exact congrArg some List.length_set
      · rfl

theorem candidateAt_put {candidates : List (List ProjectedCandidate)} {mentionIndex candidateIndex : Nat}
    {old : ProjectedCandidate} (found : candidateAt candidates mentionIndex candidateIndex = some old)
    (new : ProjectedCandidate) (otherMention otherCandidate : Nat) :
    candidateAt (putCandidate candidates mentionIndex candidateIndex new) otherMention otherCandidate =
      if mentionIndex = otherMention ∧ candidateIndex = otherCandidate then some new
      else candidateAt candidates otherMention otherCandidate := by
  obtain ⟨row, isRow, inRow⟩ := Option.bind_eq_some_iff.mp found
  have bound := (List.getElem?_eq_some_iff.mp inRow).1
  rw [candidateAt, putCandidate, List.getElem?_modify]
  by_cases sameMention : mentionIndex = otherMention
  · subst sameMention
    rw [isRow]
    change (if mentionIndex = mentionIndex then row.set candidateIndex new else row)[otherCandidate]? = _
    rw [if_pos rfl, List.getElem?_set]
    by_cases sameCandidate : candidateIndex = otherCandidate
    · rw [if_pos sameCandidate, if_pos (sameCandidate ▸ bound), if_pos ⟨rfl, sameCandidate⟩]
    · rw [if_neg sameCandidate, if_neg fun both => sameCandidate both.2, candidateAt, isRow]
      rfl
  · rw [if_neg fun both => sameMention both.1, candidateAt]
    cases candidates[otherMention]? with
    | none => rfl
    | some other =>
        change (if mentionIndex = otherMention then other.set candidateIndex new else other)[otherCandidate]? = _
        rw [if_neg sameMention]
        rfl

section Runs

variable (numbers : Numbers)

/-- The state behind some of the steps. -/
def reached (mentions : List MentionContext) (taken : List PromptStep) : PromptState :=
  taken.foldl (promptStep numbers) (promptStart numbers (identityLists mentions))

theorem reached_snoc (mentions : List MentionContext) (taken : List PromptStep) (step : PromptStep) :
    reached numbers mentions (taken ++ [step]) = promptStep numbers (reached numbers mentions taken) step := by
  rw [reached, List.foldl_append]
  rfl

/-- What holds behind the first steps: the count is exact, no candidate was added or lost, and each
was filled with the fields that had their turn. -/
structure Reached (mentions : List MentionContext) (taken : List PromptStep) (state : PromptState) :
    Prop where
  exact : Exact numbers state
  shape : state.candidates.map List.length = mentions.map fun mention => mention.candidates.length
  filled : ∀ mentionIndex candidateIndex source,
    sourceAt mentions mentionIndex candidateIndex = some source →
      ∃ new, candidateAt state.candidates mentionIndex candidateIndex = some new ∧
        Filled (fieldsAt mentionIndex candidateIndex taken) (identityOnly source) new

theorem reached_start (mentions : List MentionContext) :
    Reached numbers mentions [] (reached numbers mentions []) := by
  refine
    { exact := rfl
      shape := ?_
      filled := fun mentionIndex candidateIndex source found => ?_ }
  · change (identityLists mentions).map List.length = _
    rw [identityLists, List.map_map]
    exact List.map_congr_left fun mention _ => List.length_map _
  · refine ⟨identityOnly source, ?_, .nil _⟩
    have start := candidateAt_identityLists mentions mentionIndex candidateIndex
    rw [found] at start
    exact start

variable {numbers} {mentions : List MentionContext} {taken rest : List PromptStep} {step : PromptStep}
  {state : PromptState}

/-- The candidate of the next step, which is as its fields left it and fresh for a description. -/
theorem Reached.candidate (before : Reached numbers mentions taken state)
    (split : promptSteps mentions = taken ++ step :: rest) :
    ∃ source old, sourceAt mentions step.mentionIndex step.candidateIndex = some source ∧
      candidateAt state.candidates step.mentionIndex step.candidateIndex = some old ∧
      Filled (fieldsAt step.mentionIndex step.candidateIndex taken) (identityOnly source) old ∧
      Fresh step.field old := by
  have inside : step ∈ promptSteps mentions := by
    rw [split]
    exact List.mem_append_right _ List.mem_cons_self
  obtain ⟨source, isSource⟩ := mem_promptSteps inside
  obtain ⟨old, found, filled⟩ := before.filled _ _ source isSource
  refine ⟨source, old, isSource, found, filled, fun value isDescription => ?_⟩
  have fields := fieldsAt_promptSteps isSource
  rw [split, fieldsAt_append, fieldsAt_own, isDescription] at fields
  rw [(description_first fields.symm).1] at filled
  cases filled
  rfl

/-- What a step does to each candidate. -/
theorem Reached.step_filled (before : Reached numbers mentions taken state)
    (split : promptSteps mentions = taken ++ step :: rest) {mentionIndex candidateIndex : Nat}
    {old : ProjectedCandidate} (found : candidateAt state.candidates mentionIndex candidateIndex = some old) :
    ∃ new, candidateAt (promptStep numbers state step).candidates mentionIndex candidateIndex = some new ∧
      Filled (fieldsAt mentionIndex candidateIndex [step]) old new := by
  obtain ⟨source, current, _, isCurrent, _, fresh⟩ := before.candidate split
  have skipped : Filled (fieldsAt mentionIndex candidateIndex [step]) old old := by
    rw [fieldsAt, List.filter_cons]
    split
    · exact .skip (.nil old)
    · exact .nil old
  rcases promptStep_spec numbers before.exact isCurrent fresh with ⟨same, _⟩ | ⟨added, _⟩
  · rw [same]
    exact ⟨old, found, skipped⟩
  · rw [added, addAt, isCurrent]
    dsimp only
    rw [candidateAt_put isCurrent]
    by_cases isHere : step.mentionIndex = mentionIndex ∧ step.candidateIndex = candidateIndex
    · rw [if_pos isHere]
      have same : current = old := by
        rw [isHere.1, isHere.2, found] at isCurrent
        exact (Option.some.inj isCurrent).symm
      have here : isAt mentionIndex candidateIndex step = true :=
        Bool.and_eq_true_iff.mpr ⟨beq_iff_eq.mpr isHere.1, beq_iff_eq.mpr isHere.2⟩
      refine ⟨_, rfl, ?_⟩
      rw [fieldsAt, List.filter_cons, if_pos here, same]
      exact .add (.nil _)
    · rw [if_neg isHere]
      exact ⟨old, found, skipped⟩

theorem Reached.next (before : Reached numbers mentions taken state)
    (split : promptSteps mentions = taken ++ step :: rest) :
    Reached numbers mentions (taken ++ [step]) (promptStep numbers state step) := by
  obtain ⟨source, current, _, isCurrent, _, fresh⟩ := before.candidate split
  have filled : ∀ mentionIndex candidateIndex source,
      sourceAt mentions mentionIndex candidateIndex = some source →
        ∃ new, candidateAt (promptStep numbers state step).candidates mentionIndex candidateIndex =
          some new ∧ Filled (fieldsAt mentionIndex candidateIndex (taken ++ [step])) (identityOnly source)
            new := by
    intro mentionIndex candidateIndex source isSource
    obtain ⟨old, isOld, toOld⟩ := before.filled mentionIndex candidateIndex source isSource
    obtain ⟨new, isNew, toNew⟩ := before.step_filled split isOld
    rw [fieldsAt_append]
    exact ⟨new, isNew, toOld.append toNew⟩
  rcases promptStep_spec numbers before.exact isCurrent fresh with ⟨same, _⟩ | ⟨added, _⟩
  · rw [same] at filled ⊢
    exact
      { exact := before.exact
        shape := before.shape
        filled := filled }
  · rw [added] at filled ⊢
    refine
      { exact := rfl
        shape := ?_
        filled := filled }
    dsimp only
    rw [addAt, isCurrent, length_putCandidate]
    exact before.shape

/-- Every state that is reached by the steps in order. -/
theorem reached_along (isPrefix : taken <+: promptSteps mentions) :
    Reached numbers mentions taken (reached numbers mentions taken) := by
  induction taken using List.reverseRecOn with
  | nil => exact reached_start numbers mentions
  | append_singleton taken step ih =>
      obtain ⟨rest, split⟩ := isPrefix
      rw [List.append_assoc, List.singleton_append] at split
      rw [reached_snoc]
      exact (ih ⟨step :: rest, split⟩).next split.symm

/-- From one state on, a candidate is filled with the fields that have their turn in between. -/
theorem filled_between {middle : List PromptStep} (split : promptSteps mentions = taken ++ (middle ++ rest))
    {mentionIndex candidateIndex : Nat} {old : ProjectedCandidate}
    (found : candidateAt (reached numbers mentions taken).candidates mentionIndex candidateIndex = some old) :
    ∃ new, candidateAt (reached numbers mentions (taken ++ middle)).candidates mentionIndex candidateIndex =
      some new ∧ Filled (fieldsAt mentionIndex candidateIndex middle) old new := by
  induction middle using List.reverseRecOn generalizing rest with
  | nil =>
      rw [List.append_nil]
      exact ⟨old, found, .nil old⟩
  | append_singleton middle step ih =>
      rw [List.append_assoc, List.singleton_append] at split
      obtain ⟨between, isBetween, toBetween⟩ := ih split
      have whole : promptSteps mentions = (taken ++ middle) ++ step :: rest := by
        rw [split, List.append_assoc]
      have before : Reached numbers mentions _ _ := reached_along ⟨step :: rest, whole.symm⟩
      obtain ⟨new, isNew, toNew⟩ := before.step_filled whole isBetween
      rw [← List.append_assoc, reached_snoc, fieldsAt_append]
      exact ⟨new, isNew, toBetween.append toNew⟩

/-- The payload stays within the budget it started in. -/
theorem reached_within (isPrefix : taken <+: promptSteps mentions)
    (start : payloadBytes numbers (identityLists mentions) ≤ MAX_RESOLUTION_CANDIDATE_PAYLOAD_BYTES) :
    payloadBytes numbers (reached numbers mentions taken).candidates ≤
      MAX_RESOLUTION_CANDIDATE_PAYLOAD_BYTES := by
  induction taken using List.reverseRecOn with
  | nil => exact start
  | append_singleton taken step ih =>
      obtain ⟨rest, split⟩ := isPrefix
      rw [List.append_assoc, List.singleton_append] at split
      have isPrefix : taken <+: promptSteps mentions := ⟨step :: rest, split⟩
      have before : Reached numbers mentions _ _ := reached_along isPrefix
      obtain ⟨_, current, _, isCurrent, _, fresh⟩ := before.candidate split.symm
      rw [reached_snoc]
      rcases promptStep_spec numbers before.exact isCurrent fresh with ⟨same, _⟩ | ⟨added, fits⟩
      · rw [same]
        exact ih isPrefix
      · rw [added]
        exact fits

end Runs

end Reflection
