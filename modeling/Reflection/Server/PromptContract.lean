/-
What a resolution prompt shows.

Every candidate is shown with its id and its name at its place. A field is left out only where it
would have exceeded the budget at its turn, apart from an empty alias, which is passed over. A prompt is refused only for a name, for its identities or for two candidates of a
mention that look alike.
-/

import Reflection.Server.PromptBudget
import Reflection.Shared.ToolRecognition

namespace Reflection

open JsString

/-! ### Candidates that can be told apart -/

/-- What a model has to tell two candidates of a mention apart. -/
def SameEvidence (one other : ProjectedCandidate) : Prop :=
  one.canonicalName = other.canonicalName ∧ one.description = other.description ∧
    one.aliases = other.aliases

section Identities

variable (numbers : Numbers)

theorem evidenceJson_valid (candidate : ProjectedCandidate) : (candidate.evidenceJson numbers).Valid := by
  have aliases : (Json.array (candidate.aliases.map .string) : Json numbers.Number).Valid := by
    refine .array fun item inside => ?_
    obtain ⟨text, _, rfl⟩ := List.mem_map.mp inside
    exact .string text
  have distinct : ([ofString "canonical_name", ofString "description", ofString "aliases"] :
      List JsString).Nodup := by decide
  refine .object ⟨distinct, rfl⟩ fun entry inside => ?_
  simp only [List.mem_cons, List.not_mem_nil, or_false] at inside
  rcases inside with rfl | rfl | rfl
  · exact .string _
  · exact .string _
  · exact aliases

def evidenceText (candidate : ProjectedCandidate) : JsString :=
  compactAsciiJson numbers (candidate.evidenceJson numbers)

/-- The text keeps all of the evidence. -/
theorem evidenceText_iff {one other : ProjectedCandidate} :
    evidenceText numbers one = evidenceText numbers other ↔ SameEvidence one other := by
  constructor
  · intro same
    have parsedOne := parseJson_compactAsciiJson numbers (evidenceJson_valid numbers one)
    have parsedOther := parseJson_compactAsciiJson numbers (evidenceJson_valid numbers other)
    have sameText : compactAsciiJson numbers (one.evidenceJson numbers) =
        compactAsciiJson numbers (other.evidenceJson numbers) := same
    rw [sameText, parsedOther] at parsedOne
    have sameJson := Option.some.inj parsedOne
    simp only [ProjectedCandidate.evidenceJson, Json.object.injEq, List.cons.injEq, Prod.mk.injEq,
      Json.string.injEq, Json.array.injEq, true_and, and_true] at sameJson
    obtain ⟨name, description, aliases⟩ := sameJson
    refine ⟨name.symm, description.symm, (List.map_injective_iff.mpr ?_ aliases).symm⟩
    intro left right equal
    cases equal
    rfl
  · intro same
    obtain ⟨name, description, aliases⟩ := same
    rw [evidenceText, evidenceText, ProjectedCandidate.evidenceJson, name, description, aliases]
    rfl

theorem checkIdentities_ok {identities : List JsString} {row : List ProjectedCandidate}
    (passed : checkIdentities numbers identities row = .ok ()) :
    row.Pairwise (fun one other => ¬SameEvidence one other) ∧
      ∀ candidate ∈ row, evidenceText numbers candidate ∉ identities := by
  induction row generalizing identities with
  | nil => exact ⟨.nil, fun _ inside => (nomatch inside)⟩
  | cons first rest ih =>
      rw [checkIdentities] at passed
      split at passed
      · cases passed
      · rename_i isNew
        obtain ⟨apart, notSeen⟩ := ih passed
        constructor
        · refine List.pairwise_cons.mpr ⟨fun other inside same => ?_, apart⟩
          rw [← evidenceText_iff numbers] at same
          exact notSeen other inside (List.mem_cons.mpr (.inl same.symm))
        · intro candidate inside
          rcases List.mem_cons.mp inside with rfl | later
          · exact fun isSeen => isNew (List.contains_iff_mem.mpr isSeen)
          · exact fun isSeen => notSeen candidate later (List.mem_cons_of_mem _ isSeen)

theorem checkIdentities_error {identities : List JsString} {row : List ProjectedCandidate}
    {error : TerminalExtractionValidationError}
    (refused : checkIdentities numbers identities row = .error error) :
    (∃ candidate ∈ row, evidenceText numbers candidate ∈ identities) ∨
      ¬row.Pairwise fun one other => ¬SameEvidence one other := by
  induction row generalizing identities with
  | nil => cases refused
  | cons first rest ih =>
      rw [checkIdentities] at refused
      split at refused
      · rename_i isSeen
        exact .inl ⟨first, List.mem_cons_self, List.contains_iff_mem.mp isSeen⟩
      · rcases ih refused with ⟨candidate, inside, isSeen⟩ | alike
        · rcases List.mem_cons.mp isSeen with isFirst | earlier
          · refine .inr fun apart => ?_
            have same : SameEvidence candidate first := (evidenceText_iff numbers).mp isFirst
            exact (List.pairwise_cons.mp apart).1 candidate inside
              ⟨same.1.symm, same.2.1.symm, same.2.2.symm⟩
          · exact .inl ⟨candidate, List.mem_cons_of_mem _ inside, earlier⟩
        · exact .inr fun apart => alike (List.pairwise_cons.mp apart).2

theorem forM_cases {ε α : Type} {check : α → Except ε Unit} (items : List α) :
    (items.forM check = .ok () ∧ ∀ item ∈ items, check item = .ok ()) ∨
      ∃ item ∈ items, ∃ error, check item = .error error ∧ items.forM check = .error error := by
  induction items with
  | nil => exact .inl ⟨rfl, fun _ inside => (nomatch inside)⟩
  | cons first rest ih =>
      have unfolded : (first :: rest).forM check = (check first >>= fun _ => rest.forM check) := rfl
      rw [unfolded]
      cases checked : check first with
      | error error =>
          exact .inr ⟨first, List.mem_cons_self, error, checked, rfl⟩
      | ok value =>
          rw [except_ok_bind]
          rcases ih with ⟨passed, each⟩ | ⟨item, inside, error, isError, failed⟩
          · refine .inl ⟨passed, fun item inside => ?_⟩
            rcases List.mem_cons.mp inside with rfl | later
            · exact checked
            · exact each item later
          · exact .inr ⟨item, List.mem_cons_of_mem _ inside, error, isError, failed⟩

end Identities

/-! ### What is shown -/

/-- A candidate as it is shown. -/
structure ShownAs (source : EntityCandidate) (shown : ProjectedCandidate) : Prop where
  entityId : shown.entityId = source.id
  canonicalName : shown.canonicalName = source.canonicalName
  description : shown.description = [] ∨ LongestPrefix 1000 source.description shown.description
  aliases : ∃ bounded, List.Forall₂ (LongestPrefix 256) (source.aliases.take 10) bounded ∧
    shown.aliases.Sublist bounded

theorem filterMap_boundedAlias (aliases : List JsString) :
    (aliases.map PromptField.aliasName).filterMap Filled.boundedAlias =
      aliases.map fun name => truncateUtf8Bytes name 256 := by
  induction aliases with
  | nil => rfl
  | cons first rest ih => exact congrArg (List.cons _) ih

/-- A candidate that was filled with all of its fields. -/
theorem Filled.shownAs {source : EntityCandidate} {shown : ProjectedCandidate}
    (filled : Filled (candidateFields source) (identityOnly source) shown) : ShownAs source shown := by
  refine
    { entityId := filled.identity.1
      canonicalName := filled.identity.2
      description := ?_
      aliases := ?_ }
  · rcases filled.description with none | ⟨value, inside, same⟩
    · exact .inl none
    · right
      have own : value = source.description := by
        rcases List.mem_cons.mp inside with isOwn | isAlias
        · cases isOwn
          rfl
        · obtain ⟨_, _, impossible⟩ := List.mem_map.mp isAlias
          cases impossible
      rw [same, own]
      exact truncateUtf8Bytes_longest _ _
  · obtain ⟨kept, same, inside⟩ := filled.aliases
    have bounded : (candidateFields source).filterMap boundedAlias =
        (source.aliases.take 10).map fun name => truncateUtf8Bytes name 256 :=
      filterMap_boundedAlias _
    rw [bounded] at inside
    refine ⟨(source.aliases.take 10).map fun name => truncateUtf8Bytes name 256, ?_, ?_⟩
    · exact List.forall₂_map_right_iff.mpr (List.forall₂_same.mpr fun name _ =>
        truncateUtf8Bytes_longest name 256)
    · rw [same]
      exact inside

/-- The field of a step is in the final lists, an alias at the place it had at its turn. -/
def FieldShown (before final : List (List ProjectedCandidate)) (step : PromptStep) : Prop :=
  ∃ current shown, candidateAt before step.mentionIndex step.candidateIndex = some current ∧
    candidateAt final step.mentionIndex step.candidateIndex = some shown ∧
    match step.field with
    | .description value => shown.description = truncateUtf8Bytes value 1000
    | .aliasName value => current.aliases ++ [truncateUtf8Bytes value 256] <+: shown.aliases

section Results

variable {numbers : Numbers} {mentions : List MentionContext}

/-- Only an empty alias is passed over. -/
theorem empty_of_skipped {field : PromptField} (skipped : isSkipped field = true) :
    field = .aliasName [] := by
  cases field with
  | description value => cases skipped
  | aliasName value => rw [truncateUtf8Bytes_nil (by decide) (List.isEmpty_iff.mp skipped)]

/-- A field is shown at the end, is passed over, or would have exceeded the budget at its turn. -/
theorem field_turn {taken rest : List PromptStep} {step : PromptStep}
    (split : promptSteps mentions = taken ++ step :: rest) :
    FieldShown (reached numbers mentions taken).candidates
        (reached numbers mentions (promptSteps mentions)).candidates step ∨
      step.field = .aliasName [] ∨
      MAX_RESOLUTION_CANDIDATE_PAYLOAD_BYTES <
        payloadBytes numbers (addAt (reached numbers mentions taken).candidates step) := by
  have isPrefix : taken <+: promptSteps mentions := ⟨step :: rest, split.symm⟩
  have before : Reached numbers mentions taken (reached numbers mentions taken) :=
    reached_along isPrefix
  obtain ⟨source, current, isSource, isCurrent, _, fresh⟩ := before.candidate split
  rcases promptStep_spec numbers before.exact isCurrent fresh with ⟨_, leftOut⟩ | ⟨added, _⟩
  · exact .inr (leftOut.imp_left empty_of_skipped)
  · left
    have next : candidateAt (reached numbers mentions (taken ++ [step])).candidates step.mentionIndex
        step.candidateIndex = some (addField step.field current) := by
      rw [reached_snoc, added, addAt, isCurrent]
      dsimp only
      rw [candidateAt_put isCurrent, if_pos ⟨rfl, rfl⟩]
    have behind : promptSteps mentions = (taken ++ [step]) ++ (rest ++ []) := by
      rw [split, List.append_nil, List.append_assoc, List.singleton_append]
    obtain ⟨shown, isShown, filled⟩ := filled_between behind next
    have whole : (taken ++ [step]) ++ rest = promptSteps mentions := by
      rw [split, List.append_assoc, List.singleton_append]
    rw [whole] at isShown
    refine ⟨current, shown, isCurrent, isShown, ?_⟩
    cases isField : step.field with
    | description value =>
        rw [isField] at filled
        rcases filled.description with kept | ⟨other, inside, _⟩
        · exact kept
        · have fields := fieldsAt_promptSteps isSource
          rw [split, fieldsAt_append, fieldsAt_own, isField] at fields
          exact absurd inside ((description_first fields.symm).2 other)
    | aliasName value =>
        rw [isField] at filled
        obtain ⟨kept, same, _⟩ := filled.aliases
        rw [same]
        exact List.prefix_append _ _

/-- The loop over names passes where each name is short, and projects the identities. -/
theorem projected_cases (mentions : List MentionContext) :
    mentions.mapM (fun mention => mention.candidates.mapM projectCandidate) =
        .ok (identityLists mentions) ∨
      ((∃ error, mentions.mapM (fun mention => mention.candidates.mapM projectCandidate) = .error error) ∧
        ∃ mention ∈ mentions, ∃ candidate ∈ mention.candidates,
          500 < codePointLength candidate.canonicalName) := by
  by_cases short : ∀ mention ∈ mentions, ∀ candidate ∈ mention.candidates,
      codePointLength candidate.canonicalName ≤ 500
  · left
    refine mapM_ok_iff.mpr (List.forall₂_map_right_iff.mpr (List.forall₂_same.mpr fun mention isMention => ?_))
    refine mapM_ok_iff.mpr (List.forall₂_map_right_iff.mpr (List.forall₂_same.mpr fun candidate inside => ?_))
    exact if_neg (Nat.not_lt.mpr (short mention isMention candidate inside))
  · right
    push Not at short
    refine ⟨?_, short⟩
    cases projected : mentions.mapM (fun mention => mention.candidates.mapM projectCandidate) with
    | error error => exact ⟨error, rfl⟩
    | ok lists =>
        obtain ⟨mention, isMention, candidate, inside, long⟩ := short
        obtain ⟨row, isRow⟩ := exists_mapM_ok.mp ⟨lists, projected⟩ mention isMention
        obtain ⟨shown, isShown⟩ := exists_mapM_ok.mp ⟨row, isRow⟩ candidate inside
        rw [projectCandidate, if_pos long] at isShown
        cases isShown

/-- What the function returns, from the names, the start and the last state. -/
theorem resolutionPromptMentions_cases :
    ((∃ error, resolutionPromptMentions numbers mentions = .error error) ∧
      ((∃ mention ∈ mentions, ∃ candidate ∈ mention.candidates,
          500 < codePointLength candidate.canonicalName) ∨
        MAX_RESOLUTION_CANDIDATE_PAYLOAD_BYTES < payloadBytes numbers (identityLists mentions))) ∨
      (payloadBytes numbers (identityLists mentions) ≤ MAX_RESOLUTION_CANDIDATE_PAYLOAD_BYTES ∧
        resolutionPromptMentions numbers mentions =
          ((reached numbers mentions (promptSteps mentions)).candidates.forM
            (checkIdentities numbers []) >>= fun _ =>
              .ok (List.zipWith promptMention mentions
                (reached numbers mentions (promptSteps mentions)).candidates))) := by
  have overStart : (promptStart numbers (identityLists mentions)).candidateBytes >
      (MAX_RESOLUTION_CANDIDATE_PAYLOAD_BYTES : Int) ↔
        MAX_RESOLUTION_CANDIDATE_PAYLOAD_BYTES < payloadBytes numbers (identityLists mentions) :=
    Int.ofNat_lt
  rcases projected_cases mentions with projected | ⟨⟨error, refused⟩, long⟩
  · rcases Nat.lt_or_ge MAX_RESOLUTION_CANDIDATE_PAYLOAD_BYTES
        (payloadBytes numbers (identityLists mentions)) with exceeds | fits
    · refine .inl ⟨⟨⟨"entity candidate identities exceed the prompt budget"⟩, ?_⟩, .inr exceeds⟩
      rw [resolutionPromptMentions, projected, except_ok_bind]
      exact if_pos (overStart.mpr exceeds)
    · refine .inr ⟨fits, ?_⟩
      rw [resolutionPromptMentions, projected, except_ok_bind]
      exact if_neg (mt overStart.mp (Nat.not_lt.mpr fits))
  · refine .inl ⟨⟨error, ?_⟩, .inl long⟩
    rw [resolutionPromptMentions, refused]
    rfl

theorem candidates_zipWith {mentions : List MentionContext} {lists : List (List ProjectedCandidate)}
    (same : lists.length = mentions.length) :
    (List.zipWith promptMention mentions lists).map (·.candidates) = lists := by
  induction mentions generalizing lists with
  | nil => exact (List.eq_nil_of_length_eq_zero same).symm
  | cons mention rest ih =>
      cases lists with
      | nil => cases same
      | cons row others => exact congrArg (List.cons row) (ih (Nat.succ.inj same))

end Results

/-- A mention as the prompt shows it, every candidate at its place. -/
structure MentionShownAs (mention : MentionContext) (prompt : PromptMention) : Prop where
  mentionId : prompt.mentionId = mention.mentionId
  role : prompt.role = mention.role
  text : prompt.text = mention.text
  supportingClaim : prompt.supportingClaim = mention.supportingClaim
  count : prompt.candidates.length = mention.candidates.length
  shown : ∀ (place : Nat) (source : EntityCandidate), mention.candidates[place]? = some source →
    ∃ shown, prompt.candidates[place]? = some shown ∧ ShownAs source shown

section Results

variable {numbers : Numbers} {mentions : List MentionContext}

theorem mention_shownAs {place : Nat} {mention : MentionContext} (isMention : mentions[place]? = some mention) :
    ∃ prompt, (List.zipWith promptMention mentions
        (reached numbers mentions (promptSteps mentions)).candidates)[place]? = some prompt ∧
      MentionShownAs mention prompt := by
  have last : Reached numbers mentions (promptSteps mentions)
      (reached numbers mentions (promptSteps mentions)) := reached_along List.prefix_rfl
  have shape := congrArg (fun lengths => lengths[place]?) last.shape
  rw [List.getElem?_map, List.getElem?_map, isMention] at shape
  cases isRow : (reached numbers mentions (promptSteps mentions)).candidates[place]? with
  | none =>
      rw [isRow] at shape
      cases shape
  | some row =>
      rw [isRow] at shape
      refine ⟨promptMention mention row, ?_,
        { mentionId := rfl
          role := rfl
          text := rfl
          supportingClaim := rfl
          count := Option.some.inj shape
          shown := fun candidatePlace source isSource => ?_ }⟩
      · rw [List.getElem?_zipWith, isMention, isRow]
      · have found : sourceAt mentions place candidatePlace = some source := by
          rw [sourceAt, isMention]
          exact isSource
        obtain ⟨shown, isShown, filled⟩ := last.filled place candidatePlace source found
        rw [fieldsAt_promptSteps found] at filled
        rw [candidateAt, isRow] at isShown
        exact ⟨shown, isShown, filled.shownAs⟩

end Results

/-- The budget is exact. The count is the size of the payload behind every step, what is shown
stays within the budget and is what the source has, a field other than an empty alias is left out
only where it would have exceeded the budget, and no two candidates of a mention look alike. A
prompt is refused only for a long name, for its identities or for candidates that look alike. -/
theorem resolutionPromptMentions_exact (numbers : Numbers) (mentions : List MentionContext) :
    (∀ taken, taken <+: promptSteps mentions →
      (reached numbers mentions taken).candidateBytes =
        compactAsciiJsonByteLength numbers
          (candidatesJson numbers (reached numbers mentions taken).candidates)) ∧
    (∀ prompts, resolutionPromptMentions numbers mentions = .ok prompts →
      compactAsciiJsonByteLength numbers (candidatesJson numbers (prompts.map (·.candidates))) ≤
        MAX_RESOLUTION_CANDIDATE_PAYLOAD_BYTES ∧
      prompts.length = mentions.length ∧
      (∀ (place : Nat) (mention : MentionContext), mentions[place]? = some mention →
        ∃ prompt, prompts[place]? = some prompt ∧ MentionShownAs mention prompt) ∧
      (∀ taken step rest, promptSteps mentions = taken ++ step :: rest →
        FieldShown (reached numbers mentions taken).candidates (prompts.map (·.candidates)) step ∨
          step.field = .aliasName [] ∨
          MAX_RESOLUTION_CANDIDATE_PAYLOAD_BYTES <
            compactAsciiJsonByteLength numbers
              (candidatesJson numbers (addAt (reached numbers mentions taken).candidates step))) ∧
      ∀ prompt ∈ prompts, prompt.candidates.Pairwise fun one other => ¬SameEvidence one other) ∧
    ∀ error, resolutionPromptMentions numbers mentions = .error error →
      (∃ mention ∈ mentions, ∃ candidate ∈ mention.candidates,
        500 < codePointLength candidate.canonicalName) ∨
      MAX_RESOLUTION_CANDIDATE_PAYLOAD_BYTES <
        compactAsciiJsonByteLength numbers (candidatesJson numbers (identityLists mentions)) ∨
      ∃ row ∈ (reached numbers mentions (promptSteps mentions)).candidates,
        ¬row.Pairwise fun one other => ¬SameEvidence one other := by
  have last : Reached numbers mentions (promptSteps mentions)
      (reached numbers mentions (promptSteps mentions)) := reached_along List.prefix_rfl
  have sameLength : (reached numbers mentions (promptSteps mentions)).candidates.length =
      mentions.length := by
    have lengths := congrArg List.length last.shape
    rwa [List.length_map, List.length_map] at lengths
  refine ⟨fun taken isPrefix => (reached_along isPrefix).exact, fun prompts succeeded => ?_,
    fun error failed => ?_⟩
  · rcases resolutionPromptMentions_cases with ⟨⟨error, refused⟩, _⟩ | ⟨fits, outcome⟩
    · rw [refused] at succeeded
      cases succeeded
    · rw [outcome] at succeeded
      obtain ⟨_, passed, same⟩ := except_bind_ok succeeded
      cases same
      rw [candidates_zipWith sameLength, List.length_zipWith, sameLength, Nat.min_self]
      refine ⟨reached_within List.prefix_rfl fits, rfl, fun place mention isMention =>
        mention_shownAs isMention, fun taken step rest split => field_turn split, fun prompt inside => ?_⟩
      have each : ∀ row ∈ (reached numbers mentions (promptSteps mentions)).candidates,
          checkIdentities numbers [] row = .ok () := by
        rcases forM_cases (reached numbers mentions (promptSteps mentions)).candidates with
          ⟨_, each⟩ | ⟨_, _, error, _, failed⟩
        · exact each
        · rw [failed] at passed
          cases passed
      have isRow : prompt.candidates ∈ (reached numbers mentions (promptSteps mentions)).candidates := by
        have inLists := List.mem_map_of_mem (f := PromptMention.candidates) inside
        rwa [candidates_zipWith sameLength] at inLists
      exact (checkIdentities_ok numbers (each _ isRow)).1
  · rcases resolutionPromptMentions_cases with ⟨_, long | exceeds⟩ | ⟨_, outcome⟩
    · exact .inl long
    · exact .inr (.inl exceeds)
    · rw [outcome] at failed
      rcases forM_cases (reached numbers mentions (promptSteps mentions)).candidates with
        ⟨passed, _⟩ | ⟨row, inside, other, isError, _⟩
      · rw [passed] at failed
        cases failed
      · rcases checkIdentities_error numbers isError with ⟨_, _, impossible⟩ | alike
        · cases impossible
        · exact .inr (.inr ⟨row, inside, alike⟩)

/-! ### An empty alias -/

def emptyAliasMention : MentionContext :=
  { mentionId := ofString "c0.subject"
    role := ofString "subject"
    text := ofString "Ada"
    supportingClaim := ofString "Ada writes"
    candidates :=
      [{ id := ofString "e1"
         canonicalName := ofString "Ada"
         description := []
         aliases := [[]] }] }

/-- An empty alias is left out although it would have fit. -/
theorem empty_alias_left_out :
    ¬∀ (numbers : Numbers) (mentions : List MentionContext) (prompts : List PromptMention),
      resolutionPromptMentions numbers mentions = .ok prompts →
        ∀ taken step rest, promptSteps mentions = taken ++ step :: rest →
          FieldShown (reached numbers mentions taken).candidates (prompts.map (·.candidates)) step ∨
            MAX_RESOLUTION_CANDIDATE_PAYLOAD_BYTES <
              compactAsciiJsonByteLength numbers
                (candidatesJson numbers (addAt (reached numbers mentions taken).candidates step)) := by
  intro all
  let shown : ProjectedCandidate :=
    { entityId := ofString "e1"
      canonicalName := ofString "Ada"
      description := []
      aliases := [] }
  let step (field : PromptField) : PromptStep :=
    { mentionIndex := 0
      candidateIndex := 0
      field := field }
  have succeeded : resolutionPromptMentions digitNumbers [emptyAliasMention] =
      .ok [promptMention emptyAliasMention [shown]] := by
    decide +kernel
  rcases all digitNumbers [emptyAliasMention] _ succeeded [step (.description [])]
    (step (.aliasName [])) [] rfl with ⟨current, final, _, isFinal, starts⟩ | exceeds
  · cases isFinal
    have length := starts.length_le
    rw [List.length_append] at length
    cases length
  · have fits : ¬MAX_RESOLUTION_CANDIDATE_PAYLOAD_BYTES < compactAsciiJsonByteLength digitNumbers
        (candidatesJson digitNumbers (addAt (reached digitNumbers [emptyAliasMention]
          [step (.description [])]).candidates (step (.aliasName [])))) := by
      decide +kernel
    exact fits exceeds

end Reflection
