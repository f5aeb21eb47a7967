/-
An accepted answer identifies the mentions coherently.

Which answers are accepted is stated on the lists themselves, without the maps of the validator:
every proposal and every mention of a kept claim is named once, and each group of a new entity has
an earlier anchor with the same normalized text that is new itself and joins no group.
-/

import Reflection.Shared.Resolution

namespace Reflection

open JsString

variable (caseFold : JsString → JsString)

/-! ### What is accepted -/

/-- The proposal was decided to be kept. -/
def ResolutionResult.keeps (result : ResolutionResult) (index : Nat) : Bool :=
  result.claims.any fun decision => decision.claimId == claimName index && decision.action == .keep

/-- The proposals decided keep, in order, from an index on. -/
def decidedFrom (result : ResolutionResult) : Nat → List ExtractedClaim → List ValidatedClaimDecision
  | _, [] => []
  | index, claim :: rest =>
      if result.keeps index then
        { index := index
          claim := claim } :: decidedFrom result (index + 1) rest
      else decidedFrom result (index + 1) rest

/-- The context belongs to a mention of a kept claim. -/
def ValidatedClaimDecision.mentions (kept : ValidatedClaimDecision) (context : MentionContext) : Bool :=
  context.mentionId == subjectMention kept.index ||
    (kept.claim.objectEntity.isSome && context.mentionId == objectMention kept.index)

def mentionedContexts (proposed : List ExtractedClaim) (contexts : List MentionContext)
    (result : ResolutionResult) : List MentionContext :=
  contexts.filter fun context => (decidedFrom result 0 proposed).any fun kept => kept.mentions context

/-- A mention that selects no candidate joins the new entity of an earlier one. -/
def ValidGroup (kept : List MentionContext) (result : ResolutionResult) (member : Resolution)
    (anchorId : JsString) : Prop :=
  member.candidateEntityId = none ∧
    (∃ anchor ∈ result.resolutions, anchor.mentionId = anchorId ∧ anchor.candidateEntityId = none ∧
      anchor.sameNewEntityAs = none) ∧
    ∃ (earlier later : Nat) (anchored joined : MentionContext), earlier < later ∧
      kept[earlier]? = some anchored ∧ kept[later]? = some joined ∧
        anchored.mentionId = anchorId ∧ joined.mentionId = member.mentionId ∧
          normalizeName caseFold anchored.text = normalizeName caseFold joined.text

structure Acceptable (proposed : List ExtractedClaim) (contexts : List MentionContext)
    (result : ResolutionResult) : Prop where
  claims : (result.claims.map ClaimDecision.claimId).Perm ((List.range proposed.length).map claimName)
  mentions : (result.resolutions.map Resolution.mentionId).Perm
    ((mentionedContexts proposed contexts result).map MentionContext.mentionId)
  groups : ∀ member ∈ result.resolutions, ∀ anchorId ∈ member.sameNewEntityAs,
    ValidGroup caseFold (mentionedContexts proposed contexts result) result member anchorId

/-! ### What is returned -/

/-- What becomes of the candidate a mention's answer names. -/
inductive Selected (contexts : List MentionContext) (substitutions : List CandidateSubstitution)
    (answer : Resolution) (mention : ValidatedMentionResolution) : Prop
  | unnamed (named : answer.candidateEntityId = none) (same : mention.resolution = answer)
      (selected : mention.selectedCandidate = none)
      (unrecorded : ∀ record ∈ substitutions, record.mentionId ≠ mention.context.mentionId)
  | own (candidate : EntityCandidate) (named : answer.candidateEntityId = some candidate.id)
      (offered : candidate ∈ mention.context.candidates) (same : mention.resolution = answer)
      (selected : mention.selectedCandidate = some candidate)
      (unrecorded : ∀ record ∈ substitutions, record.mentionId ≠ mention.context.mentionId)
  | other (candidate : EntityCandidate) (named : answer.candidateEntityId = some candidate.id)
      (notOwn : ∀ own ∈ mention.context.candidates, own.id ≠ candidate.id)
      (offered : ∃ context ∈ contexts, candidate ∈ context.candidates) (same : mention.resolution = answer)
      (selected : mention.selectedCandidate = some candidate)
      (recorded : CandidateSubstitution.mk mention.context.mentionId candidate.id
        .otherMentionCandidate ∈ substitutions)
  | unknown (id : JsString) (named : answer.candidateEntityId = some id)
      (neverOffered : ∀ context ∈ contexts, ∀ candidate ∈ context.candidates, candidate.id ≠ id)
      (same : mention.resolution = { answer with candidateEntityId := none })
      (selected : mention.selectedCandidate = none)
      (recorded : CandidateSubstitution.mk mention.context.mentionId id .newEntity ∈ substitutions)

namespace ValidatedMentionResolution

variable (mention : ValidatedMentionResolution)

def isNew : Prop := mention.selectedCandidate = none

/-- The mention that stands for the new entity. -/
def anchorId : JsString := mention.resolution.sameNewEntityAs.getD mention.context.mentionId

end ValidatedMentionResolution

structure Coherent (proposed : List ExtractedClaim) (contexts : List MentionContext)
    (result : ResolutionResult) (plan : ValidatedResolutionPlan) : Prop where
  keptClaims : plan.keptClaims = decidedFrom result 0 proposed
  /-- each context of a kept claim occurs once -/
  mentions : plan.mentions.map ValidatedMentionResolution.context =
    mentionedContexts proposed contexts result
  distinct : (plan.mentions.map fun mention => mention.context.mentionId).Nodup
  selected : ∀ mention ∈ plan.mentions, ∃ answer ∈ result.resolutions,
    answer.mentionId = mention.context.mentionId ∧ Selected contexts plan.substitutions answer mention
  recorded : ∀ record ∈ plan.substitutions, ∃ mention ∈ plan.mentions,
    record.mentionId = mention.context.mentionId
  /-- only a new mention joins a group -/
  grouped : ∀ mention ∈ plan.mentions, mention.resolution.sameNewEntityAs ≠ none → mention.isNew
  /-- the class of a new mention has an ungrouped new anchor that is no later -/
  anchored : ∀ (later : Nat) (mention : ValidatedMentionResolution),
    plan.mentions[later]? = some mention → mention.isNew →
      ∃ (earlier : Nat) (anchor : ValidatedMentionResolution), earlier ≤ later ∧
        plan.mentions[earlier]? = some anchor ∧ anchor.isNew ∧ anchor.resolution.sameNewEntityAs = none ∧
          anchor.context.mentionId = mention.anchorId ∧
            normalizeName caseFold anchor.context.text = normalizeName caseFold mention.context.text
  /-- no substituted mention shares its class with another -/
  unsubstituted : ∀ one ∈ plan.mentions, ∀ other ∈ plan.mentions, one ≠ other → one.isNew → other.isNew →
    one.anchorId = other.anchorId → ∀ record ∈ plan.substitutions, record.mentionId ≠ one.context.mentionId

/-! ### Claims -/

section Claims

variable {proposed : List ExtractedClaim} {result : ResolutionResult}

theorem claimName_injective {one other : Nat} (same : claimName one = claimName other) : one = other :=
  decimal_injective (List.cons.inj same).2

theorem claimNames_nodup (count : Nat) : ((List.range count).map claimName).Nodup :=
  List.nodup_range.map fun _ _ same => claimName_injective same

theorem decisionEntries (result : ResolutionResult) :
    (result.claims.map fun decision => (decision.claimId, decision)).map Prod.fst =
      result.claims.map ClaimDecision.claimId := by
  rw [List.map_map]
  rfl

theorem keptDecisions_eq {start : Nat} {rest : List ExtractedClaim}
    (distinct : (result.claims.map ClaimDecision.claimId).Nodup)
    (named : ∀ index, start ≤ index → index < start + rest.length →
      claimName index ∈ result.claims.map ClaimDecision.claimId) :
    keptDecisions (ofEntries (result.claims.map fun decision => (decision.claimId, decision))) start rest =
      .ok (decidedFrom result start rest) := by
  induction rest generalizing start with
  | nil => rfl
  | cons claim rest ih =>
      have first := named start (Nat.le_refl _) (by rw [List.length_cons]; omega)
      rcases List.mem_map.mp first with ⟨decision, inside, isName⟩
      have found : (ofEntries (result.claims.map fun decision => (decision.claimId, decision))).lookup
          (claimName start) = some decision := by
        apply lookup_ofEntries
        · rw [decisionEntries]
          exact distinct
        · exact List.mem_map.mpr ⟨decision, inside, by rw [isName]⟩
      have decides : result.keeps start = decide (decision.action = .keep) := by
        rw [Bool.eq_iff_iff, decide_eq_true_iff]
        unfold ResolutionResult.keeps
        rw [List.any_eq_true]
        constructor
        · rintro ⟨other, isOther, matched⟩
          rw [Bool.and_eq_true, beq_iff_eq, beq_iff_eq] at matched
          have same := List.inj_on_of_nodup_map distinct isOther inside (matched.1.trans isName.symm)
          rw [← same]
          exact matched.2
        · intro kept
          exact ⟨decision, inside, by rw [isName, kept]; simp⟩
      have others := @ih (start + 1) fun index after before => by
        apply named index (by omega)
        rw [List.length_cons]
        omega
      rw [keptDecisions, found]
      dsimp only
      rw [others, except_ok_bind, decidedFrom, decides]
      by_cases kept : decision.action = .keep
      · simp [kept]
      · simp [kept]

theorem validateClaimDecisions_iff {kept : List ValidatedClaimDecision} :
    validateClaimDecisions proposed result = .ok kept ↔
      (result.claims.map ClaimDecision.claimId).Perm ((List.range proposed.length).map claimName) ∧
        kept = decidedFrom result 0 proposed := by
  have keys : ∀ id, id ∈ (ofEntries (result.claims.map fun decision => (decision.claimId, decision))).keys ↔
      id ∈ result.claims.map ClaimDecision.claimId := by
    intro id
    rw [mem_keys_ofEntries, decisionEntries]
  have size := @mapSize_ofEntries_iff _ _ _ (result.claims.map fun decision => (decision.claimId, decision))
  rw [decisionEntries, List.length_map] at size
  unfold validateClaimDecisions
  dsimp only
  constructor
  · intro accepted
    split at accepted
    · cases accepted
    · rename_i noDuplicate
      split at accepted
      · cases accepted
      · rename_i exact
        rw [not_not] at noDuplicate
        have distinct := size.mp noDuplicate
        rw [Bool.or_eq_true, not_or, decide_eq_true_iff, not_not, List.any_eq_true, noDuplicate] at exact
        have perm : (result.claims.map ClaimDecision.claimId).Perm
            ((List.range proposed.length).map claimName) := by
          apply perm_of_nodup distinct
          · intro id inside
            by_contra absent
            apply exact.2
            refine ⟨id, (keys id).mpr inside, ?_⟩
            rw [Bool.not_eq_true', ← Bool.not_eq_true, List.contains_iff_mem]
            exact absent
          · rw [@List.length_map _ _ result.claims, exact.1]
        refine ⟨perm, ?_⟩
        rw [keptDecisions_eq distinct] at accepted
        · cases accepted
          rfl
        · intro index _ within
          rw [perm.mem_iff]
          exact List.mem_map.mpr ⟨index, List.mem_range.mpr (by omega), rfl⟩
  · rintro ⟨perm, same⟩
    have distinct := perm.nodup_iff.mpr (claimNames_nodup proposed.length)
    have noDuplicate := size.mpr distinct
    have length := perm.length_eq
    rw [List.length_map] at length
    rw [if_neg (not_not.mpr noDuplicate), if_neg, same, keptDecisions_eq distinct]
    · intro index _ within
      rw [perm.mem_iff]
      exact List.mem_map.mpr ⟨index, List.mem_range.mpr (by omega), rfl⟩
    · rw [Bool.or_eq_true, not_or, decide_eq_true_iff, not_not, List.any_eq_true, noDuplicate]
      refine ⟨length, ?_⟩
      rintro ⟨id, inside, outside⟩
      rw [Bool.not_eq_true', ← Bool.not_eq_true, List.contains_iff_mem] at outside
      exact outside (perm.mem_iff.mp ((keys id).mp inside))

theorem keptContexts_eq (contexts : List MentionContext) (kept : List ValidatedClaimDecision) :
    (contexts.filter fun context =>
        (kept.flatMap ValidatedClaimDecision.mentionIds).contains context.mentionId) =
      contexts.filter fun context => kept.any fun one => one.mentions context := by
  apply List.filter_congr
  intro context _
  rw [Bool.eq_iff_iff, List.contains_iff_mem, List.mem_flatMap, List.any_eq_true]
  have each : ∀ one : ValidatedClaimDecision,
      context.mentionId ∈ one.mentionIds ↔ one.mentions context = true := by
    intro one
    unfold ValidatedClaimDecision.mentionIds ValidatedClaimDecision.mentions
    cases one.claim.objectEntity with
    | none => simp
    | some object => simp
  constructor
  · rintro ⟨one, inside, mentioned⟩
    exact ⟨one, inside, (each one).mp mentioned⟩
  · rintro ⟨one, inside, mentioned⟩
    exact ⟨one, inside, (each one).mpr mentioned⟩

end Claims

/-! ### Mentions -/

section Mentions

variable {caseFold} {proposed : List ExtractedClaim} {contexts kept : List MentionContext}
variable {result : ResolutionResult} {context : MentionContext} {id : JsString}

theorem contextEntries (kept : List MentionContext) :
    (kept.map fun context => (context.mentionId, context)).map Prod.fst =
      kept.map MentionContext.mentionId := by
  rw [List.map_map]
  rfl

theorem indexEntries (kept : List MentionContext) :
    (kept.zipIdx.map fun (context, index) => (context.mentionId, index)).map Prod.fst =
      kept.map MentionContext.mentionId := by
  rw [List.map_map, ← List.zipIdx_map_fst 0 kept, List.map_map, List.zipIdx_map_fst]
  rfl

theorem answerEntries (result : ResolutionResult) :
    (result.resolutions.map fun resolution => (resolution.mentionId, resolution)).map Prod.fst =
      result.resolutions.map Resolution.mentionId := by
  rw [List.map_map]
  rfl

theorem lookup_expected (distinct : (kept.map MentionContext.mentionId).Nodup) :
    (resolutionMaps contexts kept result).expected.lookup id = some context ↔
      context ∈ kept ∧ context.mentionId = id := by
  have entries := @lookup_ofEntries_iff _ _ _ (kept.map fun context => (context.mentionId, context))
    id context (by rw [contextEntries]; exact distinct)
  refine entries.trans ?_
  rw [List.mem_map]
  constructor
  · rintro ⟨other, inside, same⟩
    cases same
    exact ⟨inside, rfl⟩
  · rintro ⟨inside, named⟩
    exact ⟨context, inside, by rw [named]⟩

theorem lookup_actual (distinct : (result.resolutions.map Resolution.mentionId).Nodup) {answer : Resolution} :
    (resolutionMaps contexts kept result).actual.lookup id = some answer ↔
      answer ∈ result.resolutions ∧ answer.mentionId = id := by
  have entries := @lookup_ofEntries_iff _ _ _
    (result.resolutions.map fun resolution => (resolution.mentionId, resolution)) id answer (by rw [answerEntries]; exact distinct)
  refine entries.trans ?_
  rw [List.mem_map]
  constructor
  · rintro ⟨other, inside, same⟩
    cases same
    exact ⟨inside, rfl⟩
  · rintro ⟨inside, named⟩
    exact ⟨answer, inside, by rw [named]⟩

theorem lookup_contextIndexes (distinct : (kept.map MentionContext.mentionId).Nodup) {index : Nat} :
    (resolutionMaps contexts kept result).contextIndexes.lookup id = some index ↔
      ∃ context, kept[index]? = some context ∧ context.mentionId = id := by
  have entries := @lookup_ofEntries_iff _ _ _
    (kept.zipIdx.map fun (context, index) => (context.mentionId, index)) id index (by rw [indexEntries]; exact distinct)
  refine entries.trans ?_
  rw [List.mem_map]
  constructor
  · rintro ⟨⟨context, position⟩, inside, same⟩
    cases same
    exact ⟨context, List.mem_zipIdx_iff_getElem?.mp inside, rfl⟩
  · rintro ⟨context, found, named⟩
    exact ⟨(context, index), List.mem_zipIdx_iff_getElem?.mpr found, Prod.ext named rfl⟩

/-- The validator's check of a group is the one on the lists. -/
theorem invalidGroup_iff (keptDistinct : (kept.map MentionContext.mentionId).Nodup)
    (distinct : (result.resolutions.map Resolution.mentionId).Nodup) {member : Resolution}
    {anchorId : JsString} (inside : context ∈ kept) (named : member.mentionId = context.mentionId) :
    invalidGroup caseFold (resolutionMaps contexts kept result) context member anchorId = false ↔
      ValidGroup caseFold kept result member anchorId := by
  have expected := fun context => @lookup_expected contexts kept result context anchorId keptDistinct
  have actual := fun answer => @lookup_actual contexts kept result anchorId distinct answer
  have indexes := fun id index => @lookup_contextIndexes contexts kept result id keptDistinct index
  rcases List.mem_iff_getElem?.mp inside with ⟨later, isLater⟩
  have memberIndex := (indexes context.mentionId later).mpr ⟨context, isLater, rfl⟩
  unfold invalidGroup
  constructor
  · intro valid
    rw [Bool.or_eq_false_iff] at valid
    rcases valid with ⟨noCandidate, grouped⟩
    split at grouped
    · rename_i groupedContext groupedResolution isContext isResolution
      rcases (expected groupedContext).mp isContext with ⟨isKept, isAnchor⟩
      rcases (actual groupedResolution).mp isResolution with ⟨isAnswer, namesAnchor⟩
      rcases List.mem_iff_getElem?.mp isKept with ⟨earlier, isEarlier⟩
      have anchorIndex := (indexes anchorId earlier).mpr ⟨groupedContext, isEarlier, isAnchor⟩
      rw [anchorIndex, memberIndex, Bool.or_eq_false_iff, Bool.or_eq_false_iff, Bool.or_eq_false_iff,
        decide_eq_false_iff_not, bne_eq_false_iff_eq] at grouped
      rcases grouped with ⟨⟨⟨anchorNew, anchorFree⟩, before⟩, sameText⟩
      refine ⟨Option.not_isSome_iff_eq_none.mp (by rw [noCandidate]; exact Bool.false_ne_true), ?_, ?_⟩
      · exact ⟨groupedResolution, isAnswer, namesAnchor,
          Option.not_isSome_iff_eq_none.mp (by rw [anchorNew]; exact Bool.false_ne_true),
          Option.not_isSome_iff_eq_none.mp (by rw [anchorFree]; exact Bool.false_ne_true)⟩
      · exact ⟨earlier, later, groupedContext, context, Nat.lt_of_not_le before, isEarlier, isLater,
          isAnchor, named.symm, sameText⟩
    · cases grouped
  · rintro ⟨noCandidate, ⟨anchor, isAnswer, namesAnchor, anchorNew, anchorFree⟩, earlier, position,
      anchored, joined, before, isEarlier, isJoined, isAnchor, isMember, sameText⟩
    have isContext := (expected anchored).mpr ⟨List.mem_of_getElem? isEarlier, isAnchor⟩
    have isResolution := (actual anchor).mpr ⟨isAnswer, namesAnchor⟩
    have anchorIndex := (indexes anchorId earlier).mpr ⟨anchored, isEarlier, isAnchor⟩
    have joinedIndex := (indexes context.mentionId position).mpr ⟨joined, isJoined, isMember.trans named⟩
    have sameJoined : joined = context :=
      List.inj_on_of_nodup_map keptDistinct (List.mem_of_getElem? isJoined) inside (isMember.trans named)
    rw [noCandidate, isContext, isResolution]
    dsimp only
    rw [anchorNew, anchorFree, anchorIndex, joinedIndex, sameText, sameJoined]
    simp [before]

theorem selectCandidate_grouped (supplied : List EntityCandidate) (context : MentionContext)
    (answer : Resolution) :
    (selectCandidate supplied context answer).1.sameNewEntityAs = answer.sameNewEntityAs := by
  unfold selectCandidate
  split
  · rfl
  · split
    · rfl
    · split <;> rfl

/-- A mention is resolved when its answer exists and its group is valid. -/
theorem resolveMention_iff (keptDistinct : (kept.map MentionContext.mentionId).Nodup)
    (distinct : (result.resolutions.map Resolution.mentionId).Nodup) (inside : context ∈ kept)
    {mention : ValidatedMentionResolution} {record : Option CandidateSubstitution} :
    resolveMention caseFold (resolutionMaps contexts kept result) context = .ok (mention, record) ↔
      mention.context = context ∧ ∃ answer ∈ result.resolutions, answer.mentionId = context.mentionId ∧
        selectCandidate (contexts.flatMap MentionContext.candidates) context answer =
            (mention.resolution, mention.selectedCandidate, record) ∧
          ∀ anchorId ∈ answer.sameNewEntityAs, ValidGroup caseFold kept result answer anchorId := by
  have groups : ∀ answer : Resolution, answer.mentionId = context.mentionId →
      ((selectCandidate (contexts.flatMap MentionContext.candidates) context answer).1.sameNewEntityAs.any
          (invalidGroup caseFold (resolutionMaps contexts kept result) context answer) = false ↔
        ∀ anchorId ∈ answer.sameNewEntityAs, ValidGroup caseFold kept result answer anchorId) := by
    intro answer named
    rw [selectCandidate_grouped, Option.any_eq_false]
    constructor
    · intro valid anchorId isAnchor
      exact (invalidGroup_iff keptDistinct distinct inside named).mp (valid anchorId isAnchor)
    · intro valid anchorId isAnchor
      exact (invalidGroup_iff keptDistinct distinct inside named).mpr (valid anchorId isAnchor)
  unfold resolveMention
  constructor
  · intro resolved
    split at resolved
    · cases resolved
    · rename_i answer found
      rcases (lookup_actual distinct).mp found with ⟨isAnswer, named⟩
      dsimp only at resolved
      split at resolved
      · cases resolved
      · rename_i valid
        rw [Bool.not_eq_true] at valid
        cases resolved
        exact ⟨rfl, answer, isAnswer, named, rfl, (groups answer named).mp valid⟩
  · rintro ⟨isContext, answer, isAnswer, named, selected, valid⟩
    have noInvalid := (groups answer named).mpr valid
    rw [(lookup_actual distinct).mpr ⟨isAnswer, named⟩]
    dsimp only
    refine (if_neg ?_).trans ?_
    · intro invalid
      rw [show (resolutionMaps contexts kept result).requestCandidates =
        contexts.flatMap MentionContext.candidates from rfl, noInvalid] at invalid
      cases invalid
    change Except.ok (ValidatedMentionResolution.mk context
      (selectCandidate (contexts.flatMap MentionContext.candidates) context answer).1
      (selectCandidate (contexts.flatMap MentionContext.candidates) context answer).2.1,
      (selectCandidate (contexts.flatMap MentionContext.candidates) context answer).2.2) = _
    rw [selected, ← isContext]

/-! ### The plan -/

theorem find?_id {candidates : List EntityCandidate} {candidate : EntityCandidate}
    (found : candidates.find? (fun candidate => candidate.id == id) = some candidate) :
    candidate ∈ candidates ∧ candidate.id = id := by
  have holds := @List.find?_some _ (fun candidate : EntityCandidate => candidate.id == id) _ _ found
  exact ⟨List.mem_of_find?_eq_some found, beq_iff_eq.mp holds⟩

theorem find?_id_none {candidates : List EntityCandidate}
    (absent : candidates.find? (fun candidate => candidate.id == id) = none) :
    ∀ candidate ∈ candidates, candidate.id ≠ id := by
  intro candidate inside same
  exact List.find?_eq_none.mp absent candidate inside (beq_iff_eq.mpr same)

/-- A substitution is recorded under the mention's own id. -/
theorem selectCandidate_record {supplied : List EntityCandidate} {answer resolution : Resolution}
    {selected : Option EntityCandidate} {record : CandidateSubstitution}
    (chosen : selectCandidate supplied context answer = (resolution, selected, some record)) :
    record.mentionId = context.mentionId ∧ answer.candidateEntityId ≠ none := by
  unfold selectCandidate at chosen
  split at chosen
  · cases chosen
  · rename_i candidateId named
    split at chosen
    · cases chosen
    · split at chosen
      · cases chosen
        rw [named]
        exact ⟨rfl, Option.some_ne_none _⟩
      · cases chosen
        rw [named]
        exact ⟨rfl, Option.some_ne_none _⟩

theorem selected_of_chosen {substitutions : List CandidateSubstitution} {answer : Resolution}
    {mention : ValidatedMentionResolution} {record : Option CandidateSubstitution}
    (chosen : selectCandidate (contexts.flatMap MentionContext.candidates) mention.context answer =
      (mention.resolution, mention.selectedCandidate, record))
    (recorded : ∀ one ∈ record, one ∈ substitutions)
    (unrecorded : record = none → ∀ one ∈ substitutions, one.mentionId ≠ mention.context.mentionId) :
    Selected contexts substitutions answer mention := by
  unfold selectCandidate at chosen
  split at chosen
  · rename_i named
    simp only [Prod.mk.injEq] at chosen
    exact .unnamed named chosen.1.symm chosen.2.1.symm (unrecorded chosen.2.2.symm)
  · rename_i candidateId named
    split at chosen
    · rename_i own found
      simp only [Prod.mk.injEq] at chosen
      rcases find?_id found with ⟨offered, isId⟩
      exact .own own (by rw [isId]; exact named) offered chosen.1.symm chosen.2.1.symm
        (unrecorded chosen.2.2.symm)
    · rename_i notOwn
      split at chosen
      · rename_i other found
        simp only [Prod.mk.injEq] at chosen
        rcases find?_id found with ⟨offered, isId⟩
        refine .other other (by rw [isId]; exact named) ?_ (List.mem_flatMap.mp offered) chosen.1.symm
          chosen.2.1.symm ?_
        · rw [isId]
          exact find?_id_none notOwn
        · rw [isId]
          exact recorded _ chosen.2.2.symm
      · rename_i neverOffered
        simp only [Prod.mk.injEq] at chosen
        refine .unknown candidateId named ?_ chosen.1.symm chosen.2.1.symm (recorded _ chosen.2.2.symm)
        intro context inside candidate isCandidate
        exact find?_id_none neverOffered candidate (List.mem_flatMap.mpr ⟨context, inside, isCandidate⟩)

/-- What the loop returns for the kept contexts, with the record each of them leaves. -/
structure Resolves (caseFold : JsString → JsString) (contexts kept : List MentionContext)
    (result : ResolutionResult)
    (resolved : List (ValidatedMentionResolution × Option CandidateSubstitution)) : Prop where
  inOrder : resolved.map (fun item => item.1.context) = kept
  each : ∀ item ∈ resolved, ∃ answer ∈ result.resolutions, answer.mentionId = item.1.context.mentionId ∧
    selectCandidate (contexts.flatMap MentionContext.candidates) item.1.context answer =
        (item.1.resolution, item.1.selectedCandidate, item.2) ∧
      ∀ anchorId ∈ answer.sameNewEntityAs, ValidGroup caseFold kept result answer anchorId

theorem resolves_of_mapM (keptDistinct : (kept.map MentionContext.mentionId).Nodup)
    (distinct : (result.resolutions.map Resolution.mentionId).Nodup)
    {resolved : List (ValidatedMentionResolution × Option CandidateSubstitution)}
    (succeeded : kept.mapM (resolveMention caseFold (resolutionMaps contexts kept result)) = .ok resolved) :
    Resolves caseFold contexts kept result resolved := by
  have all := mapM_ok_iff.mp succeeded
  have related : ∀ (part : List MentionContext)
      (items : List (ValidatedMentionResolution × Option CandidateSubstitution)), part ⊆ kept →
      List.Forall₂ (fun context item => resolveMention caseFold (resolutionMaps contexts kept result)
        context = .ok item) part items → items.map (fun item => item.1.context) = part := by
    intro part items inside each
    induction each with
    | nil => rfl
    | cons first _ ih =>
        rcases (resolveMention_iff keptDistinct distinct (inside List.mem_cons_self)).mp first with ⟨same, _⟩
        rw [List.map_cons, same, ih (List.subset_of_cons_subset inside)]
  refine ⟨related kept resolved (List.Subset.refl _) all, ?_⟩
  intro item inside
  rcases exists_left_of_forall₂ all inside with ⟨context, isKept, resolvesIt⟩
  rcases (resolveMention_iff keptDistinct distinct isKept).mp resolvesIt with
    ⟨same, answer, isAnswer, named, chosen, groups⟩
  rw [same]
  exact ⟨answer, isAnswer, named, chosen, groups⟩

variable {resolved : List (ValidatedMentionResolution × Option CandidateSubstitution)}

theorem selectCandidate_unnamed {supplied : List EntityCandidate} {answer : Resolution}
    (unnamed : answer.candidateEntityId = none) :
    selectCandidate supplied context answer = (answer, none, none) := by
  unfold selectCandidate
  rw [unnamed]

theorem Resolves.distinct (resolves : Resolves caseFold contexts kept result resolved)
    (keptDistinct : (kept.map MentionContext.mentionId).Nodup) :
    (resolved.map fun item => item.1.context.mentionId).Nodup := by
  rw [← resolves.inOrder, List.map_map] at keptDistinct
  exact keptDistinct

/-- A mention that joins a group is new, unrecorded, and behind an anchor that is so too. -/
theorem Resolves.joined (resolves : Resolves caseFold contexts kept result resolved)
    (keptDistinct : (kept.map MentionContext.mentionId).Nodup)
    (distinct : (result.resolutions.map Resolution.mentionId).Nodup) {later : Nat}
    {item : ValidatedMentionResolution × Option CandidateSubstitution} {anchorId : JsString}
    (isItem : resolved[later]? = some item) (joins : item.1.resolution.sameNewEntityAs = some anchorId) :
    item.1.isNew ∧ item.2 = none ∧
      ∃ (earlier : Nat) (anchor : ValidatedMentionResolution × Option CandidateSubstitution),
        earlier < later ∧ resolved[earlier]? = some anchor ∧ anchor.1.isNew ∧ anchor.2 = none ∧
          anchor.1.resolution.sameNewEntityAs = none ∧ anchor.1.context.mentionId = anchorId ∧
            normalizeName caseFold anchor.1.context.text = normalizeName caseFold item.1.context.text := by
  rcases resolves.each item (List.mem_of_getElem? isItem) with ⟨answer, _, named, chosen, groups⟩
  have joinsToo : answer.sameNewEntityAs = some anchorId := by
    rw [← selectCandidate_grouped (contexts.flatMap MentionContext.candidates) item.1.context answer, chosen]
    exact joins
  rcases groups anchorId joinsToo with ⟨unnamed, ⟨anchorAnswer, isAnchorAnswer, namesAnchor, anchorNew,
    anchorFree⟩, earlier, position, anchored, joined, before, isEarlier, isJoined, isAnchor, isMember,
    sameText⟩
  rw [selectCandidate_unnamed unnamed] at chosen
  simp only [Prod.mk.injEq] at chosen
  refine ⟨chosen.2.1.symm, chosen.2.2.symm, earlier, ?_⟩
  have contextAt : ∀ {index : Nat} {context : MentionContext}, kept[index]? = some context →
      ∃ one, resolved[index]? = some one ∧ one.1.context = context := by
    intro index context isContext
    rw [← resolves.inOrder, List.getElem?_map] at isContext
    exact Option.map_eq_some_iff.mp isContext
  have keptItem : kept[later]? = some item.1.context := by
    rw [← resolves.inOrder, List.getElem?_map, isItem]
    rfl
  have samePosition : position = later := by
    have positions := List.nodup_iff_injective_get.mp keptDistinct
    rcases List.getElem?_eq_some_iff.mp isJoined with ⟨inside, atPosition⟩
    rcases List.getElem?_eq_some_iff.mp keptItem with ⟨alsoInside, atLater⟩
    have same : (⟨position, by rw [List.length_map]; exact inside⟩ :
        Fin (kept.map MentionContext.mentionId).length) =
          ⟨later, by rw [List.length_map]; exact alsoInside⟩ := by
      apply positions
      simp only [List.get_eq_getElem, List.getElem_map, atPosition, atLater]
      exact isMember.trans named
    exact congrArg Fin.val same
  have sameJoined : joined = item.1.context := by
    rw [samePosition, keptItem] at isJoined
    exact (Option.some.inj isJoined).symm
  rcases contextAt isEarlier with ⟨anchor, isAnchorItem, anchorContext⟩
  rcases resolves.each anchor (List.mem_of_getElem? isAnchorItem) with
    ⟨own, isOwn, namesOwn, anchorChosen, _⟩
  have sameAnswer : own = anchorAnswer := by
    apply List.inj_on_of_nodup_map distinct isOwn isAnchorAnswer
    rw [namesOwn, anchorContext, isAnchor, namesAnchor]
  rw [sameAnswer, selectCandidate_unnamed anchorNew] at anchorChosen
  simp only [Prod.mk.injEq] at anchorChosen
  refine ⟨anchor, samePosition ▸ before, isAnchorItem, anchorChosen.2.1.symm, anchorChosen.2.2.symm, ?_, ?_, ?_⟩
  · rw [← anchorChosen.1]
    exact anchorFree
  · rw [anchorContext]
    exact isAnchor
  · rw [anchorContext, sameText, sameJoined]

theorem Resolves.coherent (resolves : Resolves caseFold contexts
      (mentionedContexts proposed contexts result) result resolved)
    (keptDistinct : ((mentionedContexts proposed contexts result).map MentionContext.mentionId).Nodup)
    (distinct : (result.resolutions.map Resolution.mentionId).Nodup) :
    Coherent caseFold proposed contexts result
      { keptClaims := decidedFrom result 0 proposed
        mentions := resolved.map Prod.fst
        substitutions := resolved.filterMap Prod.snd } := by
  have apart := resolves.distinct keptDistinct
  -- A record belongs to the one item with its mention id.
  have ownRecord : ∀ item ∈ resolved, ∀ record ∈ resolved.filterMap Prod.snd,
      record.mentionId = item.1.context.mentionId → item.2 = some record := by
    intro item inside record isRecord sameId
    rcases List.mem_filterMap.mp isRecord with ⟨other, isOther, isOwn⟩
    rcases resolves.each other isOther with ⟨answer, _, _, chosen, _⟩
    rw [isOwn] at chosen
    have named := (selectCandidate_record chosen).1
    have same := List.inj_on_of_nodup_map apart isOther inside (named.symm.trans sameId)
    rw [← same]
    exact isOwn
  have joins : ∀ item ∈ resolved, item.1.resolution.sameNewEntityAs ≠ none →
      item.1.isNew ∧ item.2 = none := by
    intro item inside grouped
    rcases Option.ne_none_iff_exists'.mp grouped with ⟨anchorId, isAnchor⟩
    rcases List.mem_iff_getElem?.mp inside with ⟨later, isItem⟩
    have joined := resolves.joined keptDistinct distinct isItem isAnchor
    exact ⟨joined.1, joined.2.1⟩
  refine
    { keptClaims := rfl
      mentions := ?_
      distinct := ?_
      selected := ?_
      recorded := ?_
      grouped := ?_
      anchored := ?_
      unsubstituted := ?_ }
  · rw [List.map_map]
    exact resolves.inOrder
  · rw [List.map_map]
    exact apart
  · intro mention inside
    rcases List.mem_map.mp inside with ⟨item, isItem, same⟩
    rcases resolves.each item isItem with ⟨answer, isAnswer, named, chosen, _⟩
    rw [← same]
    refine ⟨answer, isAnswer, named, selected_of_chosen chosen ?_ ?_⟩
    · intro record isRecord
      exact List.mem_filterMap.mpr ⟨item, isItem, isRecord⟩
    · intro noRecord record isRecord sameId
      have own := ownRecord item isItem record isRecord sameId
      rw [noRecord] at own
      cases own
  · intro record isRecord
    rcases List.mem_filterMap.mp isRecord with ⟨item, isItem, isOwn⟩
    rcases resolves.each item isItem with ⟨answer, _, _, chosen, _⟩
    rw [isOwn] at chosen
    exact ⟨item.1, List.mem_map.mpr ⟨item, isItem, rfl⟩, (selectCandidate_record chosen).1⟩
  · intro mention inside grouped
    rcases List.mem_map.mp inside with ⟨item, isItem, same⟩
    rw [← same] at grouped ⊢
    exact (joins item isItem grouped).1
  · intro later mention isMention isNew
    rw [List.getElem?_map] at isMention
    rcases Option.map_eq_some_iff.mp isMention with ⟨item, isItem, same⟩
    cases grouped : mention.resolution.sameNewEntityAs with
    | none =>
        refine ⟨later, mention, Nat.le_refl _, ?_, isNew, grouped, ?_, rfl⟩
        · rw [List.getElem?_map, isItem, Option.map_some, same]
        · rw [ValidatedMentionResolution.anchorId, grouped]
          rfl
    | some anchorId =>
        rw [← same] at grouped
        rcases resolves.joined keptDistinct distinct isItem grouped with
          ⟨_, _, earlier, anchor, before, isAnchor, anchorNew, _, free, named, sameText⟩
        refine ⟨earlier, anchor.1, before.le, ?_, anchorNew, free, ?_, ?_⟩
        · rw [List.getElem?_map, isAnchor]
          rfl
        · rw [ValidatedMentionResolution.anchorId, ← same, grouped]
          exact named
        · rw [← same]
          exact sameText
  · intro one inside other alsoInside different _ _ sameClass record isRecord sameId
    rcases List.mem_map.mp inside with ⟨item, isItem, same⟩
    rcases List.mem_map.mp alsoInside with ⟨otherItem, isOtherItem, alsoSame⟩
    rw [← same] at sameId sameClass different
    rw [← alsoSame] at sameClass different
    have recordedOne := ownRecord item isItem record isRecord sameId
    -- It joins no group itself, so the other one joins its.
    cases grouped : item.1.resolution.sameNewEntityAs with
    | some anchorId =>
        have unrecorded := (joins item isItem (by rw [grouped]; exact Option.some_ne_none _)).2
        rw [unrecorded] at recordedOne
        cases recordedOne
    | none =>
        rw [ValidatedMentionResolution.anchorId, ValidatedMentionResolution.anchorId, grouped] at sameClass
        cases otherGrouped : otherItem.1.resolution.sameNewEntityAs with
        | none =>
            rw [otherGrouped] at sameClass
            exact different (congrArg Prod.fst
              (List.inj_on_of_nodup_map apart isItem isOtherItem sameClass))
        | some anchorId =>
            rw [otherGrouped] at sameClass
            rcases List.mem_iff_getElem?.mp isOtherItem with ⟨later, isLater⟩
            rcases resolves.joined keptDistinct distinct isLater otherGrouped with
              ⟨_, _, earlier, anchor, _, isAnchor, _, unrecorded, _, named, _⟩
            have isOne : anchor = item := by
              apply List.inj_on_of_nodup_map apart (List.mem_of_getElem? isAnchor) isItem
              exact named.trans sameClass.symm
            rw [← isOne, unrecorded] at recordedOne
            cases recordedOne

theorem mentionedContexts_nodup (distinct : (contexts.map MentionContext.mentionId).Nodup) :
    ((mentionedContexts proposed contexts result).map MentionContext.mentionId).Nodup :=
  distinct.sublist (List.filter_sublist.map _)

/-- The checks passed, and the loop returned. -/
theorem validateResolutionResult_iff (distinct : (contexts.map MentionContext.mentionId).Nodup)
    {plan : ValidatedResolutionPlan} :
    validateResolutionResult caseFold proposed contexts result = .ok plan ↔
      (result.claims.map ClaimDecision.claimId).Perm ((List.range proposed.length).map claimName) ∧
        (result.resolutions.map Resolution.mentionId).Perm
          ((mentionedContexts proposed contexts result).map MentionContext.mentionId) ∧
        ∃ resolved, (mentionedContexts proposed contexts result).mapM (resolveMention caseFold
            (resolutionMaps contexts (mentionedContexts proposed contexts result) result)) = .ok resolved ∧
          plan =
            { keptClaims := decidedFrom result 0 proposed
              mentions := resolved.map Prod.fst
              substitutions := resolved.filterMap Prod.snd } := by
  have keptDistinct := @mentionedContexts_nodup proposed contexts result distinct
  have isKept : contexts.filter (fun context =>
      ((decidedFrom result 0 proposed).flatMap ValidatedClaimDecision.mentionIds).contains
        context.mentionId) = mentionedContexts proposed contexts result := keptContexts_eq _ _
  have size : mapSize (resolutionMaps contexts (mentionedContexts proposed contexts result)
      result).actual = result.resolutions.length ↔ (result.resolutions.map Resolution.mentionId).Nodup := by
    have full := @mapSize_ofEntries_iff _ _ _
      (result.resolutions.map fun resolution => (resolution.mentionId, resolution))
    rw [answerEntries, List.length_map] at full
    exact full
  have expectedSize : mapSize (resolutionMaps contexts (mentionedContexts proposed contexts result)
      result).expected = (mentionedContexts proposed contexts result).length := by
    have full := @mapSize_ofEntries_iff _ _ _ ((mentionedContexts proposed contexts result).map
      fun context => (context.mentionId, context))
    rw [contextEntries, List.length_map] at full
    exact full.mpr keptDistinct
  have answerKeys : ∀ id, id ∈ (resolutionMaps contexts (mentionedContexts proposed contexts result)
      result).actual.keys ↔ id ∈ result.resolutions.map Resolution.mentionId := by
    intro id
    rw [← answerEntries]
    exact mem_keys_ofEntries
  have expectedKeys : ∀ id, id ∈ (resolutionMaps contexts (mentionedContexts proposed contexts result)
      result).expected.keys ↔
        id ∈ (mentionedContexts proposed contexts result).map MentionContext.mentionId := by
    intro id
    rw [← contextEntries]
    exact mem_keys_ofEntries
  unfold validateResolutionResult
  constructor
  · intro accepted
    rcases except_bind_ok accepted with ⟨keptClaims, isClaims, rest⟩
    rcases validateClaimDecisions_iff.mp isClaims with ⟨claims, same⟩
    rw [same] at rest
    dsimp only at rest
    rw [isKept] at rest
    split at rest
    · cases rest
    · rename_i noDuplicate
      split at rest
      · cases rest
      · rename_i exact
        rcases except_bind_ok rest with ⟨resolved, isResolved, isPlan⟩
        cases isPlan
        rw [not_not] at noDuplicate
        have answerDistinct := size.mp noDuplicate
        rw [Bool.or_eq_true, not_or, decide_eq_true_iff, not_not, List.any_eq_true, noDuplicate,
          expectedSize] at exact
        refine ⟨claims, perm_of_nodup answerDistinct ?_ ?_, resolved, isResolved, rfl⟩
        · intro id inside
          by_contra absent
          apply exact.2
          refine ⟨id, (answerKeys id).mpr inside, ?_⟩
          rw [Bool.not_eq_true', ← Bool.not_eq_true, List.contains_iff_mem, expectedKeys]
          exact absent
        · rw [List.length_map, List.length_map, exact.1]
  · rintro ⟨claims, mentions, resolved, isResolved, isPlan⟩
    have answerDistinct := mentions.nodup_iff.mpr keptDistinct
    have noDuplicate := size.mpr answerDistinct
    have length := mentions.length_eq
    rw [List.length_map, List.length_map] at length
    rw [validateClaimDecisions_iff.mpr ⟨claims, rfl⟩, except_ok_bind]
    dsimp only
    rw [isKept, if_neg (not_not.mpr noDuplicate), if_neg, isResolved, isPlan]
    · rfl
    · rw [Bool.or_eq_true, not_or, decide_eq_true_iff, not_not, List.any_eq_true, expectedSize]
      refine ⟨noDuplicate.trans length, ?_⟩
      rintro ⟨id, inside, outside⟩
      rw [Bool.not_eq_true', ← Bool.not_eq_true, List.contains_iff_mem, expectedKeys] at outside
      exact outside (mentions.mem_iff.mp ((answerKeys id).mp inside))

/-- Every context of a kept claim finds its answer, so the loop fails on invalid groups alone. -/
theorem resolves_iff (keptDistinct : (kept.map MentionContext.mentionId).Nodup)
    (mentions : (result.resolutions.map Resolution.mentionId).Perm (kept.map MentionContext.mentionId)) :
    (∃ resolved, kept.mapM (resolveMention caseFold (resolutionMaps contexts kept result)) = .ok resolved) ↔
      ∀ member ∈ result.resolutions, ∀ anchorId ∈ member.sameNewEntityAs,
        ValidGroup caseFold kept result member anchorId := by
  have distinct := mentions.nodup_iff.mpr keptDistinct
  rw [exists_mapM_ok]
  constructor
  · intro each member isMember
    have named := mentions.mem_iff.mp (List.mem_map.mpr ⟨member, isMember, rfl⟩)
    rcases List.mem_map.mp named with ⟨context, isContext, sameId⟩
    rcases each context isContext with ⟨⟨mention, record⟩, resolvesIt⟩
    rcases (resolveMention_iff keptDistinct distinct isContext).mp resolvesIt with
      ⟨_, answer, isAnswer, namesContext, _, groups⟩
    have same := List.inj_on_of_nodup_map distinct isAnswer isMember (namesContext.trans sameId)
    rw [← same]
    exact groups
  · intro groups context isContext
    have named := mentions.mem_iff.mpr (List.mem_map.mpr ⟨context, isContext, rfl⟩)
    rcases List.mem_map.mp named with ⟨answer, isAnswer, namesContext⟩
    let chosen := selectCandidate (contexts.flatMap MentionContext.candidates) context answer
    refine ⟨({ context := context
               resolution := chosen.1
               selectedCandidate := chosen.2.1 }, chosen.2.2), ?_⟩
    exact (resolveMention_iff keptDistinct distinct isContext).mpr
      ⟨rfl, answer, isAnswer, namesContext, rfl, groups answer isAnswer⟩

theorem coherent_of_validated (distinct : (contexts.map MentionContext.mentionId).Nodup)
    {plan : ValidatedResolutionPlan}
    (returned : validateResolutionResult caseFold proposed contexts result = .ok plan) :
    Coherent caseFold proposed contexts result plan := by
  have keptDistinct := @mentionedContexts_nodup proposed contexts result distinct
  rcases (validateResolutionResult_iff distinct).mp returned with ⟨_, mentions, resolved, done, same⟩
  have answerDistinct := mentions.nodup_iff.mpr keptDistinct
  rw [same]
  exact (resolves_of_mapM keptDistinct answerDistinct done).coherent keptDistinct answerDistinct

end Mentions

/-- The validator returns on exactly the acceptable answers, and then a coherent identification. -/
theorem validateResolutionResult_coherent (proposed : List ExtractedClaim) (contexts : List MentionContext)
    (result : ResolutionResult) (distinct : (contexts.map MentionContext.mentionId).Nodup) :
    ((∃ plan, validateResolutionResult caseFold proposed contexts result = .ok plan) ↔
        Acceptable caseFold proposed contexts result) ∧
      ∀ plan, validateResolutionResult caseFold proposed contexts result = .ok plan →
        Coherent caseFold proposed contexts result plan := by
  have keptDistinct := @mentionedContexts_nodup proposed contexts result distinct
  constructor
  · constructor
    · rintro ⟨plan, returned⟩
      rcases (validateResolutionResult_iff distinct).mp returned with ⟨claims, mentions, resolved, done, _⟩
      exact ⟨claims, mentions, (resolves_iff keptDistinct mentions).mp ⟨resolved, done⟩⟩
    · intro acceptable
      rcases (resolves_iff keptDistinct acceptable.mentions).mpr acceptable.groups with ⟨resolved, done⟩
      exact ⟨_, (validateResolutionResult_iff distinct).mpr
        ⟨acceptable.claims, acceptable.mentions, resolved, done, rfl⟩⟩
  · exact fun plan returned => coherent_of_validated distinct returned

def sampleMention (index : Nat) : MentionContext :=
  { mentionId := subjectMention index
    role := ofString "subject"
    text := ofString "Ada  Lovelace"
    supportingClaim := ofString "Ada Lovelace wrote"
    candidates := [] }

def sampleProposal (predicate : JsString) : ExtractedClaim :=
  { subject := ofString "Ada Lovelace"
    predicate := predicate
    confidence := 1
    objectEntity := none
    objectValue := some (ofString "notes") }

/-- Both claims are kept, and the second mention joins the new entity of the first. -/
def sampleAnswer : ResolutionResult :=
  { claims := [⟨claimName 0, .keep⟩, ⟨claimName 1, .keep⟩]
    resolutions := [⟨subjectMention 1, none, some (subjectMention 0)⟩, ⟨subjectMention 0, none, none⟩] }

theorem validateResolutionResult_coherent_two :
    Acceptable id [sampleProposal (ofString "wrote"), sampleProposal (ofString "signed")]
        [sampleMention 0, sampleMention 1] sampleAnswer ∧
      ∀ plan, validateResolutionResult id
          [sampleProposal (ofString "wrote"), sampleProposal (ofString "signed")]
          [sampleMention 0, sampleMention 1] sampleAnswer = .ok plan →
        Coherent id [sampleProposal (ofString "wrote"), sampleProposal (ofString "signed")]
          [sampleMention 0, sampleMention 1] sampleAnswer plan := by
  have both := validateResolutionResult_coherent id
    [sampleProposal (ofString "wrote"), sampleProposal (ofString "signed")]
    [sampleMention 0, sampleMention 1] sampleAnswer (by decide +kernel)
  have returns : (validateResolutionResult id
      [sampleProposal (ofString "wrote"), sampleProposal (ofString "signed")]
      [sampleMention 0, sampleMention 1] sampleAnswer).toOption.isSome = true := by
    decide +kernel
  refine ⟨both.1.mp ?_, both.2⟩
  cases outcome : validateResolutionResult id
      [sampleProposal (ofString "wrote"), sampleProposal (ofString "signed")]
      [sampleMention 0, sampleMention 1] sampleAnswer with
  | ok plan => exact ⟨plan, rfl⟩
  | error error =>
      rw [outcome] at returns
      cases returns

end Reflection
