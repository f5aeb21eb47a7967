/-
What a validated plan says of the mentions of its claims.

Every claim has a mention of its subject and, where it has one, of its object entity. The ids of
the mentions differ, every mention of the plan belongs to a kept claim, and no mention of a kept
claim is missing.
-/

import Reflection.Server.PreparedEntities

namespace Reflection

open JsString
open Database (ClaimedJob)

namespace ExtractionEngine

/-! ### Specs -/

/-- The ids of the mentions of some claims, from an index on. -/
def mentionIdsFrom : Nat → List ExtractedClaim → List JsString
  | _, [] => []
  | index, claim :: rest =>
      (ValidatedClaimDecision.mk index claim).mentionIds ++ mentionIdsFrom (index + 1) rest

section Specs

variable {start : Nat} {claims : List ExtractedClaim} {specs : List ContextSpec} {id : JsString}

theorem mem_mentionIds {kept : ValidatedClaimDecision} : id ∈ kept.mentionIds ↔
    id = subjectMention kept.index ∨ (kept.claim.objectEntity.isSome = true ∧ id = objectMention kept.index) := by
  unfold ValidatedClaimDecision.mentionIds
  cases kept.claim.objectEntity with
  | none => simp
  | some object => simp

theorem mem_mentionIdsFrom (inside : id ∈ mentionIdsFrom start claims) :
    ∃ index, start ≤ index ∧ (id = subjectMention index ∨ id = objectMention index) := by
  induction claims generalizing start with
  | nil => cases inside
  | cons claim rest ih =>
      rcases List.mem_append.mp inside with own | later
      · rcases mem_mentionIds.mp own with subject | ⟨_, object⟩
        · exact ⟨start, Nat.le_refl _, .inl subject⟩
        · exact ⟨start, Nat.le_refl _, .inr object⟩
      · rcases ih later with ⟨index, least, named⟩
        exact ⟨index, by omega, named⟩

theorem mentionIds_subset {kept : ValidatedClaimDecision} (least : start ≤ kept.index)
    (isClaim : claims[kept.index - start]? = some kept.claim) (inside : id ∈ kept.mentionIds) :
    id ∈ mentionIdsFrom start claims := by
  induction claims generalizing start with
  | nil => cases isClaim
  | cons claim rest ih =>
      rcases Nat.eq_or_lt_of_le least with same | later
      · rw [← same, Nat.sub_self] at isClaim
        cases isClaim
        apply List.mem_append_left
        rw [mem_mentionIds] at inside ⊢
        rw [same]
        exact inside
      · apply List.mem_append_right
        apply ih later
        rw [show kept.index - start = kept.index - (start + 1) + 1 by omega] at isClaim
        exact isClaim

theorem mentionIds_nodup (kept : ValidatedClaimDecision) : kept.mentionIds.Nodup := by
  unfold ValidatedClaimDecision.mentionIds
  split
  · refine List.nodup_cons.mpr ⟨?_, List.nodup_singleton _⟩
    intro inside
    exact subjectMention_ne_objectMention _ _ (List.mem_singleton.mp inside)
  · exact List.nodup_singleton _

theorem mentionIdsFrom_nodup (start : Nat) (claims : List ExtractedClaim) :
    (mentionIdsFrom start claims).Nodup := by
  induction claims generalizing start with
  | nil => exact List.nodup_nil
  | cons claim rest ih =>
      refine List.nodup_append.mpr ⟨mentionIds_nodup _, ih (start + 1), ?_⟩
      intro own isOwn later isLater same
      rcases mem_mentionIdsFrom isLater with ⟨index, least, named⟩
      rw [← same] at named
      rcases mem_mentionIds.mp isOwn with subject | ⟨_, object⟩
      · rcases named with isSubject | isObject
        · have sameIndex := subjectMention_injective (subject.symm.trans isSubject)
          dsimp only at sameIndex
          omega
        · exact subjectMention_ne_objectMention _ _ (subject.symm.trans isObject)
      · rcases named with isSubject | isObject
        · exact subjectMention_ne_objectMention _ _ (isSubject.symm.trans object)
        · have sameIndex := objectMention_injective (object.symm.trans isObject)
          dsimp only at sameIndex
          omega

/-- The specs are those of the claims, each with one of them. -/
theorem contextSpecs_spec (returned : contextSpecs start claims = .ok specs) :
    specs.map ContextSpec.mentionId = mentionIdsFrom start claims ∧ ∀ spec ∈ specs, spec.claim ∈ claims := by
  induction claims generalizing start specs with
  | nil =>
      cases returned
      exact ⟨rfl, fun _ inside => nomatch inside⟩
  | cons claim rest ih =>
      unfold contextSpecs at returned
      rcases except_bind_ok returned with ⟨supportingClaim, _, behindText⟩
      rcases except_bind_ok behindText with ⟨others, areOthers, isSpecs⟩
      rcases ih areOthers with ⟨ids, fromClaims⟩
      have later : ∀ spec ∈ others, spec.claim ∈ claim :: rest :=
        fun spec inside => List.mem_cons_of_mem _ (fromClaims spec inside)
      dsimp only at isSpecs
      unfold mentionIdsFrom ValidatedClaimDecision.mentionIds
      split at isSpecs
      · rename_i noObject
        cases isSpecs
        rw [List.map_cons, ids, noObject]
        refine ⟨rfl, fun spec inside => ?_⟩
        rcases List.mem_cons.mp inside with isFirst | isLater
        · rw [isFirst]
          exact List.mem_cons_self
        · exact later spec isLater
      · rename_i objectEntity hasObject
        cases isSpecs
        rw [List.map_cons, List.map_cons, ids, hasObject]
        refine ⟨rfl, fun spec inside => ?_⟩
        rcases List.mem_cons.mp inside with isSubject | behind
        · rw [isSubject]
          exact List.mem_cons_self
        · rcases List.mem_cons.mp behind with isObject | isLater
          · rw [isObject]
            exact List.mem_cons_self
          · exact later spec isLater

end Specs

/-! ### Decisions -/

section Decisions

variable {result : ResolutionResult} {start : Nat} {proposed : List ExtractedClaim}

theorem mem_decidedFrom {kept : ValidatedClaimDecision} (inside : kept ∈ decidedFrom result start proposed) :
    start ≤ kept.index ∧ proposed[kept.index - start]? = some kept.claim := by
  induction proposed generalizing start with
  | nil => cases inside
  | cons claim rest ih =>
      have behind : kept ∈ decidedFrom result (start + 1) rest →
          start ≤ kept.index ∧ (claim :: rest)[kept.index - start]? = some kept.claim := by
        intro later
        rcases ih later with ⟨least, isClaim⟩
        refine ⟨by omega, ?_⟩
        rw [show kept.index - start = kept.index - (start + 1) + 1 by omega]
        exact isClaim
      unfold decidedFrom at inside
      split at inside
      · rcases List.mem_cons.mp inside with isFirst | later
        · rw [isFirst]
          dsimp only
          rw [Nat.sub_self]
          exact ⟨Nat.le_refl _, rfl⟩
        · exact behind later
      · exact behind inside

theorem decidedFrom_indexes : ((decidedFrom result start proposed).map ValidatedClaimDecision.index).Nodup := by
  induction proposed generalizing start with
  | nil => exact List.nodup_nil
  | cons claim rest ih =>
      unfold decidedFrom
      split
      · refine List.nodup_cons.mpr ⟨?_, ih⟩
        intro again
        rcases List.mem_map.mp again with ⟨kept, inside, same⟩
        have least := (mem_decidedFrom inside).1
        dsimp only at same
        omega
      · exact ih

end Decisions

/-! ### Plans -/

/-- The mentions of the plan are the mentions of its claims. -/
structure Planned (extracted : ExtractionResult) (specs : List ContextSpec)
    (plan : ValidatedResolutionPlan) : Prop where
  ordered : Ordered plan.mentions
  indexes : (plan.keptClaims.map ValidatedClaimDecision.index).Nodup
  mentioned : ∀ mention ∈ plan.mentions, ∃ kept ∈ plan.keptClaims, mention.context.mentionId ∈ kept.mentionIds
  covered : ∀ kept ∈ plan.keptClaims, ∀ id ∈ kept.mentionIds,
    ∃ mention ∈ plan.mentions, mention.context.mentionId = id
  offered : ∀ mention ∈ plan.mentions, mention.context.mentionId ∈ specs.map ContextSpec.mentionId
  proposed : ∀ kept ∈ plan.keptClaims, kept.claim ∈ extracted.claims

section Plans

variable {Embedding : Type} {services : Services Embedding} {job : ClaimedJob}
variable {extracted : ExtractionResult} {specs : List ContextSpec} {contexts : List MentionContext}
variable {plan : ValidatedResolutionPlan}

theorem mentionContexts_spec (returned : mentionContexts services extracted = .ok (specs, contexts)) :
    contextSpecs 0 extracted.claims = .ok specs ∧
      contexts.map MentionContext.mentionId = specs.map ContextSpec.mentionId := by
  rcases except_bind_ok returned with ⟨found, areSpecs, behindSpecs⟩
  rcases except_bind_ok behindSpecs with ⟨embeddings, _, behindEmbeddings⟩
  split at behindEmbeddings
  · cases behindEmbeddings
  · rename_i sameLength
    rcases except_bind_ok behindEmbeddings with ⟨candidateSets, areSets, isResult⟩
    cases isResult
    refine ⟨areSpecs, ?_⟩
    have length := (mapM_ok_iff.mp areSets).length_eq
    rw [List.length_zipIdx, List.length_zip, not_not.mp sameLength, Nat.min_self] at length
    rw [List.map_zipWith]
    change List.zipWith (fun spec _ => spec.mentionId) specs candidateSets = _
    rw [← List.map_uncurry_zip_eq_zipWith]
    have projected : (specs.zip candidateSets).map Prod.fst = specs :=
      List.map_fst_zip (Nat.le_of_eq length)
    conv_rhs => rw [← projected, List.map_map]
    rfl

theorem mentions_iff {kept : ValidatedClaimDecision} {context : MentionContext} :
    kept.mentions context = true ↔ context.mentionId ∈ kept.mentionIds := by
  unfold ValidatedClaimDecision.mentions
  rw [mem_mentionIds, Bool.or_eq_true, Bool.and_eq_true, beq_iff_eq, beq_iff_eq]

theorem planned_of_coherent {caseFold : JsString → JsString} {result : ResolutionResult}
    (areSpecs : specs.map ContextSpec.mentionId = mentionIdsFrom 0 extracted.claims)
    (sameIds : contexts.map MentionContext.mentionId = specs.map ContextSpec.mentionId)
    (coherent : Coherent caseFold extracted.claims contexts result plan) : Planned extracted specs plan := by
  have isMention : ∀ context : MentionContext,
      (∃ mention ∈ plan.mentions, mention.context = context) ↔
        context ∈ contexts ∧ ∃ kept ∈ plan.keptClaims, context.mentionId ∈ kept.mentionIds := by
    intro context
    rw [← List.mem_map, coherent.mentions, coherent.keptClaims, mentionedContexts, List.mem_filter,
      List.any_eq_true]
    simp only [mentions_iff]
  refine
    { ordered := ordered_of_coherent coherent
      indexes := ?_
      mentioned := ?_
      covered := ?_
      offered := ?_
      proposed := ?_ }
  · rw [coherent.keptClaims]
    exact decidedFrom_indexes
  · intro mention inside
    exact ((isMention mention.context).mp ⟨mention, inside, rfl⟩).2
  · intro kept isKept id isId
    have decided := isKept
    rw [coherent.keptClaims] at decided
    rcases mem_decidedFrom decided with ⟨least, isClaim⟩
    have inside := mentionIds_subset least isClaim isId
    rw [← areSpecs, ← sameIds] at inside
    rcases List.mem_map.mp inside with ⟨context, isContext, named⟩
    rw [← named] at isId
    rcases (isMention context).mpr ⟨isContext, kept, isKept, isId⟩ with ⟨mention, isIn, same⟩
    exact ⟨mention, isIn, by rw [same]; exact named⟩
  · intro mention inside
    rw [← sameIds]
    exact List.mem_map_of_mem ((isMention mention.context).mp ⟨mention, inside, rfl⟩).1
  · intro kept isKept
    rw [coherent.keptClaims] at isKept
    exact List.mem_of_getElem? (mem_decidedFrom isKept).2

theorem resolutionPlan_planned (offered : mentionContexts services extracted = .ok (specs, contexts))
    (returned : resolutionPlan services job extracted contexts = .ok plan) : Planned extracted specs plan := by
  rcases mentionContexts_spec offered with ⟨areSpecs, sameIds⟩
  have ids := (contextSpecs_spec areSpecs).1
  unfold resolutionPlan at returned
  split at returned
  · cases returned
    exact
      { ordered :=
          { distinct := List.nodup_nil
            anchored := fun done mention rest whole => by
              cases done with
              | nil => cases whole
              | cons _ _ => cases whole }
        indexes := List.nodup_nil
        mentioned := fun _ inside => nomatch inside
        covered := fun _ inside => nomatch inside
        offered := fun _ inside => nomatch inside
        proposed := fun _ inside => nomatch inside }
  · rcases except_bind_ok returned with ⟨result, _, validated⟩
    split at validated
    · cases validated
    · rename_i valid isPlan
      cases validated
      apply planned_of_coherent ids sameIds (coherent_of_validated _ isPlan)
      rw [sameIds, ids]
      exact mentionIdsFrom_nodup 0 extracted.claims

/-- The ids of the plan's mentions are ASCII. -/
theorem Planned.ascii (planned : Planned extracted specs plan)
    (ids : specs.map ContextSpec.mentionId = mentionIdsFrom 0 extracted.claims)
    {mention : ValidatedMentionResolution} (inside : mention ∈ plan.mentions) :
    IsAscii mention.context.mentionId := by
  have offered := planned.offered mention inside
  rw [ids] at offered
  rcases mem_mentionIdsFrom offered with ⟨index, _, subject | object⟩
  · rw [subject]
    exact (mentionId_ascii index).1
  · rw [object]
    exact (mentionId_ascii index).2

end Plans

end ExtractionEngine

end Reflection
