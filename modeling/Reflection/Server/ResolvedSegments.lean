/-
What a resolution hands to the commit.

Its claims and entities fit together, it belongs to the job's segment, and an entity that is not new was
offered by a search for candidates.
-/

import Reflection.Database.EntityCommits
import Reflection.Server.ReferentialClosure

namespace Reflection

open JsString
open Database (ClaimedJob claimEnds objectKindCheck)

namespace ExtractionEngine

variable {Embedding : Type} {services : Services Embedding} {job : ClaimedJob} {extracted : ExtractionResult}
variable {specs : List ContextSpec} {contexts : List MentionContext} {plan : ValidatedResolutionPlan}
variable {vectorOf : JsString → Embedding} {prepared : Prepared Embedding}

/-- Some search for candidates answered with the entity. -/
def Offers (services : Services Embedding) (id : JsString) : Prop :=
  ∃ index text embedding candidates, services.entityCandidates index text embedding = .ok candidates ∧
    ∃ candidate ∈ candidates, candidate.id = id

/-! ### Candidates -/

theorem mentionContexts_offered (returned : mentionContexts services extracted = .ok (specs, contexts))
    {context : MentionContext} (inside : context ∈ contexts) {candidate : EntityCandidate}
    (isCandidate : candidate ∈ context.candidates) : Offers services candidate.id := by
  obtain ⟨found, _, returned⟩ := except_bind_ok returned
  obtain ⟨embeddings, _, returned⟩ := except_bind_ok returned
  split at returned
  · cases returned
  · obtain ⟨candidateSets, areSets, isResult⟩ := except_bind_ok returned
    cases isResult
    rw [← List.map_uncurry_zip_eq_zipWith] at inside
    obtain ⟨⟨spec, candidates⟩, isPair, same⟩ := List.mem_map.mp inside
    subst same
    obtain ⟨⟨⟨searched, embedding⟩, index⟩, _, answered⟩ :=
      exists_left_of_forall₂ (mapM_ok_iff.mp areSets) (List.of_mem_zip isPair).2
    exact ⟨index, searched.text, embedding, candidates, answered, candidate, isCandidate, rfl⟩

/-- A candidate that a plan selects was offered in one of the contexts. -/
theorem resolutionPlan_selected (offered : mentionContexts services extracted = .ok (specs, contexts))
    (returned : resolutionPlan services job extracted contexts = .ok plan)
    {mention : ValidatedMentionResolution} (inside : mention ∈ plan.mentions) {candidate : EntityCandidate}
    (selected : mention.selectedCandidate = some candidate) :
    ∃ context ∈ contexts, candidate ∈ context.candidates := by
  obtain ⟨areSpecs, sameIds⟩ := mentionContexts_spec offered
  unfold resolutionPlan at returned
  split at returned
  · cases returned
    cases inside
  · obtain ⟨result, _, validated⟩ := except_bind_ok returned
    split at validated
    · cases validated
    · rename_i valid isPlan
      cases validated
      have distinct : (contexts.map MentionContext.mentionId).Nodup := by
        rw [sameIds, (contextSpecs_spec areSpecs).1]
        exact mentionIdsFrom_nodup 0 extracted.claims
      have coherent := coherent_of_validated distinct isPlan
      have isContext : mention.context ∈ contexts := by
        have mentioned : mention.context ∈ plan.mentions.map ValidatedMentionResolution.context :=
          List.mem_map_of_mem inside
        rw [coherent.mentions] at mentioned
        exact (List.mem_filter.mp mentioned).1
      obtain ⟨answer, _, _, choice⟩ := coherent.selected mention inside
      cases choice with
      | unnamed _ _ none _ =>
          rw [none] at selected
          cases selected
      | own own _ isOffered _ some _ =>
          rw [some] at selected
          cases selected
          exact ⟨mention.context, isContext, isOffered⟩
      | other other _ _ isOffered _ some _ =>
          rw [some] at selected
          cases selected
          exact isOffered
      | unknown _ _ _ _ none _ =>
          rw [none] at selected
          cases selected

/-! ### Prepared segments -/

theorem objectKindCheck_of_claimOf {mentions : List ValidatedMentionResolution} {kept : ValidatedClaimDecision}
    {claim : PreparedClaim Embedding} (claimOf : ClaimOf services job specs vectorOf mentions kept claim) :
    objectKindCheck claim = true := by
  have hasObject := claimOf.hasObject
  have oneObject := claimOf.oneObject
  unfold objectKindCheck
  revert hasObject oneObject
  cases claim.objectEntity <;> cases claim.objectEntityId <;> cases claim.objectValue <;> simp

theorem fits_of_closed (closed : Closed services job specs vectorOf plan prepared) :
    Database.EntityTables.Fits services.uuidv5 (segmentId services job) prepared := by
  have ofClaims : ∀ claim ∈ prepared.claims, ∃ kept, ClaimOf services job specs vectorOf plan.mentions kept claim := by
    intro claim inside
    obtain ⟨kept, _, claimOf⟩ := exists_left_of_forall₂ closed.claims inside
    exact ⟨kept, claimOf⟩
  have isEnd : ∀ {claim : PreparedClaim Embedding} {id : JsString},
      id ∈ claimEnds claim ↔ id = claim.subjectEntityId ∨ id ∈ claim.objectEntityId := by
    intro claim id
    rw [claimEnds, List.mem_cons, Option.mem_toList, Option.mem_def]
  refine
    { ends := fun claim inside id named => closed.references claim inside id (isEnd.mp named)
      used := fun entity inside => ?_
      entities := fun one inside other alsoInside same =>
        List.inj_on_of_nodup_map closed.entityIds inside alsoInside same
      embedded := fun entity inside isNew => ?_
      kinds := fun claim inside => ?_
      distinct := closed.claimIds
      owned := fun claim inside => ?_ }
  · obtain ⟨claim, isClaim, named⟩ := closed.referenced entity inside
    exact ⟨claim, isClaim, isEnd.mpr named⟩
  · rw [closed.embedded entity inside, isNew]
    rfl
  · obtain ⟨kept, claimOf⟩ := ofClaims claim inside
    exact objectKindCheck_of_claimOf claimOf
  · obtain ⟨kept, claimOf⟩ := ofClaims claim inside
    exact ⟨kept.index, claimOf.id⟩

/-- An entity that is not new is a candidate that was selected. -/
theorem chosen_of_closed (closed : Closed services job specs vectorOf plan prepared)
    {entity : PreparedEntity Embedding} (inside : entity ∈ prepared.entities) (notNew : entity.isNew = false) :
    ∃ mention ∈ plan.mentions, ∃ candidate, mention.selectedCandidate = some candidate ∧ candidate.id = entity.id := by
  obtain ⟨first, ⟨⟨before, after, whole, _⟩, stands, isNew⟩⟩ := closed.opened entity inside
  rw [notNew] at isNew
  cases selected : first.selectedCandidate with
  | none =>
      rw [selected] at isNew
      cases isNew
  | some candidate =>
      unfold StandsFor at stands
      rw [selected] at stands
      refine ⟨first, ?_, candidate, selected, stands.symm⟩
      rw [whole]
      exact List.mem_append_right _ List.mem_cons_self

/-- Without claims no entity is prepared. -/
theorem entities_of_claimFree (closed : Closed services job specs vectorOf plan prepared)
    (planned : Planned extracted specs plan) (free : extracted.claims = []) : prepared.entities = [] := by
  rw [List.eq_nil_iff_forall_not_mem]
  intro entity inside
  obtain ⟨claim, isClaim, _⟩ := closed.referenced entity inside
  obtain ⟨kept, isKept, _⟩ := exists_left_of_forall₂ closed.claims isClaim
  have proposed := planned.proposed kept isKept
  rw [free] at proposed
  cases proposed

theorem preparePlan_id (returned : preparePlan services job extracted specs plan = .ok prepared) :
    prepared.id = job.segmentId := by
  obtain ⟨placed, _, returned⟩ := except_bind_ok returned
  obtain ⟨claimTexts, _, returned⟩ := except_bind_ok returned
  obtain ⟨vectors, _, returned⟩ := except_bind_ok returned
  split at returned
  · cases returned
  · obtain ⟨claims, _, same⟩ := except_bind_ok returned
    cases same
    rfl

structure Resolved (services : Services Embedding) (job : ClaimedJob) (extracted : ExtractionResult)
    (prepared : Prepared Embedding) : Prop where
  id : prepared.id = job.segmentId
  fits : Database.EntityTables.Fits services.uuidv5 (segmentId services job) prepared
  chosen : ∀ entity ∈ prepared.entities, entity.isNew = false → Offers services entity.id
  claimFree : extracted.claims = [] → prepared.entities = []

theorem resolve_resolved (unique : ∀ namespaceId, Function.Injective fun name => services.uuidv5 name namespaceId)
    (inOrder : ∀ texts vectors, services.embed texts (ofString "document") = .ok vectors →
      vectors = texts.map vectorOf)
    (returned : resolve services job extracted = .ok prepared) : Resolved services job extracted prepared := by
  obtain ⟨⟨specs, contexts⟩, offered, returned⟩ := except_bind_ok returned
  obtain ⟨plan, isPlan, returned⟩ := except_bind_ok returned
  have closed : Closed services job specs vectorOf plan prepared :=
    preparePlan_closed unique inOrder (contextSpecs_spec (mentionContexts_spec offered).1).1
      (resolutionPlan_planned offered isPlan) returned
  refine ⟨preparePlan_id returned, fits_of_closed closed, fun entity inside notNew => ?_,
    entities_of_claimFree closed (resolutionPlan_planned offered isPlan)⟩
  obtain ⟨mention, isMention, candidate, selected, sameId⟩ := chosen_of_closed closed inside notNew
  obtain ⟨context, isContext, isOffered⟩ := resolutionPlan_selected offered isPlan isMention selected
  rw [← sameId]
  exact mentionContexts_offered offered isContext isOffered

end ExtractionEngine

end Reflection
