/-
The loop that turns mentions into entities.

A mention stands for the candidate it selects, or for the new entity of the mention that anchors
its group. Behind every round each mention so far has found an entity with the id it stands for,
and each entity was opened by the first mention that stands for it.
-/

import Reflection.Server.ExtractionEngine
import Reflection.Shared.ResolutionCoherence

namespace Reflection

open JsString
open Database (ClaimedJob)

namespace ExtractionEngine

variable {Embedding : Type} (services : Services Embedding) (job : ClaimedJob) (specs : List ContextSpec)

/-- The id of the entity a mention stands for. -/
def StandsFor (mention : ValidatedMentionResolution) (id : JsString) : Prop :=
  match mention.selectedCandidate with
  | some candidate => id = candidate.id
  | none => ∃ claim, (claimsByMentionId specs).lookup mention.anchorId = some claim ∧
      id = services.uuidv5
        (newMentionName (segmentId services job) job.sourceFingerprint mention.anchorId claim)
        ENTITY_NAMESPACE

/-- The first mention that stands for an entity decides whether it is new. -/
structure OpenedBy (done : List ValidatedMentionResolution) (first : ValidatedMentionResolution)
    (entity : PreparedEntity Embedding) : Prop where
  earliest : ∃ before after, done = before ++ first :: after ∧
    ∀ earlier ∈ before, ¬ StandsFor services job specs earlier entity.id
  stands : StandsFor services job specs first entity.id
  isNew : entity.isNew = first.selectedCandidate.isNone

structure Placed (done : List ValidatedMentionResolution) (placed : MentionEntities Embedding) : Prop where
  keyed : ∀ id entity, placed.entitiesById.get? id = some entity → entity.id = id
  occurred : ∀ mention ∈ done, ∃ occurrence stored,
    placed.occurrenceEntities.get? mention.context.mentionId = some occurrence ∧
      StandsFor services job specs mention occurrence.id ∧
        placed.entitiesById.get? occurrence.id = some stored
  opened : ∀ id entity, placed.entitiesById.get? id = some entity →
    ∃ first, OpenedBy services job specs done first entity

/-- The anchor of a group is an earlier mention that is new and joins no group. -/
def Anchored (done : List ValidatedMentionResolution) (mention : ValidatedMentionResolution) : Prop :=
  mention.selectedCandidate = none → ∀ anchorId ∈ mention.resolution.sameNewEntityAs,
    ∃ anchor ∈ done, anchor.selectedCandidate = none ∧ anchor.resolution.sameNewEntityAs = none ∧
      anchor.context.mentionId = anchorId

variable {services job specs} {done : List ValidatedMentionResolution}
variable {placed next : MentionEntities Embedding} {mention one other : ValidatedMentionResolution}
variable {placement : Placement}

/-! ### What a mention stands for -/

theorem standsFor_unique {oneId otherId : JsString} (stands : StandsFor services job specs mention oneId)
    (also : StandsFor services job specs mention otherId) : oneId = otherId := by
  unfold StandsFor at stands also
  cases selected : mention.selectedCandidate with
  | some candidate =>
      rw [selected] at stands also
      exact stands.trans also.symm
  | none =>
      rw [selected] at stands also
      rcases stands with ⟨claim, found, isOne⟩
      rcases also with ⟨again, foundAgain, isOther⟩
      rw [found] at foundAgain
      cases foundAgain
      exact isOne.trans isOther.symm

/-- The new mentions of a group stand for one entity. -/
theorem standsFor_group {id : JsString} (oneNew : one.selectedCandidate = none)
    (otherNew : other.selectedCandidate = none) (group : one.anchorId = other.anchorId)
    (stands : StandsFor services job specs one id) : StandsFor services job specs other id := by
  unfold StandsFor at stands ⊢
  rw [oneNew, group] at stands
  rw [otherNew]
  exact stands

theorem anchorId_ungrouped (free : mention.resolution.sameNewEntityAs = none) :
    mention.anchorId = mention.context.mentionId := by
  rw [ValidatedMentionResolution.anchorId, free]
  rfl

theorem anchorId_grouped {anchorId : JsString} (joins : mention.resolution.sameNewEntityAs = some anchorId) :
    mention.anchorId = anchorId := by
  rw [ValidatedMentionResolution.anchorId, joins]
  rfl

/-! ### One round -/

/-- A placement that opens an entity is new when its mention selects no candidate. -/
theorem placeMention_spec (holds : Placed services job specs done placed) (anchored : Anchored done mention)
    (returned : placeMention services job specs placed mention = .ok placement) :
    StandsFor services job specs mention placement.entityId ∧
      (placed.entitiesById.get? placement.entityId = none →
        placement.isNew = mention.selectedCandidate.isNone) := by
  unfold placeMention at returned
  dsimp only at returned
  split at returned
  · rename_i candidate selected
    cases returned
    refine ⟨?_, fun _ => by rw [selected]; rfl⟩
    unfold StandsFor
    rw [selected]
  · rename_i isNew
    split at returned
    · rename_i free
      split at returned
      · cases returned
      · rename_i claim found
        split at returned
        · cases returned
        · rename_i entityId identified
          cases returned
          refine ⟨?_, fun _ => by rw [isNew]; rfl⟩
          unfold newMentionEntityIdFor at identified
          split at identified
          · cases identified
          · cases identified
            unfold StandsFor
            rw [isNew, anchorId_ungrouped free]
            exact ⟨claim, found, rfl⟩
    · rename_i anchorId joins
      split at returned
      · cases returned
      · rename_i grouped found
        cases returned
        rcases anchored isNew anchorId joins with ⟨anchor, isAnchor, anchorNew, anchorFree, named⟩
        rcases holds.occurred anchor isAnchor with ⟨occurrence, stored, occurs, stands, isStored⟩
        rw [named, found] at occurs
        cases occurs
        have group : anchor.anchorId = mention.anchorId := by
          rw [anchorId_ungrouped anchorFree, anchorId_grouped joins]
          exact named
        refine ⟨standsFor_group anchorNew isNew group stands, fun absent => ?_⟩
        rw [isStored] at absent
        cases absent

theorem mergeEntity_id (holds : Placed services job specs done placed) :
    (mergeEntity services placed placement).id = placement.entityId := by
  unfold mergeEntity
  split
  · rfl
  · rename_i previous found
    exact holds.keyed placement.entityId previous found

theorem openedBy_snoc {first : ValidatedMentionResolution} {entity : PreparedEntity Embedding}
    (opened : OpenedBy services job specs done first entity) (mention : ValidatedMentionResolution) :
    OpenedBy services job specs (done ++ [mention]) first entity := by
  rcases opened.earliest with ⟨before, after, whole, none⟩
  refine
    { earliest := ⟨before, after ++ [mention], ?_, none⟩
      stands := opened.stands
      isNew := opened.isNew }
  rw [whole, List.append_assoc]
  rfl

/-- An id that is not there was stood for by no mention. -/
theorem not_standsFor_of_absent (holds : Placed services job specs done placed) {id : JsString}
    (absent : placed.entitiesById.get? id = none) (inside : mention ∈ done) :
    ¬ StandsFor services job specs mention id := by
  intro stands
  rcases holds.occurred mention inside with ⟨occurrence, stored, _, also, isStored⟩
  rw [standsFor_unique also stands, absent] at isStored
  cases isStored

theorem mergeEntity_opened (holds : Placed services job specs done placed)
    (stands : StandsFor services job specs mention placement.entityId)
    (decides : placed.entitiesById.get? placement.entityId = none →
      placement.isNew = mention.selectedCandidate.isNone) :
    ∃ first, OpenedBy services job specs (done ++ [mention]) first (mergeEntity services placed placement) := by
  unfold mergeEntity
  split
  · rename_i absent
    refine ⟨mention, ⟨done, [], rfl, ?_⟩, stands, decides absent⟩
    exact fun earlier inside => not_standsFor_of_absent holds absent inside
  · rename_i previous found
    rcases holds.opened placement.entityId previous found with ⟨first, opened⟩
    rcases openedBy_snoc opened mention with ⟨isFirst, firstStands, isNew⟩
    exact ⟨first, isFirst, firstStands, isNew⟩

theorem prepareMention_placed (holds : Placed services job specs done placed)
    (anchored : Anchored done mention)
    (fresh : ∀ earlier ∈ done, earlier.context.mentionId ≠ mention.context.mentionId)
    (returned : prepareMention services job specs placed mention = .ok next) :
    Placed services job specs (done ++ [mention]) next := by
  rcases except_bind_ok returned with ⟨placement, places, isNext⟩
  cases isNext
  rcases placeMention_spec holds anchored places with ⟨stands, decides⟩
  have isId : (mergeEntity services placed placement).id = placement.entityId := mergeEntity_id holds
  refine
    { keyed := ?_
      occurred := ?_
      opened := ?_ }
  · intro id entity found
    rcases eq_or_ne id placement.entityId with same | different
    · rw [same, OrderedMap.get?_set_self] at found
      cases found
      rw [same]
      exact isId
    · rw [OrderedMap.get?_set_ne different] at found
      exact holds.keyed id entity found
  · intro earlier inside
    rcases List.mem_append.mp inside with before | isMention
    · rcases holds.occurred earlier before with ⟨occurrence, stored, occurs, earlierStands, isStored⟩
      have kept : (placed.occurrenceEntities.set mention.context.mentionId
          (mergeEntity services placed placement)).get? earlier.context.mentionId = some occurrence := by
        rw [OrderedMap.get?_set_ne (fresh earlier before)]
        exact occurs
      rcases eq_or_ne occurrence.id placement.entityId with same | different
      · refine ⟨occurrence, mergeEntity services placed placement, kept, earlierStands, ?_⟩
        rw [same]
        exact OrderedMap.get?_set_self
      · refine ⟨occurrence, stored, kept, earlierStands, ?_⟩
        rw [OrderedMap.get?_set_ne different]
        exact isStored
    · rw [List.mem_singleton.mp isMention]
      refine ⟨mergeEntity services placed placement, mergeEntity services placed placement,
        OrderedMap.get?_set_self, ?_, ?_⟩
      · rw [isId]
        exact stands
      · rw [isId]
        exact OrderedMap.get?_set_self
  · intro id entity found
    rcases eq_or_ne id placement.entityId with same | different
    · rw [same, OrderedMap.get?_set_self] at found
      cases found
      exact mergeEntity_opened holds stands decides
    · rw [OrderedMap.get?_set_ne different] at found
      rcases holds.opened id entity found with ⟨first, opened⟩
      exact ⟨first, openedBy_snoc opened mention⟩

/-! ### The loop -/

/-- Every mention is fresh and finds its anchor before it. -/
structure Ordered (mentions : List ValidatedMentionResolution) : Prop where
  distinct : (mentions.map fun mention => mention.context.mentionId).Nodup
  anchored : ∀ done mention rest, mentions = done ++ mention :: rest → Anchored done mention

theorem Ordered.fresh {mentions : List ValidatedMentionResolution} (ordered : Ordered mentions)
    {rest : List ValidatedMentionResolution} (whole : mentions = done ++ mention :: rest) :
    ∀ earlier ∈ done, earlier.context.mentionId ≠ mention.context.mentionId := by
  intro earlier inside same
  have distinct := ordered.distinct
  rw [whole, List.map_append] at distinct
  exact (List.nodup_append.mp distinct).2.2 _ (List.mem_map_of_mem inside) _
    (List.mem_map_of_mem List.mem_cons_self) same

theorem placed_nothing : Placed services job specs []
    { entitiesById := OrderedMap.empty
      occurrenceEntities := OrderedMap.empty } :=
  { keyed := fun _ _ found => nomatch found
    occurred := fun _ inside => nomatch inside
    opened := fun _ _ found => nomatch found }

theorem prepareMentions_placed {mentions : List ValidatedMentionResolution} (ordered : Ordered mentions)
    (returned : prepareMentions services job specs mentions = .ok placed) :
    Placed services job specs mentions placed := by
  apply foldlM_invariant _ placed_nothing returned
  intro done mention rest before after whole holds stepped
  exact prepareMention_placed holds (ordered.anchored done mention rest whole) (ordered.fresh whole) stepped

theorem ordered_of_coherent {caseFold : JsString → JsString} {proposed : List ExtractedClaim}
    {contexts : List MentionContext} {result : ResolutionResult} {plan : ValidatedResolutionPlan}
    (coherent : Coherent caseFold proposed contexts result plan) : Ordered plan.mentions := by
  refine
    { distinct := coherent.distinct
      anchored := ?_ }
  intro done mention rest whole isNew anchorId joins
  have found : plan.mentions[done.length]? = some mention := by
    rw [whole, List.getElem?_append_right (Nat.le_refl _), Nat.sub_self]
    rfl
  rcases coherent.anchored done.length mention found isNew with
    ⟨earlier, anchor, notLater, isAnchor, anchorNew, free, named, _⟩
  have before : earlier < done.length := by
    rcases Nat.lt_or_eq_of_le notLater with before | same
    · exact before
    · rw [same, found] at isAnchor
      cases isAnchor
      rw [free] at joins
      cases joins
  rw [whole, List.getElem?_append_left before] at isAnchor
  exact ⟨anchor, List.mem_of_getElem? isAnchor, anchorNew, free,
    named.trans (anchorId_grouped joins)⟩

end ExtractionEngine

end Reflection
