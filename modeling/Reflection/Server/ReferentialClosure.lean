/-
A prepared segment is referentially closed.

Its claims refer to its entities alone and leave none of them out. Ids are told apart by the names
they are made from, and the vectors of the second half belong to the new entities in order.
-/

import Reflection.Server.MentionPlan

namespace Reflection

open JsString
open Database (ClaimedJob)

namespace ExtractionEngine

variable {Embedding : Type} (services : Services Embedding) (job : ClaimedJob) (specs : List ContextSpec)
variable (vectorOf : JsString → Embedding)

/-- The claim that a kept proposal becomes. -/
structure ClaimOf (mentions : List ValidatedMentionResolution) (kept : ValidatedClaimDecision)
    (claim : PreparedClaim Embedding) : Prop where
  id : claim.id = claimIdFor services.uuidv5 (segmentId services job) kept.index
  proposal : ExtractedClaim.mk claim.subject claim.predicate claim.confidence claim.objectEntity
    claim.objectValue = kept.claim
  subject : ∃ mention ∈ mentions, mention.context.mentionId = subjectMention kept.index ∧
    StandsFor services job specs mention claim.subjectEntityId
  object : ∀ id ∈ claim.objectEntityId, ∃ mention ∈ mentions,
    mention.context.mentionId = objectMention kept.index ∧ StandsFor services job specs mention id
  hasObject : claim.objectEntityId.isSome = claim.objectEntity.isSome
  oneObject : claim.objectEntityId.isSome ≠ claim.objectValue.isSome
  embedding : ∃ text, claimDocument kept.claim = .ok text ∧ claim.embedding = vectorOf text

structure Closed (plan : ValidatedResolutionPlan) (prepared : Prepared Embedding) : Prop where
  claims : List.Forall₂ (ClaimOf services job specs vectorOf plan.mentions) plan.keptClaims prepared.claims
  claimIds : (prepared.claims.map PreparedClaim.id).Nodup
  entityIds : (prepared.entities.map PreparedEntity.id).Nodup
  references : ∀ claim ∈ prepared.claims, ∀ id, (id = claim.subjectEntityId ∨ id ∈ claim.objectEntityId) →
    ∃ entity ∈ prepared.entities, entity.id = id
  mentions : ∀ mention ∈ plan.mentions, ∃ entity ∈ prepared.entities,
    StandsFor services job specs mention entity.id
  referenced : ∀ entity ∈ prepared.entities, ∃ claim ∈ prepared.claims,
    entity.id = claim.subjectEntityId ∨ entity.id ∈ claim.objectEntityId
  /-- new mentions share an entity exactly when they share their anchor; an ungrouped one is its own -/
  newIds : ∀ one ∈ plan.mentions, ∀ other ∈ plan.mentions, one.isNew → other.isNew → ∀ oneId otherId,
    StandsFor services job specs one oneId → StandsFor services job specs other otherId →
      (oneId = otherId ↔ one.anchorId = other.anchorId)
  opened : ∀ entity ∈ prepared.entities, ∃ first, OpenedBy services job specs plan.mentions first entity
  embedded : ∀ entity ∈ prepared.entities,
    entity.embedding = if entity.isNew then some (vectorOf (entityDocument entity)) else none

variable {services job specs vectorOf} {extracted : ExtractionResult} {plan : ValidatedResolutionPlan}
variable {placed : MentionEntities Embedding} {mentions : List ValidatedMentionResolution}

/-! ### Entities -/

/-- Vectors handed out by position, found by id. -/
theorem embedEntities_eq {entities : List (PreparedEntity Embedding)}
    (distinct : (entities.map PreparedEntity.id).Nodup) :
    embedEntities entities ((entities.filter PreparedEntity.isNew).map fun entity =>
        vectorOf (entityDocument entity)) =
      entities.map fun entity =>
        { entity with
          embedding := if entity.isNew then some (vectorOf (entityDocument entity)) else none } := by
  unfold embedEntities
  dsimp only
  apply List.map_congr_left
  intro entity inside
  rw [List.zip_map']
  have keys : ((entities.filter PreparedEntity.isNew).map fun entity =>
      (entity.id, vectorOf (entityDocument entity))).map Prod.fst =
        (entities.filter PreparedEntity.isNew).map PreparedEntity.id := by
    rw [List.map_map]
    rfl
  have keysDistinct := distinct.sublist ((List.filter_sublist (p := PreparedEntity.isNew)).map PreparedEntity.id)
  have found : (ofEntries ((entities.filter PreparedEntity.isNew).map fun entity =>
      (entity.id, vectorOf (entityDocument entity)))).lookup entity.id =
        if entity.isNew then some (vectorOf (entityDocument entity)) else none := by
    cases isNew : entity.isNew with
    | true =>
        apply lookup_ofEntries
        · rw [keys]
          exact keysDistinct
        · exact List.mem_map.mpr ⟨entity, List.mem_filter.mpr ⟨inside, isNew⟩, rfl⟩
    | false =>
        cases stored : (ofEntries ((entities.filter PreparedEntity.isNew).map fun entity =>
            (entity.id, vectorOf (entityDocument entity)))).lookup entity.id with
        | none => rfl
        | some vector =>
            rcases List.mem_map.mp (lookup_ofEntries_mem stored) with ⟨other, isOther, same⟩
            rcases List.mem_filter.mp isOther with ⟨otherInside, otherNew⟩
            have isEntity : other = entity :=
              List.inj_on_of_nodup_map distinct otherInside inside (Prod.ext_iff.mp same).1
            rw [isEntity, isNew] at otherNew
            cases otherNew
  rw [found]

theorem Placed.values_ids (holds : Placed services job specs mentions placed) :
    placed.entitiesById.values.map PreparedEntity.id = placed.entitiesById.entries.map Prod.fst := by
  rw [OrderedMap.values, List.map_map]
  apply List.map_congr_left
  rintro ⟨id, entity⟩ inside
  exact holds.keyed id entity (OrderedMap.get?_iff.mpr inside)

theorem Placed.distinct (holds : Placed services job specs mentions placed) :
    (placed.entitiesById.values.map PreparedEntity.id).Nodup := by
  rw [holds.values_ids]
  exact placed.entitiesById.distinct

theorem Placed.mentioned (holds : Placed services job specs mentions placed)
    {mention : ValidatedMentionResolution} (inside : mention ∈ mentions) {id : JsString}
    (stands : StandsFor services job specs mention id) :
    ∃ entity ∈ placed.entitiesById.values, entity.id = id := by
  rcases holds.occurred mention inside with ⟨occurrence, stored, _, also, isStored⟩
  refine ⟨stored, OrderedMap.mem_values.mpr ⟨occurrence.id, isStored⟩, ?_⟩
  rw [holds.keyed occurrence.id stored isStored]
  exact standsFor_unique also stands

theorem Placed.found (holds : Placed services job specs mentions placed)
    {mention : ValidatedMentionResolution} (inside : mention ∈ mentions) {occurrence : PreparedEntity Embedding}
    (occurs : placed.occurrenceEntities.get? mention.context.mentionId = some occurrence) :
    StandsFor services job specs mention occurrence.id := by
  rcases holds.occurred mention inside with ⟨same, _, alsoOccurs, stands, _⟩
  rw [occurs] at alsoOccurs
  cases alsoOccurs
  exact stands

/-! ### Claims -/

theorem objectOccurrence_isSome (planned : Planned extracted specs plan)
    (holds : Placed services job specs plan.mentions placed) {kept : ValidatedClaimDecision}
    (isKept : kept ∈ plan.keptClaims) :
    (objectOccurrence placed.occurrenceEntities kept).isSome = kept.claim.objectEntity.isSome := by
  unfold objectOccurrence
  cases hasObject : kept.claim.objectEntity with
  | none => rfl
  | some objectEntity =>
      have isMention : objectMention kept.index ∈ kept.mentionIds :=
        mem_mentionIds.mpr (.inr ⟨by rw [hasObject]; rfl, rfl⟩)
      rcases planned.covered kept isKept _ isMention with ⟨mention, inside, named⟩
      rcases holds.occurred mention inside with ⟨occurrence, _, occurs, _⟩
      dsimp only
      rw [← named, occurs]
      rfl

theorem objectOccurrence_stands (planned : Planned extracted specs plan)
    (holds : Placed services job specs plan.mentions placed) {kept : ValidatedClaimDecision}
    (isKept : kept ∈ plan.keptClaims) {occurrence : PreparedEntity Embedding}
    (found : objectOccurrence placed.occurrenceEntities kept = some occurrence) :
    ∃ mention ∈ plan.mentions, mention.context.mentionId = objectMention kept.index ∧
      StandsFor services job specs mention occurrence.id := by
  unfold objectOccurrence at found
  split at found
  · cases found
  · rename_i objectEntity hasObject
    have isMention : objectMention kept.index ∈ kept.mentionIds :=
      mem_mentionIds.mpr (.inr ⟨by rw [hasObject]; rfl, rfl⟩)
    rcases planned.covered kept isKept _ isMention with ⟨mention, inside, named⟩
    rw [← named] at found
    exact ⟨mention, inside, named, holds.found inside found⟩

theorem prepareClaim_spec (planned : Planned extracted specs plan)
    (holds : Placed services job specs plan.mentions placed) {kept : ValidatedClaimDecision}
    (isKept : kept ∈ plan.keptClaims) {text : JsString} (written : claimDocument kept.claim = .ok text)
    {claim : PreparedClaim Embedding}
    (returned : prepareClaim services job placed.occurrenceEntities kept (vectorOf text) = .ok claim) :
    ClaimOf services job specs vectorOf plan.mentions kept claim := by
  unfold prepareClaim at returned
  dsimp only at returned
  split at returned
  · cases returned
  · rename_i subjectEntity subjectFound
    split at returned
    · cases returned
    · split at returned
      · cases returned
      · rename_i key keyed
        cases returned
        rcases planned.covered kept isKept _ (mem_mentionIds.mpr (.inl rfl)) with ⟨mention, inside, named⟩
        rw [← named] at subjectFound
        refine
          { id := rfl
            proposal := rfl
            subject := ⟨mention, inside, named, holds.found inside subjectFound⟩
            object := ?_
            hasObject := ?_
            oneObject := ?_
            embedding := ⟨text, written, rfl⟩ }
        · intro id isObject
          rcases Option.map_eq_some_iff.mp isObject with ⟨occurrence, found, isId⟩
          rw [← isId]
          exact objectOccurrence_stands planned holds isKept found
        · rw [Option.isSome_map]
          exact objectOccurrence_isSome planned holds isKept
        · unfold equivalenceKey at keyed
          split at keyed
          · cases keyed
          · rename_i oneObject
            intro same
            apply oneObject
            rw [← Option.not_isSome, ← Option.not_isSome, same]

/-- Kept claims, their texts and the vectors of these stay in step. -/
theorem claims_of_texts {keptClaims : List ValidatedClaimDecision} {texts : List JsString}
    {claims : List (PreparedClaim Embedding)}
    (each : ∀ kept ∈ keptClaims, ∀ text claim, claimDocument kept.claim = .ok text →
      prepareClaim services job placed.occurrenceEntities kept (vectorOf text) = .ok claim →
        ClaimOf services job specs vectorOf mentions kept claim)
    (written : List.Forall₂ (fun kept text => claimDocument kept.claim = .ok text) keptClaims texts)
    (returned : (keptClaims.zip (texts.map vectorOf)).mapM (fun (kept, embedding) =>
      prepareClaim services job placed.occurrenceEntities kept embedding) = .ok claims) :
    List.Forall₂ (ClaimOf services job specs vectorOf mentions) keptClaims claims := by
  have all := mapM_ok_iff.mp returned
  clear returned
  induction written generalizing claims with
  | nil =>
      cases all
      exact .nil
  | cons isText _ ih =>
      cases all with
      | cons isClaim others =>
          refine .cons (each _ List.mem_cons_self _ _ isText isClaim) ?_
          exact ih (fun kept inside => each kept (List.mem_cons_of_mem _ inside)) others

theorem claimIds_nodup (unique : ∀ namespaceId, Function.Injective fun name => services.uuidv5 name namespaceId)
    (planned : Planned extracted specs plan) {claims : List (PreparedClaim Embedding)}
    (all : List.Forall₂ (ClaimOf services job specs vectorOf mentions) plan.keptClaims claims) :
    (claims.map PreparedClaim.id).Nodup := by
  have same : (plan.keptClaims.map ValidatedClaimDecision.index).map
      (claimIdFor services.uuidv5 (segmentId services job)) = claims.map PreparedClaim.id := by
    rw [List.map_map, ← List.forall₂_eq_eq_eq, List.forall₂_map_left_iff, List.forall₂_map_right_iff]
    exact all.imp fun _ _ claimOf => claimOf.id.symm
  rw [← same]
  exact planned.indexes.map fun _ _ sameId => claimIdFor_index unique sameId

/-! ### New ids -/

theorem anchorId_ascii (planned : Planned extracted specs plan)
    (ids : specs.map ContextSpec.mentionId = mentionIdsFrom 0 extracted.claims)
    {mention : ValidatedMentionResolution} (inside : mention ∈ plan.mentions) (isNew : mention.isNew) :
    IsAscii mention.anchorId := by
  cases joins : mention.resolution.sameNewEntityAs with
  | none =>
      rw [anchorId_ungrouped joins]
      exact planned.ascii ids inside
  | some anchorId =>
      rcases List.append_of_mem inside with ⟨done, rest, whole⟩
      rcases planned.ordered.anchored done mention rest whole isNew anchorId joins with
        ⟨anchor, isAnchor, _, _, named⟩
      rw [anchorId_grouped joins, ← named]
      apply planned.ascii ids
      rw [whole]
      exact List.mem_append_left _ isAnchor

theorem newIds_iff (unique : ∀ namespaceId, Function.Injective fun name => services.uuidv5 name namespaceId)
    {one other : ValidatedMentionResolution} (oneNew : one.isNew) (otherNew : other.isNew)
    (oneAscii : IsAscii one.anchorId) (otherAscii : IsAscii other.anchorId) {oneId otherId : JsString}
    (oneStands : StandsFor services job specs one oneId)
    (otherStands : StandsFor services job specs other otherId) :
    oneId = otherId ↔ one.anchorId = other.anchorId := by
  constructor
  · intro same
    unfold StandsFor at oneStands otherStands
    rw [show one.selectedCandidate = none from oneNew] at oneStands
    rw [show other.selectedCandidate = none from otherNew] at otherStands
    rcases oneStands with ⟨oneClaim, _, isOne⟩
    rcases otherStands with ⟨otherClaim, _, isOther⟩
    rw [isOne, isOther] at same
    exact newMentionName_mention oneAscii otherAscii (unique ENTITY_NAMESPACE same)
  · intro group
    exact standsFor_unique (standsFor_group oneNew otherNew group oneStands) otherStands

/-! ### The segment -/

theorem ClaimOf.mention_unique (planned : Planned extracted specs plan) {one other : ValidatedMentionResolution}
    (oneInside : one ∈ plan.mentions) (otherInside : other ∈ plan.mentions)
    (same : one.context.mentionId = other.context.mentionId) : one = other :=
  List.inj_on_of_nodup_map planned.ordered.distinct oneInside otherInside same

/-- The mention of a kept claim is an end of what it becomes. -/
theorem ClaimOf.ends {kept : ValidatedClaimDecision} {claim : PreparedClaim Embedding}
    (claimOf : ClaimOf services job specs vectorOf plan.mentions kept claim)
    (planned : Planned extracted specs plan) {mention : ValidatedMentionResolution}
    (inside : mention ∈ plan.mentions) (isEnd : mention.context.mentionId ∈ kept.mentionIds) {id : JsString}
    (stands : StandsFor services job specs mention id) :
    id = claim.subjectEntityId ∨ id ∈ claim.objectEntityId := by
  rcases mem_mentionIds.mp isEnd with isSubject | ⟨hasObject, isObject⟩
  · left
    rcases claimOf.subject with ⟨subject, subjectInside, named, subjectStands⟩
    have same := ClaimOf.mention_unique planned inside subjectInside (isSubject.trans named.symm)
    rw [same] at stands
    exact standsFor_unique stands subjectStands
  · right
    have proposed : claim.objectEntity = kept.claim.objectEntity := by
      rw [← claimOf.proposal]
    have there : claim.objectEntityId.isSome = true := by
      rw [claimOf.hasObject, proposed]
      exact hasObject
    rcases Option.isSome_iff_exists.mp there with ⟨objectId, isId⟩
    rcases claimOf.object objectId isId with ⟨object, objectInside, named, objectStands⟩
    have same := ClaimOf.mention_unique planned inside objectInside (isObject.trans named.symm)
    rw [same] at stands
    rw [standsFor_unique stands objectStands]
    exact isId

theorem preparePlan_closed (unique : ∀ namespaceId, Function.Injective fun name => services.uuidv5 name namespaceId)
    (inOrder : ∀ texts vectors, services.embed texts (ofString "document") = .ok vectors →
      vectors = texts.map vectorOf)
    (ids : specs.map ContextSpec.mentionId = mentionIdsFrom 0 extracted.claims)
    (planned : Planned extracted specs plan) {prepared : Prepared Embedding}
    (returned : preparePlan services job extracted specs plan = .ok prepared) :
    Closed services job specs vectorOf plan prepared := by
  rcases except_bind_ok returned with ⟨placed, isPlaced, behindPlaced⟩
  rcases except_bind_ok behindPlaced with ⟨claimTexts, areTexts, behindTexts⟩
  rcases except_bind_ok behindTexts with ⟨vectors, areVectors, behindVectors⟩
  split at behindVectors
  · cases behindVectors
  · rcases except_bind_ok behindVectors with ⟨claims, areClaims, isPrepared⟩
    cases isPrepared
    have holds := prepareMentions_placed planned.ordered isPlaced
    have written := mapM_ok_iff.mp areTexts
    have length : plan.keptClaims.length = (claimTexts.map vectorOf).length := by
      rw [List.length_map, written.length_eq]
    rw [inOrder _ _ areVectors, List.map_append, length, List.take_left] at areClaims
    have all := claims_of_texts
      (fun kept isKept text claim isText => prepareClaim_spec planned holds isKept isText) written areClaims
    have entities : embedEntities placed.entitiesById.values (vectors.drop plan.keptClaims.length) =
        placed.entitiesById.values.map fun entity =>
          { entity with
            embedding := if entity.isNew then some (vectorOf (entityDocument entity)) else none } := by
      rw [inOrder _ _ areVectors, List.map_append, length, List.drop_left, List.map_map]
      exact embedEntities_eq holds.distinct
    have stored : ∀ id, (∃ entity ∈ placed.entitiesById.values, entity.id = id) →
        ∃ entity ∈ embedEntities placed.entitiesById.values (vectors.drop plan.keptClaims.length),
          entity.id = id := by
      rintro id ⟨entity, inside, isId⟩
      rw [entities]
      exact ⟨_, List.mem_map_of_mem inside, isId⟩
    have opened : ∀ entity ∈ embedEntities placed.entitiesById.values (vectors.drop plan.keptClaims.length),
        ∃ first, OpenedBy services job specs plan.mentions first entity := by
      intro entity inside
      rw [entities] at inside
      rcases List.mem_map.mp inside with ⟨before, isBefore, same⟩
      rcases OrderedMap.mem_values.mp isBefore with ⟨id, found⟩
      rcases holds.opened id before found with ⟨first, earliest, stands, isNew⟩
      rw [← same]
      exact ⟨first, earliest, stands, isNew⟩
    refine
      { claims := all
        claimIds := claimIds_nodup unique planned all
        entityIds := ?_
        references := ?_
        mentions := ?_
        referenced := ?_
        newIds := ?_
        opened := opened
        embedded := ?_ }
    · change ((embedEntities _ _).map PreparedEntity.id).Nodup
      rw [entities, List.map_map]
      exact holds.distinct
    · intro claim isClaim id isEnd
      rcases exists_left_of_forall₂ all isClaim with ⟨kept, _, claimOf⟩
      apply stored
      rcases isEnd with isSubject | isObject
      · rcases claimOf.subject with ⟨mention, inside, _, stands⟩
        rw [isSubject]
        exact holds.mentioned inside stands
      · rcases claimOf.object id isObject with ⟨mention, inside, _, stands⟩
        exact holds.mentioned inside stands
    · intro mention inside
      rcases holds.occurred mention inside with ⟨occurrence, _, _, stands, _⟩
      rcases stored _ (holds.mentioned inside stands) with ⟨entity, isEntity, isId⟩
      refine ⟨entity, isEntity, ?_⟩
      rw [isId]
      exact stands
    · intro entity inside
      rcases opened entity inside with ⟨first, ⟨before, after, whole, _⟩, stands, _⟩
      have firstInside : first ∈ plan.mentions := by
        rw [whole]
        exact List.mem_append_right _ List.mem_cons_self
      rcases planned.mentioned first firstInside with ⟨kept, isKept, isEnd⟩
      rcases exists_right_of_forall₂ all isKept with ⟨claim, isClaim, claimOf⟩
      exact ⟨claim, isClaim, claimOf.ends planned firstInside isEnd stands⟩
    · intro one oneInside other otherInside oneNew otherNew oneId otherId oneStands otherStands
      exact newIds_iff unique oneNew otherNew (anchorId_ascii planned ids oneInside oneNew)
        (anchorId_ascii planned ids otherInside otherNew) oneStands otherStands
    · intro entity inside
      change entity ∈ embedEntities _ _ at inside
      rw [entities] at inside
      rcases List.mem_map.mp inside with ⟨before, _, same⟩
      rw [← same]
      rfl

/-! ### Success -/

/-- An entity object or a literal value, and not both. -/
def OneObject (claim : ExtractedClaim) : Prop := claim.objectEntity.isSome ≠ claim.objectValue.isSome

theorem claimDocument_returns {claim : ExtractedClaim} (oneObject : OneObject claim) :
    ∃ text, claimDocument claim = .ok text := by
  unfold OneObject at oneObject
  unfold claimDocument claimText
  cases hasEntity : claim.objectEntity with
  | some objectEntity => exact ⟨_, rfl⟩
  | none =>
      cases hasValue : claim.objectValue with
      | some objectValue => exact ⟨_, rfl⟩
      | none =>
          rw [hasEntity, hasValue] at oneObject
          exact absurd rfl oneObject

theorem isNone_ne_of_isSome_ne {α β : Type} {one : Option α} {other : Option β}
    (different : one.isSome ≠ other.isSome) : one.isNone ≠ other.isNone := by
  intro same
  apply different
  rw [← Option.not_isNone, ← Option.not_isNone, same]

theorem placeMention_returns {done : List ValidatedMentionResolution}
    (holds : Placed services job specs done placed) {mention : ValidatedMentionResolution}
    (anchored : Anchored done mention)
    (offered : mention.context.mentionId ∈ specs.map ContextSpec.mentionId)
    (oneObject : ∀ spec ∈ specs, OneObject spec.claim) :
    ∃ placement, placeMention services job specs placed mention = .ok placement := by
  unfold placeMention
  cases selected : mention.selectedCandidate with
  | some candidate => exact ⟨_, rfl⟩
  | none =>
      cases joins : mention.resolution.sameNewEntityAs with
      | some anchorId =>
          rcases anchored selected anchorId joins with ⟨anchor, isAnchor, _, _, named⟩
          rcases holds.occurred anchor isAnchor with ⟨occurrence, _, occurs, _⟩
          dsimp only
          rw [← named, occurs]
          exact ⟨_, rfl⟩
      | none =>
          have isKey : mention.context.mentionId ∈
              (specs.map fun spec => (spec.mentionId, spec.claim)).map Prod.fst := by
            rw [List.map_map]
            exact offered
          rcases lookup_ofEntries_isSome isKey with ⟨claim, found⟩
          rcases List.mem_map.mp (lookup_ofEntries_mem found) with ⟨spec, isSpec, same⟩
          have one := oneObject spec isSpec
          rw [show spec.claim = claim from (Prod.ext_iff.mp same).2] at one
          dsimp only
          rw [claimsByMentionId, found]
          dsimp only
          rw [newMentionEntityIdFor, if_neg (isNone_ne_of_isSome_ne one)]
          exact ⟨_, rfl⟩

theorem prepareMentions_returns (planned : Planned extracted specs plan)
    (oneObject : ∀ spec ∈ specs, OneObject spec.claim) :
    ∃ placed, prepareMentions services job specs plan.mentions = .ok placed := by
  apply foldlM_returns _ _ (@placed_nothing _ services job specs)
  · intro done mention rest before after whole holds stepped
    exact prepareMention_placed holds (planned.ordered.anchored done mention rest whole)
      (planned.ordered.fresh whole) stepped
  · intro done mention rest before whole holds
    have inside : mention ∈ plan.mentions := by
      rw [whole]
      exact List.mem_append_right _ List.mem_cons_self
    rcases placeMention_returns holds (planned.ordered.anchored done mention rest whole)
      (planned.offered mention inside) oneObject with ⟨placement, places⟩
    unfold prepareMention
    rw [places]
    exact ⟨_, rfl⟩

theorem prepareClaim_returns (planned : Planned extracted specs plan)
    (holds : Placed services job specs plan.mentions placed) {kept : ValidatedClaimDecision}
    (isKept : kept ∈ plan.keptClaims) (oneObject : OneObject kept.claim) (embedding : Embedding) :
    ∃ claim, prepareClaim services job placed.occurrenceEntities kept embedding = .ok claim := by
  rcases planned.covered kept isKept _ (mem_mentionIds.mpr (.inl rfl)) with ⟨mention, inside, named⟩
  rcases holds.occurred mention inside with ⟨occurrence, _, occurs, _⟩
  have there := objectOccurrence_isSome planned holds isKept
  unfold prepareClaim equivalenceKey
  rw [← named, occurs]
  dsimp only
  rw [if_neg, if_neg]
  · exact ⟨_, rfl⟩
  · apply isNone_ne_of_isSome_ne
    rw [Option.isSome_map, there]
    exact oneObject
  · rw [← there]
    cases objectOccurrence placed.occurrenceEntities kept with
    | none => exact Bool.false_ne_true
    | some entity => exact Bool.false_ne_true

theorem preparePlan_returns
    (answers : ∀ texts, services.embed texts (ofString "document") = .ok (texts.map vectorOf))
    (planned : Planned extracted specs plan) (fromClaims : ∀ spec ∈ specs, spec.claim ∈ extracted.claims)
    (oneObject : ∀ claim ∈ extracted.claims, OneObject claim) :
    ∃ prepared, preparePlan services job extracted specs plan = .ok prepared := by
  rcases @prepareMentions_returns _ services job specs _ _ planned
    fun spec inside => oneObject _ (fromClaims spec inside) with ⟨placed, isPlaced⟩
  have holds := prepareMentions_placed planned.ordered isPlaced
  have documents : ∃ texts, plan.keptClaims.mapM (fun kept => claimDocument kept.claim) = .ok texts :=
    exists_mapM_ok.mpr fun kept isKept => claimDocument_returns (oneObject _ (planned.proposed kept isKept))
  rcases documents with ⟨texts, areTexts⟩
  have claims : ∃ claims, (plan.keptClaims.zip (((texts ++ (placed.entitiesById.values.filter
      PreparedEntity.isNew).map entityDocument).map vectorOf).take plan.keptClaims.length)).mapM
        (fun (kept, embedding) => prepareClaim services job placed.occurrenceEntities kept embedding) =
          .ok claims := by
    apply exists_mapM_ok.mpr
    rintro ⟨kept, embedding⟩ inside
    have isKept := (List.of_mem_zip inside).1
    exact prepareClaim_returns planned holds isKept (oneObject _ (planned.proposed kept isKept)) embedding
  rcases claims with ⟨claims, areClaims⟩
  have length := (mapM_ok_iff.mp areTexts).length_eq
  unfold preparePlan
  rw [isPlaced, except_ok_bind, areTexts, except_ok_bind, answers, except_ok_bind, if_neg]
  · dsimp only
    rw [areClaims]
    exact ⟨_, rfl⟩
  · rw [not_not, List.length_map, List.length_append, List.length_map, length]

end ExtractionEngine

open ExtractionEngine

/-- Whatever is prepared is closed, and a validated plan of claims with one object each is prepared. -/
theorem resolve_closed {Embedding : Type} (services : Services Embedding)
    (vectorOf : JsString → JsString → Embedding)
    (unique : ∀ namespaceId, Function.Injective fun name => services.uuidv5 name namespaceId)
    (inOrder : ∀ texts inputType vectors, services.embed texts inputType = .ok vectors →
      vectors = texts.map (vectorOf inputType))
    (job : ClaimedJob) (extracted : ExtractionResult) :
    (∀ prepared, resolve services job extracted = .ok prepared →
      ∃ specs contexts plan, mentionContexts services extracted = .ok (specs, contexts) ∧
        resolutionPlan services job extracted contexts = .ok plan ∧
          Closed services job specs (vectorOf (ofString "document")) plan prepared) ∧
      ∀ specs contexts plan, mentionContexts services extracted = .ok (specs, contexts) →
        resolutionPlan services job extracted contexts = .ok plan →
          (∀ claim ∈ extracted.claims, OneObject claim) →
            (∀ texts, ∃ vectors, services.embed texts (ofString "document") = .ok vectors) →
              ∃ prepared, resolve services job extracted = .ok prepared := by
  constructor
  · intro prepared returned
    rcases except_bind_ok returned with ⟨⟨specs, contexts⟩, offered, behindContexts⟩
    rcases except_bind_ok behindContexts with ⟨plan, isPlan, isPrepared⟩
    refine ⟨specs, contexts, plan, offered, isPlan, ?_⟩
    exact preparePlan_closed unique (fun texts vectors => inOrder texts _ vectors)
      (contextSpecs_spec (mentionContexts_spec offered).1).1 (resolutionPlan_planned offered isPlan) isPrepared
  · intro specs contexts plan offered isPlan oneObject answered
    have answers : ∀ texts, services.embed texts (ofString "document") =
        .ok (texts.map (vectorOf (ofString "document"))) := by
      intro texts
      rcases answered texts with ⟨vectors, areVectors⟩
      rw [areVectors, inOrder texts _ vectors areVectors]
    unfold resolve
    rw [offered, except_ok_bind]
    dsimp only
    rw [isPlan, except_ok_bind]
    exact preparePlan_returns answers (resolutionPlan_planned offered isPlan)
      (contextSpecs_spec (mentionContexts_spec offered).1).2 oneObject

/-- A vector is the text it is made of. Every mention becomes a new entity of its own. -/
def sampleServices : Services JsString :=
  { uuidv5 := fun name namespaceId => namespaceId ++ name
    sha256 := id
    caseFold := id
    embed := fun texts _ => .ok texts
    entityCandidates := fun _ _ _ => .ok []
    answer := fun _ _ claims contexts =>
      .ok
        { claims := (List.range claims.length).map fun index => ⟨claimName index, .keep⟩
          resolutions := contexts.map fun context => ⟨context.mentionId, none, none⟩ } }

def resolvedJob : ClaimedJob :=
  { id := 1
    segmentId := .legacyV1 (ofString "session") (ofString "u1")
    leaseId := 7
    sourceGeneration := 1
    sourceFingerprint := ofString "print"
    attempts := 1
    sourceId := ofString "s"
    request := .legacy
      { sessionId := ofString "session"
        boundary := .v1 (ofString "u1") (ofString "u1")
        projectionVersion := 2
        processingPriority := 0
        messages := [{ role := .user, text := ofString "hi" }] }
    extractionResult := none }

def friendship : ExtractionResult :=
  { summary := ofString "friends"
    claims :=
      [{ subject := ofString "Alex"
         predicate := ofString "knows"
         confidence := 1
         objectEntity := some (ofString "Jordan")
         objectValue := none }] }

theorem resolve_closed_friendship : ∃ prepared, resolve sampleServices resolvedJob friendship = .ok prepared ∧
    ∃ specs contexts plan, mentionContexts sampleServices friendship = .ok (specs, contexts) ∧
      resolutionPlan sampleServices resolvedJob friendship contexts = .ok plan ∧
        Closed sampleServices resolvedJob specs (fun text => text) plan prepared := by
  have both := resolve_closed sampleServices (fun _ text => text)
    (fun namespaceId _ _ same => List.append_cancel_left same)
    (fun texts _ vectors answered => by
      cases answered
      exact (List.map_id texts).symm) resolvedJob friendship
  have returns : (resolve sampleServices resolvedJob friendship).toOption.isSome = true := by
    decide +kernel
  cases outcome : resolve sampleServices resolvedJob friendship with
  | ok prepared => exact ⟨prepared, rfl, both.1 prepared outcome⟩
  | error error =>
      rw [outcome] at returns
      cases returns

end Reflection
