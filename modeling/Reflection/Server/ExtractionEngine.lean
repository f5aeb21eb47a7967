/-
Preparing a segment from an extraction and the decisions on its claims and mentions.

Every claim proposes a mention of its subject and one of its object entity. The mentions that are
kept become entities, of which the new ones are embedded behind the kept claims, and the vectors
are handed out by position.
-/

import Reflection.Database.Rows
import Reflection.Foundation.OrderedMaps
import Reflection.Server.Utf8Truncation
import Reflection.Shared.EntityIdentity

namespace Reflection

open JsString
open Database (ClaimedJob)

namespace ExtractionEngine

def MAX_EMBEDDING_INPUT_BYTES : Nat := 30000

def MAX_ENTITY_DESCRIPTION_CODE_POINTS : Nat := 2000

inductive EngineError
  /-- what a client or the database rejects with -/
  | service (message : JsString)
  /-- extracted claim has no object -/
  | noObject
  /-- embedding response did not match entity mentions -/
  | mentionEmbeddings
  | plan (error : ResolutionError)
  | object (error : ObjectError)
  /-- validated new-entity group missing for the mention -/
  | groupMissing (mentionId : JsString)
  /-- embedding response did not match prepared documents -/
  | documentEmbeddings
  /-- missing subject entity for the claim -/
  | missingSubject (index : Nat)
  /-- missing object entity for the claim -/
  | missingObject (index : Nat)
  /-- a TypeError: a property of undefined is read -/
  | undefined
deriving DecidableEq

/-- The clients, the database and the libraries. A search for candidates may depend on when it is
made, so it is told its position. -/
structure Services (Embedding : Type) where
  uuidv5 : JsString → JsString → JsString
  sha256 : JsString → JsString
  caseFold : JsString → JsString
  embed : List JsString → JsString → Except EngineError (List Embedding)
  entityCandidates : Nat → JsString → Embedding → Except EngineError (List EntityCandidate)
  answer : ClaimedJob → JsString → List ExtractedClaim → List MentionContext →
    Except EngineError ResolutionResult

structure ContextSpec where
  mentionId : JsString
  role : JsString
  text : JsString
  supportingClaim : JsString
  claim : ExtractedClaim

/-- What is returned: the segment with its entities and claims. -/
structure Prepared (Embedding : Type) extends Database.PreparedSegment where
  entities : List (PreparedEntity Embedding)
  claims : List (PreparedClaim Embedding)

def truncateCodePoints (value : JsString) (maximum : Nat) : JsString :=
  if (characters value).length ≤ maximum then value
  else ((characters value).take maximum).flatten

def claimText (claim : ExtractedClaim) : Except EngineError JsString :=
  match claim.objectEntity.or claim.objectValue with
  | none => .error .noObject
  | some objectText =>
      .ok (claim.subject ++ ofString " | " ++ claim.predicate ++ ofString " | " ++ objectText)

/-! ### Mentions -/

/-- The loop over the claims. -/
def contextSpecs : Nat → List ExtractedClaim → Except EngineError (List ContextSpec)
  | _, [] => .ok []
  | index, claim :: rest => do
      let supportingClaim ← claimText claim
      let others ← contextSpecs (index + 1) rest
      let subject :=
        { mentionId := subjectMention index
          role := ofString "subject"
          text := claim.subject
          supportingClaim := supportingClaim
          claim := claim }
      match claim.objectEntity with
      | none => .ok (subject :: others)
      | some objectEntity =>
          .ok (subject ::
            { mentionId := objectMention index
              role := ofString "object"
              text := objectEntity
              supportingClaim := supportingClaim
              claim := claim } :: others)

def candidateInput (summary : JsString) (spec : ContextSpec) : JsString :=
  truncateUtf8Bytes
    (ofString "Entity mention: " ++ spec.text ++ ofString "\nEndpoint role: " ++ spec.role ++
      ofString "\nSupporting claim: " ++ spec.supportingClaim ++ ofString "\nSegment summary: " ++ summary)
    MAX_EMBEDDING_INPUT_BYTES

def mentionContext (spec : ContextSpec) (candidates : List EntityCandidate) : MentionContext :=
  { mentionId := spec.mentionId
    role := spec.role
    text := spec.text
    supportingClaim := spec.supportingClaim
    candidates := candidates }

section Engine

variable {Embedding : Type} (services : Services Embedding) (job : ClaimedJob)

/-- The string of the job's segment id. -/
def segmentId : JsString := services.uuidv5 job.segmentId.text SEGMENT_NAMESPACE

/-- The specs, and the contexts they are offered in. -/
def mentionContexts (extracted : ExtractionResult) :
    Except EngineError (List ContextSpec × List MentionContext) := do
  let specs ← contextSpecs 0 extracted.claims
  let embeddings ← services.embed (specs.map (candidateInput extracted.summary)) (ofString "query")
  if embeddings.length ≠ specs.length then .error .mentionEmbeddings
  else
    let candidateSets ← (specs.zip embeddings).zipIdx.mapM fun ((spec, embedding), index) =>
      services.entityCandidates index spec.text embedding
    .ok (specs, List.zipWith mentionContext specs candidateSets)

/-- The model is asked where there are mentions, and its answer validated. -/
def resolutionPlan (extracted : ExtractionResult) (contexts : List MentionContext) :
    Except EngineError ValidatedResolutionPlan :=
  if contexts = [] then
    .ok
      { keptClaims := []
        mentions := []
        substitutions := [] }
  else do
    let result ← services.answer job extracted.summary extracted.claims contexts
    match validateResolutionResult services.caseFold extracted.claims contexts result with
    | .error error => .error (.plan error)
    | .ok plan => .ok plan

/-! ### Entities -/

/-- The first of the names that fold to one text is kept. -/
def uniqueAliases (aliases : List JsString) : List JsString :=
  (aliases.foldl (fun unique name =>
    let key := normalizeName services.caseFold name
    match unique.get? key with
    | none => unique.set key (trim name)
    | some _ => unique) OrderedMap.empty).values

/-- The variables the loop's branches set. -/
structure Placement where
  entityId : JsString
  canonicalName : JsString
  description : JsString
  aliases : List JsString
  isNew : Bool

/-- The entities so far, and the one each mention got. -/
structure MentionEntities (Embedding : Type) where
  entitiesById : OrderedMap JsString (PreparedEntity Embedding)
  occurrenceEntities : OrderedMap JsString (PreparedEntity Embedding)

def newDescription (context : MentionContext) : JsString :=
  truncateCodePoints
    (ofString "Entity named " ++ context.text ++ ofString " in claim: " ++ context.supportingClaim ++
      ofString ".")
    MAX_ENTITY_DESCRIPTION_CODE_POINTS

def claimsByMentionId (specs : List ContextSpec) : AList fun _ : JsString => ExtractedClaim :=
  ofEntries (specs.map fun spec => (spec.mentionId, spec.claim))

/-- The branches of the loop's body. -/
def placeMention (specs : List ContextSpec) (placed : MentionEntities Embedding)
    (mention : ValidatedMentionResolution) : Except EngineError Placement :=
  let context := mention.context
  match mention.selectedCandidate with
  | some candidate =>
      .ok
        { entityId := candidate.id
          canonicalName := candidate.canonicalName
          description := candidate.description
          aliases := uniqueAliases services [context.text]
          isNew := false }
  | none =>
      match mention.resolution.sameNewEntityAs with
      | none =>
          match (claimsByMentionId specs).lookup context.mentionId with
          | none => .error .undefined
          | some claim =>
              match newMentionEntityIdFor services.uuidv5 (segmentId services job) job.sourceFingerprint
                  context.mentionId claim with
              | .error error => .error (.object error)
              | .ok entityId =>
                  .ok
                    { entityId := entityId
                      canonicalName := context.text
                      description := newDescription context
                      aliases := uniqueAliases services [context.text, context.text]
                      isNew := true }
      | some anchorId =>
          match placed.occurrenceEntities.get? anchorId with
          | none => .error (.groupMissing context.mentionId)
          | some grouped =>
              .ok
                { entityId := grouped.id
                  canonicalName := grouped.canonicalName
                  description := grouped.description
                  aliases := uniqueAliases services (grouped.aliases ++ [context.text])
                  isNew := grouped.isNew }

/-- An entity that is there only gains aliases. -/
def mergeEntity (placed : MentionEntities Embedding) (placement : Placement) : PreparedEntity Embedding :=
  match placed.entitiesById.get? placement.entityId with
  | none =>
      { id := placement.entityId
        canonicalName := placement.canonicalName
        normalizedName := normalizeName services.caseFold placement.canonicalName
        description := placement.description
        aliases := placement.aliases
        embedding := none
        isNew := placement.isNew }
  | some previous =>
      { previous with aliases := uniqueAliases services (previous.aliases ++ placement.aliases) }

def prepareMention (specs : List ContextSpec) (placed : MentionEntities Embedding)
    (mention : ValidatedMentionResolution) : Except EngineError (MentionEntities Embedding) := do
  let placement ← placeMention services job specs placed mention
  let entity := mergeEntity services placed placement
  .ok
    { entitiesById := placed.entitiesById.set placement.entityId entity
      occurrenceEntities := placed.occurrenceEntities.set mention.context.mentionId entity }

def prepareMentions (specs : List ContextSpec) (mentions : List ValidatedMentionResolution) :
    Except EngineError (MentionEntities Embedding) :=
  mentions.foldlM (prepareMention services job specs)
    { entitiesById := OrderedMap.empty
      occurrenceEntities := OrderedMap.empty }

/-! ### Documents -/

def claimDocument (claim : ExtractedClaim) : Except EngineError JsString := do
  let text ← claimText claim
  .ok (truncateUtf8Bytes text MAX_EMBEDDING_INPUT_BYTES)

def entityDocument (entity : PreparedEntity Embedding) : JsString :=
  truncateUtf8Bytes (entity.canonicalName ++ ofString ": " ++ entity.description) MAX_EMBEDDING_INPUT_BYTES

/-- The entity of a claim's object, where it has one. -/
def objectOccurrence (occurrences : OrderedMap JsString (PreparedEntity Embedding))
    (kept : ValidatedClaimDecision) : Option (PreparedEntity Embedding) :=
  match kept.claim.objectEntity with
  | none => none
  | some _ => occurrences.get? (objectMention kept.index)

def prepareClaim (occurrences : OrderedMap JsString (PreparedEntity Embedding))
    (kept : ValidatedClaimDecision) (embedding : Embedding) :
    Except EngineError (PreparedClaim Embedding) :=
  let claim := kept.claim
  match occurrences.get? (subjectMention kept.index) with
  | none => .error (.missingSubject kept.index)
  | some subjectEntity =>
      let objectEntity := objectOccurrence occurrences kept
      if claim.objectEntity.isSome && objectEntity.isNone then .error (.missingObject kept.index)
      else
        let objectEntityId := objectEntity.map PreparedEntity.id
        match equivalenceKey services.sha256 services.caseFold subjectEntity.id claim.predicate
            objectEntityId claim.objectValue with
        | .error error => .error (.object error)
        | .ok key =>
            .ok
              { id := claimIdFor services.uuidv5 (segmentId services job) kept.index
                subject := claim.subject
                subjectEntityId := subjectEntity.id
                predicate := claim.predicate
                confidence := claim.confidence
                objectEntity := claim.objectEntity
                objectEntityId := objectEntityId
                objectValue := claim.objectValue
                equivalenceKey := key
                embedding := embedding }

def embedEntities (entities : List (PreparedEntity Embedding)) (entityEmbeddings : List Embedding) :
    List (PreparedEntity Embedding) :=
  let newEntities := entities.filter PreparedEntity.isNew
  let embeddingByEntity := ofEntries ((newEntities.map PreparedEntity.id).zip entityEmbeddings)
  entities.map fun entity => { entity with embedding := embeddingByEntity.lookup entity.id }

def preparePlan (extracted : ExtractionResult) (specs : List ContextSpec) (plan : ValidatedResolutionPlan) :
    Except EngineError (Prepared Embedding) := do
  let placed ← prepareMentions services job specs plan.mentions
  let entities := placed.entitiesById.values
  let newEntities := entities.filter PreparedEntity.isNew
  let claimTexts ← plan.keptClaims.mapM fun kept => claimDocument kept.claim
  let documentEmbeddings ←
    services.embed (claimTexts ++ newEntities.map entityDocument) (ofString "document")
  if documentEmbeddings.length ≠ plan.keptClaims.length + newEntities.length then
    .error .documentEmbeddings
  else
    let claimEmbeddings := documentEmbeddings.take plan.keptClaims.length
    let entityEmbeddings := documentEmbeddings.drop plan.keptClaims.length
    let claims ← (plan.keptClaims.zip claimEmbeddings).mapM fun (kept, embedding) =>
      prepareClaim services job placed.occurrenceEntities kept embedding
    .ok
      { id := job.segmentId
        sessionId := job.request.sessionId
        startUserMessageId := job.request.startUserMessageId
        boundary := job.request.boundary
        summary := extracted.summary
        projectionVersion := job.request.projectionVersion
        entities := embedEntities entities entityEmbeddings
        claims := claims }

def resolve (extracted : ExtractionResult) : Except EngineError (Prepared Embedding) := do
  let (specs, contexts) ← mentionContexts services extracted
  let plan ← resolutionPlan services job extracted contexts
  preparePlan services job extracted specs plan

end Engine

end ExtractionEngine

end Reflection
