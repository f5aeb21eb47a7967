/-
The tables of entities, aliases, segments and claims, and what a commit of a resolution writes to them.

The statements come in their order, and the first constraint that is violated rolls all of them back.
A commit under a newer projection writes nothing. Rows are keyed by their primary keys, and a segment's
column is the id made from its name.
-/

import Reflection.Foundation.ReferenceGraph
import Reflection.Server.ExtractionEngine

namespace Reflection.Database

open JsString ExtractionEngine

/-! ### Rows -/

/-- A row of entities. -/
structure EntityRow (Embedding : Type) where
  canonicalName : JsString
  normalizedName : JsString
  description : JsString
  embedding : Embedding

/-- A row of claims. -/
structure ClaimRow (Embedding : Type) where
  segmentId : JsString
  claim : PreparedClaim Embedding

structure EntityTables (Embedding : Type) where
  entities : OrderedMap JsString (EntityRow Embedding)
  /-- keyed by entity and normalized alias -/
  aliases : OrderedMap (JsString × JsString) JsString
  segments : OrderedMap JsString PreparedSegment
  claims : OrderedMap JsString (ClaimRow Embedding)

inductive EntityTablesError
  /-- embedding is not null -/
  | nullEmbedding (entityId : JsString)
  /-- a foreign key to entities -/
  | missingEntity (entityId : JsString)
  /-- the primary key of claims -/
  | duplicateClaim (claimId : JsString)
  /-- claims_object_kind_check -/
  | objectKind (claimId : JsString)
deriving DecidableEq

/-- The columns of a claim that refer to entities. -/
def claimEnds {Embedding : Type} (claim : PreparedClaim Embedding) : List JsString :=
  claim.subjectEntityId :: claim.objectEntityId.toList

/-- claims_object_kind_check. -/
def objectKindCheck {Embedding : Type} (claim : PreparedClaim Embedding) : Bool :=
  claim.objectEntity.isSome && claim.objectEntityId.isSome && claim.objectValue.isNone ||
    claim.objectEntity.isNone && claim.objectEntityId.isNone && claim.objectValue.isSome

namespace EntityTables

variable {Embedding : Type}

def empty : EntityTables Embedding :=
  { entities := .empty
    aliases := .empty
    segments := .empty
    claims := .empty }

variable (tables : EntityTables Embedding)

def hasEntity (id : JsString) : Bool := (tables.entities.get? id).isSome

/-- Some claim has the entity as its subject or its object. -/
def refersTo (id : JsString) : Bool := tables.claims.values.any fun row => (claimEnds row.claim).contains id

/-! ### Statements -/

/-- The ids of both ends of the segment's claims. -/
def oldEntityIds (segmentId : JsString) : List JsString :=
  ((tables.claims.values.filter fun row => row.segmentId == segmentId).flatMap fun row =>
    claimEnds row.claim).dedup

/-- INSERT INTO entities … ON CONFLICT (id) DO UPDATE. -/
def insertEntity (entity : PreparedEntity Embedding) :
    Except EntityTablesError (EntityTables Embedding) :=
  match entity.embedding with
  | none => .error (.nullEmbedding entity.id)
  | some embedding =>
      .ok
        { tables with
          entities := tables.entities.set entity.id
            { canonicalName := entity.canonicalName
              normalizedName := entity.normalizedName
              description := entity.description
              embedding := embedding } }

/-- INSERT INTO entity_aliases … ON CONFLICT (entity_id, normalized_alias) DO NOTHING. -/
def insertAlias (caseFold : JsString → JsString) (entityId name : JsString) :
    Except EntityTablesError (EntityTables Embedding) :=
  let key := (entityId, normalizeName caseFold name)
  match tables.aliases.get? key with
  | some _ => .ok tables
  | none =>
      if tables.hasEntity entityId then .ok { tables with aliases := tables.aliases.set key name }
      else .error (.missingEntity entityId)

def insertAliases (caseFold : JsString → JsString) (entity : PreparedEntity Embedding) :
    Except EntityTablesError (EntityTables Embedding) :=
  entity.aliases.foldlM (fun before name => before.insertAlias caseFold entity.id name) tables

/-- INSERT INTO segments … ON CONFLICT (id) DO UPDATE. -/
def upsertSegment (segmentId : JsString) (segment : PreparedSegment) : EntityTables Embedding :=
  { tables with segments := tables.segments.set segmentId segment }

/-- DELETE FROM claims WHERE segment_id = $1. -/
def deleteClaims (segmentId : JsString) : EntityTables Embedding :=
  { tables with claims := tables.claims.filter fun _ row => row.segmentId != segmentId }

def insertClaim (segmentId : JsString) (claim : PreparedClaim Embedding) :
    Except EntityTablesError (EntityTables Embedding) :=
  if (tables.claims.get? claim.id).isSome then .error (.duplicateClaim claim.id)
  else if !objectKindCheck claim then .error (.objectKind claim.id)
  else
    match (claimEnds claim).find? fun id => !tables.hasEntity id with
    | some missing => .error (.missingEntity missing)
    | none =>
        .ok
          { tables with
            claims := tables.claims.set claim.id
              { segmentId := segmentId
                claim := claim } }

/-- DELETE FROM entities of these ids that no claim refers to; their aliases go with them. -/
def deleteUnreferenced (entityIds : List JsString) : EntityTables Embedding :=
  let deleted (id : JsString) : Bool := entityIds.contains id && !tables.refersTo id
  { tables with
    entities := tables.entities.filter fun id _ => !deleted id
    aliases := tables.aliases.filter fun key _ => !deleted key.1 }

/-! ### The commit -/

/-- The projection the segment has is newer than the prepared one. -/
def newerProjection (segmentId : JsString) (prepared : Prepared Embedding) : Bool :=
  (tables.segments.get? segmentId).any fun existing =>
    decide (prepared.projectionVersion < existing.projectionVersion)

/-- The writes of `commitResolution` to these tables. -/
def commitResolution (uuidv5 : JsString → JsString → JsString) (caseFold : JsString → JsString)
    (prepared : Prepared Embedding) : Except EntityTablesError (EntityTables Embedding) := do
  let segmentId := uuidv5 prepared.id.text SEGMENT_NAMESPACE
  if tables.newerProjection segmentId prepared then .ok tables
  else
    let entityIds := tables.oldEntityIds segmentId
    let withEntities ← (prepared.entities.filter PreparedEntity.isNew).foldlM insertEntity tables
    let withAliases ← prepared.entities.foldlM (fun before entity => before.insertAliases caseFold entity)
      withEntities
    let replaced := (withAliases.upsertSegment segmentId prepared.toPreparedSegment).deleteClaims segmentId
    let withClaims ← prepared.claims.foldlM (fun before claim => before.insertClaim segmentId claim) replaced
    .ok (withClaims.deleteUnreferenced entityIds)

end EntityTables

end Reflection.Database
