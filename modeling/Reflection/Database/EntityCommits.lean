/-
What a commit of a resolution does to the tables of entities and claims.

Over the claims and the entities they refer to it replaces the segment's claims and collects the
entities these let go of. So no claim dangles and no entity is left over, and a commit is refused
where an entity that is not new has gone.
-/

import Reflection.Database.EntityTables

namespace Reflection.Database

open JsString ExtractionEngine

namespace EntityTables

variable {Embedding : Type} {tables after : EntityTables Embedding} {segmentId id : JsString}
variable {uuidv5 : JsString → JsString → JsString} {caseFold : JsString → JsString}

/-! ### Claims and the entities they refer to -/

def Refers (row : ClaimRow Embedding) (id : JsString) : Prop := id ∈ claimEnds row.claim

def graph (tables : EntityTables Embedding) : ReferenceGraph (ClaimRow Embedding) JsString :=
  { records := { row | ∃ key, tables.claims.get? key = some row }
    targets := { id | tables.hasEntity id = true } }

/-- Aliases name entities that are there. -/
def Named (tables : EntityTables Embedding) : Prop :=
  ∀ key name, tables.aliases.get? key = some name → tables.hasEntity key.1 = true

theorem refersTo_iff :
    tables.refersTo id = true ↔ ∃ row, (∃ key, tables.claims.get? key = some row) ∧ Refers row id := by
  unfold refersTo Refers
  rw [List.any_eq_true]
  simp only [OrderedMap.mem_values, List.contains_iff_mem]

theorem mem_oldEntityIds : id ∈ tables.oldEntityIds segmentId ↔
    ∃ row, (∃ key, tables.claims.get? key = some row) ∧ row.segmentId = segmentId ∧ Refers row id := by
  unfold oldEntityIds Refers
  rw [List.mem_dedup, List.mem_flatMap]
  simp only [List.mem_filter, OrderedMap.mem_values, beq_iff_eq, and_assoc]

/-! ### Statements -/

/-- Entities were opened and nothing else was written. -/
structure Opened (tables : EntityTables Embedding) (ids : List JsString) (after : EntityTables Embedding) : Prop where
  aliases : after.aliases = tables.aliases
  segments : after.segments = tables.segments
  claims : after.claims = tables.claims
  entities : ∀ id, after.hasEntity id = true ↔ tables.hasEntity id = true ∨ id ∈ ids

theorem hasEntity_set {entities : OrderedMap JsString (EntityRow Embedding)} {key : JsString}
    {row : EntityRow Embedding} :
    ((entities.set key row).get? id).isSome = true ↔ (entities.get? id).isSome = true ∨ id = key := by
  by_cases same : id = key
  · rw [same, OrderedMap.get?_set_self]
    simp
  · rw [OrderedMap.get?_set_ne same]
    simp [same]

theorem insertEntity_ok {entity : PreparedEntity Embedding} (done : tables.insertEntity entity = .ok after) :
    Opened tables [entity.id] after := by
  unfold insertEntity at done
  split at done
  · cases done
  · cases done
    refine ⟨rfl, rfl, rfl, fun id => ?_⟩
    rw [List.mem_singleton]
    exact hasEntity_set

theorem insertEntities_ok {entities : List (PreparedEntity Embedding)}
    (done : entities.foldlM insertEntity tables = .ok after) :
    Opened tables (entities.map PreparedEntity.id) after := by
  induction entities generalizing tables with
  | nil =>
      cases done
      exact ⟨rfl, rfl, rfl, fun id => (or_iff_left List.not_mem_nil).symm⟩
  | cons entity rest ih =>
      rw [List.foldlM_cons] at done
      obtain ⟨next, inserted, done⟩ := except_bind_ok done
      have first := insertEntity_ok inserted
      have others := ih done
      refine ⟨others.aliases.trans first.aliases, others.segments.trans first.segments,
        others.claims.trans first.claims, fun id => ?_⟩
      rw [others.entities, first.entities, List.mem_singleton, List.map_cons, List.mem_cons, or_assoc]

theorem insertEntities_returns {entities : List (PreparedEntity Embedding)}
    (embedded : ∀ entity ∈ entities, entity.embedding.isSome = true) :
    ∃ after, entities.foldlM insertEntity tables = .ok after := by
  induction entities generalizing tables with
  | nil => exact ⟨tables, rfl⟩
  | cons entity rest ih =>
      obtain ⟨embedding, isEmbedding⟩ := Option.isSome_iff_exists.mp (embedded entity List.mem_cons_self)
      rw [List.foldlM_cons, insertEntity, isEmbedding]
      exact ih fun other inside => embedded other (List.mem_cons_of_mem _ inside)

/-- Aliases were added to entities that are there and nothing else was written. -/
structure Renamed (tables after : EntityTables Embedding) : Prop where
  entities : after.entities = tables.entities
  segments : after.segments = tables.segments
  claims : after.claims = tables.claims
  named : tables.Named → after.Named

theorem Renamed.refl : Renamed tables tables := ⟨rfl, rfl, rfl, id⟩

theorem Renamed.trans {middle : EntityTables Embedding} (first : Renamed tables middle)
    (second : Renamed middle after) : Renamed tables after :=
  ⟨second.entities.trans first.entities, second.segments.trans first.segments, second.claims.trans first.claims,
    fun named => second.named (first.named named)⟩

theorem insertAlias_ok {entityId name : JsString} (done : tables.insertAlias caseFold entityId name = .ok after) :
    Renamed tables after := by
  unfold insertAlias at done
  dsimp only at done
  split at done
  · cases done
    exact .refl
  · split at done
    · rename_i known
      cases done
      refine ⟨rfl, rfl, rfl, fun named key stored found => ?_⟩
      by_cases same : key = (entityId, normalizeName caseFold name)
      · rw [same]
        exact known
      · rw [OrderedMap.get?_set_ne same] at found
        exact named key stored found
    · cases done

theorem insertAlias_returns {entityId name : JsString} (known : tables.hasEntity entityId = true) :
    ∃ after, tables.insertAlias caseFold entityId name = .ok after := by
  unfold insertAlias
  dsimp only
  split
  · exact ⟨tables, rfl⟩
  · rw [if_pos known]
    exact ⟨_, rfl⟩

theorem hasEntity_congr (same : after.entities = tables.entities) : after.hasEntity id = tables.hasEntity id := by
  rw [hasEntity, same, hasEntity]

/-- Steps that only add aliases do so together. -/
theorem renamed_foldlM {Item : Type} {step : EntityTables Embedding → Item → Except EntityTablesError (EntityTables Embedding)}
    (each : ∀ before item next, step before item = .ok next → Renamed before next) {items : List Item}
    (done : items.foldlM step tables = .ok after) : Renamed tables after := by
  induction items generalizing tables with
  | nil =>
      cases done
      exact .refl
  | cons item rest ih =>
      rw [List.foldlM_cons] at done
      obtain ⟨next, stepped, done⟩ := except_bind_ok done
      exact (each tables item next stepped).trans (ih done)

/-- They return where each does, whatever aliases were added before. -/
theorem renamed_foldlM_returns {Item : Type}
    {step : EntityTables Embedding → Item → Except EntityTablesError (EntityTables Embedding)}
    (each : ∀ before item next, step before item = .ok next → Renamed before next) {items : List Item}
    (returns : ∀ item ∈ items, ∀ before, Renamed tables before → ∃ next, step before item = .ok next) :
    ∃ after, items.foldlM step tables = .ok after := by
  suffices general : ∀ before, Renamed tables before → ∃ after, items.foldlM step before = .ok after from
    general tables .refl
  induction items with
  | nil => exact fun before _ => ⟨before, rfl⟩
  | cons item rest ih =>
      intro before renamed
      obtain ⟨next, stepped⟩ := returns item List.mem_cons_self before renamed
      rw [List.foldlM_cons, stepped, except_ok_bind]
      exact ih (fun other inside => returns other (List.mem_cons_of_mem _ inside)) next
        (renamed.trans (each before item next stepped))

theorem insertAliases_ok {entity : PreparedEntity Embedding}
    (done : tables.insertAliases caseFold entity = .ok after) : Renamed tables after :=
  renamed_foldlM (fun _ _ _ inserted => insertAlias_ok inserted) done

theorem insertAliases_returns {entity : PreparedEntity Embedding} (known : tables.hasEntity entity.id = true) :
    ∃ after, tables.insertAliases caseFold entity = .ok after := by
  apply renamed_foldlM_returns fun _ _ _ inserted => insertAlias_ok inserted
  intro name _ before renamed
  apply insertAlias_returns
  rw [hasEntity_congr renamed.entities]
  exact known

/-- Claims of a segment were added over entities that are there, and nothing else was written. -/
structure Claimed (tables : EntityTables Embedding) (segmentId : JsString) (claims : List (PreparedClaim Embedding))
    (after : EntityTables Embedding) : Prop where
  entities : after.entities = tables.entities
  aliases : after.aliases = tables.aliases
  segments : after.segments = tables.segments
  rows : ∀ id row, after.claims.get? id = some row ↔ tables.claims.get? id = some row ∨
    ∃ claim ∈ claims, claim.id = id ∧ row = { segmentId := segmentId, claim := claim }
  known : ∀ claim ∈ claims, ∀ id ∈ claimEnds claim, tables.hasEntity id = true

theorem insertClaim_cases {claim : PreparedClaim Embedding} (done : tables.insertClaim segmentId claim = .ok after) :
    tables.claims.get? claim.id = none ∧ (∀ id ∈ claimEnds claim, tables.hasEntity id = true) ∧
      after = { tables with claims := tables.claims.set claim.id { segmentId := segmentId, claim := claim } } := by
  unfold insertClaim at done
  split at done
  · cases done
  · rename_i fresh
    split at done
    · cases done
    · split at done
      · cases done
      · rename_i noneMissing
        cases done
        refine ⟨Option.not_isSome_iff_eq_none.mp fresh, fun id inside => ?_, rfl⟩
        have present := List.find?_eq_none.mp noneMissing id inside
        rw [Bool.not_eq_true', Bool.not_eq_false] at present
        exact present

/-- A row that is added to a map without its key. -/
theorem get?_set_fresh {rows : OrderedMap JsString (ClaimRow Embedding)} {key id : JsString}
    {added row : ClaimRow Embedding} (fresh : rows.get? key = none) :
    (rows.set key added).get? id = some row ↔ rows.get? id = some row ∨ key = id ∧ row = added := by
  by_cases same : id = key
  · rw [same, OrderedMap.get?_set_self, fresh, Option.some.injEq]
    simp [eq_comm]
  · rw [OrderedMap.get?_set_ne same]
    simp [Ne.symm same]

theorem insertClaims_ok {claims : List (PreparedClaim Embedding)}
    (done : claims.foldlM (fun before claim => before.insertClaim segmentId claim) tables = .ok after) :
    Claimed tables segmentId claims after := by
  induction claims generalizing tables with
  | nil =>
      cases done
      refine ⟨rfl, rfl, rfl, fun id row => (or_iff_left ?_).symm, fun _ none => absurd none List.not_mem_nil⟩
      rintro ⟨_, none, _⟩
      exact List.not_mem_nil none
  | cons claim rest ih =>
      rw [List.foldlM_cons] at done
      obtain ⟨next, inserted, done⟩ := except_bind_ok done
      obtain ⟨fresh, known, same⟩ := insertClaim_cases inserted
      have others := ih done
      subst same
      refine ⟨others.entities, others.aliases, others.segments, fun id row => ?_, fun other inside => ?_⟩
      · rw [others.rows, get?_set_fresh fresh, or_assoc]
        apply or_congr_right
        constructor
        · rintro (⟨isKey, isRow⟩ | ⟨other, inside, isOther⟩)
          · exact ⟨claim, List.mem_cons_self, isKey, isRow⟩
          · exact ⟨other, List.mem_cons_of_mem _ inside, isOther⟩
        · rintro ⟨other, inside, isKey, isRow⟩
          rcases List.mem_cons.mp inside with isFirst | isLater
          · rw [isFirst] at isKey isRow
            exact Or.inl ⟨isKey, isRow⟩
          · exact Or.inr ⟨other, isLater, isKey, isRow⟩
      · rcases List.mem_cons.mp inside with isFirst | isLater
        · rw [isFirst]
          exact known
        · exact others.known other isLater

theorem insertClaims_returns {claims : List (PreparedClaim Embedding)}
    (fresh : ∀ claim ∈ claims, tables.claims.get? claim.id = none) (distinct : (claims.map PreparedClaim.id).Nodup)
    (kinds : ∀ claim ∈ claims, objectKindCheck claim = true)
    (known : ∀ claim ∈ claims, ∀ id ∈ claimEnds claim, tables.hasEntity id = true) :
    ∃ after, claims.foldlM (fun before claim => before.insertClaim segmentId claim) tables = .ok after := by
  induction claims generalizing tables with
  | nil => exact ⟨tables, rfl⟩
  | cons claim rest ih =>
      have inserted : tables.insertClaim segmentId claim =
          .ok { tables with
            claims := tables.claims.set claim.id
              { segmentId := segmentId
                claim := claim } } := by
        have noneMissing : (claimEnds claim).find? (fun id => !tables.hasEntity id) = none := by
          rw [List.find?_eq_none]
          intro id isEnd
          rw [known claim List.mem_cons_self id isEnd]
          exact Bool.false_ne_true
        unfold insertClaim
        rw [fresh claim List.mem_cons_self, kinds claim List.mem_cons_self, noneMissing]
        rfl
      rw [List.foldlM_cons, inserted, except_ok_bind]
      rw [List.map_cons, List.nodup_cons] at distinct
      refine ih (fun other inside => ?_) distinct.2 (fun other inside => kinds other (List.mem_cons_of_mem _ inside))
        fun other inside => known other (List.mem_cons_of_mem _ inside)
      have different : other.id ≠ claim.id := by
        intro same
        apply distinct.1
        rw [← same]
        exact List.mem_map_of_mem inside
      rw [OrderedMap.get?_set_ne different]
      exact fresh other (List.mem_cons_of_mem _ inside)

/-- An entity is deleted when its id is listed and no claim refers to it. -/
theorem hasEntity_deleteUnreferenced {entityIds : List JsString} :
    (tables.deleteUnreferenced entityIds).hasEntity id = true ↔
      tables.hasEntity id = true ∧ (id ∈ entityIds → tables.refersTo id = true) := by
  unfold hasEntity deleteUnreferenced
  dsimp only
  rw [Option.isSome_iff_exists, Option.isSome_iff_exists]
  simp only [OrderedMap.get?_filter, exists_and_right, Bool.not_eq_true', Bool.and_eq_false_iff,
    Bool.not_eq_false', List.contains_eq_mem, decide_eq_false_iff_not]
  exact and_congr_right fun _ => imp_iff_not_or.symm

theorem named_deleteUnreferenced {entityIds : List JsString} (named : tables.Named) :
    (tables.deleteUnreferenced entityIds).Named := by
  intro key name found
  obtain ⟨stored, isKept⟩ := OrderedMap.get?_filter.mp found
  rw [hasEntity_deleteUnreferenced]
  refine ⟨named key name stored, fun listed => ?_⟩
  rw [Bool.not_eq_true', Bool.and_eq_false_iff, List.contains_eq_mem, decide_eq_false_iff_not,
    Bool.not_eq_false'] at isKept
  exact isKept.resolve_left fun absent => absent listed

/-! ### The commit -/

/-- What a commit writes when the segment has no newer projection. -/
structure Written (tables : EntityTables Embedding) (segmentId : JsString) (prepared : Prepared Embedding)
    (after : EntityTables Embedding) : Prop where
  segments : after.segments = tables.segments.set segmentId prepared.toPreparedSegment
  claims : ∀ id row, after.claims.get? id = some row ↔
    tables.claims.get? id = some row ∧ row.segmentId ≠ segmentId ∨
      ∃ claim ∈ prepared.claims, claim.id = id ∧ row = { segmentId := segmentId, claim := claim }
  entities : ∀ id, after.hasEntity id = true ↔
    (tables.hasEntity id = true ∨ ∃ entity ∈ prepared.entities, entity.isNew = true ∧ entity.id = id) ∧
      (id ∈ tables.oldEntityIds segmentId → after.refersTo id = true)
  known : ∀ claim ∈ prepared.claims, ∀ id ∈ claimEnds claim,
    tables.hasEntity id = true ∨ ∃ entity ∈ prepared.entities, entity.isNew = true ∧ entity.id = id
  named : tables.Named → after.Named

theorem commitResolution_cases {prepared : Prepared Embedding}
    (done : tables.commitResolution uuidv5 caseFold prepared = .ok after) :
    let segmentId := uuidv5 prepared.id.text SEGMENT_NAMESPACE
    (tables.newerProjection segmentId prepared = true ∧ after = tables) ∨
      (tables.newerProjection segmentId prepared = false ∧ Written tables segmentId prepared after) := by
  intro segmentId
  unfold commitResolution at done
  dsimp only at done
  split at done
  · rename_i newer
    cases done
    exact Or.inl ⟨newer, rfl⟩
  · rename_i notNewer
    rw [Bool.not_eq_true] at notNewer
    obtain ⟨withEntities, opening, done⟩ := except_bind_ok done
    obtain ⟨withAliases, naming, done⟩ := except_bind_ok done
    obtain ⟨withClaims, claiming, same⟩ := except_bind_ok done
    cases same
    have opened := insertEntities_ok opening
    have renamed := renamed_foldlM (fun _ _ _ inserted => insertAliases_ok inserted) naming
    have claimed := insertClaims_ok claiming
    have present : ∀ id, withAliases.hasEntity id = true ↔
        tables.hasEntity id = true ∨ ∃ entity ∈ prepared.entities, entity.isNew = true ∧ entity.id = id := by
      intro id
      rw [hasEntity_congr renamed.entities, opened.entities, List.mem_map]
      simp only [List.mem_filter, and_assoc]
    refine Or.inr ⟨notNewer, ?_, fun id row => ?_, fun id => ?_, fun claim inside id isEnd => ?_, fun named => ?_⟩
    · change withClaims.segments = _
      rw [claimed.segments]
      change withAliases.segments.set _ _ = _
      rw [renamed.segments, opened.segments]
    · change withClaims.claims.get? id = some row ↔ _
      rw [claimed.rows]
      apply or_congr_left
      change (withAliases.claims.filter _).get? id = some row ↔ _
      rw [OrderedMap.get?_filter, renamed.claims, opened.claims, bne_iff_ne]
    · rw [hasEntity_deleteUnreferenced, hasEntity_congr claimed.entities]
      exact and_congr_left fun _ => present id
    · exact (present id).mp (claimed.known claim inside id isEnd)
    · apply named_deleteUnreferenced
      intro key name found
      rw [claimed.aliases] at found
      rw [hasEntity_congr claimed.entities]
      refine renamed.named (fun other stored isStored => ?_) key name found
      rw [opened.aliases] at isStored
      exact (opened.entities other.1).mpr (Or.inl (named other stored isStored))

/-! ### Soundness -/

/-- What a resolution hands back fits together: its claims refer to its entities alone and to each of
them, its new entities are embedded, and the claims are named for the segment. -/
structure Fits (uuidv5 : JsString → JsString → JsString) (segmentId : JsString) (prepared : Prepared Embedding) :
    Prop where
  ends : ∀ claim ∈ prepared.claims, ∀ id ∈ claimEnds claim, ∃ entity ∈ prepared.entities, entity.id = id
  used : ∀ entity ∈ prepared.entities, ∃ claim ∈ prepared.claims, entity.id ∈ claimEnds claim
  entities : ∀ one ∈ prepared.entities, ∀ other ∈ prepared.entities, one.id = other.id → one = other
  embedded : ∀ entity ∈ prepared.entities, entity.isNew = true → entity.embedding.isSome = true
  kinds : ∀ claim ∈ prepared.claims, objectKindCheck claim = true
  distinct : (prepared.claims.map PreparedClaim.id).Nodup
  owned : ∀ claim ∈ prepared.claims, ∃ index, claim.id = claimIdFor uuidv5 segmentId index

structure Sound (uuidv5 : JsString → JsString → JsString) (tables : EntityTables Embedding) : Prop where
  graph : tables.graph.Sound Refers
  named : tables.Named
  /-- a claim belongs to a segment that is there -/
  segments : ∀ id row, tables.claims.get? id = some row → (tables.segments.get? row.segmentId).isSome = true
  /-- and is named for it -/
  owned : ∀ id row, tables.claims.get? id = some row → ∃ index, id = claimIdFor uuidv5 row.segmentId index

theorem empty_sound : (empty : EntityTables Embedding).Sound uuidv5 := by
  refine ⟨⟨?_, ?_⟩, ?_, ?_, ?_⟩
  · rintro row ⟨key, absent⟩
    cases absent
  · intro id absent
    cases absent
  · intro key name absent
    cases absent
  · intro id row absent
    cases absent
  · intro id row absent
    cases absent

/-- The graph behind the tables is replaced. -/
theorem Written.graph {prepared : Prepared Embedding} (written : Written tables segmentId prepared after) :
    after.graph = tables.graph.replace Refers { row | row.segmentId = segmentId }
      { row | ∃ claim ∈ prepared.claims, row = { segmentId := segmentId, claim := claim } }
      { id | ∃ entity ∈ prepared.entities, entity.isNew = true ∧ entity.id = id }
      { id | id ∈ tables.oldEntityIds segmentId } := by
  have records : after.graph.records = tables.graph.recordsAfter { row | row.segmentId = segmentId }
      { row | ∃ claim ∈ prepared.claims, row = { segmentId := segmentId, claim := claim } } := by
    ext row
    constructor
    · rintro ⟨key, found⟩
      rcases (written.claims key row).mp found with ⟨old, other⟩ | ⟨claim, inside, _, isRow⟩
      · exact Or.inl ⟨⟨key, old⟩, other⟩
      · exact Or.inr ⟨claim, inside, isRow⟩
    · rintro (⟨⟨key, old⟩, other⟩ | ⟨claim, inside, isRow⟩)
      · exact ⟨key, (written.claims key row).mpr (Or.inl ⟨old, other⟩)⟩
      · exact ⟨claim.id, (written.claims claim.id row).mpr (Or.inr ⟨claim, inside, rfl, isRow⟩)⟩
  unfold ReferenceGraph.replace
  rw [← records]
  unfold EntityTables.graph
  congr 1
  ext id
  refine (written.entities id).trans (and_congr_right fun _ => imp_congr_right fun _ => ?_)
  rw [refersTo_iff]
  change _ ↔ ∃ row ∈ tables.graph.recordsAfter _ _, Refers row id
  rw [← records]
  rfl

theorem Sound.commitResolution (sound : tables.Sound uuidv5) {prepared : Prepared Embedding}
    (fits : Fits uuidv5 (uuidv5 prepared.id.text SEGMENT_NAMESPACE) prepared)
    (done : tables.commitResolution uuidv5 caseFold prepared = .ok after) : after.Sound uuidv5 := by
  rcases commitResolution_cases done with ⟨_, same⟩ | ⟨_, written⟩
  · rw [same]
    exact sound
  · refine ⟨?_, written.named sound.named, fun id row found => ?_, fun id row found => ?_⟩
    · rw [written.graph]
      apply sound.graph.replace
      · rintro row ⟨claim, inside, isRow⟩ id isEnd
        rw [isRow] at isEnd
        exact written.known claim inside id isEnd
      · rintro id ⟨entity, inside, isNew, isId⟩
        obtain ⟨claim, isClaim, isEnd⟩ := fits.used entity inside
        rw [← isId]
        exact ⟨_, ⟨claim, isClaim, rfl⟩, isEnd⟩
      · rintro row isRow isDropped id isEnd
        exact mem_oldEntityIds.mpr ⟨row, isRow, isDropped, isEnd⟩
    · rw [written.segments]
      rcases (written.claims id row).mp found with ⟨old, other⟩ | ⟨claim, _, _, isRow⟩
      · rw [OrderedMap.get?_set_ne other]
        exact sound.segments id row old
      · rw [isRow, OrderedMap.get?_set_self]
        rfl
    · rcases (written.claims id row).mp found with ⟨old, _⟩ | ⟨claim, inside, isId, isRow⟩
      · exact sound.owned id row old
      · rw [← isId, isRow]
        exact fits.owned claim inside

/-! ### When a commit is refused -/

/-- Claims of two segments have different ids. -/
theorem claimIdFor_segment (unique : ∀ namespaceId, Function.Injective fun name => uuidv5 name namespaceId)
    {one other : JsString} {first second : Nat}
    (same : claimIdFor uuidv5 one first = claimIdFor uuidv5 other second) : one = other := by
  have noSeparator : ∀ index, (0 : UInt16) ∉ decimal index := by
    intro index inside
    have range := decimal_digit inside
    simp at range
  have texts : one ++ 0 :: decimal first = other ++ 0 :: decimal second := by
    have names := unique CLAIM_NAMESPACE same
    rw [List.append_assoc, List.append_assoc] at names
    exact names
  rcases List.append_eq_append_iff.mp texts with ⟨between, isOther, rest⟩ | ⟨between, isOne, rest⟩
  · cases between with
    | nil => rw [isOther, List.append_nil]
    | cons unit more =>
        have inside := (List.cons.inj rest).2
        exact absurd (inside ▸ List.mem_append_right more List.mem_cons_self) (noSeparator first)
  · cases between with
    | nil => rw [isOne, List.append_nil]
    | cons unit more =>
        have inside := (List.cons.inj rest).2
        exact absurd (inside ▸ List.mem_append_right more List.mem_cons_self) (noSeparator second)

/-- A commit is carried out where the segment has a newer projection, or every entity that is not new
is still there. -/
theorem commitResolution_returns_iff
    (unique : ∀ namespaceId, Function.Injective fun name => uuidv5 name namespaceId)
    (sound : tables.Sound uuidv5) {prepared : Prepared Embedding}
    (fits : Fits uuidv5 (uuidv5 prepared.id.text SEGMENT_NAMESPACE) prepared) :
    (∃ after, tables.commitResolution uuidv5 caseFold prepared = .ok after) ↔
      tables.newerProjection (uuidv5 prepared.id.text SEGMENT_NAMESPACE) prepared = true ∨
        ∀ entity ∈ prepared.entities, entity.isNew = false → tables.hasEntity entity.id = true := by
  constructor
  · rintro ⟨after, done⟩
    rcases commitResolution_cases done with ⟨newer, _⟩ | ⟨_, written⟩
    · exact Or.inl newer
    · right
      intro entity inside notNew
      obtain ⟨claim, isClaim, isEnd⟩ := fits.used entity inside
      rcases written.known claim isClaim entity.id isEnd with old | ⟨other, isOther, isNew, sameId⟩
      · exact old
      · have same := fits.entities other isOther entity inside sameId
        rw [same, notNew] at isNew
        cases isNew
  · intro allowed
    unfold commitResolution
    dsimp only
    split
    · exact ⟨tables, rfl⟩
    · rename_i notNewer
      have present := allowed.resolve_left notNewer
      obtain ⟨withEntities, opening⟩ := @insertEntities_returns _ tables
        (prepared.entities.filter PreparedEntity.isNew) fun entity inside =>
          fits.embedded entity (List.mem_filter.mp inside).1 (List.mem_filter.mp inside).2
      have opened := insertEntities_ok opening
      have known : ∀ entity ∈ prepared.entities, withEntities.hasEntity entity.id = true := by
        intro entity inside
        rw [opened.entities]
        cases isNew : entity.isNew with
        | true => exact Or.inr (List.mem_map_of_mem (List.mem_filter.mpr ⟨inside, isNew⟩))
        | false => exact Or.inl (present entity inside isNew)
      obtain ⟨withAliases, naming⟩ := @renamed_foldlM_returns _ withEntities _
        (fun before entity => before.insertAliases caseFold entity)
        (fun _ _ _ inserted => insertAliases_ok inserted) prepared.entities
        fun entity inside before renamed => insertAliases_returns (by
          rw [hasEntity_congr renamed.entities]
          exact known entity inside)
      have renamed := renamed_foldlM (fun _ _ _ inserted => insertAliases_ok inserted) naming
      let segmentId := uuidv5 prepared.id.text SEGMENT_NAMESPACE
      let replaced := (withAliases.upsertSegment segmentId prepared.toPreparedSegment).deleteClaims segmentId
      have fresh : ∀ claim ∈ prepared.claims, replaced.claims.get? claim.id = none := by
        intro claim inside
        rw [Option.eq_none_iff_forall_ne_some]
        intro row found
        obtain ⟨stored, isOther⟩ := OrderedMap.get?_filter.mp found
        change withAliases.claims.get? claim.id = some row at stored
        rw [renamed.claims, opened.claims] at stored
        obtain ⟨first, isFirst⟩ := sound.owned claim.id row stored
        obtain ⟨second, isSecond⟩ := fits.owned claim inside
        exact bne_iff_ne.mp isOther (claimIdFor_segment unique (isFirst.symm.trans isSecond))
      have ends : ∀ claim ∈ prepared.claims, ∀ id ∈ claimEnds claim, replaced.hasEntity id = true := by
        intro claim inside id isEnd
        obtain ⟨entity, isEntity, isId⟩ := fits.ends claim inside id isEnd
        change withAliases.hasEntity id = true
        rw [hasEntity_congr renamed.entities, ← isId]
        exact known entity isEntity
      obtain ⟨withClaims, claiming⟩ : ∃ after, prepared.claims.foldlM
          (fun before claim => before.insertClaim segmentId claim) replaced = .ok after :=
        insertClaims_returns fresh fits.distinct fits.kinds ends
      rw [opening, except_ok_bind, naming, except_ok_bind, claiming]
      exact ⟨_, rfl⟩

end EntityTables

end Reflection.Database
