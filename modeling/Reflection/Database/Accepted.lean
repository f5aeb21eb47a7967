/-
Requests a group accepts, and how much of one its columns determine.

A parsed request survives being stored and decoded again. Two accepted requests with the
same exact boundary agree on the session and the first user, because both name the same
segment. A row that carries an accepted request passes the ownership check.
-/

import Reflection.Database.Rows

namespace Reflection.Database

/-- A request of the group, as parsing returns it. -/
structure Accepted (group : Group) (request : IngestSegmentCreate) : Prop where
  parsed : parseIngestSegmentCreate request = .ok request
  owned : request.sourceId = group.source.id
  native : request.isNative = true → group.source.isNative = true
  identified : ingestSegmentIdForRequest request group.source = .ok group.segmentId

theorem Group.parseSourceId (group : Group) (name : String) :
    parseSourceId group.source.id name = .ok group.source.id := by
  rcases except_bind_ok group.registered with ⟨id, parsed, same⟩
  have sameId : id = group.source.id := congrArg SourceInfo.id (Except.ok.inj same)
  rw [sameId] at parsed
  exact parseSourceId_parsed name parsed

theorem parseIngestSegmentCreate_native {request parsed : NativeSegmentCreate}
    (accepted : parseIngestSegmentCreate (.native request) = .ok (.native parsed)) :
    parseNativeSegmentCreate request = .ok parsed := by
  rcases except_bind_ok accepted with ⟨result, made, same⟩
  cases same
  exact made

theorem parseIngestSegmentCreate_source {sourceId owner : JsString} {request parsed : SegmentCreate}
    (accepted : parseIngestSegmentCreate (.source sourceId request) = .ok (.source owner parsed)) :
    parseSegmentCreate request = .ok parsed := by
  rcases except_bind_ok accepted with ⟨owned, _, rest⟩
  rcases except_bind_ok rest with ⟨result, made, same⟩
  cases same
  exact made

/-- Parsing returns values that parse to themselves. -/
theorem parseIngestSegmentCreate_parsed {request parsed : IngestSegmentCreate}
    (accepted : parseIngestSegmentCreate request = .ok parsed) :
    parseIngestSegmentCreate parsed = .ok parsed := by
  cases request with
  | native request =>
      rcases except_bind_ok accepted with ⟨result, made, same⟩
      cases same
      rw [parseIngestSegmentCreate, parseNativeSegmentCreate_parsed made]
      rfl
  | source sourceId request =>
      rcases except_bind_ok accepted with ⟨owner, ownerMade, rest⟩
      rcases except_bind_ok rest with ⟨result, made, same⟩
      cases same
      rw [parseIngestSegmentCreate, parseSourceId_parsed "source segment request" ownerMade,
        parseSegmentCreate_parsed made]
      rfl

/-- The name a request gives its segment under an identity scheme. -/
def requestName (scheme : IdentityScheme) : IngestSegmentCreate → SegmentName
  | .native request => .source request.sourceId request.sessionId 3 request.startSourceMessageId
  | .source sourceId request =>
      match scheme with
      | .legacy => segmentIdForRequest request
      | .sourceV1 =>
          .source sourceId request.sessionId request.boundary.version request.boundary.startCursor

namespace Accepted

variable {group : Group} {request other : IngestSegmentCreate}

theorem decodes (accepted : Accepted group request) :
    decodePersistedIngestSegment (persistedRequest request) group.source.id = .ok request := by
  cases request with
  | native request =>
      unfold persistedRequest decodePersistedIngestSegment
      dsimp only
      rw [parseIngestSegmentCreate_native accepted.parsed, group.parseSourceId]
      change (if request.sourceId ≠ group.source.id then _ else _) = _
      exact if_neg (not_not.mpr accepted.owned)
  | source sourceId request =>
      have owned : sourceId = group.source.id := accepted.owned
      unfold persistedRequest decodePersistedIngestSegment
      dsimp only
      rw [parseIngestSegmentCreate_source accepted.parsed, group.parseSourceId, owned]
      rfl

theorem persistedPayload (accepted : Accepted group request) :
    persistedPayload group (persistedRequest request) = .ok (persistedRequest request) := by
  unfold Database.persistedPayload
  rw [accepted.decodes]
  rfl

theorem identifies (accepted : Accepted group request) :
    identifies group request group.segmentId = true := by
  unfold Database.identifies
  rw [accepted.identified]
  exact beq_self_eq_true _

/-- A parsed request of the group's source has its name for an identity. -/
theorem segmentId_of_parsed (parsed : parseIngestSegmentCreate request = .ok request)
    (owned : request.sourceId = group.source.id)
    (native : request.isNative = true → group.source.isNative = true) :
    ingestSegmentIdForRequest request group.source =
      .ok (requestName group.source.identityScheme request) := by
  cases request with
  | native request =>
      unfold ingestSegmentIdForRequest nativeSegmentIdForRequest
      dsimp only
      rw [parseIngestSegmentCreate_native parsed, group.registered]
      simp only [contractChecked_ok]
      change (if (!group.source.isNative) = true then _ else
        if request.sourceId ≠ group.source.id then _ else _) = _
      have allowed : ¬ (!group.source.isNative) = true := by
        rw [native rfl]
        exact Bool.false_ne_true
      rw [if_neg allowed]
      exact if_neg (not_not.mpr owned)
  | source sourceId request =>
      have sameOwner : sourceId = group.source.id := owned
      unfold ingestSegmentIdForRequest sourceSegmentIdForRequest
      dsimp only
      rw [sameOwner, group.registered, group.parseSourceId]
      simp only [contractChecked_ok]
      change (if group.source.id ≠ group.source.id then _ else _) = _
      rw [if_neg (not_not.mpr rfl)]
      cases group.source.identityScheme with
      | legacy => rfl
      | sourceV1 => rfl

/-- The name of the group's segment, read off any of its requests. -/
theorem name (accepted : Accepted group request) :
    group.segmentId = requestName group.source.identityScheme request := by
  have identified := segmentId_of_parsed accepted.parsed accepted.owned accepted.native
  rw [accepted.identified] at identified
  exact Except.ok.inj identified

/-- Only native requests have boundaries of version 3. -/
theorem native_of_version (accepted : Accepted group request)
    (version : (persistedRequest request).boundary.sourceBoundaryVersion = 3) :
    group.source.isNative = true := by
  apply accepted.native
  cases request with
  | native request => rfl
  | source sourceId request =>
      simp only [persistedRequest, PersistedIngestRequest.boundary] at version
      split at version
      · cases version
      · cases version

/-- An exact span of version 2 lies in one user turn. -/
theorem startUser_v2 {sourceId startUser endUser startSource endSource : JsString}
    {request : SegmentCreate} (accepted : Accepted group (.source sourceId request))
    (exact : request.boundary = .v2 startUser endUser startSource endSource) :
    startUser = endUser := by
  have valid := (parse_ok_iff.mp (parseIngestSegmentCreate_source accepted.parsed)).2
  simp only [segmentCreateAccepted, exact, LegacyBoundary.accepted, Bool.and_eq_true,
    beq_iff_eq] at valid
  tauto

theorem same_session (one : Accepted group request) (two : Accepted group other)
    (same : (persistedRequest request).boundary = (persistedRequest other).boundary) :
    (persistedRequest request).sessionId = (persistedRequest other).sessionId ∧
      (persistedRequest request).startUserMessageId =
        (persistedRequest other).startUserMessageId := by
  have named := one.name.symm.trans two.name
  cases request with
  | native request =>
      cases other with
      | native other =>
          simp only [requestName, SegmentName.source.injEq] at named
          exact ⟨named.2.1, rfl⟩
      | source sourceId other =>
          have version := congrArg ExactBoundary.sourceBoundaryVersion same
          simp only [persistedRequest, PersistedIngestRequest.boundary] at version
          cases bound : other.boundary with
          | v1 startUser endUser => rw [bound] at version; cases version
          | v2 startUser endUser startSource endSource => rw [bound] at version; cases version
  | source sourceId request =>
      cases other with
      | native other =>
          have version := congrArg ExactBoundary.sourceBoundaryVersion same
          simp only [persistedRequest, PersistedIngestRequest.boundary] at version
          cases bound : request.boundary with
          | v1 startUser endUser => rw [bound] at version; cases version
          | v2 startUser endUser startSource endSource => rw [bound] at version; cases version
      | source otherId other =>
          simp only [persistedRequest, PersistedIngestRequest.boundary,
            PersistedIngestRequest.sessionId, PersistedIngestRequest.startUserMessageId] at same ⊢
          cases bound : request.boundary with
          | v1 startUser endUser =>
              cases otherBound : other.boundary with
              | v1 otherStart otherEnd =>
                  cases scheme : group.source.identityScheme with
                  | legacy =>
                      simp only [requestName, scheme, segmentIdForRequest, bound, otherBound,
                        SegmentName.legacyV1.injEq] at named
                      exact ⟨named.1, congrArg some named.2⟩
                  | sourceV1 =>
                      simp only [requestName, scheme, bound, otherBound, LegacyBoundary.startCursor,
                        SegmentName.source.injEq] at named
                      exact ⟨named.2.1, congrArg some named.2.2.2⟩
              | v2 otherStart otherEnd otherFirst otherLast =>
                  rw [bound, otherBound] at same
                  cases same
          | v2 startUser endUser startSource endSource =>
              cases otherBound : other.boundary with
              | v1 otherStart otherEnd =>
                  rw [bound, otherBound] at same
                  cases same
              | v2 otherStart otherEnd otherFirst otherLast =>
                  rw [bound, otherBound] at same
                  have ends : endUser = otherEnd :=
                    Option.some.inj (congrArg ExactBoundary.endUserMessageId same)
                  have starts : startUser = otherStart := by
                    rw [one.startUser_v2 bound, two.startUser_v2 otherBound, ends]
                  refine ⟨?_, congrArg some starts⟩
                  cases scheme : group.source.identityScheme with
                  | legacy =>
                      simp only [requestName, scheme, segmentIdForRequest, bound, otherBound,
                        SegmentName.legacyV2.injEq] at named
                      exact named.1
                  | sourceV1 =>
                      simp only [requestName, scheme, SegmentName.source.injEq] at named
                      exact named.2.1

/-! ### Priorities -/

theorem priority_le (accepted : Accepted group request) :
    (persistedRequest request).processingPriority ≤ 100 := by
  cases request with
  | native request =>
      have valid := (parse_ok_iff.mp (parseIngestSegmentCreate_native accepted.parsed)).2
      simp only [nativeSegmentAccepted, Bool.and_eq_true, decide_eq_true_eq] at valid
      change request.processingPriority ≤ 100
      tauto
  | source sourceId request =>
      have valid := (parse_ok_iff.mp (parseIngestSegmentCreate_source accepted.parsed)).2
      simp only [segmentCreateAccepted, Bool.and_eq_true, decide_eq_true_eq] at valid
      change request.processingPriority ≤ 100
      tauto

private theorem parsed_withPriority {priority : Nat} (bound : priority ≤ 100)
    (parsed : parseIngestSegmentCreate request = .ok request) :
    parseIngestSegmentCreate (request.withPriority priority) =
      .ok (request.withPriority priority) := by
  cases request with
  | native request =>
      rcases parse_ok_iff.mp (parseIngestSegmentCreate_native parsed) with ⟨same, valid⟩
      have reparsed : parseNativeSegmentCreate { request with processingPriority := priority } =
          .ok { request with processingPriority := priority } := by
        apply parse_ok_iff.mpr
        constructor
        · conv_rhs => rw [← same]
          rfl
        · simp only [nativeSegmentAccepted, Bool.and_eq_true, decide_eq_true_eq] at valid ⊢
          tauto
      rw [IngestSegmentCreate.withPriority, parseIngestSegmentCreate, reparsed]
      rfl
  | source sourceId request =>
      rcases except_bind_ok parsed with ⟨owner, ownerMade, rest⟩
      rcases except_bind_ok rest with ⟨result, made, same⟩
      cases same
      rcases parse_ok_iff.mp made with ⟨same, valid⟩
      have reparsed : parseSegmentCreate { request with processingPriority := priority } =
          .ok { request with processingPriority := priority } := by
        apply parse_ok_iff.mpr
        constructor
        · conv_rhs => rw [← same]
          rfl
        · simp only [segmentCreateAccepted, Bool.and_eq_true, decide_eq_true_eq] at valid ⊢
          tauto
      rw [IngestSegmentCreate.withPriority, parseIngestSegmentCreate, ownerMade, reparsed]
      rfl

/-- The same request with another priority is accepted as well. -/
theorem withPriority {priority : Nat} (bound : priority ≤ 100) (accepted : Accepted group request) :
    Accepted group (request.withPriority priority) := by
  have parsed := parsed_withPriority bound accepted.parsed
  have owned : (request.withPriority priority).sourceId = group.source.id := by
    rw [← accepted.owned]
    cases request <;> rfl
  have native : (request.withPriority priority).isNative = true → group.source.isNative = true := by
    intro isNative
    apply accepted.native
    cases request with
    | native request => rfl
    | source sourceId request => cases isNative
  refine ⟨parsed, owned, native, ?_⟩
  rw [segmentId_of_parsed parsed owned native, accepted.name]
  cases request <;> rfl

/-! ### Ownership -/

/-- A row whose columns come from the request it stores passes the check. -/
theorem validateRow {platform : Platform} (accepted : Accepted group request) {row : OwnedRow}
    (payload : row.payload = some (persistedRequest request))
    (session : ∀ id ∈ row.sessionId, id = (persistedRequest request).sessionId)
    (startUser : ∀ id ∈ row.startUserMessageId, id = (persistedRequest request).startUserMessageId)
    (boundary : row.boundary = (persistedRequest request).boundary)
    (version : row.projectionVersion = (persistedRequest request).projectionVersion)
    (fingerprint : row.sourceFingerprint = ingestSourceFingerprint platform.sha256 request) :
    validateRow platform group row = .ok () := by
  have compatible :
      ((persistedRequest request).boundary.sourceBoundaryVersion == 3 && !group.source.isNative) =
        false := by
    rw [Bool.and_eq_false_iff, Bool.not_eq_false', ← Bool.not_eq_true, beq_iff_eq,
      ← imp_iff_not_or]
    exact accepted.native_of_version
  have sameSession : row.sessionId.any (· ≠ (persistedRequest request).sessionId) = false := by
    cases stored : row.sessionId with
    | none => rfl
    | some id =>
        rw [session id (Option.mem_def.mpr stored)]
        simp
  have sameStart : row.startUserMessageId.any
      (· ≠ (persistedRequest request).startUserMessageId) = false := by
    cases stored : row.startUserMessageId with
    | none => rfl
    | some id =>
        rw [startUser id (Option.mem_def.mpr stored)]
        simp
  unfold Database.validateRow
  rw [payload]
  dsimp only
  rw [accepted.decodes]
  dsimp only
  rw [boundary, if_neg (not_not.mpr rfl), compatible, if_neg Bool.false_ne_true,
    accepted.identified]
  dsimp only
  rw [if_neg (not_not.mpr rfl), sameSession, sameStart, version, fingerprint]
  simp

end Accepted

theorem validateRow_empty {platform : Platform} {group : Group} {row : OwnedRow}
    (payload : row.payload = none)
    (native : row.boundary.sourceBoundaryVersion = 3 → group.source.isNative = true) :
    validateRow platform group row = .ok () := by
  unfold validateRow
  rw [payload]
  dsimp only
  split
  · rename_i foreign
    rw [Bool.and_eq_true, beq_iff_eq] at foreign
    rw [native foreign.1] at foreign
    cases foreign.2
  · rfl

end Reflection.Database
