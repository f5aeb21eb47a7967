/-
The session listing returns the coherent manifest.

The loop over the queried rows never throws, because every row comes from a coherent queue.
It keeps at most one summary for each id, and every summary it keeps is shown by some row.
-/

import Reflection.Database.Coherence

namespace Reflection.Database

variable {platform : Platform} {source : SourceInfo} {sessionId : JsString}

/-! ### The effective map -/

section Effective

variable {effective : List (SegmentName × SegmentSummary × Nat)} {id : SegmentName}
  {entry : SegmentSummary × Nat}

theorem mem_setEffective {item : SegmentName × SegmentSummary × Nat}
    (member : item ∈ setEffective effective id entry) : item = (id, entry) ∨ item ∈ effective := by
  unfold setEffective at member
  split at member
  · rcases List.mem_map.mp member with ⟨old, oldIn, same⟩
    split at same
    · exact .inl same.symm
    · exact .inr (same ▸ oldIn)
  · rcases List.mem_append.mp member with old | new
    · exact .inr old
    · exact .inl (List.mem_singleton.mp new)

theorem setEffective_keys :
    (setEffective effective id entry).map (·.1) =
      if id ∈ effective.map (·.1) then effective.map (·.1) else effective.map (·.1) ++ [id] := by
  have present : effective.any (fun item => item.1 == id) = true ↔ id ∈ effective.map (·.1) := by
    simp only [List.any_eq_true, beq_iff_eq, List.mem_map]
  unfold setEffective
  by_cases known : id ∈ effective.map (·.1)
  · rw [if_pos (present.mpr known), if_pos known, List.map_map]
    apply List.map_congr_left
    intro item _
    change (if (item.1 == id) = true then (id, entry) else item).1 = item.1
    split
    · rename_i same
      exact (beq_iff_eq.mp same).symm
    · rfl
  · rw [if_neg (fun found => known (present.mp found)), if_neg known, List.map_append]
    rfl

theorem setEffective_nodup (distinct : (effective.map (·.1)).Nodup) :
    ((setEffective effective id entry).map (·.1)).Nodup := by
  rw [setEffective_keys]
  split
  · exact distinct
  · rename_i unknown
    apply List.nodup_append.mpr
    refine ⟨distinct, List.nodup_singleton id, ?_⟩
    intro one oneIn two twoIn same
    rw [List.mem_singleton.mp twoIn] at same
    exact unknown (same ▸ oneIn)

theorem mem_setEffective_keys {key : SegmentName} :
    key ∈ (setEffective effective id entry).map (·.1) ↔ key ∈ effective.map (·.1) ∨ key = id := by
  rw [setEffective_keys]
  split
  · rename_i known
    constructor
    · exact .inl
    · rintro (old | rfl)
      · exact old
      · exact known
  · rw [List.mem_append, List.mem_singleton]

end Effective

/-! ### Rows -/

theorem sourceBoundary_request (request : PersistedIngestRequest) :
    ∃ boundary, sourceBoundary request.startUserMessageId request.boundary = .ok boundary := by
  cases request with
  | native request => exact ⟨_, rfl⟩
  | legacy request =>
      cases bound : request.boundary with
      | v1 startUser endUser =>
          refine ⟨.legacy (.v1 startUser endUser), ?_⟩
          simp only [PersistedIngestRequest.startUserMessageId, PersistedIngestRequest.boundary,
            bound, LegacyBoundary.startUserMessageId, sourceBoundary]
      | v2 startUser endUser startSource endSource =>
          refine ⟨.legacy (.v2 startUser endUser startSource endSource), ?_⟩
          simp only [PersistedIngestRequest.startUserMessageId, PersistedIngestRequest.boundary,
            bound, LegacyBoundary.startUserMessageId, sourceBoundary]

theorem startUser_request {request : PersistedIngestRequest}
    (version : request.boundary.sourceBoundaryVersion ≠ 3) : request.startUserMessageId ≠ none := by
  cases request with
  | native request => exact absurd rfl version
  | legacy request =>
      intro absent
      cases absent

/-- A row the loop can list. -/
structure Listable (platform : Platform) (source : SourceInfo) (sessionId : JsString)
    (row : ManifestRow) : Prop where
  started : ¬ (row.boundary.sourceBoundaryVersion ≠ 3 ∧ row.startUserMessageId = none)
  bounded : ∃ boundary, sourceBoundary row.startUserMessageId row.boundary = .ok boundary
  committed : row.rowKind = .committed → ∃ summary, row.summary = some summary
  target : row.rowKind = .target → row.sourceEligible = false ∧
    ∃ status fingerprint payload request, row.status = some status ∧
      row.sourceFingerprint = some fingerprint ∧ row.payload = some payload ∧
      decodePersistedIngestSegment payload source.id = .ok request ∧
      listedTargetMatches sessionId row request = true ∧
      ingestSegmentIdForRequest request source = .ok row.id ∧
      ingestSourceFingerprint platform.sha256 request = fingerprint

/-- The row offers this summary. -/
structure Shows (row : ManifestRow) (summary : SegmentSummary) : Prop where
  id : summary.id = row.id
  version : summary.projectionVersion = row.projectionVersion
  boundary : sourceBoundary row.startUserMessageId row.boundary = .ok summary.boundary
  content : row.rowKind = .committed ∧ row.sourceEligible = true ∧
      row.summary = some summary.summary ∨
    row.rowKind = .target ∧ row.stagedEligible = true ∧
      ∃ result, row.extractionResult = some result ∧ summary.summary = result.summary

/-- What listing one row changes. -/
structure ListedRow (row : ManifestRow) (listing next : Listing) : Prop where
  boundaries : next.boundaries = listing.boundaries ∨
    ∃ boundary, next.boundaries = listing.boundaries ++ [boundary] ∧ boundary.id = row.id ∧
      boundary.sourceEligible = row.sourceEligible
  effective : row.sourceEligible = false ∧ next.effective = listing.effective ∨
    ∃ summary, Shows row summary ∧
      next.effective = setEffective listing.effective row.id (summary, row.orderedAt)

theorem listCommitted_ok {row : ManifestRow} (listing : Listing)
    (listable : Listable platform source sessionId row) (kind : row.rowKind = .committed) :
    ∃ next, listCommitted listing row = .ok next ∧ ListedRow row listing next := by
  rcases listable.bounded with ⟨boundary, isBoundary⟩
  rcases listable.committed kind with ⟨summary, isSummary⟩
  unfold listCommitted
  rw [if_neg listable.started, isBoundary, except_ok_bind]
  by_cases eligible : row.sourceEligible = true
  · rw [if_pos eligible, isSummary]
    refine ⟨_, rfl, .inr ⟨_, rfl, rfl, rfl⟩, .inr ⟨_, ?_, rfl⟩⟩
    exact ⟨rfl, rfl, isBoundary, .inl ⟨kind, eligible, isSummary⟩⟩
  · rw [if_neg eligible]
    exact ⟨_, rfl, .inr ⟨_, rfl, rfl, rfl⟩, .inl ⟨Bool.eq_false_iff.mpr eligible, rfl⟩⟩

theorem listStaged_cases (targeted : Listing) (boundary : SourceBoundary) (row : ManifestRow) :
    listStaged targeted boundary row = targeted ∨
      ∃ result, row.stagedEligible = true ∧ row.extractionResult = some result ∧
        listStaged targeted boundary row =
          { targeted with
            effective := setEffective targeted.effective row.id
              ({ boundary := boundary
                 id := row.id
                 projectionVersion := row.projectionVersion
                 summary := result.summary }, row.orderedAt) } := by
  unfold listStaged
  cases eligible : row.stagedEligible with
  | false => exact .inl rfl
  | true =>
      cases extracted : row.extractionResult with
      | none => exact .inl rfl
      | some result =>
          cases parsed : parseExtractionResult result with
          | error error =>
              left
              simp only [parsed]
          | ok extraction =>
              right
              have same : result = extraction := (parse_ok_iff.mp parsed).1
              subst same
              refine ⟨result, rfl, rfl, ?_⟩
              simp only [parsed]

theorem listTarget_ok {row : ManifestRow} (listing : Listing)
    (listable : Listable platform source sessionId row) (kind : row.rowKind = .target) :
    ∃ next, listTarget platform source sessionId listing row = .ok next ∧
      ListedRow row listing next := by
  rcases listable.bounded with ⟨boundary, isBoundary⟩
  rcases listable.target kind with ⟨ineligible, status, fingerprint, payload, request, isStatus,
    isFingerprint, isPayload, decoded, matched, identified, source⟩
  unfold listTarget
  rw [if_neg listable.started, isStatus, isFingerprint, isPayload]
  dsimp only
  rw [decoded, manifestContract, except_ok_bind, matched, Bool.not_true,
    if_neg Bool.false_ne_true, identified, manifestIdentity, except_ok_bind,
    if_neg (by rw [not_or, not_not, not_not]; exact ⟨rfl, source⟩), isBoundary, except_ok_bind]
  refine ⟨_, rfl, ?_⟩
  rcases listStaged_cases
    { listing with
      targets := listing.targets ++
        [{ boundary := boundary
           id := row.id
           projectionVersion := row.projectionVersion
           status := status
           sourceFingerprint := fingerprint }] } boundary row with
    same | ⟨result, eligible, extracted, same⟩
  · rw [same]
    exact ⟨.inl rfl, .inl ⟨ineligible, rfl⟩⟩
  · rw [same]
    refine ⟨.inl rfl, .inr ⟨_, ?_, rfl⟩⟩
    exact ⟨rfl, rfl, isBoundary, .inr ⟨kind, eligible, result, extracted, rfl⟩⟩

theorem listRow_ok {row : ManifestRow} (listing : Listing)
    (listable : Listable platform source sessionId row) :
    ∃ next, listRow platform source sessionId listing row = .ok next ∧
      ListedRow row listing next := by
  unfold listRow
  cases kind : row.rowKind with
  | committed => exact listCommitted_ok listing listable kind
  | target => exact listTarget_ok listing listable kind

/-! ### The loop -/

/-- What the loop has listed after some rows. -/
structure Listed (done : List ManifestRow) (listing : Listing) : Prop where
  distinct : (listing.effective.map (·.1)).Nodup
  shown : ∀ entry ∈ listing.effective, entry.2.1.id = entry.1 ∧ ∃ row ∈ done, Shows row entry.2.1
  eligible : ∀ boundary ∈ listing.boundaries, boundary.sourceEligible = true →
    ∃ row ∈ done, row.id = boundary.id ∧ row.sourceEligible = true
  complete : ∀ row ∈ done, row.sourceEligible = true → row.id ∈ listing.effective.map (·.1)

theorem Listed.step {done : List ManifestRow} {row : ManifestRow} {listing next : Listing}
    (listed : Listed done listing) (step : ListedRow row listing next) :
    Listed (done ++ [row]) next := by
  have earlier {one : ManifestRow} (member : one ∈ done) : one ∈ done ++ [row] :=
    List.mem_append_left _ member
  have last : row ∈ done ++ [row] := List.mem_append_right _ (List.mem_singleton.mpr rfl)
  constructor
  · rcases step.effective with ⟨_, same⟩ | ⟨summary, _, same⟩
    · rw [same]
      exact listed.distinct
    · rw [same]
      exact setEffective_nodup listed.distinct
  · intro entry member
    rcases step.effective with ⟨_, same⟩ | ⟨summary, shows, same⟩
    · rw [same] at member
      rcases listed.shown entry member with ⟨id, one, oneIn, shows⟩
      exact ⟨id, one, earlier oneIn, shows⟩
    · rw [same] at member
      rcases mem_setEffective member with rfl | old
      · exact ⟨shows.id, row, last, shows⟩
      · rcases listed.shown entry old with ⟨id, one, oneIn, shows⟩
        exact ⟨id, one, earlier oneIn, shows⟩
  · intro boundary member eligible
    rcases step.boundaries with same | ⟨new, same, id, sourceEligible⟩
    · rw [same] at member
      rcases listed.eligible boundary member eligible with ⟨one, oneIn, found⟩
      exact ⟨one, earlier oneIn, found⟩
    · rw [same] at member
      rcases List.mem_append.mp member with old | isNew
      · rcases listed.eligible boundary old eligible with ⟨one, oneIn, found⟩
        exact ⟨one, earlier oneIn, found⟩
      · rw [List.mem_singleton.mp isNew] at eligible ⊢
        exact ⟨row, last, id.symm, sourceEligible.symm.trans eligible⟩
  · intro one member eligible
    rcases List.mem_append.mp member with old | isNew
    · have known := listed.complete one old eligible
      rcases step.effective with ⟨_, same⟩ | ⟨summary, _, same⟩
      · rw [same]
        exact known
      · rw [same]
        exact mem_setEffective_keys.mpr (.inl known)
    · rw [List.mem_singleton.mp isNew] at eligible ⊢
      rcases step.effective with ⟨ineligible, _⟩ | ⟨summary, _, same⟩
      · rw [ineligible] at eligible
        cases eligible
      · rw [same]
        exact mem_setEffective_keys.mpr (.inr rfl)

/-- The loop over listable rows. -/
theorem listRows_ok {rows : List ManifestRow}
    (listable : ∀ row ∈ rows, Listable platform source sessionId row) :
    ∃ listing, rows.foldlM (listRow platform source sessionId) Listing.empty = .ok listing ∧
      Listed rows listing := by
  apply foldlM_ok
  · intro done row listing member listed
    rcases listRow_ok listing (listable row member) with ⟨next, stepped, step⟩
    exact ⟨next, stepped, listed.step step⟩
  · constructor
    · exact List.nodup_nil
    · intro entry absent
      cases absent
    · intro boundary absent
      cases absent
    · intro row absent
      cases absent

/-! ### The rows of reachable tables -/

variable {group : Group} {system : System} {ordering : Ordering}

theorem Accepted.listedTargetMatches {request : IngestSegmentCreate} {target : TargetRow}
    {queue : Queue} {updatedAt : Nat} (carries : TargetCarries platform request target)
    (session : target.payload.sessionId = sessionId) :
    listedTargetMatches sessionId (targetRow platform group queue target updatedAt) request =
      true := by
  unfold Database.listedTargetMatches targetRow
  dsimp only
  rw [← session, carries.payload, carries.boundary, carries.version]
  simp only [beq_self_eq_true, Bool.and_self]

/-- The rows a coherent queue contributes, and where they come from. -/
theorem mem_segmentRows {queue : Queue} {row : ManifestRow}
    (member : row ∈ segmentRows platform ordering source sessionId group queue) :
    group.source = source ∧
      ((∃ segment ∈ queue.segment, segment.sessionId = sessionId ∧
          row = committedRow platform group queue segment (ordering.createdAt group.segmentId)) ∨
        ∃ target ∈ queue.target, target.payload.sessionId = sessionId ∧
          targetOwned group queue target = true ∧
          row = targetRow platform group queue target (ordering.updatedAt group.segmentId)) := by
  unfold segmentRows at member
  split at member
  · rename_i owner
    refine ⟨owner, ?_⟩
    rcases List.mem_append.mp member with committed | desired
    · left
      rcases Option.map_eq_some_iff.mp (Option.mem_toList.mp committed) with
        ⟨segment, filtered, same⟩
      rcases Option.filter_eq_some_iff.mp filtered with ⟨present, session⟩
      exact ⟨segment, present, beq_iff_eq.mp session, same.symm⟩
    · right
      rcases Option.map_eq_some_iff.mp (Option.mem_toList.mp desired) with
        ⟨target, filtered, same⟩
      rcases Option.filter_eq_some_iff.mp filtered with ⟨present, selected⟩
      rw [Bool.and_eq_true, beq_iff_eq] at selected
      exact ⟨target, present, selected.1, selected.2, same.symm⟩
  · cases member

theorem committedRow_listable {queue : Queue} {segment : SegmentRow} {createdAt : Nat}
    (ok : CommittedOk platform group segment) :
    Listable platform source sessionId (committedRow platform group queue segment createdAt) := by
  rcases ok.named with ⟨request, _, _, startUser, boundary⟩
  constructor
  · rintro ⟨version, absent⟩
    change segment.boundary.sourceBoundaryVersion ≠ 3 at version
    change segment.startUserMessageId = none at absent
    rw [boundary] at version
    exact startUser_request version (startUser.symm.trans absent)
  · change ∃ made, sourceBoundary segment.startUserMessageId segment.boundary = .ok made
    rw [startUser, boundary]
    exact sourceBoundary_request _
  · intro _
    exact ⟨segment.summary, rfl⟩
  · intro kind
    cases kind

theorem targetRow_listable {queue : Queue} {target : TargetRow} {updatedAt : Nat}
    (holds : Invariant platform group queue) (isTarget : queue.target = some target)
    (owner : group.source = source) (session : target.payload.sessionId = sessionId) :
    Listable platform source sessionId (targetRow platform group queue target updatedAt) := by
  have aimed := holds.target target isTarget
  rcases aimed.carried with ⟨request, accepted, carries⟩
  rcases aimed.found with ⟨job, jobIn, named⟩
  constructor
  · rintro ⟨version, absent⟩
    change target.boundary.sourceBoundaryVersion ≠ 3 at version
    change target.payload.startUserMessageId = none at absent
    rw [carries.boundary] at version
    rw [carries.payload] at absent
    exact startUser_request version absent
  · change ∃ made, sourceBoundary target.payload.startUserMessageId target.boundary = .ok made
    rw [carries.payload, carries.boundary]
    exact sourceBoundary_request _
  · intro kind
    cases kind
  · intro _
    have present : (queue.job? target.jobId).isSome = true := by
      rw [Queue.job?, List.find?_isSome]
      exact ⟨job, jobIn, beq_iff_eq.mpr named⟩
    rcases Option.isSome_iff_exists.mp present with ⟨found, isFound⟩
    refine ⟨rfl, found.status, target.sourceFingerprint, target.payload, request, ?_, rfl, rfl, ?_,
      Accepted.listedTargetMatches carries session, ?_, carries.fingerprint.symm⟩
    · change (queue.job? target.jobId).map (·.status) = some found.status
      rw [isFound]
      rfl
    · rw [carries.payload, ← owner]
      exact accepted.decodes
    · rw [← owner]
      exact accepted.identified

/-- A target is newer than the committed row, so the two never agree. -/
theorem committedEligible_untargeted {queue : Queue} {segment : SegmentRow}
    (holds : Invariant platform group queue) (committed : queue.segment = some segment)
    (eligible : committedEligible platform group queue segment = true) : queue.target = none := by
  cases isTarget : queue.target with
  | none => rfl
  | some target =>
      simp only [committedEligible, isTarget, Option.all_some, Bool.and_eq_true] at eligible
      have agrees := eligible.2
      simp only [targetAgrees, Bool.and_eq_true, beq_iff_eq] at agrees
      have newer := ((holds.target target isTarget).newer segment committed).1
      have same := agrees.1.1.1.1.1.1
      omega

theorem CommittedOk.eligible {queue : Queue} {segment : SegmentRow}
    (ok : CommittedOk platform group segment) (untargeted : queue.target = none) :
    committedEligible platform group queue segment = true := by
  unfold committedEligible
  rw [untargeted, ok.content, ok.projected]
  simp only [Option.all_none, Bool.not_false, Bool.and_true, beq_self_eq_true]

/-! ### Coherence -/

/-- The summary is the target's staged one: it carries the target's boundary and version, and
was published under a claim of exactly the target's snapshot. -/
structure StagedSummary (platform : Platform) (group : Group) (system : System)
    (target : TargetRow) (summary : SegmentSummary) : Prop where
  boundary : sourceBoundary target.payload.startUserMessageId target.boundary = .ok summary.boundary
  version : summary.projectionVersion = target.projectionVersion
  eligible : stagedEligible platform group target = true
  staged : ∃ staged ∈ target.staged, summary.summary = staged.extractionResult.summary ∧
    ∃ claim request, StagedBy platform group system target staged.extractionResult claim request

/-- The summary is the committed row's. -/
structure CommittedSummary (segment : SegmentRow) (summary : SegmentSummary) : Prop where
  boundary : sourceBoundary segment.startUserMessageId segment.boundary = .ok summary.boundary
  version : summary.projectionVersion = segment.projectionVersion
  content : summary.summary = segment.summary

theorem Reachable.shows {row : ManifestRow} {summary : SegmentSummary}
    (reached : Reachable platform group system)
    (member : row ∈ segmentRows platform ordering source sessionId group system.queue)
    (shows : Shows row summary) :
    summary.id = group.segmentId ∧
      ((∃ target, system.queue.target = some target ∧
          StagedSummary platform group system target summary) ∨
        system.queue.target = none ∧ ∃ segment ∈ system.queue.segment,
          CommittedSummary segment summary) := by
  rcases (mem_segmentRows member).2 with ⟨segment, committed, _, rfl⟩ | ⟨target, isTarget, _, _, rfl⟩
  · refine ⟨shows.id, .inr ?_⟩
    rcases shows.content with ⟨_, eligible, content⟩ | ⟨kind, _⟩
    · refine ⟨committedEligible_untargeted reached.invariant committed eligible, segment, committed,
        shows.boundary, shows.version, ?_⟩
      exact (Option.some.inj content).symm
    · cases kind
  · refine ⟨shows.id, .inl ⟨target, isTarget, ?_⟩⟩
    rcases shows.content with ⟨kind, _⟩ | ⟨_, eligible, result, extracted, content⟩
    · cases kind
    · rcases Option.map_eq_some_iff.mp extracted with ⟨staged, isStaged, same⟩
      refine ⟨shows.boundary, shows.version, eligible, staged, isStaged, ?_, ?_⟩
      · rw [content, same]
      · exact reached.stagedSnapshots target isTarget staged isStaged

/-- The session's listing never throws and shows at most one summary for each segment. With a
target that is the target's staged summary: a committed row that agreed with the target would
be shown as well, but it is always older. Without a target it is the committed row, which is
always shown. -/
theorem session_manifest_coherent {registry : Registry} {tables : Tables}
    (reached : TablesReachable platform registry tables) (ordering : Ordering)
    (source : SourceInfo) (sessionId : JsString) :
    ∃ summaries boundaries targets,
      sessionSegmentListing platform ordering registry tables source sessionId =
        .ok (summaries, boundaries, targets) ∧
      (summaries.map (·.id)).Nodup ∧
      (∀ summary ∈ summaries, ∃ group ∈ registry.groups, group.segmentId = summary.id ∧
        group.source = source ∧
        (∀ target ∈ (tables group.segmentId).queue.target,
          StagedSummary platform group (tables group.segmentId) target summary) ∧
        ((tables group.segmentId).queue.target = none →
          ∃ segment ∈ (tables group.segmentId).queue.segment, CommittedSummary segment summary)) ∧
      (∀ boundary ∈ boundaries, boundary.sourceEligible = true →
        ∃ group ∈ registry.groups, group.segmentId = boundary.id ∧
          (tables group.segmentId).queue.target = none) ∧
      (∀ group ∈ registry.groups, group.source = source →
        (tables group.segmentId).queue.target = none →
        ∀ segment ∈ (tables group.segmentId).queue.segment, segment.sessionId = sessionId →
          group.segmentId ∈ summaries.map (·.id)) := by
  have located {row : ManifestRow}
      (member : row ∈ queriedRows platform ordering registry tables source sessionId) :
      ∃ group ∈ registry.groups, row ∈ segmentRows platform ordering source sessionId group
        (tables group.segmentId).queue :=
    List.mem_flatMap.mp ((List.mergeSort_perm _ _).mem_iff.mp member)
  have listable : ∀ row ∈ queriedRows platform ordering registry tables source sessionId,
      Listable platform source sessionId row := by
    intro row member
    rcases located member with ⟨group, registered, inSegment⟩
    have here := reached.segment registered
    rcases mem_segmentRows inSegment with
      ⟨owner, ⟨segment, committed, _, rfl⟩ | ⟨target, isTarget, session, _, rfl⟩⟩
    · exact committedRow_listable (here.committedOk segment committed)
    · exact targetRow_listable here.invariant isTarget owner session
  rcases listRows_ok listable with ⟨listing, folded, listed⟩
  have sorted := List.mergeSort_perm listing.effective (summaryBefore ordering)
  have ids : ((listing.effective.mergeSort (summaryBefore ordering)).map (·.2.1)).map (·.id) =
      (listing.effective.mergeSort (summaryBefore ordering)).map (·.1) := by
    rw [List.map_map]
    apply List.map_congr_left
    intro entry member
    exact (listed.shown entry (sorted.mem_iff.mp member)).1
  refine ⟨(listing.effective.mergeSort (summaryBefore ordering)).map (·.2.1), listing.boundaries,
    listing.targets, ?_, ?_, ?_, ?_, ?_⟩
  · unfold sessionSegmentListing
    rw [folded, except_ok_bind]
  · rw [ids]
    exact ((sorted.map _).nodup_iff).mpr listed.distinct
  · intro summary member
    rcases List.mem_map.mp member with ⟨entry, entryIn, rfl⟩
    rcases (listed.shown entry (sorted.mem_iff.mp entryIn)).2 with ⟨row, rowIn, shows⟩
    rcases located rowIn with ⟨group, registered, inSegment⟩
    rcases (reached.segment registered).shows inSegment shows with ⟨id, summarised⟩
    refine ⟨group, registered, id.symm, (mem_segmentRows inSegment).1, ?_, ?_⟩
    · intro target isTarget
      rcases summarised with ⟨other, isOther, staged⟩ | ⟨untargeted, _⟩
      · cases Option.some.inj (isOther.symm.trans isTarget)
        exact staged
      · cases untargeted.symm.trans isTarget
    · intro untargeted
      rcases summarised with ⟨other, isOther, _⟩ | ⟨_, committed⟩
      · cases isOther.symm.trans untargeted
      · exact committed
  · intro boundary member eligible
    rcases listed.eligible boundary member eligible with ⟨row, rowIn, id, rowEligible⟩
    rcases located rowIn with ⟨group, registered, inSegment⟩
    rcases (mem_segmentRows inSegment).2 with ⟨segment, committed, _, rfl⟩ | ⟨_, _, _, _, rfl⟩
    · exact ⟨group, registered, id,
        committedEligible_untargeted (reached.segment registered).invariant committed rowEligible⟩
    · cases rowEligible
  · intro group registered owner untargeted segment committed session
    have ok := (reached.segment registered).committedOk segment committed
    have inSegment : committedRow platform group (tables group.segmentId).queue segment
        (ordering.createdAt group.segmentId) ∈ segmentRows platform ordering source sessionId group
          (tables group.segmentId).queue := by
      unfold segmentRows
      rw [if_pos owner, Option.mem_def.mp committed]
      apply List.mem_append_left
      apply Option.mem_toList.mpr
      rw [Option.filter_some, if_pos (beq_iff_eq.mpr session)]
      rfl
    have rowIn : committedRow platform group (tables group.segmentId).queue segment
        (ordering.createdAt group.segmentId) ∈
          queriedRows platform ordering registry tables source sessionId :=
      (List.mergeSort_perm _ _).mem_iff.mpr (List.mem_flatMap.mpr ⟨group, registered, inSegment⟩)
    rw [ids]
    exact (sorted.map _).mem_iff.mpr
      (listed.complete _ rowIn (ok.eligible untargeted))

/-! ### A listing -/

def sampleRegistry : Registry :=
  { groups := [sampleGroup]
    distinct := List.nodup_singleton _ }

/-- The sample's published summary is listed for its session. -/
theorem session_manifest_coherent_sample :
    ∃ summaries boundaries targets,
      sessionSegmentListing samplePlatform
          { createdAt := fun _ => 0
            updatedAt := fun _ => 1
            idBefore := fun _ _ => true }
          sampleRegistry (Function.update Tables.empty sampleGroup.segmentId sampleSystem)
          sampleGroup.source (JsString.ofString "session") =
        .ok (summaries, boundaries, targets) ∧ (summaries.map (·.id)).Nodup := by
  rcases session_manifest_coherent
    (@Reachable.tables samplePlatform sampleGroup sampleSystem sampleRegistry
      (List.mem_singleton.mpr rfl) sampleSystem_reachable) _ _ _ with ⟨summaries, boundaries, targets, listed, distinct, _⟩
  exact ⟨summaries, boundaries, targets, listed, distinct⟩

end Reflection.Database
