/-
When a post gets through to the tables.

PostgreSQL rejects text and JSON values with U+0000 or an unpaired surrogate, and the
validators let both pass. The unique key of a job in version 2 leaves out the user cursors,
which the search for the boundary's job compares; two accepted requests that differ in them
collide. A post completes exactly when neither happens.
-/

import Reflection.Database.Resubmission
import Reflection.Shared.Utf8

namespace Reflection.Database

open JsString

/-! ### Values the database stores -/

/-- A text PostgreSQL takes, as a column or inside a JSON value. -/
def storableText (value : JsString) : Bool := isWellFormed value && !value.contains 0

/-- The identifier columns of an INSERT. -/
def columnsStorable (persisted : PersistedIngestRequest) : Bool :=
  storableText persisted.sessionId && persisted.startUserMessageId.all storableText &&
    persisted.boundary.endUserMessageId.all storableText &&
    persisted.boundary.startSourceMessageId.all storableText &&
    persisted.boundary.endSourceMessageId.all storableText

/-- The JSON value of a payload. -/
def payloadStorable : PersistedIngestRequest → Bool
  | .legacy request =>
      columnsStorable (.legacy request) &&
        request.messages.all fun message => storableText message.text
  | .native request =>
      storableText request.sourceId && columnsStorable (.native request) &&
        request.messages.all fun message => storableText message.id && storableText message.text

inductive StorageError
  | queue (error : QueueError)
  | rejectedValue
deriving DecidableEq

section Storing

variable (platform : Platform) (group : Group) (queue : Queue) (request : IngestSegmentCreate)

/-- The committed row settles the request. -/
def settles : Bool :=
  queue.target.isNone && queue.segment.any (settledBy platform group request)

/-- The current target is the request's. -/
def meetsTarget : Bool :=
  queue.target.any fun target => targetMatchesRequest platform group target
    (persistedRequest request) group.segmentId (ingestSourceFingerprint platform.sha256 request)

/-- The values the post's exit sends to the tables can be stored: the columns of a recorded or
settled job, the payload of a target. -/
def sendsStorable : Bool :=
  let persisted := persistedRequest request
  if lowerVersion queue request then
    (boundaryJob queue request).isSome || columnsStorable persisted
  else if meetsTarget platform group queue request then payloadStorable persisted
  else if settles platform group queue request then
    if (boundaryJob queue request).isSome then
      persisted.boundary.endUserMessageId.all storableText &&
        persisted.boundary.startSourceMessageId.all storableText &&
        persisted.boundary.endSourceMessageId.all storableText
    else columnsStorable persisted
  else payloadStorable persisted

/-- `Database.enqueue` over tables that reject such values. -/
def enqueueStored (freshId : Nat) : Except StorageError (Queue × Nat) :=
  match enqueue platform group queue request freshId with
  | .error error => .error (.queue error)
  | .ok result =>
      match parseIngestSegmentCreate request with
      | .error error => .error (.queue (.contract error))
      | .ok parsed =>
          if sendsStorable platform group queue parsed then .ok result else .error .rejectedValue

/-- The key the row of a request has in the unique indexes. -/
def requestKey : JsString × Nat × Option JsString × Option JsString :=
  boundaryKey (insertedJob platform request 0 none .succeeded defaultGeneration)

/-- A job with the request's key that the post can neither find nor overwrite. -/
def blocks (job : JobRow) : Bool :=
  boundaryKey job == requestKey platform request &&
    !(job.boundary == (persistedRequest request).boundary) &&
    (lowerVersion queue request || settles platform group queue request || job.status == .running)

end Storing

/-! ### When a post gets through -/

variable {platform : Platform} {group : Group} {queue after : Queue} {request : IngestSegmentCreate}

theorem JobOk.requestKey {job : JobRow} (ok : JobOk platform group job)
    (accepted : Accepted group request) (same : job.boundary = (persistedRequest request).boundary) :
    boundaryKey job = requestKey platform request :=
  ok.key_eq (insertedJob_ok accepted (.inr ⟨rfl, .inl rfl⟩)) same

theorem insertedJob_key (freshId generation : Nat) (payload : Option PersistedIngestRequest)
    (status : JobStatus) :
    boundaryKey (insertedJob platform request freshId payload status generation) =
      requestKey platform request := rfl

/-- With the boundary's job at hand, no other row has the request's key. -/
theorem Invariant.unblocked {job : JobRow} (holds : Invariant platform group queue)
    (accepted : Accepted group request) (known : boundaryJob queue request = some job) :
    ∀ other ∈ queue.jobs, blocks platform group queue request other = false := by
  rcases boundaryJob_some known with ⟨jobIn, boundary⟩
  intro other otherIn
  unfold blocks
  by_cases sameKey : boundaryKey other = requestKey platform request
  · have same := holds.keys other otherIn job jobIn
      (sameKey.trans ((holds.jobs job jobIn).requestKey accepted boundary).symm)
    rw [same, boundary]
    simp only [beq_self_eq_true, Bool.not_true, Bool.and_false, Bool.false_and]
  · rw [beq_eq_false_iff_ne.mpr sameKey, Bool.false_and, Bool.false_and]

/-- An INSERT of the request's row succeeds exactly when nothing blocks it. -/
theorem insertJob_iff {row : JobRow} (rowKey : boundaryKey row = requestKey platform request)
    (unknown : boundaryJob queue request = none)
    (plain : lowerVersion queue request = true ∨ settles platform group queue request = true) :
    (∃ after, insertJob queue row = .ok after) ↔
      ∀ job ∈ queue.jobs, blocks platform group queue request job = false := by
  have foreign {job : JobRow} (member : job ∈ queue.jobs) :
      (job.boundary == (persistedRequest request).boundary) = false :=
    Bool.eq_false_iff.mpr (List.find?_eq_none.mp unknown job member)
  have exits : (lowerVersion queue request || settles platform group queue request) = true := by
    rw [Bool.or_eq_true]
    exact plain
  have blocked {job : JobRow} (member : job ∈ queue.jobs) :
      blocks platform group queue request job = (boundaryKey job == boundaryKey row) := by
    unfold blocks
    rw [foreign member, exits, rowKey]
    simp only [Bool.not_false, Bool.and_true, Bool.true_or]
  unfold insertJob
  constructor
  · rintro ⟨after, inserted⟩ job member
    split at inserted
    · cases inserted
    · rename_i unique
      rw [blocked member, Bool.eq_false_iff]
      intro clash
      exact unique (List.any_eq_true.mpr ⟨job, member, clash⟩)
  · intro free
    have unique : ¬ queue.jobs.any (fun job => boundaryKey job == boundaryKey row) = true := by
      intro clash
      rcases List.any_eq_true.mp clash with ⟨job, member, same⟩
      rw [← blocked member, free job member] at same
      cases same
    rw [if_neg unique]
    exact ⟨_, rfl⟩

theorem enqueueIgnored_iff {freshId : Nat} (holds : Invariant platform group queue)
    (accepted : Accepted group request) (lower : lowerVersion queue request = true) :
    (∃ result, enqueueIgnored platform queue request freshId = .ok result) ↔
      ∀ job ∈ queue.jobs, blocks platform group queue request job = false := by
  unfold enqueueIgnored
  cases known : boundaryJob queue request with
  | some job =>
      constructor
      · intro _
        exact holds.unblocked accepted known
      · intro _
        exact ⟨_, rfl⟩
  | none =>
      rw [← insertJob_iff (insertedJob_key freshId defaultGeneration none .superseded) known
        (.inl lower)]
      constructor
      · rintro ⟨result, inserted⟩
        rcases except_bind_ok inserted with ⟨after, isAfter, _⟩
        exact ⟨after, isAfter⟩
      · rintro ⟨after, isAfter⟩
        dsimp only
        rw [isAfter, except_ok_bind]
        exact ⟨_, rfl⟩

theorem enqueueSettled_iff {freshId : Nat} {segment : SegmentRow}
    (holds : Invariant platform group queue) (accepted : Accepted group request)
    (isSettled : settles platform group queue request = true) :
    (∃ result, enqueueSettled platform queue request freshId segment = .ok result) ↔
      ∀ job ∈ queue.jobs, blocks platform group queue request job = false := by
  unfold enqueueSettled
  cases known : boundaryJob queue request with
  | some job =>
      constructor
      · intro _
        exact holds.unblocked accepted known
      · intro _
        exact ⟨_, rfl⟩
  | none =>
      rw [← insertJob_iff (insertedJob_key freshId segment.sourceGeneration none .succeeded) known
        (.inr isSettled)]
      constructor
      · rintro ⟨result, inserted⟩
        rcases except_bind_ok inserted with ⟨after, isAfter, _⟩
        exact ⟨after, isAfter⟩
      · rintro ⟨after, isAfter⟩
        dsimp only
        rw [isAfter, except_ok_bind]
        exact ⟨_, rfl⟩

theorem enqueueGeneration_iff {freshId : Nat} (holds : Invariant platform group queue)
    (accepted : Accepted group request) (current : lowerVersion queue request = false)
    (unsettled : settles platform group queue request = false) :
    (∃ result, enqueueGeneration platform queue request freshId = .ok result) ↔
      ∀ job ∈ queue.jobs, blocks platform group queue request job = false := by
  have named : (∃ result, enqueueGeneration platform queue request freshId = .ok result) ↔
      ((upsertJob platform queue request freshId (nextGeneration queue)).2.or
        ((boundaryJob queue request).map (·.id))).isSome = true := by
    unfold enqueueGeneration
    dsimp only
    cases written : (upsertJob platform queue request freshId (nextGeneration queue)).2.or
        ((boundaryJob queue request).map (·.id)) with
    | none =>
        constructor
        · rintro ⟨result, failed⟩
          cases failed
        · intro absent
          cases absent
    | some jobId =>
        constructor
        · intro _
          rfl
        · intro _
          exact ⟨_, rfl⟩
  rw [named]
  cases known : boundaryJob queue request with
  | some job =>
      constructor
      · intro _
        exact holds.unblocked accepted known
      · intro _
        rw [Option.map_some, Option.isSome_or, Option.isSome_some, Bool.or_true]
  | none =>
      have foreign {job : JobRow} (member : job ∈ queue.jobs) :
          (job.boundary == (persistedRequest request).boundary) = false :=
        Bool.eq_false_iff.mpr (List.find?_eq_none.mp known job member)
      rw [Option.map_none, Option.or_none]
      unfold upsertJob
      dsimp only
      split
      · rename_i noConflict
        constructor
        · intro _ job member
          have clash := List.find?_eq_none.mp noConflict job member
          rw [insertedJob_key] at clash
          unfold blocks
          rw [Bool.eq_false_iff.mpr clash, Bool.false_and, Bool.false_and]
        · intro _
          rfl
      · rename_i conflict isConflict
        have conflictIn : conflict ∈ queue.jobs := List.mem_of_find?_eq_some isConflict
        have sameKey := List.find?_some isConflict
        by_cases running : conflict.status = .running
        · rw [if_pos running]
          constructor
          · intro absent
            cases absent
          · intro free
            have blocked := free conflict conflictIn
            unfold blocks at blocked
            rw [show (boundaryKey conflict == requestKey platform request) = true from sameKey,
              foreign conflictIn, running] at blocked
            simp at blocked
        · rw [if_neg running]
          constructor
          · intro _ job member
            unfold blocks
            by_cases jobKey : boundaryKey job = requestKey platform request
            · have same := holds.keys job member conflict conflictIn
                (jobKey.trans (beq_iff_eq.mp sameKey).symm)
              rw [same, current, unsettled, beq_eq_false_iff_ne.mpr running, Bool.or_self,
                Bool.or_self, Bool.and_false]
            · rw [beq_eq_false_iff_ne.mpr jobKey, Bool.false_and, Bool.false_and]
          · intro _
            rfl

/-- A validated request gets through exactly when no job blocks it. -/
theorem enqueueParsed_iff {freshId : Nat} (holds : Invariant platform group queue)
    (accepted : Accepted group request) :
    (∃ result, enqueueParsed platform group queue request freshId = .ok result) ↔
      ∀ job ∈ queue.jobs, blocks platform group queue request job = false := by
  unfold enqueueParsed
  by_cases lower : lowerVersion queue request = true
  · rw [if_pos lower]
    exact enqueueIgnored_iff holds accepted lower
  · have current := Bool.eq_false_iff.mpr lower
    rw [if_neg lower]
    cases isTarget : queue.target with
    | some target =>
        have unsettled : settles platform group queue request = false := by
          unfold settles
          rw [isTarget]
          rfl
        dsimp only
        split
        · rename_i matched
          have aimed := holds.target target isTarget
          rcases aimed.found with ⟨job, jobIn, named⟩
          have known := holds.boundaryJob_eq jobIn
            ((aimed.linked job jobIn named).boundary.trans (targetMatchesRequest_iff matched).2.2)
          constructor
          · intro _
            exact holds.unblocked accepted known
          · intro _
            exact ⟨_, rfl⟩
        · exact enqueueGeneration_iff holds accepted current unsettled
    | none =>
        dsimp only
        cases committed : queue.segment with
        | none =>
            have unsettled : settles platform group queue request = false := by
              unfold settles
              rw [committed, Option.any_none, Bool.and_false]
            exact enqueueGeneration_iff holds accepted current unsettled
        | some segment =>
            have same : settles platform group queue request =
                settledBy platform group request segment := by
              unfold settles
              rw [isTarget, committed]
              rfl
            dsimp only
            split
            · rename_i isSettled
              exact enqueueSettled_iff holds accepted (same.trans isSettled)
            · rename_i notSettled
              exact enqueueGeneration_iff holds accepted current
                (same.trans (Bool.eq_false_iff.mpr notSettled))

/-- An accepted request is answered with a job id exactly when its values can be stored and no
job blocks it. -/
theorem enqueue_completes_iff {system : System} (reached : Reachable platform group system)
    {request parsed : IngestSegmentCreate}
    (isParsed : parseIngestSegmentCreate request = .ok parsed) (accepted : Accepted group parsed)
    (freshId : Nat) :
    (∃ after jobId, enqueueStored platform group system.queue request freshId =
        .ok (after, jobId)) ↔
      sendsStorable platform group system.queue parsed = true ∧
        ∀ job ∈ system.queue.jobs, blocks platform group system.queue parsed job = false := by
  have holds := reached.invariant
  rw [← @enqueueParsed_iff platform group system.queue parsed freshId holds accepted]
  unfold enqueueStored
  rw [enqueue_of_accepted holds isParsed accepted, isParsed]
  cases entered : enqueueParsed platform group system.queue parsed freshId with
  | error error =>
      constructor
      · rintro ⟨after, jobId, failed⟩
        cases failed
      · rintro ⟨_, result, failed⟩
        cases failed
  | ok result =>
      dsimp only
      by_cases storable : sendsStorable platform group system.queue parsed = true
      · rw [if_pos storable]
        constructor
        · intro _
          exact ⟨storable, result, rfl⟩
        · intro _
          exact ⟨result.1, result.2, rfl⟩
      · rw [if_neg storable]
        constructor
        · rintro ⟨after, jobId, failed⟩
          cases failed
        · rintro ⟨stores, _⟩
          exact absurd stores storable

/-! ### Two cursors, two users -/

def spanGroup : Group :=
  { source := sampleGroup.source
    registered := sampleGroup.registered
    segmentId := .legacyV2 (JsString.ofString "session") (JsString.ofString "a1") }

/-- The span from a1 to a2, in the turn of this user. -/
def spanRequest (user : String) (text : JsString) : IngestSegmentCreate :=
  .source (JsString.ofString "s")
    { sessionId := JsString.ofString "session"
      boundary := .v2 (JsString.ofString user) (JsString.ofString user) (JsString.ofString "a1")
        (JsString.ofString "a2")
      projectionVersion := 2
      processingPriority := 0
      messages := [{ role := .user, text := text }] }

def spanJob : JobRow :=
  { insertedJob samplePlatform (spanRequest "u1" (JsString.ofString "hi")) 1
      (some (persistedRequest (spanRequest "u1" (JsString.ofString "hi")))) .pending 1 with
    status := .running
    attempts := 1
    leaseId := some 7 }

def spanClaim : ClaimedJob :=
  { id := 1
    segmentId := spanGroup.segmentId
    leaseId := 7
    sourceGeneration := 1
    sourceFingerprint := ingestSourceFingerprint samplePlatform.sha256
      (spanRequest "u1" (JsString.ofString "hi"))
    attempts := 1
    sourceId := JsString.ofString "s"
    request := persistedRequest (spanRequest "u1" (JsString.ofString "hi"))
    extractionResult := none }

/-- The span of the first user was posted and is being processed. -/
def spanSystem : System :=
  { queue :=
      { jobs := [spanJob]
        target := some (generationTarget samplePlatform Queue.empty
          (spanRequest "u1" (JsString.ofString "hi")) 1)
        segment := none }
    claims := [spanClaim]
    published := none }

def spanPosted : Queue :=
  { spanSystem.queue with
    jobs :=
      [{ spanJob with
          status := .pending
          attempts := 0
          leaseId := none }] }

theorem spanSystem_reachable : Reachable samplePlatform spanGroup spanSystem := by
  have posted : enqueue samplePlatform spanGroup Queue.empty
      (spanRequest "u1" (JsString.ofString "hi")) 1 = .ok (spanPosted, 1) := by
    decide +kernel
  have taken : claimOldestJob samplePlatform spanGroup spanPosted 7 =
      .ok (spanSystem.queue, some spanClaim) := by
    decide +kernel
  have first : Step samplePlatform spanGroup System.initial
      (.enqueue 1 (spanRequest "u1" (JsString.ofString "hi")))
      { System.initial with queue := spanPosted } :=
    Step.enqueue (fun job absent => by cases absent) posted
  have second : Step samplePlatform spanGroup { System.initial with queue := spanPosted }
      (.claim 7) spanSystem := by
    apply @Step.claim _ _ { System.initial with queue := spanPosted } 7 spanSystem.queue
      (some spanClaim)
    · intro claim absent
      cases absent
    · exact taken
  have start : Reachable samplePlatform spanGroup System.initial := Reaches.refl _
  exact (start.snoc _ first trivial).snoc _ second trivial

theorem spanRequest_accepted (user : String) (text : JsString)
    (parsed : parseIngestSegmentCreate (spanRequest user text) = .ok (spanRequest user text)) :
    Accepted spanGroup (spanRequest user text) := by
  refine ⟨parsed, rfl, ?_, ?_⟩
  · intro native
    cases native
  · have identified := @Accepted.segmentId_of_parsed spanGroup _ parsed rfl
      (fun native => by cases native)
    exact identified

/-- The same span under another user runs into the job in progress, and a text with U+0000 is
rejected by an empty table; both requests are accepted. -/
theorem enqueue_fails_internally :
    Reachable samplePlatform spanGroup spanSystem ∧
    parseIngestSegmentCreate (spanRequest "u2" (JsString.ofString "hi")) =
      .ok (spanRequest "u2" (JsString.ofString "hi")) ∧
    enqueueStored samplePlatform spanGroup spanSystem.queue
        (spanRequest "u2" (JsString.ofString "hi")) 2 =
      .error (.queue .runningBoundaryJobDisappeared) ∧
    parseIngestSegmentCreate (spanRequest "u1" [0]) = .ok (spanRequest "u1" [0]) ∧
    enqueueStored samplePlatform spanGroup Queue.empty (spanRequest "u1" [0]) 1 =
      .error .rejectedValue := by
  refine ⟨spanSystem_reachable, ?_⟩
  decide +kernel

/-- The first user's span may be posted again while it is processed. -/
theorem enqueue_completes_iff_sample :
    (∃ after jobId, enqueueStored samplePlatform spanGroup spanSystem.queue
        (spanRequest "u1" (JsString.ofString "hi")) 2 = .ok (after, jobId)) ↔
      sendsStorable samplePlatform spanGroup spanSystem.queue
          (spanRequest "u1" (JsString.ofString "hi")) = true ∧
        ∀ job ∈ spanSystem.queue.jobs, blocks samplePlatform spanGroup spanSystem.queue
          (spanRequest "u1" (JsString.ofString "hi")) job = false :=
  have parsed : parseIngestSegmentCreate (spanRequest "u1" (JsString.ofString "hi")) =
      .ok (spanRequest "u1" (JsString.ofString "hi")) := by
    decide +kernel
  enqueue_completes_iff spanSystem_reachable parsed (spanRequest_accepted "u1" _ parsed) 2

end Reflection.Database
