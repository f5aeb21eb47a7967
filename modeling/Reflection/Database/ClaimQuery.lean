/-
The claim query over the queues of every segment.

A session is processed one job at a time: the query leaves out the sessions the worker is busy
with and considers the oldest job of each other session. Sessions are told apart by source and
session id, and by a key made of both where they are entries of a map.
-/

import Reflection.Database.Operations
import Reflection.Shared.JsonReading

namespace Reflection

open JsString

structure SourceSession where
  sourceId : JsString
  sessionId : JsString
deriving DecidableEq

/-- `JSON.stringify([sourceId, sessionId])`. -/
def sourceSessionKey (session : SourceSession) : JsString :=
  0x5b :: jsonString session.sourceId ++ 0x2c :: jsonString session.sessionId ++ [0x5d]

theorem sourceSessionKey_injective {one other : SourceSession}
    (same : sourceSessionKey one = sourceSessionKey other) : one = other := by
  have text : ∀ session : SourceSession, sourceSessionKey session =
      0x5b :: 0x22 :: (jsonEscape session.sourceId ++ 0x22 ::
        (0x2c :: 0x22 :: (jsonEscape session.sessionId ++ 0x22 :: [0x5d]))) := by
    intro session
    simp [sourceSessionKey, jsonString]
  rw [text, text] at same
  have behind := (List.cons.inj (List.cons.inj same).2).2
  have sources := congrArg readString behind
  rw [(jsonEscape_escapedAs _).readString, (jsonEscape_escapedAs _).readString] at sources
  have pairs := Prod.ext_iff.mp (Option.some.inj sources)
  have sessions := congrArg readString (List.cons.inj (List.cons.inj pairs.2).2).2
  rw [(jsonEscape_escapedAs _).readString, (jsonEscape_escapedAs _).readString] at sessions
  cases one with
  | mk sourceId sessionId =>
      cases other with
      | mk otherSource otherSession =>
          have sameSource : sourceId = otherSource := pairs.1
          have sameSession : sessionId = otherSession := (Prod.ext_iff.mp (Option.some.inj sessions)).1
          rw [sameSource, sameSession]

namespace Database

/-- The session a claim belongs to, as the worker keys it. -/
def ClaimedJob.session (claim : ClaimedJob) : SourceSession :=
  { sourceId := claim.sourceId
    sessionId := claim.request.sessionId }

/-- One segment's rows and the two times the query reads of them. -/
structure SegmentTables where
  group : Group
  queue : Queue
  /-- of a job, by its id -/
  nextAttemptAt : Nat → Nat
  targetUpdatedAt : Nat

structure QueueTables where
  registered : JsString → Bool
  segments : List SegmentTables

/-- A row of eligible_jobs. -/
structure Candidate where
  tables : SegmentTables
  job : JobRow
  target : TargetRow

namespace Candidate

/-- What the query partitions by: the effective owner and the session. -/
def session (row : Candidate) : SourceSession :=
  { sourceId := row.tables.group.source.id
    sessionId := row.job.sessionId }

/-- `targets.updated_at, jobs.id`. -/
def before (row other : Candidate) : Bool :=
  row.tables.targetUpdatedAt < other.tables.targetUpdatedAt ||
    (row.tables.targetUpdatedAt == other.tables.targetUpdatedAt && row.job.id < other.job.id)

end Candidate

/-- The segment's pending job, once its next attempt is due. -/
def dueJob (now : Nat) (tables : SegmentTables) : Option Candidate :=
  match eligibleJob tables.queue with
  | none => none
  | some (job, target) =>
      if tables.nextAttemptAt job.id ≤ now then
        some
          { tables := tables
            job := job
            target := target }
      else none

/-- `eligible_jobs`, without the sessions the worker is busy with. -/
def eligibleJobs (tables : QueueTables) (excluded : List SourceSession) (now : Nat) : List Candidate :=
  (tables.segments.filterMap (dueJob now)).filter fun row => !excluded.contains row.session

/-- `session_rank = 1`. -/
def firstOfSession (eligible : List Candidate) (row : Candidate) : Bool :=
  eligible.all fun other => !(other.session == row.session && other.before row)

/-- `session_urgency`, the highest priority of the session. -/
def sessionUrgency (eligible : List Candidate) (row : Candidate) : Nat :=
  ((eligible.filter fun other => other.session == row.session).map fun other =>
    other.target.processingPriority).foldl max 0

/-- `candidate`: the oldest first job among the most urgent sessions. -/
def candidate (tables : QueueTables) (excluded : List SourceSession) (now : Nat) : Option Candidate :=
  let eligible := eligibleJobs tables excluded now
  let urgency := sessionUrgency eligible
  let ranked := eligible.filter (firstOfSession eligible)
  ranked.find? fun row => ranked.all fun other =>
    !(urgency row < urgency other || (urgency row == urgency other && other.before row))

/-- `Database.claimOldestJob` over all segments. -/
def QueueTables.claimOldestJob (platform : Platform) (tables : QueueTables) (excluded : List SourceSession)
    (now leaseId : Nat) : Except QueueError (QueueTables × Option ClaimedJob) :=
  if excluded.any fun session => !tables.registered session.sourceId then .error .unknownSource
  else
    match candidate tables excluded now with
    | none => .ok (tables, none)
    | some row => do
        let (queue, claimed) ← Database.claimOldestJob platform row.tables.group row.tables.queue leaseId
        let segments := tables.segments.map fun segment =>
          if segment.group.segmentId = row.tables.group.segmentId then { segment with queue := queue }
          else segment
        .ok ({ tables with segments := segments }, claimed)

variable {platform : Platform}

theorem candidate_some {tables : QueueTables} {excluded : List SourceSession} {now : Nat} {row : Candidate}
    (isCandidate : candidate tables excluded now = some row) :
    row.session ∉ excluded ∧ row.tables ∈ tables.segments ∧
      eligibleJob row.tables.queue = some (row.job, row.target) := by
  have isRanked := List.mem_of_find?_eq_some isCandidate
  have eligible := (List.mem_filter.mp isRanked).1
  rcases List.mem_filter.mp eligible with ⟨due, admitted⟩
  rw [Bool.not_eq_true', ← Bool.not_eq_true, List.contains_iff_mem] at admitted
  rcases List.mem_filterMap.mp due with ⟨segment, inside, isDue⟩
  unfold dueJob at isDue
  split at isDue
  · cases isDue
  · rename_i job target isEligible
    split at isDue
    · cases isDue
      exact ⟨admitted, inside, isEligible⟩
    · cases isDue

/-- A claim of one segment names the session of the row it was made of. -/
theorem claimOldestJob_session {group : Group} {queue after : Queue} {leaseId : Nat} {job : JobRow}
    {target : TargetRow} {claim : ClaimedJob} (eligible : eligibleJob queue = some (job, target))
    (taken : claimOldestJob platform group queue leaseId = .ok (after, some claim)) :
    claim.sourceId = group.source.id ∧ claim.request.sessionId = job.sessionId := by
  unfold claimOldestJob at taken
  rw [eligible] at taken
  dsimp only at taken
  split at taken
  · cases taken
  · cases taken
  · split at taken
    · cases taken
    · split at taken
      · cases taken
      · split at taken
        · rename_i request _ agrees
          split at taken
          · cases taken
          · cases taken
            simp only [payloadMatchesJob, Bool.and_eq_true, beq_iff_eq] at agrees
            exact ⟨rfl, agrees.1.1.1.1.1.1⟩
        · cases taken

/-- No claim belongs to a session the query was told to leave out. -/
theorem QueueTables.claimOldestJob_session {tables after : QueueTables} {excluded : List SourceSession}
    {now leaseId : Nat} {claim : ClaimedJob}
    (taken : tables.claimOldestJob platform excluded now leaseId = .ok (after, some claim)) :
    claim.session ∉ excluded := by
  unfold QueueTables.claimOldestJob at taken
  split at taken
  · cases taken
  · split at taken
    · cases taken
    · rename_i row isCandidate
      rcases candidate_some isCandidate with ⟨admitted, _, eligible⟩
      rcases except_bind_ok taken with ⟨⟨queue, claimed⟩, one, rest⟩
      cases rest
      rcases Database.claimOldestJob_session eligible one with ⟨source, session⟩
      have same : claim.session = row.session := by
        unfold ClaimedJob.session Candidate.session
        rw [source, session]
      rw [same]
      exact admitted

end Database

end Reflection
