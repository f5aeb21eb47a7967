/-
Runs of one segment's queue with any number of workers.

A worker that lost its lock keeps the claims it was handed, so every claim ever issued may
come back at any time. Leases are fresh, job ids come from a sequence. A step that throws
leaves the rows as they were and is no step.
-/

import Reflection.Foundation.Runs
import Reflection.Database.Operations

namespace Reflection.Database

structure System where
  queue : Queue
  /-- every claim a worker was handed -/
  claims : List ClaimedJob
  /-- the last publication that staged its result -/
  published : Option (ClaimedJob × ExtractionResult)

def System.initial : System :=
  { queue := Queue.empty
    claims := []
    published := none }

inductive Label
  | enqueue (freshId : Nat) (request : IngestSegmentCreate)
  | claim (leaseId : Nat)
  | publish (claim : ClaimedJob) (result : ExtractionResult)
  | commit (claim : ClaimedJob) (result : ExtractionResult) (prepared : PreparedSegment)
  | finish (claim : ClaimedJob) (terminal : Bool)
  | retry (jobId : Nat) (restartExtraction : Bool)
  | supersede (jobId : Nat)
  | recover

inductive Step (platform : Platform) (group : Group) : System → Label → System → Prop
  | enqueue {system : System} {freshId jobId : Nat} {request : IngestSegmentCreate} {after : Queue}
      (fresh : ∀ job ∈ system.queue.jobs, job.id ≠ freshId)
      (posted : enqueue platform group system.queue request freshId = .ok (after, jobId)) :
      Step platform group system (.enqueue freshId request) { system with queue := after }
  | claim {system : System} {leaseId : Nat} {after : Queue} {claimed : Option ClaimedJob}
      (fresh : ∀ claim ∈ system.claims, claim.leaseId ≠ leaseId)
      (taken : claimOldestJob platform group system.queue leaseId = .ok (after, claimed)) :
      Step platform group system (.claim leaseId)
        { system with
          queue := after
          claims := claimed.toList ++ system.claims }
  | publish {system : System} {claim : ClaimedJob} {result : ExtractionResult} {after : Queue}
      {staged : Bool} (held : claim ∈ system.claims)
      (reported : publishExtraction platform group system.queue claim result = .ok (after, staged)) :
      Step platform group system (.publish claim result)
        { system with
          queue := after
          published := if staged then some (claim, result) else system.published }
  | commit {system : System} {claim : ClaimedJob} {result : ExtractionResult}
      {prepared : PreparedSegment} {after : Queue} {committed : Bool} (held : claim ∈ system.claims)
      (reported : commitResolution platform group system.queue claim result prepared =
        .ok (after, committed)) :
      Step platform group system (.commit claim result prepared) { system with queue := after }
  | finish {system : System} {claim : ClaimedJob} {terminal : Bool} {after : Queue}
      {updated : Bool} (held : claim ∈ system.claims)
      (reported : finishFailedAttempt platform group system.queue claim terminal =
        .ok (after, updated)) :
      Step platform group system (.finish claim terminal) { system with queue := after }
  | retry {system : System} {jobId : Nat} {restartExtraction : Bool} {after : Queue}
      (retried : retryFailedJob platform group system.queue jobId restartExtraction = .ok after) :
      Step platform group system (.retry jobId restartExtraction) { system with queue := after }
  | supersede {system : System} {jobId : Nat} {after : Queue}
      (superseded : supersedeFailedJob platform group system.queue jobId = .ok after) :
      Step platform group system (.supersede jobId) { system with queue := after }
  | recover {system : System} {after : Queue}
      (recovered : recoverRunningJobs platform group system.queue = .ok after) :
      Step platform group system .recover { system with queue := after }

/-- States some run from empty tables leads to. -/
def Reachable (platform : Platform) (group : Group) (system : System) : Prop :=
  Reaches (Step platform group) (fun _ _ => True) System.initial system

end Reflection.Database
