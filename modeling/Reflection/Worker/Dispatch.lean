/-
The work loop, its tasks and the resolution lane as one transition system.

Code between two awaits runs undisturbed, so a step of the model is what happens when an await is
answered, up to the next await. Steps of the loop, of each task and of the lane come in any order,
and a stop or a wake may come between any two. A wait has a timer, so it may end at any step.
-/

import Reflection.Database.ClaimQuery
import Reflection.Foundation.PromiseChain
import Reflection.Worker.Processing

namespace Reflection.Worker

open Reflection.Database

/-! ### Calls of process -/

/-- Something that throws leads to the catch block. -/
def Phase.working : Phase → Bool
  | .extracting => true
  | .publishing _ => true
  | .resolving _ => true
  | .committing _ _ => true
  | _ => false

/-- Resolve and commit are one operation of the lane when the extraction has claims. -/
def Phase.inLane : Phase → Bool
  | .resolving result => !result.claims.isEmpty
  | .committing result _ => !result.claims.isEmpty
  | _ => false

def Phase.isSettled : Phase → Bool
  | .settled _ => true
  | _ => false

/-- What a call may wait for next, whatever the engine and the database answer. -/
inductive Follows (workerMaxAttempts : Nat) (job : ClaimedJob) : Phase → Phase → Prop
  | extracted (result : ExtractionResult) : Follows workerMaxAttempts job .extracting (.publishing result)
  | published (result : ExtractionResult) :
      Follows workerMaxAttempts job (.publishing result) (.resolving result)
  | unpublished (result : ExtractionResult) :
      Follows workerMaxAttempts job (.publishing result) (.settled (.returned .stale))
  | resolved (result : ExtractionResult) (prepared : PreparedSegment) :
      Follows workerMaxAttempts job (.resolving result) (.committing result prepared)
  | committed (result : ExtractionResult) (prepared : PreparedSegment) (updated : Bool) :
      Follows workerMaxAttempts job (.committing result prepared) (reported updated)
  | threw {phase : Phase} (working : phase.working = true) (terminalError : Bool) :
      Follows workerMaxAttempts job phase (caught workerMaxAttempts job terminalError)
  | finished (terminal updated : Bool) :
      Follows workerMaxAttempts job (.finishing terminal) (reported updated)
  | finishThrew (terminal : Bool) : Follows workerMaxAttempts job (.finishing terminal) (.settled .rejected)

/-- A call of `process` over the rows of its segment is such a call. -/
theorem Proceeds.follows {platform : Platform} {group : Group} {workerMaxAttempts : Nat} {job : ClaimedJob}
    {system after : System} {phase last : Phase} {occurrence : Occurrence}
    (proceeds : Proceeds platform group workerMaxAttempts job system phase occurrence after last) :
    Follows workerMaxAttempts job phase last := by
  cases proceeds with
  | extracted result => exact .extracted result
  | extractionFailed terminalError => exact .threw rfl terminalError
  | @published _ result staged _ =>
      cases staged with
      | true => exact .published result
      | false => exact .unpublished result
  | publicationRefused _ => exact .threw rfl false
  | publicationLost _ => exact .threw rfl false
  | publicationRolledBack => exact .threw rfl false
  | resolved prepared => exact .resolved _ prepared
  | resolutionFailed terminalError => exact .threw rfl terminalError
  | committed _ => exact .committed _ _ _
  | commitRefused _ => exact .threw rfl false
  | commitLost _ => exact .threw rfl false
  | commitRolledBack => exact .threw rfl false
  | finished _ => exact .finished _ _
  | finishRefused _ => exact .finishThrew _
  | finishLost _ => exact .finishThrew _
  | finishRolledBack => exact .finishThrew _

/-! ### Tasks -/

/-- A dispatched job, until it leaves activeTasks. -/
structure Task where
  /-- how many jobs were dispatched before it -/
  ticket : Nat
  job : ClaimedJob
  phase : Phase
  /-- its call of the lane, while that lasts -/
  turn : Option Nat
  /-- `#dispatchJob` has returned -/
  finished : Bool

/-- What the tasks share. -/
structure Pool where
  activeTasks : List Task
  activeSessions : List (JsString × SourceSession)
  resolutionLane : PromiseChain
  /-- the calls of `process`, in the order they were made -/
  processed : List ClaimedJob

def Pool.empty : Pool :=
  { activeTasks := []
    activeSessions := []
    resolutionLane := .resolved
    processed := [] }

/-- `sessions.set(key, session)`. -/
def addActiveSession (sessions : List (JsString × SourceSession)) (session : SourceSession) :
    List (JsString × SourceSession) :=
  let entry := (sourceSessionKey session, session)
  if sessions.any fun other => other.1 == entry.1 then
    sessions.map fun other => if other.1 = entry.1 then entry else other
  else sessions ++ [entry]

/-- `activeSessions.delete(key)`. -/
def deleteActiveSession (sessions : List (JsString × SourceSession)) (session : SourceSession) :
    List (JsString × SourceSession) :=
  sessions.filter fun other => other.1 != sourceSessionKey session

namespace Pool

variable (pool : Pool)

/-- `Array.from(activeSessions.values())`. -/
def busy : List SourceSession := pool.activeSessions.map Prod.snd

/-- The job joins the active ones, and `process` runs up to its first await. -/
def dispatch (job : ClaimedJob) : Pool :=
  let phase := start job
  { activeTasks := pool.activeTasks ++
      [{ ticket := pool.processed.length
         job := job
         phase := phase
         turn := if phase.inLane then some pool.resolutionLane.arrived else none
         finished := false }]
    activeSessions := addActiveSession pool.activeSessions job.session
    resolutionLane := if phase.inLane then pool.resolutionLane.arrive else pool.resolutionLane
    processed := pool.processed ++ [job] }

end Pool

/-- A call goes on: it queues for the lane before a lane phase and releases it behind the last. -/
def Task.proceed (task : Task) (lane : PromiseChain) (next : Phase) : Task × PromiseChain :=
  match task.turn with
  | none =>
      if next.inLane then
        ({ task with
            phase := next
            turn := some lane.arrived }, lane.arrive)
      else ({ task with phase := next }, lane)
  | some turn =>
      if next.inLane then ({ task with phase := next }, lane)
      else
        ({ task with
            phase := next
            turn := none }, lane.release turn)

inductive TaskEvent
  | proceed (ticket : Nat) (next : Phase)
  /-- the await of the lane's old tail is answered -/
  | enterLane (turn : Nat)
  | settleLane (turn : Nat)
  /-- `#dispatchJob` goes on behind the settled call -/
  | finish (ticket : Nat) (outcome : Settlement)
  /-- the task's `.finally` runs -/
  | remove (ticket : Nat)

inductive Pool.Moves (workerMaxAttempts : Nat) : Pool → TaskEvent → Pool → Prop
  | proceed {pool : Pool} {earlier later : List Task} {task : Task} {next : Phase}
      (waits : pool.activeTasks = earlier ++ task :: later)
      (admitted : ∀ turn ∈ task.turn, pool.resolutionLane.Inside turn)
      (follows : Follows workerMaxAttempts task.job task.phase next) :
      Pool.Moves workerMaxAttempts pool (.proceed task.ticket next)
        { pool with
          activeTasks := earlier ++ (task.proceed pool.resolutionLane next).1 :: later
          resolutionLane := (task.proceed pool.resolutionLane next).2 }
  | enterLane {pool : Pool} {turn : Nat} (waits : pool.resolutionLane.Waiting turn)
      (ready : pool.resolutionLane.settled turn = true) :
      Pool.Moves workerMaxAttempts pool (.enterLane turn)
        { pool with resolutionLane := pool.resolutionLane.enter turn }
  | settleLane {pool : Pool} {turn : Nat} (before : pool.resolutionLane.settled turn = true)
      (released : pool.resolutionLane.released turn = true) :
      Pool.Moves workerMaxAttempts pool (.settleLane turn)
        { pool with resolutionLane := pool.resolutionLane.settle (turn + 1) }
  | finish {pool : Pool} {earlier later : List Task} {task : Task} {outcome : Settlement}
      (waits : pool.activeTasks = earlier ++ task :: later) (settled : task.phase = .settled outcome)
      (unfinished : task.finished = false) :
      Pool.Moves workerMaxAttempts pool (.finish task.ticket outcome)
        { pool with
          activeTasks := earlier ++ { task with finished := true } :: later
          activeSessions := deleteActiveSession pool.activeSessions task.job.session }
  | remove {pool : Pool} {earlier later : List Task} {task : Task}
      (waits : pool.activeTasks = earlier ++ task :: later) (finished : task.finished = true) :
      Pool.Moves workerMaxAttempts pool (.remove task.ticket) { pool with activeTasks := earlier ++ later }

/-! ### The loop -/

/-- The await the worker stands at. -/
inductive Control
  | connecting
  | locking
  | recovering
  /-- `#waitForWork(false)` after stale work -/
  | backingOff
  /-- every place is taken; the flag is the resolved promise -/
  | full (resolved : Bool)
  | claiming (excluded : List SourceSession)
  | claimed (answer : Option ClaimedJob)
  /-- `#waitForWork(true)` behind an empty claim -/
  | idle
  /-- `Promise.allSettled(activeTasks)` -/
  | draining (failed : Bool)
  | unlocking (failed : Bool)
  /-- `#waitForWork()` of `#run`, before it releases the connection -/
  | pausing (destroyConnection : Bool)
  | ended
deriving DecidableEq

structure Dispatcher where
  pool : Pool
  control : Control
  stopping : Bool
  wakeRequested : Bool
  staleBackoff : Bool
  /-- the advisory lock, as the database has it -/
  locked : Bool
  /-- the claims the database handed out, in order -/
  handedOut : List ClaimedJob

def Dispatcher.started : Dispatcher :=
  { pool := .empty
    control := .connecting
    stopping := false
    wakeRequested := false
    staleBackoff := false
    locked := false
    handedOut := [] }

namespace Dispatcher

variable (workerConcurrency : Nat) (worker : Dispatcher)

/-- `while (!this.#stopping)` of `#run`. -/
def runHead : Dispatcher :=
  if worker.stopping then { worker with control := .ended } else { worker with control := .connecting }

/-- The work loop is left, by a break or by an error. -/
def leaveLoop (failed : Bool) : Dispatcher :=
  if worker.pool.activeTasks.isEmpty then { worker with control := .unlocking failed }
  else { worker with control := .draining failed }

/-- The loop's body behind the backoff: wait for a place, or claim. -/
def pastBackoff : Dispatcher :=
  if workerConcurrency ≤ worker.pool.activeTasks.length then { worker with control := .full false }
  else { worker with control := .claiming worker.pool.busy }

/-- `while (!this.#stopping)` of `#workLoop`. -/
def workHead : Dispatcher :=
  if worker.stopping then worker.leaveLoop false
  else if worker.staleBackoff then
    { worker with
      staleBackoff := false
      control := .backingOff }
  else worker.pastBackoff workerConcurrency

/-- `break` when stopping, else `continue`. -/
def breakOr (onward : Dispatcher) : Dispatcher :=
  if worker.stopping then worker.leaveLoop false else onward

/-- A claim's answer: a job is dispatched, also by a loop that stops. -/
def dispatch (answer : Option ClaimedJob) : Dispatcher :=
  match answer with
  | some job =>
      let next := { worker with pool := worker.pool.dispatch job }
      next.breakOr (next.workHead workerConcurrency)
  | none => worker.breakOr { worker with control := .idle }

/-- Behind the inner `finally`: the lock's fate is known to the loop, an error still has to be
caught. -/
def afterUnlock (failed destroyConnection : Bool) : Dispatcher :=
  if failed then { worker with control := .pausing destroyConnection }
  else { worker with locked := worker.locked && !destroyConnection }.runHead

/-- `#waitForWork` ends. -/
def waited : Dispatcher := { worker with wakeRequested := false }

def wake : Dispatcher :=
  match worker.control with
  | .full _ =>
      { worker with
        wakeRequested := true
        control := .full true }
  | _ => { worker with wakeRequested := true }

/-- `onTaskComplete`: resolves the wait for a place, or wakes an idle loop. -/
def taskComplete : Dispatcher :=
  match worker.control with
  | .full _ => { worker with control := .full true }
  | .idle => worker.wake
  | _ => worker

/-- What the loop notices of a step of its tasks. -/
def noticed (event : TaskEvent) : Dispatcher :=
  match event with
  | .finish _ (.returned .stale) => { worker with staleBackoff := true }
  | .remove _ => worker.taskComplete
  | _ => worker

end Dispatcher

inductive DispatchEvent
  | stop
  | wake
  /-- an await of the loop is answered -/
  | answer
  /-- it fails -/
  | failure
  | task (event : TaskEvent)

inductive Dispatcher.Moves (platform : Platform) (workerConcurrency workerMaxAttempts : Nat) :
    Dispatcher → DispatchEvent → Dispatcher → Prop
  | stop {worker : Dispatcher} :
      Dispatcher.Moves platform workerConcurrency workerMaxAttempts worker .stop
        { worker with stopping := true }.wake
  | wake {worker : Dispatcher} :
      Dispatcher.Moves platform workerConcurrency workerMaxAttempts worker .wake worker.wake
  | connected {worker : Dispatcher} (control : worker.control = .connecting) :
      Dispatcher.Moves platform workerConcurrency workerMaxAttempts worker .answer
        { worker with control := .locking }
  | connectFailed {worker : Dispatcher} (control : worker.control = .connecting) :
      Dispatcher.Moves platform workerConcurrency workerMaxAttempts worker .failure
        { worker with control := .pausing false }
  | lockAcquired {worker : Dispatcher} (control : worker.control = .locking) :
      Dispatcher.Moves platform workerConcurrency workerMaxAttempts worker .answer
        { worker with
          locked := true
          control := .recovering }
  | lockRefused {worker : Dispatcher} (control : worker.control = .locking) :
      Dispatcher.Moves platform workerConcurrency workerMaxAttempts worker .failure
        { worker with control := .pausing false }
  | recovered {worker : Dispatcher} (control : worker.control = .recovering) :
      Dispatcher.Moves platform workerConcurrency workerMaxAttempts worker .answer
        ({ worker with staleBackoff := false }.workHead workerConcurrency)
  | recoveryFailed {worker : Dispatcher} (control : worker.control = .recovering) :
      Dispatcher.Moves platform workerConcurrency workerMaxAttempts worker .failure
        { worker with control := .unlocking true }
  | backedOff {worker : Dispatcher} (control : worker.control = .backingOff) :
      Dispatcher.Moves platform workerConcurrency workerMaxAttempts worker .answer
        (worker.waited.breakOr (worker.waited.pastBackoff workerConcurrency))
  | placeFree {worker : Dispatcher} (control : worker.control = .full true) :
      Dispatcher.Moves platform workerConcurrency workerMaxAttempts worker .answer
        (worker.breakOr (worker.workHead workerConcurrency))
  | handedOut {worker : Dispatcher} {excluded : List SourceSession} {tables after : QueueTables}
      {now leaseId : Nat} {job : ClaimedJob} (control : worker.control = .claiming excluded)
      (taken : tables.claimOldestJob platform excluded now leaseId = .ok (after, some job)) :
      Dispatcher.Moves platform workerConcurrency workerMaxAttempts worker .answer
        { worker with
          handedOut := worker.handedOut ++ [job]
          control := .claimed (some job) }
  | nothingDue {worker : Dispatcher} {excluded : List SourceSession}
      (control : worker.control = .claiming excluded) :
      Dispatcher.Moves platform workerConcurrency workerMaxAttempts worker .answer
        { worker with control := .claimed none }
  | claimFailed {worker : Dispatcher} {excluded : List SourceSession}
      (control : worker.control = .claiming excluded) :
      Dispatcher.Moves platform workerConcurrency workerMaxAttempts worker .failure (worker.leaveLoop true)
  | dispatched {worker : Dispatcher} {answer : Option ClaimedJob}
      (control : worker.control = .claimed answer) :
      Dispatcher.Moves platform workerConcurrency workerMaxAttempts worker .answer
        (worker.dispatch workerConcurrency answer)
  | idled {worker : Dispatcher} (control : worker.control = .idle) :
      Dispatcher.Moves platform workerConcurrency workerMaxAttempts worker .answer
        (worker.waited.workHead workerConcurrency)
  | drained {worker : Dispatcher} {failed : Bool} (control : worker.control = .draining failed)
      (allSettled : worker.pool.activeTasks = []) :
      Dispatcher.Moves platform workerConcurrency workerMaxAttempts worker .answer
        { worker with control := .unlocking failed }
  | unlocked {worker : Dispatcher} {failed : Bool} (control : worker.control = .unlocking failed) :
      Dispatcher.Moves platform workerConcurrency workerMaxAttempts worker .answer
        ({ worker with locked := false }.afterUnlock failed false)
  | unlockFailed {worker : Dispatcher} {failed : Bool} (control : worker.control = .unlocking failed) :
      Dispatcher.Moves platform workerConcurrency workerMaxAttempts worker .failure
        (worker.afterUnlock failed true)
  | paused {worker : Dispatcher} {destroyConnection : Bool}
      (control : worker.control = .pausing destroyConnection) :
      Dispatcher.Moves platform workerConcurrency workerMaxAttempts worker .answer
        { worker.waited with locked := worker.locked && !destroyConnection }.runHead
  | task {worker : Dispatcher} {event : TaskEvent} {pool : Pool}
      (move : Pool.Moves workerMaxAttempts worker.pool event pool) :
      Dispatcher.Moves platform workerConcurrency workerMaxAttempts worker (.task event)
        ({ worker with pool := pool }.noticed event)

end Reflection.Worker
