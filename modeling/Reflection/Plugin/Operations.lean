/-
Queued and free operations of sessions, their deletion and the disposal.

Every call of queue, run and delete makes a promise, and the calls are numbered in their order. A
promise goes through the stages of its work; how long a settled promise takes to reach those who
wait for it is left open. Works resolve or reject at any time, and an abort only tells them.
-/

import Mathlib
import Reflection.Foundation.Runs

namespace Reflection.Plugin

/-- How far the promise of a call is. -/
inductive Stage
  | waiting
  /-- the work was started -/
  | running
  /-- it has settled, or was refused -/
  | ended
  /-- `.finally` has run -/
  | cleaned
  | settled
deriving DecidableEq

/-- The work does not run and will not start any more. -/
def Stage.done : Stage → Bool
  | .waiting => false
  | .running => false
  | _ => true

/-- A call with the promise it waits for; `none` is a resolved one. -/
inductive OperationCall (Session : Type)
  | queue (session : Session) (previous : Option Nat)
  | run (session : Option Session) (background : Bool)
  | delete (session : Session) (previous : Option Nat)

def OperationCall.isQueueOf {Session : Type} [DecidableEq Session] (session : Session) : OperationCall Session → Bool
  | .queue owner _ => owner == session
  | _ => false

def OperationCall.isRun {Session : Type} : OperationCall Session → Bool
  | .run _ _ => true
  | _ => false

/-- A call of dispose with the promises it waits for. -/
structure Disposal where
  awaited : List Nat
  resolved : Bool

structure Operations (Session : Type) [DecidableEq Session] where
  calls : List (OperationCall Session)
  stages : Nat → Stage
  /-- tasks, the promises of run and delete -/
  tasks : List Nat
  /-- the newest promise of each session's queue -/
  queues : AList fun _ : Session => Nat
  deleted : List Session
  stopped : Bool
  /-- the runs whose signal is aborted -/
  aborted : List Nat
  disposals : List Disposal
  /-- the works that were started, in that order -/
  started : List Nat

namespace Operations

variable {Session : Type} [DecidableEq Session]

def initial : Operations Session :=
  { calls := []
    stages := fun _ => .waiting
    tasks := []
    queues := ∅
    deleted := []
    stopped := false
    aborted := []
    disposals := []
    started := [] }

variable (operations : Operations Session)

def unavailable (session : Session) : Bool := operations.stopped || operations.deleted.contains session

def isRunCall (id : Nat) : Bool := operations.calls[id]?.any OperationCall.isRun

/-- The controllers of a session are those of its runs that are still among the tasks. -/
def controllersOf (session : Session) (primaryOnly : Bool) : List Nat :=
  operations.tasks.filter fun id =>
    match operations.calls[id]? with
    | some (.run owner background) => owner == some session && (!primaryOnly || !background)
    | _ => false

def abort (session : Session) (primaryOnly : Bool) : Operations Session :=
  { operations with aborted := operations.controllersOf session primaryOnly ++ operations.aborted }

def queue (session : Session) : Operations Session :=
  { operations with
    calls := operations.calls ++ [.queue session (operations.queues.lookup session)]
    queues := operations.queues.insert session operations.calls.length }

/-- A run of a session that is gone is rejected at once. -/
def run (session : Option Session) (background : Bool) : Operations Session :=
  if operations.stopped || session.any operations.deleted.contains then operations
  else
    { operations with
      calls := operations.calls ++ [.run session background]
      tasks := operations.tasks ++ [operations.calls.length] }

def delete (session : Session) : Operations Session :=
  let marked := ({ operations with deleted := session :: operations.deleted }).abort session false
  { marked with
    calls := marked.calls ++ [.delete session (marked.queues.lookup session)]
    tasks := marked.tasks ++ [marked.calls.length] }

def dispose : Operations Session :=
  { operations with
    stopped := true
    aborted := operations.tasks.filter operations.isRunCall ++ operations.aborted
    disposals := operations.disposals ++
      [{ awaited := operations.tasks ++ operations.queues.entries.map Sigma.snd
         resolved := false }] }

def setStage (id : Nat) (stage : Stage) : Operations Session :=
  { operations with stages := Function.update operations.stages id stage }

/-- The promise a call waits for has settled. -/
def Settled (previous : Option Nat) : Prop := ∀ id ∈ previous, operations.stages id = .settled

def start (id : Nat) : Operations Session :=
  { operations.setStage id .running with started := operations.started ++ [id] }

/-- `.finally` of queue: the entry goes unless a newer promise has taken its place. -/
def cleanQueue (session : Session) (id : Nat) : Operations Session :=
  let after := operations.setStage id .cleaned
  if operations.queues.lookup session = some id then
    { after with queues := operations.queues.erase session }
  else after

def dropTask (id : Nat) : Operations Session :=
  { operations with tasks := operations.tasks.filter fun other => other != id }

end Operations

inductive OperationEvent (Session : Type)
  | queue (session : Session)
  | run (session : Option Session) (background : Bool)
  | delete (session : Session)
  | abort (session : Session) (primaryOnly : Bool)
  | dispose
  | timeout (id : Nat)
  | start (id : Nat)
  | refuse (id : Nat)
  | finish (id : Nat) (rejected : Bool)
  | clean (id : Nat)
  | settle (id : Nat)
  | forget (id : Nat)
  | drained

variable {Session : Type} [DecidableEq Session]

inductive Operations.Moves : Operations Session → OperationEvent Session → Operations Session → Prop
  | queue {operations : Operations Session} (session : Session) :
      Operations.Moves operations (.queue session) (operations.queue session)
  | run {operations : Operations Session} (session : Option Session) (background : Bool) :
      Operations.Moves operations (.run session background) (operations.run session background)
  | delete {operations : Operations Session} (session : Session) :
      Operations.Moves operations (.delete session) (operations.delete session)
  | abort {operations : Operations Session} (session : Session) (primaryOnly : Bool) :
      Operations.Moves operations (.abort session primaryOnly) (operations.abort session primaryOnly)
  | dispose {operations : Operations Session} :
      Operations.Moves operations .dispose operations.dispose
  | timeout {operations : Operations Session} {id : Nat} (pending : id ∈ operations.tasks)
      (run : operations.isRunCall id = true) :
      Operations.Moves operations (.timeout id) { operations with aborted := id :: operations.aborted }
  | startQueued {operations : Operations Session} {id : Nat} {session : Session} {previous : Option Nat}
      (call : operations.calls[id]? = some (.queue session previous))
      (waits : operations.stages id = .waiting) (ready : operations.Settled previous)
      (available : operations.unavailable session = false) :
      Operations.Moves operations (.start id) (operations.start id)
  | refuse {operations : Operations Session} {id : Nat} {session : Session} {previous : Option Nat}
      (call : operations.calls[id]? = some (.queue session previous))
      (waits : operations.stages id = .waiting) (ready : operations.Settled previous)
      (unavailable : operations.unavailable session = true) :
      Operations.Moves operations (.refuse id) (operations.setStage id .ended)
  | startRun {operations : Operations Session} {id : Nat} {session : Option Session} {background : Bool}
      (call : operations.calls[id]? = some (.run session background))
      (waits : operations.stages id = .waiting) :
      Operations.Moves operations (.start id) (operations.start id)
  | startRemoval {operations : Operations Session} {id : Nat} {session : Session} {previous : Option Nat}
      (call : operations.calls[id]? = some (.delete session previous))
      (waits : operations.stages id = .waiting) (ready : operations.Settled previous) :
      Operations.Moves operations (.start id) (operations.start id)
  | finish {operations : Operations Session} {id : Nat} (runs : operations.stages id = .running)
      (rejected : Bool) :
      Operations.Moves operations (.finish id rejected) (operations.setStage id .ended)
  | cleanQueued {operations : Operations Session} {id : Nat} {session : Session} {previous : Option Nat}
      (call : operations.calls[id]? = some (.queue session previous)) (ended : operations.stages id = .ended) :
      Operations.Moves operations (.clean id) (operations.cleanQueue session id)
  | cleanRun {operations : Operations Session} {id : Nat} {session : Option Session} {background : Bool}
      (call : operations.calls[id]? = some (.run session background)) (ended : operations.stages id = .ended) :
      Operations.Moves operations (.clean id) ((operations.setStage id .cleaned).dropTask id)
  | settle {operations : Operations Session} {id : Nat} (cleaned : operations.stages id = .cleaned) :
      Operations.Moves operations (.settle id) (operations.setStage id .settled)
  /-- the promise of a delete has no `.finally` of its own -/
  | settleRemoval {operations : Operations Session} {id : Nat} {session : Session} {previous : Option Nat}
      (call : operations.calls[id]? = some (.delete session previous))
      (ended : operations.stages id = .ended) :
      Operations.Moves operations (.settle id) (operations.setStage id .settled)
  /-- its caller goes on and drops the task -/
  | forget {operations : Operations Session} {id : Nat} {session : Session} {previous : Option Nat}
      (call : operations.calls[id]? = some (.delete session previous))
      (settled : operations.stages id = .settled) :
      Operations.Moves operations (.forget id) (operations.dropTask id)
  | drained {operations : Operations Session} {earlier later : List Disposal} {disposal : Disposal}
      (waits : operations.disposals = earlier ++ disposal :: later)
      (allSettled : ∀ id ∈ disposal.awaited, operations.stages id = .settled) :
      Operations.Moves operations .drained
        { operations with disposals := earlier ++ { disposal with resolved := true } :: later }

end Reflection.Plugin
