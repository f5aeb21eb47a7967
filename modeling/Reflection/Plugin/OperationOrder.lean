/-
Queued works of a session follow each other, and deletion and disposal are barriers.

A call waits for the newest promise of its session's queue, which stands for all earlier ones: an
entry is removed only behind its own work, and then every earlier work of the session is done.
-/

import Reflection.Plugin.Operations

namespace Reflection.Plugin

variable {Session : Type} [DecidableEq Session]

/-- The session whose queue a call waits for, and the promise it waits for. -/
def OperationCall.behindQueue : OperationCall Session → Option (Session × Option Nat)
  | .queue session previous => some (session, previous)
  | .run _ _ => none
  | .delete session previous => some (session, previous)

namespace Operations

variable {operations after : Operations Session}

def QueuedFor (operations : Operations Session) (session : Session) (id : Nat) : Bool :=
  operations.calls[id]?.any (OperationCall.isQueueOf session)

theorem queuedFor_iff {session : Session} {id : Nat} :
    operations.QueuedFor session id = true ↔
      ∃ previous, operations.calls[id]? = some (.queue session previous) := by
  unfold QueuedFor
  constructor
  · intro queued
    cases isCall : operations.calls[id]? with
    | none =>
        rw [isCall] at queued
        cases queued
    | some call =>
        rw [isCall] at queued
        cases call with
        | queue owner previous =>
            rw [beq_iff_eq.mp queued]
            exact ⟨previous, rfl⟩
        | run _ _ => cases queued
        | delete _ _ => cases queued
  · rintro ⟨previous, isCall⟩
    rw [isCall]
    exact beq_iff_eq.mpr rfl

theorem queuedFor_lt {session : Session} {id : Nat} (queued : operations.QueuedFor session id = true) :
    id < operations.calls.length := by
  rcases queuedFor_iff.mp queued with ⟨previous, isCall⟩
  exact (List.getElem?_eq_some_iff.mp isCall).1

/-- The work of every call of the session before this one is done. -/
def DoneBefore (operations : Operations Session) (session : Session) (id : Nat) : Prop :=
  ∀ earlier < id, operations.QueuedFor session earlier = true → (operations.stages earlier).done = true

/-- What a call may rely on once the promise it waits for has settled. -/
def Covers (operations : Operations Session) (session : Session) (id : Nat) : Option Nat → Prop
  | none => operations.DoneBefore session id
  | some tail =>
      tail < id ∧ operations.QueuedFor session tail = true ∧
        ∀ earlier < id, operations.QueuedFor session earlier = true → earlier ≤ tail

structure Orderly (operations : Operations Session) : Prop where
  fresh : ∀ id, operations.calls.length ≤ id → operations.stages id = .waiting
  tail : ∀ session tail, operations.queues.lookup session = some tail →
    operations.QueuedFor session tail = true ∧
      ∀ id, operations.QueuedFor session id = true → id ≤ tail
  noTail : ∀ session, operations.queues.lookup session = none →
    ∀ id, operations.QueuedFor session id = true → (operations.stages id).done = true
  covers : ∀ id call, operations.calls[id]? = some call → ∀ session previous,
    call.behindQueue = some (session, previous) → operations.Covers session id previous
  behind : ∀ id call, operations.calls[id]? = some call → ∀ session previous,
    call.behindQueue = some (session, previous) → operations.stages id ≠ .waiting →
      operations.DoneBefore session id
  runs : ∀ id, operations.isRunCall id = true → (operations.stages id).done = false →
    id ∈ operations.tasks
  started : ∀ id ∈ operations.started, operations.stages id ≠ .waiting
  inOrder : ∀ session, (operations.started.filter (operations.QueuedFor session)).Pairwise (· < ·)
  stops : ∀ disposal ∈ operations.disposals, operations.stopped = true
  awaitsRuns : ∀ disposal ∈ operations.disposals, ∀ id, operations.isRunCall id = true →
    (operations.stages id).done = false → id ∈ disposal.awaited
  awaitsQueues : ∀ disposal ∈ operations.disposals, ∀ session id,
    operations.QueuedFor session id = true → operations.stages id = .running →
      ∃ tail ∈ disposal.awaited, operations.QueuedFor session tail = true ∧ id ≤ tail
  resolved : ∀ disposal ∈ operations.disposals, disposal.resolved = true →
    ∀ id ∈ disposal.awaited, operations.stages id = .settled

theorem initial_orderly : (initial : Operations Session).Orderly := by
  have noCall : ∀ id, (initial : Operations Session).calls[id]? = none := fun id => List.getElem?_nil
  constructor
  · intro id _
    rfl
  · intro session tail absent
    cases absent
  · intro session _ id queued
    cases queued
  · intro id call isCall
    rw [noCall] at isCall
    cases isCall
  · intro id call isCall
    rw [noCall] at isCall
    cases isCall
  · intro id isRun
    cases isRun
  · intro id absent
    cases absent
  · intro session
    exact List.Pairwise.nil
  all_goals
    intro disposal absent
    cases absent

/-- A call is begun only when every earlier work of its session is done. -/
theorem Orderly.doneBefore (orderly : operations.Orderly) {id : Nat} {call : OperationCall Session}
    {session : Session} {previous : Option Nat} (isCall : operations.calls[id]? = some call)
    (waitsFor : call.behindQueue = some (session, previous)) (ready : operations.Settled previous) :
    operations.DoneBefore session id := by
  have covers := orderly.covers id call isCall session previous waitsFor
  cases previous with
  | none => exact covers
  | some tail =>
      rcases covers with ⟨_, queued, last⟩
      have settled := ready tail rfl
      intro earlier before isQueued
      rcases Nat.lt_or_eq_of_le (last earlier before isQueued) with sooner | same
      · rcases queuedFor_iff.mp queued with ⟨own, isTail⟩
        exact orderly.behind tail _ isTail session own rfl (by rw [settled]; exact Stage.noConfusion)
          earlier sooner isQueued
      · rw [same, settled]
        rfl

/-! ### Calls -/

section Appending

variable {call : OperationCall Session}

omit [DecidableEq Session] in
theorem getElem?_snoc_cases {calls : List (OperationCall Session)} {id : Nat} {other : OperationCall Session}
    (isCall : (calls ++ [call])[id]? = some other) :
    calls[id]? = some other ∨ id = calls.length ∧ other = call := by
  rcases Nat.lt_or_ge id calls.length with early | late
  · rw [List.getElem?_append_left early] at isCall
    exact .inl isCall
  · rw [List.getElem?_append_right late] at isCall
    rcases List.getElem?_eq_some_iff.mp isCall with ⟨within, same⟩
    rw [List.length_singleton] at within
    have first : id - calls.length = 0 := by omega
    refine .inr ⟨by omega, ?_⟩
    rw [← same]
    simp [first]

/-- A call that was made before is the same behind another one. -/
theorem queuedFor_snoc {session : Session} {id : Nat}
    (calls : after.calls = operations.calls ++ [call]) (early : id < operations.calls.length) :
    after.QueuedFor session id = operations.QueuedFor session id := by
  unfold QueuedFor
  rw [calls, List.getElem?_append_left early]

theorem isRunCall_snoc {id : Nat} (calls : after.calls = operations.calls ++ [call])
    (early : id < operations.calls.length) : after.isRunCall id = operations.isRunCall id := by
  unfold isRunCall
  rw [calls, List.getElem?_append_left early]

theorem queuedFor_cases {session : Session} {id : Nat}
    (calls : after.calls = operations.calls ++ [call]) (queued : after.QueuedFor session id = true) :
    operations.QueuedFor session id = true ∨
      id = operations.calls.length ∧ call.isQueueOf session = true := by
  rcases queuedFor_iff.mp queued with ⟨previous, isCall⟩
  rw [calls] at isCall
  rcases getElem?_snoc_cases isCall with old | ⟨last, same⟩
  · exact .inl (queuedFor_iff.mpr ⟨previous, old⟩)
  · rw [← same]
    exact .inr ⟨last, beq_iff_eq.mpr rfl⟩

theorem isRunCall_cases {id : Nat} (calls : after.calls = operations.calls ++ [call])
    (isRun : after.isRunCall id = true) :
    operations.isRunCall id = true ∨ id = operations.calls.length ∧ call.isRun = true := by
  unfold isRunCall at isRun ⊢
  rw [calls] at isRun
  rcases (Option.any_eq_true _ _).mp isRun with ⟨other, isCall, isRunCall⟩
  rcases getElem?_snoc_cases isCall with old | ⟨last, same⟩
  · exact .inl ((Option.any_eq_true _ _).mpr ⟨other, old, isRunCall⟩)
  · rw [same] at isRunCall
    exact .inr ⟨last, isRunCall⟩

/-- What a new call leaves as it is, and what it must be. -/
structure Appends (operations after : Operations Session) (call : OperationCall Session) : Prop where
  calls : after.calls = operations.calls ++ [call]
  stages : after.stages = operations.stages
  started : after.started = operations.started
  disposals : after.disposals = operations.disposals
  stopped : after.stopped = operations.stopped
  tasks : ∀ id ∈ operations.tasks, id ∈ after.tasks
  /-- a run is a task, and none is accepted behind a disposal -/
  run : call.isRun = true → operations.calls.length ∈ after.tasks ∧ operations.stopped = false
  /-- a call behind a queue waits for its tail -/
  tail : ∀ session previous, call.behindQueue = some (session, previous) →
    previous = operations.queues.lookup session
  /-- and becomes the tail when it is queued itself -/
  queues : ∀ session, after.queues.lookup session =
    if call.isQueueOf session = true then some operations.calls.length
    else operations.queues.lookup session

theorem Orderly.appends (orderly : operations.Orderly) (appends : Appends operations after call) :
    after.Orderly := by
  have isNew : operations.stages operations.calls.length = .waiting :=
    orderly.fresh _ (Nat.le_refl _)
  have doneBefore : ∀ {session id}, id ≤ operations.calls.length →
      operations.DoneBefore session id → after.DoneBefore session id := by
    intro session id within done earlier before queued
    rw [appends.stages]
    rw [queuedFor_snoc appends.calls (by omega)] at queued
    exact done earlier before queued
  refine
    { fresh := ?_
      tail := ?_
      noTail := ?_
      covers := ?_
      behind := ?_
      runs := ?_
      started := ?_
      inOrder := ?_
      stops := ?_
      awaitsRuns := ?_
      awaitsQueues := ?_
      resolved := ?_ }
  · intro id outside
    rw [appends.calls, List.length_append] at outside
    rw [appends.stages]
    exact orderly.fresh id (by omega)
  · intro session tail isTail
    rw [appends.queues] at isTail
    split at isTail
    · rename_i own
      cases isTail
      constructor
      · unfold QueuedFor
        rw [appends.calls, List.getElem?_append_right (Nat.le_refl _), Nat.sub_self]
        exact own
      · intro id queued
        rcases queuedFor_cases appends.calls queued with old | ⟨last, _⟩
        · exact (queuedFor_lt old).le
        · exact last.le
    · rename_i other
      rcases orderly.tail session tail isTail with ⟨queued, last⟩
      constructor
      · rw [queuedFor_snoc appends.calls (queuedFor_lt queued)]
        exact queued
      · intro id isQueued
        rcases queuedFor_cases appends.calls isQueued with old | ⟨_, own⟩
        · exact last id old
        · exact absurd own other
  · intro session absent id queued
    rw [appends.queues] at absent
    split at absent
    · cases absent
    · rename_i other
      rw [appends.stages]
      rcases queuedFor_cases appends.calls queued with old | ⟨_, own⟩
      · exact orderly.noTail session absent id old
      · exact absurd own other
  · intro id one isCall session previous waitsFor
    rw [appends.calls] at isCall
    rcases getElem?_snoc_cases isCall with old | ⟨last, same⟩
    · have early := (List.getElem?_eq_some_iff.mp old).1
      have covers := orderly.covers id one old session previous waitsFor
      cases previous with
      | none => exact doneBefore early.le covers
      | some tail =>
          rcases covers with ⟨before, queued, all⟩
          refine ⟨before, ?_, ?_⟩
          · rw [queuedFor_snoc appends.calls (queuedFor_lt queued)]
            exact queued
          · intro earlier sooner isQueued
            rw [queuedFor_snoc appends.calls (by omega)] at isQueued
            exact all earlier sooner isQueued
    · rw [same] at waitsFor
      have isTail := appends.tail session previous waitsFor
      rw [last]
      cases previous with
      | none =>
          apply doneBefore (Nat.le_refl _)
          intro earlier _ queued
          exact orderly.noTail session isTail.symm earlier queued
      | some tail =>
          rcases orderly.tail session tail isTail.symm with ⟨queued, all⟩
          refine ⟨queuedFor_lt queued, ?_, ?_⟩
          · rw [queuedFor_snoc appends.calls (queuedFor_lt queued)]
            exact queued
          · intro earlier sooner isQueued
            rw [queuedFor_snoc appends.calls sooner] at isQueued
            exact all earlier isQueued
  · intro id one isCall session previous waitsFor begun
    rw [appends.calls] at isCall
    rw [appends.stages] at begun
    rcases getElem?_snoc_cases isCall with old | ⟨last, _⟩
    · exact doneBefore (List.getElem?_eq_some_iff.mp old).1.le
        (orderly.behind id one old session previous waitsFor begun)
    · rw [last] at begun
      exact absurd isNew begun
  · intro id isRun pending
    rw [appends.stages] at pending
    rcases isRunCall_cases appends.calls isRun with old | ⟨last, run⟩
    · exact appends.tasks id (orderly.runs id old pending)
    · rw [last]
      exact (appends.run run).1
  · rw [appends.started, appends.stages]
    exact orderly.started
  · intro session
    have same : after.started.filter (after.QueuedFor session) =
        operations.started.filter (operations.QueuedFor session) := by
      rw [appends.started]
      apply List.filter_congr
      intro id inside
      have early : id < operations.calls.length := by
        by_contra late
        exact orderly.started id inside (orderly.fresh id (Nat.le_of_not_lt late))
      exact queuedFor_snoc appends.calls early
    rw [same]
    exact orderly.inOrder session
  · rw [appends.disposals, appends.stopped]
    exact orderly.stops
  · intro disposal inside id isRun pending
    rw [appends.disposals] at inside
    rw [appends.stages] at pending
    rcases isRunCall_cases appends.calls isRun with old | ⟨_, run⟩
    · exact orderly.awaitsRuns disposal inside id old pending
    · have stopped := orderly.stops disposal inside
      rw [(appends.run run).2] at stopped
      cases stopped
  · intro disposal inside session id queued running
    rw [appends.disposals] at inside
    rw [appends.stages] at running
    rcases queuedFor_cases appends.calls queued with old | ⟨last, _⟩
    · rcases orderly.awaitsQueues disposal inside session id old running with ⟨tail, awaited, isQueued, before⟩
      refine ⟨tail, awaited, ?_, before⟩
      rw [queuedFor_snoc appends.calls (queuedFor_lt isQueued)]
      exact isQueued
    · rw [last, isNew] at running
      cases running
  · rw [appends.disposals, appends.stages]
    exact orderly.resolved

theorem Orderly.queue (orderly : operations.Orderly) (session : Session) :
    (operations.queue session).Orderly := by
  suffices appends : Appends operations (operations.queue session)
      (.queue session (operations.queues.lookup session)) from orderly.appends appends
  refine ⟨rfl, rfl, rfl, rfl, rfl, fun id inside => inside, ?_, ?_, ?_⟩
  · intro isRun
    cases isRun
  · intro owner previous waitsFor
    cases waitsFor
    rfl
  · intro owner
    change (operations.queues.insert session _).lookup owner = _
    by_cases own : session = owner
    · rw [own, AList.lookup_insert]
      exact (if_pos (beq_iff_eq.mpr rfl)).symm
    · rw [AList.lookup_insert_ne (Ne.symm own)]
      exact (if_neg fun same => own (beq_iff_eq.mp same)).symm

theorem Orderly.run (orderly : operations.Orderly) (session : Option Session) (background : Bool) :
    (operations.run session background).Orderly := by
  unfold Operations.run
  split
  · exact orderly
  · rename_i accepted
    rw [Bool.or_eq_true, not_or] at accepted
    suffices appends : Appends operations _ (.run session background) from orderly.appends appends
    refine ⟨rfl, rfl, rfl, rfl, rfl, fun id inside => List.mem_append_left _ inside, ?_, ?_, ?_⟩
    · intro _
      exact ⟨List.mem_append_right _ (List.mem_singleton.mpr rfl), Bool.not_eq_true _ ▸ accepted.1⟩
    · intro owner previous waitsFor
      cases waitsFor
    · intro owner
      rw [if_neg]
      exact Bool.false_ne_true

theorem Orderly.delete (orderly : operations.Orderly) (session : Session) :
    (operations.delete session).Orderly := by
  suffices appends : Appends operations (operations.delete session)
      (.delete session (operations.queues.lookup session)) from orderly.appends appends
  refine ⟨rfl, rfl, rfl, rfl, rfl, fun id inside => List.mem_append_left _ inside, ?_, ?_, ?_⟩
  · intro isRun
    cases isRun
  · intro owner previous waitsFor
    cases waitsFor
    rfl
  · intro owner
    rw [if_neg]
    · rfl
    · exact Bool.false_ne_true

end Appending

/-! ### Stages -/

theorem setStage_queuedFor {session : Session} {id other : Nat} {stage : Stage} :
    (operations.setStage id stage).QueuedFor session other = operations.QueuedFor session other := rfl

/-- A promise goes on: what was done stays done, and a work starts only where it may. -/
structure Proceeds (operations : Operations Session) (id : Nat) (stage : Stage) : Prop where
  inside : id < operations.calls.length
  begun : stage ≠ .waiting
  done : (operations.stages id).done = true → stage.done = true
  unsettled : operations.stages id ≠ .settled
  /-- the wait before it is over -/
  ready : ∀ call, operations.calls[id]? = some call → ∀ session previous,
    call.behindQueue = some (session, previous) → operations.DoneBefore session id
  /-- no queued work runs on behind a disposal -/
  starts : ∀ session, operations.QueuedFor session id = true → stage = .running →
    operations.stopped = false

theorem Proceeds.stays_done {id : Nat} {stage : Stage} (proceeds : operations.Proceeds id stage)
    {other : Nat} (done : (operations.stages other).done = true) :
    ((operations.setStage id stage).stages other).done = true := by
  change (Function.update operations.stages id stage other).done = true
  rcases eq_or_ne other id with same | different
  · rw [same, Function.update_self]
    exact proceeds.done (same ▸ done)
  · rw [Function.update_of_ne different]
    exact done

theorem Proceeds.pending {id : Nat} {stage : Stage} (proceeds : operations.Proceeds id stage) {other : Nat}
    (pending : ((operations.setStage id stage).stages other).done = false) :
    (operations.stages other).done = false := by
  cases done : (operations.stages other).done with
  | false => rfl
  | true =>
      rw [proceeds.stays_done done] at pending
      cases pending

theorem Orderly.setStage {id : Nat} {stage : Stage} (orderly : operations.Orderly)
    (proceeds : operations.Proceeds id stage) : (operations.setStage id stage).Orderly := by
  have doneBefore : ∀ {session other}, operations.DoneBefore session other →
      (operations.setStage id stage).DoneBefore session other := by
    intro session other done earlier before queued
    exact proceeds.stays_done (done earlier before queued)
  have others : ∀ {other}, other ≠ id →
      (operations.setStage id stage).stages other = operations.stages other := by
    intro other different
    exact Function.update_of_ne different ..
  have own : (operations.setStage id stage).stages id = stage := Function.update_self ..
  refine
    { fresh := ?_
      tail := orderly.tail
      noTail := fun session absent other queued =>
        proceeds.stays_done (orderly.noTail session absent other queued)
      covers := ?_
      behind := ?_
      runs := fun other isRun pending => orderly.runs other isRun (proceeds.pending pending)
      started := ?_
      inOrder := orderly.inOrder
      stops := orderly.stops
      awaitsRuns := fun disposal inside other isRun pending =>
        orderly.awaitsRuns disposal inside other isRun (proceeds.pending pending)
      awaitsQueues := ?_
      resolved := ?_ }
  · intro other outside
    have late : operations.calls.length ≤ other := outside
    have inside := proceeds.inside
    rw [others (by omega)]
    exact orderly.fresh other late
  · intro other call isCall session previous waitsFor
    have covers := orderly.covers other call isCall session previous waitsFor
    cases previous with
    | none => exact doneBefore covers
    | some tail => exact covers
  · intro other call isCall session previous waitsFor begun
    rcases eq_or_ne other id with same | different
    · rw [same] at isCall ⊢
      exact doneBefore (proceeds.ready call isCall session previous waitsFor)
    · rw [others different] at begun
      exact doneBefore (orderly.behind other call isCall session previous waitsFor begun)
  · intro other inside
    rcases eq_or_ne other id with same | different
    · rw [same, own]
      exact proceeds.begun
    · rw [others different]
      exact orderly.started other inside
  · intro disposal inside session other queued running
    rcases eq_or_ne other id with same | different
    · rw [same] at queued running
      rw [own] at running
      have stopped := orderly.stops disposal inside
      rw [proceeds.starts session queued running] at stopped
      cases stopped
    · rw [others different] at running
      exact orderly.awaitsQueues disposal inside session other queued running
  · intro disposal inside isResolved other awaited
    have settled := orderly.resolved disposal inside isResolved other awaited
    rcases eq_or_ne other id with same | different
    · rw [same] at settled
      exact absurd settled proceeds.unsettled
    · rw [others different]
      exact settled

/-- A started work is logged behind those before it. -/
theorem Orderly.start {id : Nat} (orderly : operations.Orderly)
    (proceeds : operations.Proceeds id .running) (waits : operations.stages id = .waiting) :
    (operations.start id).Orderly := by
  have moved := orderly.setStage proceeds
  refine
    { fresh := moved.fresh
      tail := moved.tail
      noTail := moved.noTail
      covers := moved.covers
      behind := moved.behind
      runs := moved.runs
      started := ?_
      inOrder := ?_
      stops := moved.stops
      awaitsRuns := moved.awaitsRuns
      awaitsQueues := moved.awaitsQueues
      resolved := moved.resolved }
  · intro other inside
    rcases List.mem_append.mp inside with old | isNew
    · exact moved.started other old
    · rw [List.mem_singleton.mp isNew]
      change Function.update operations.stages id .running id ≠ .waiting
      rw [Function.update_self]
      exact Stage.noConfusion
  · intro session
    change ((operations.started ++ [id]).filter (operations.QueuedFor session)).Pairwise (· < ·)
    rw [List.filter_append]
    cases queued : operations.QueuedFor session id with
    | false =>
        rw [List.filter_cons_of_neg (by rw [queued]; exact Bool.false_ne_true), List.filter_nil,
          List.append_nil]
        exact orderly.inOrder session
    | true =>
        rw [List.filter_cons_of_pos queued, List.filter_nil]
        refine List.pairwise_append.mpr ⟨orderly.inOrder session, List.pairwise_singleton _ _, ?_⟩
        intro other inside last isLast
        rw [List.mem_singleton.mp isLast]
        rcases List.mem_filter.mp inside with ⟨wasStarted, alsoQueued⟩
        have begun := orderly.started other wasStarted
        -- A later call of the session would have waited for this one.
        by_contra notEarlier
        rcases Nat.lt_or_eq_of_le (Nat.le_of_not_lt notEarlier) with later | same
        · rcases queuedFor_iff.mp alsoQueued with ⟨previous, isCall⟩
          have done := orderly.behind other _ isCall session previous rfl begun id later queued
          rw [waits] at done
          cases done
        · rw [← same] at begun
          exact begun waits

theorem Orderly.erase {id : Nat} {session : Session} (orderly : operations.Orderly)
    (isTail : operations.queues.lookup session = some id)
    (done : (operations.stages id).done = true) :
    Orderly { operations with queues := operations.queues.erase session } := by
  refine
    { fresh := orderly.fresh
      tail := ?_
      noTail := ?_
      covers := orderly.covers
      behind := orderly.behind
      runs := orderly.runs
      started := orderly.started
      inOrder := orderly.inOrder
      stops := orderly.stops
      awaitsRuns := orderly.awaitsRuns
      awaitsQueues := orderly.awaitsQueues
      resolved := orderly.resolved }
  · intro owner tail found
    rcases eq_or_ne owner session with same | different
    · rw [same] at found
      rw [AList.lookup_erase] at found
      cases found
    · rw [AList.lookup_erase_ne different] at found
      exact orderly.tail owner tail found
  · intro owner absent other queued
    rcases eq_or_ne owner session with same | different
    · rw [same] at queued
      rcases orderly.tail session id isTail with ⟨isQueued, last⟩
      rcases Nat.lt_or_eq_of_le (last other queued) with earlier | isId
      · rcases queuedFor_iff.mp isQueued with ⟨previous, isCall⟩
        have begun : operations.stages id ≠ .waiting := by
          intro waits
          rw [waits] at done
          cases done
        exact orderly.behind id _ isCall session previous rfl begun other earlier queued
      · rw [isId]
        exact done
    · rw [AList.lookup_erase_ne different] at absent
      exact orderly.noTail owner absent other queued

theorem Orderly.dropTask {id : Nat} (orderly : operations.Orderly)
    (finished : operations.isRunCall id = true → (operations.stages id).done = true) :
    (operations.dropTask id).Orderly := by
  refine
    { fresh := orderly.fresh
      tail := orderly.tail
      noTail := orderly.noTail
      covers := orderly.covers
      behind := orderly.behind
      runs := ?_
      started := orderly.started
      inOrder := orderly.inOrder
      stops := orderly.stops
      awaitsRuns := orderly.awaitsRuns
      awaitsQueues := orderly.awaitsQueues
      resolved := orderly.resolved }
  intro other isRun pending
  refine List.mem_filter.mpr ⟨orderly.runs other isRun pending, ?_⟩
  rw [bne_iff_ne]
  intro same
  rw [same] at isRun pending
  have done := finished isRun
  rw [show operations.stages id = (operations.dropTask id).stages id from rfl, pending] at done
  cases done

theorem Orderly.dispose (orderly : operations.Orderly) : operations.dispose.Orderly := by
  refine
    { fresh := orderly.fresh
      tail := orderly.tail
      noTail := orderly.noTail
      covers := orderly.covers
      behind := orderly.behind
      runs := orderly.runs
      started := orderly.started
      inOrder := orderly.inOrder
      stops := fun _ _ => rfl
      awaitsRuns := ?_
      awaitsQueues := ?_
      resolved := ?_ }
  · intro disposal inside id isRun pending
    rcases List.mem_append.mp inside with old | isNew
    · exact orderly.awaitsRuns disposal old id isRun pending
    · rw [List.mem_singleton.mp isNew]
      exact List.mem_append_left _ (orderly.runs id isRun pending)
  · intro disposal inside session id queued running
    rcases List.mem_append.mp inside with old | isNew
    · exact orderly.awaitsQueues disposal old session id queued running
    · rw [List.mem_singleton.mp isNew]
      cases isTail : operations.queues.lookup session with
      | none =>
          have done := orderly.noTail session isTail id queued
          rw [show operations.stages id = .running from running] at done
          cases done
      | some tail =>
          rcases orderly.tail session tail isTail with ⟨isQueued, last⟩
          refine ⟨tail, List.mem_append_right _ ?_, isQueued, last id queued⟩
          exact List.mem_map.mpr ⟨⟨session, tail⟩, AList.mem_lookup_iff.mp isTail, rfl⟩
  · intro disposal inside isResolved
    rcases List.mem_append.mp inside with old | isNew
    · exact orderly.resolved disposal old isResolved
    · rw [List.mem_singleton.mp isNew] at isResolved
      cases isResolved

theorem Orderly.drained {earlier later : List Disposal} {disposal : Disposal} (orderly : operations.Orderly)
    (waits : operations.disposals = earlier ++ disposal :: later)
    (allSettled : ∀ id ∈ disposal.awaited, operations.stages id = .settled) :
    Orderly { operations with disposals := earlier ++ { disposal with resolved := true } :: later } := by
  have known : ∀ other ∈ earlier ++ { disposal with resolved := true } :: later,
      ∃ old ∈ operations.disposals, old.awaited = other.awaited ∧
        (other.resolved = true → old.resolved = true ∨ other.awaited = disposal.awaited) := by
    intro other inside
    rcases List.mem_append.mp inside with front | back
    · exact ⟨other, waits ▸ List.mem_append_left _ front, rfl, .inl⟩
    · rcases List.mem_cons.mp back with same | behind
      · refine ⟨disposal, waits ▸ List.mem_append_right _ List.mem_cons_self, ?_, ?_⟩
        · rw [same]
        · intro _
          rw [same]
          exact .inr rfl
      · exact ⟨other, waits ▸ List.mem_append_right _ (List.mem_cons_of_mem _ behind), rfl, .inl⟩
  refine
    { fresh := orderly.fresh
      tail := orderly.tail
      noTail := orderly.noTail
      covers := orderly.covers
      behind := orderly.behind
      runs := orderly.runs
      started := orderly.started
      inOrder := orderly.inOrder
      stops := ?_
      awaitsRuns := ?_
      awaitsQueues := ?_
      resolved := ?_ }
  · intro other inside
    rcases known other inside with ⟨old, isOld, _⟩
    exact orderly.stops old isOld
  · intro other inside id isRun pending
    rcases known other inside with ⟨old, isOld, same, _⟩
    rw [← same]
    exact orderly.awaitsRuns old isOld id isRun pending
  · intro other inside session id queued running
    rcases known other inside with ⟨old, isOld, same, _⟩
    rw [← same]
    exact orderly.awaitsQueues old isOld session id queued running
  · intro other inside isResolved id awaited
    rcases known other inside with ⟨old, isOld, same, outcome⟩
    rcases outcome isResolved with wasResolved | isThis
    · exact orderly.resolved old isOld wasResolved id (same ▸ awaited)
    · exact allSettled id (isThis ▸ awaited)

/-! ### Steps -/

theorem Orderly.signal (orderly : operations.Orderly) (aborted : List Nat) :
    Orderly { operations with aborted := aborted } :=
  { fresh := orderly.fresh
    tail := orderly.tail
    noTail := orderly.noTail
    covers := orderly.covers
    behind := orderly.behind
    runs := orderly.runs
    started := orderly.started
    inOrder := orderly.inOrder
    stops := orderly.stops
    awaitsRuns := orderly.awaitsRuns
    awaitsQueues := orderly.awaitsQueues
    resolved := orderly.resolved }

/-- A begun call goes on to a later stage. -/
theorem Orderly.goesOn {id : Nat} {stage : Stage} (orderly : operations.Orderly)
    (begun : operations.stages id ≠ .waiting) (unsettled : operations.stages id ≠ .settled)
    (done : stage.done = true) : operations.Proceeds id stage := by
  refine ⟨?_, ?_, fun _ => done, unsettled, ?_, ?_⟩
  · by_contra outside
    exact begun (orderly.fresh id (Nat.le_of_not_lt outside))
  · intro waits
    rw [waits] at done
    cases done
  · intro call isCall session previous waitsFor
    exact orderly.behind id call isCall session previous waitsFor begun
  · intro session _ running
    rw [running] at done
    cases done

/-- A waiting call leaves its first stage. -/
theorem Orderly.leaves {id : Nat} {stage : Stage} {call : OperationCall Session} (orderly : operations.Orderly)
    (isCall : operations.calls[id]? = some call) (waits : operations.stages id = .waiting)
    (ready : ∀ session previous, call.behindQueue = some (session, previous) → operations.Settled previous)
    (available : ∀ session, call.isQueueOf session = true → stage = .running → operations.stopped = false)
    (begun : stage ≠ .waiting) : operations.Proceeds id stage := by
  refine ⟨(List.getElem?_eq_some_iff.mp isCall).1, begun, ?_, ?_, ?_, ?_⟩
  · intro done
    rw [waits] at done
    cases done
  · rw [waits]
    exact Stage.noConfusion
  · intro other isOther session previous waitsFor
    rw [isCall] at isOther
    cases isOther
    exact orderly.doneBefore isCall waitsFor (ready session previous waitsFor)
  · intro session queued running
    unfold QueuedFor at queued
    rw [isCall] at queued
    exact available session queued running

theorem orderly_step {event : OperationEvent Session} (orderly : operations.Orderly)
    (move : Moves operations event after) : after.Orderly := by
  cases move with
  | queue session => exact orderly.queue session
  | run session background => exact orderly.run session background
  | delete session => exact orderly.delete session
  | abort session primaryOnly => exact orderly.signal _
  | dispose => exact orderly.dispose
  | timeout pending run => exact orderly.signal _
  | startQueued call waits ready available =>
      refine orderly.start (orderly.leaves call waits ?_ ?_ Stage.noConfusion) waits
      · intro session previous waitsFor
        cases waitsFor
        exact ready
      · intro session _ _
        exact (Bool.or_eq_false_iff.mp available).1
  | refuse call waits ready unavailable =>
      refine orderly.setStage (orderly.leaves call waits ?_ ?_ Stage.noConfusion)
      · intro session previous waitsFor
        cases waitsFor
        exact ready
      · intro session _ running
        cases running
  | startRun call waits =>
      refine orderly.start (orderly.leaves call waits ?_ ?_ Stage.noConfusion) waits
      · intro session previous waitsFor
        cases waitsFor
      · intro session queued
        cases queued
  | startRemoval call waits ready =>
      refine orderly.start (orderly.leaves call waits ?_ ?_ Stage.noConfusion) waits
      · intro session previous waitsFor
        cases waitsFor
        exact ready
      · intro session queued
        cases queued
  | finish runs rejected =>
      apply orderly.setStage
      apply orderly.goesOn _ _ rfl
      · rw [runs]
        exact Stage.noConfusion
      · rw [runs]
        exact Stage.noConfusion
  | @cleanQueued id session previous call ended =>
      have moved : (operations.setStage id .cleaned).Orderly := by
        apply orderly.setStage
        apply orderly.goesOn _ _ rfl
        · rw [ended]
          exact Stage.noConfusion
        · rw [ended]
          exact Stage.noConfusion
      unfold cleanQueue
      dsimp only
      split
      · rename_i isTail
        apply moved.erase isTail
        change (Function.update operations.stages id .cleaned id).done = true
        rw [Function.update_self]
        rfl
      · exact moved
  | @cleanRun id session background call ended =>
      have moved : (operations.setStage id .cleaned).Orderly := by
        apply orderly.setStage
        apply orderly.goesOn _ _ rfl
        · rw [ended]
          exact Stage.noConfusion
        · rw [ended]
          exact Stage.noConfusion
      apply moved.dropTask
      intro _
      change (Function.update operations.stages id .cleaned id).done = true
      rw [Function.update_self]
      rfl
  | settle cleaned =>
      apply orderly.setStage
      apply orderly.goesOn _ _ rfl
      · rw [cleaned]
        exact Stage.noConfusion
      · rw [cleaned]
        exact Stage.noConfusion
  | settleRemoval call ended =>
      apply orderly.setStage
      apply orderly.goesOn _ _ rfl
      · rw [ended]
        exact Stage.noConfusion
      · rw [ended]
        exact Stage.noConfusion
  | forget call settled =>
      apply orderly.dropTask
      intro isRun
      unfold isRunCall at isRun
      rw [call] at isRun
      cases isRun
  | drained waits allSettled => exact orderly.drained waits allSettled

/-- What a start finds. -/
def Begins (operations : Operations Session) (id : Nat) : Prop :=
  operations.stages id = .waiting ∧
    ((∃ session previous, operations.calls[id]? = some (.queue session previous) ∧
        operations.unavailable session = false) ∨
      operations.isRunCall id = true ∨
        ∃ session previous, operations.calls[id]? = some (.delete session previous))

theorem setStage_running {id other : Nat} {stage : Stage} (notRunning : stage ≠ .running)
    (running : (operations.setStage id stage).stages other = .running) :
    operations.stages other = .running := by
  change Function.update operations.stages id stage other = .running at running
  rcases eq_or_ne other id with same | different
  · rw [same, Function.update_self] at running
    exact absurd running notRunning
  · rw [Function.update_of_ne different] at running
    exact running

/-- A step starts one work, or none. -/
theorem step_begins {event : OperationEvent Session} (move : Moves operations event after) :
    (after.started = operations.started ∧
        ∀ id, after.stages id = .running → operations.stages id = .running) ∨
      ∃ id, after = operations.start id ∧ operations.Begins id := by
  cases move with
  | queue session => exact .inl ⟨rfl, fun _ running => running⟩
  | run session background =>
      left
      unfold Operations.run
      split
      · exact ⟨rfl, fun _ running => running⟩
      · exact ⟨rfl, fun _ running => running⟩
  | delete session => exact .inl ⟨rfl, fun _ running => running⟩
  | abort session primaryOnly => exact .inl ⟨rfl, fun _ running => running⟩
  | dispose => exact .inl ⟨rfl, fun _ running => running⟩
  | timeout pending run => exact .inl ⟨rfl, fun _ running => running⟩
  | startQueued call waits ready available => exact .inr ⟨_, rfl, waits, .inl ⟨_, _, call, available⟩⟩
  | refuse call waits ready unavailable =>
      exact .inl ⟨rfl, fun _ running => setStage_running Stage.noConfusion running⟩
  | startRun call waits =>
      refine .inr ⟨_, rfl, waits, .inr (.inl ?_)⟩
      unfold isRunCall
      rw [call]
      rfl
  | startRemoval call waits ready => exact .inr ⟨_, rfl, waits, .inr (.inr ⟨_, _, call⟩)⟩
  | finish runs rejected => exact .inl ⟨rfl, fun _ running => setStage_running Stage.noConfusion running⟩
  | cleanQueued call ended =>
      left
      unfold cleanQueue
      dsimp only
      split
      · exact ⟨rfl, fun _ running => setStage_running Stage.noConfusion running⟩
      · exact ⟨rfl, fun _ running => setStage_running Stage.noConfusion running⟩
  | cleanRun call ended => exact .inl ⟨rfl, fun _ running => setStage_running Stage.noConfusion running⟩
  | settle cleaned => exact .inl ⟨rfl, fun _ running => setStage_running Stage.noConfusion running⟩
  | settleRemoval call ended =>
      exact .inl ⟨rfl, fun _ running => setStage_running Stage.noConfusion running⟩
  | forget call settled => exact .inl ⟨rfl, fun _ running => running⟩
  | drained waits allSettled => exact .inl ⟨rfl, fun _ running => running⟩

end Operations

end Reflection.Plugin
