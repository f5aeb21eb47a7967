/-
What holds of the operations in every state, and what no later step undoes.
-/

import Reflection.Plugin.OperationOrder

namespace Reflection.Plugin.Operations

variable {Session : Type} [DecidableEq Session] {operations after later : Operations Session}

/-! ### What a step keeps -/

structure Grows (operations after : Operations Session) : Prop where
  calls : ∃ more, after.calls = operations.calls ++ more
  deleted : ∀ session ∈ operations.deleted, session ∈ after.deleted
  stopped : operations.stopped = true → after.stopped = true
  noRun : operations.stopped = true → ∀ id, after.isRunCall id = true → operations.isRunCall id = true
  done : ∀ id, (operations.stages id).done = true → (after.stages id).done = true

theorem Grows.setStage {id : Nat} {stage : Stage}
    (done : (operations.stages id).done = true → stage.done = true) :
    Grows operations (operations.setStage id stage) := by
  refine ⟨⟨[], (List.append_nil _).symm⟩, fun _ inside => inside, fun stopped => stopped,
    fun _ _ isRun => isRun, ?_⟩
  intro other wasDone
  change (Function.update operations.stages id stage other).done = true
  rcases eq_or_ne other id with same | different
  · rw [same, Function.update_self]
    exact done (same ▸ wasDone)
  · rw [Function.update_of_ne different]
    exact wasDone

/-- A new call that is no run. -/
theorem Grows.append {call : OperationCall Session} (calls : after.calls = operations.calls ++ [call])
    (notRun : call.isRun = false) (deleted : ∀ session ∈ operations.deleted, session ∈ after.deleted)
    (stopped : after.stopped = operations.stopped) (stages : after.stages = operations.stages) :
    Grows operations after := by
  refine ⟨⟨[call], calls⟩, deleted, fun was => stopped ▸ was, ?_, fun _ done => stages ▸ done⟩
  intro _ id isRun
  rcases isRunCall_cases calls isRun with old | ⟨_, run⟩
  · exact old
  · rw [notRun] at run
    cases run

theorem Grows.of_same (calls : after.calls = operations.calls) (deleted : after.deleted = operations.deleted)
    (stopped : operations.stopped = true → after.stopped = true)
    (stages : after.stages = operations.stages) : Grows operations after := by
  refine ⟨⟨[], calls.trans (List.append_nil _).symm⟩, fun _ inside => deleted ▸ inside, stopped, ?_,
    fun _ done => stages ▸ done⟩
  intro _ id isRun
  unfold isRunCall at isRun ⊢
  rw [calls] at isRun
  exact isRun

theorem step_grows {event : OperationEvent Session} (move : Moves operations event after) :
    Grows operations after := by
  cases move with
  | queue session => exact .append rfl rfl (fun _ inside => inside) rfl rfl
  | run session background =>
      unfold Operations.run
      split
      · exact .of_same rfl rfl id rfl
      · rename_i accepted
        rw [Bool.or_eq_true, not_or] at accepted
        refine ⟨⟨[_], rfl⟩, fun _ inside => inside, fun stopped => stopped, ?_, fun _ done => done⟩
        intro stopped
        exact absurd stopped accepted.1
  | delete session => exact .append rfl rfl (fun _ inside => List.mem_cons_of_mem _ inside) rfl rfl
  | abort session primaryOnly => exact .of_same rfl rfl id rfl
  | dispose => exact .of_same rfl rfl (fun _ => rfl) rfl
  | timeout pending run => exact .of_same rfl rfl id rfl
  | @startQueued id session previous call waits ready available =>
      have started : Grows operations (operations.setStage id .running) := by
        apply Grows.setStage
        intro done
        rw [waits] at done
        cases done
      exact ⟨started.calls, started.deleted, started.stopped, started.noRun, started.done⟩
  | refuse call waits ready unavailable => exact .setStage fun _ => rfl
  | @startRun id session background call waits =>
      have started : Grows operations (operations.setStage id .running) := by
        apply Grows.setStage
        intro done
        rw [waits] at done
        cases done
      exact ⟨started.calls, started.deleted, started.stopped, started.noRun, started.done⟩
  | @startRemoval id session previous call waits ready =>
      have started : Grows operations (operations.setStage id .running) := by
        apply Grows.setStage
        intro done
        rw [waits] at done
        cases done
      exact ⟨started.calls, started.deleted, started.stopped, started.noRun, started.done⟩
  | finish runs rejected => exact .setStage fun _ => rfl
  | @cleanQueued id session previous call ended =>
      have cleaned : Grows operations (operations.setStage id .cleaned) := .setStage fun _ => rfl
      unfold cleanQueue
      dsimp only
      split
      · exact ⟨cleaned.calls, cleaned.deleted, cleaned.stopped, cleaned.noRun, cleaned.done⟩
      · exact cleaned
  | @cleanRun id session background call ended =>
      have cleaned : Grows operations (operations.setStage id .cleaned) := .setStage fun _ => rfl
      exact ⟨cleaned.calls, cleaned.deleted, cleaned.stopped, cleaned.noRun, cleaned.done⟩
  | settle cleaned => exact .setStage fun _ => rfl
  | settleRemoval call ended => exact .setStage fun _ => rfl
  | forget call settled => exact .of_same rfl rfl id rfl
  | drained waits allSettled => exact .of_same rfl rfl id rfl

theorem Grows.queuedFor (grows : Grows operations after) {session : Session} {id : Nat}
    (early : id < operations.calls.length) : after.QueuedFor session id = operations.QueuedFor session id := by
  rcases grows.calls with ⟨more, calls⟩
  unfold QueuedFor
  rw [calls, List.getElem?_append_left early]

theorem Orderly.started_lt (orderly : operations.Orderly) {id : Nat} (started : id ∈ operations.started) :
    id < operations.calls.length := by
  by_contra outside
  exact orderly.started id started (orderly.fresh id (Nat.le_of_not_lt outside))

/-! ### Deletion -/

/-- A deleted session's queue starts nothing. -/
theorem deleted_step {event : OperationEvent Session} {session : Session} {before : List Nat}
    (orderly : operations.Orderly) (gone : session ∈ operations.deleted)
    (known : ∀ id ∈ operations.started, operations.QueuedFor session id = true → id ∈ before)
    (move : Moves operations event after) :
    session ∈ after.deleted ∧ ∀ id ∈ after.started, after.QueuedFor session id = true → id ∈ before := by
  have grows := step_grows move
  refine ⟨grows.deleted session gone, ?_⟩
  intro id inside queued
  rcases step_begins move with ⟨same, _⟩ | ⟨begun, started, _, how⟩
  · rw [same] at inside
    rw [grows.queuedFor (orderly.started_lt inside)] at queued
    exact known id inside queued
  · rw [started] at inside queued
    rcases List.mem_append.mp inside with old | isNew
    · exact known id old queued
    · rw [List.mem_singleton.mp isNew] at queued
      rcases queuedFor_iff.mp queued with ⟨previous, isCall⟩
      change operations.calls[begun]? = _ at isCall
      rcases how with ⟨owner, other, isQueue, available⟩ | isRun | ⟨owner, other, isDelete⟩
      · rw [isCall] at isQueue
        cases isQueue
        have absent := (Bool.or_eq_false_iff.mp available).2
        rw [← Bool.not_eq_true, List.contains_iff_mem] at absent
        exact absurd gone absent
      · unfold isRunCall at isRun
        rw [isCall] at isRun
        cases isRun
      · rw [isCall] at isDelete
        cases isDelete

/-! ### Disposal -/

/-- Nothing runs, and nothing starts any more. -/
structure Closed (operations : Operations Session) : Prop where
  stopped : operations.stopped = true
  runs : ∀ id, operations.isRunCall id = true → (operations.stages id).done = true
  queues : ∀ session id, operations.QueuedFor session id = true → operations.stages id ≠ .running

theorem Orderly.closed {disposal : Disposal} (orderly : operations.Orderly)
    (inside : disposal ∈ operations.disposals) (resolved : disposal.resolved = true) : Closed operations := by
  refine ⟨orderly.stops disposal inside, ?_, ?_⟩
  · intro id isRun
    by_contra pending
    rw [Bool.not_eq_true] at pending
    have settled := orderly.resolved disposal inside resolved id
      (orderly.awaitsRuns disposal inside id isRun pending)
    rw [settled] at pending
    cases pending
  · intro session id queued running
    rcases orderly.awaitsQueues disposal inside session id queued running with
      ⟨tail, awaited, isQueued, last⟩
    have settled := orderly.resolved disposal inside resolved tail awaited
    rcases Nat.lt_or_eq_of_le last with earlier | same
    · rcases queuedFor_iff.mp isQueued with ⟨previous, isCall⟩
      have done := orderly.behind tail _ isCall session previous rfl
        (by rw [settled]; exact Stage.noConfusion) id earlier queued
      rw [running] at done
      cases done
    · rw [← same, running] at settled
      cases settled

theorem closed_step {event : OperationEvent Session} (orderly : operations.Orderly)
    (closed : Closed operations) (move : Moves operations event after) :
    Closed after ∧ ∀ id ∈ after.started, id ∈ operations.started ∨
      ∃ session previous, operations.calls[id]? = some (.delete session previous) := by
  have grows := step_grows move
  have fresh : ∀ session id, after.QueuedFor session id = true → operations.QueuedFor session id = true ∨
      operations.stages id = .waiting := by
    intro session id queued
    rcases Nat.lt_or_ge id operations.calls.length with early | late
    · rw [grows.queuedFor early] at queued
      exact .inl queued
    · exact .inr (orderly.fresh id late)
  rcases step_begins move with ⟨same, running⟩ | ⟨begun, started, waits, how⟩
  · refine ⟨⟨grows.stopped closed.stopped, ?_, ?_⟩, fun id inside => .inl (same ▸ inside)⟩
    · intro id isRun
      exact grows.done id (closed.runs id (grows.noRun closed.stopped id isRun))
    · intro session id queued isRunning
      have wasRunning := running id isRunning
      rcases fresh session id queued with old | waits
      · exact closed.queues session id old wasRunning
      · rw [waits] at wasRunning
        cases wasRunning
  · have removal : ∃ session previous, operations.calls[begun]? = some (.delete session previous) := by
      rcases how with ⟨session, previous, _, available⟩ | isRun | removal
      · have stopped := closed.stopped
        rw [(Bool.or_eq_false_iff.mp available).1] at stopped
        cases stopped
      · have done := closed.runs begun isRun
        rw [waits] at done
        cases done
      · exact removal
    refine ⟨⟨grows.stopped closed.stopped, ?_, ?_⟩, ?_⟩
    · intro id isRun
      exact grows.done id (closed.runs id (grows.noRun closed.stopped id isRun))
    · intro session id queued isRunning
      rw [started] at queued isRunning
      change Function.update operations.stages begun .running id = .running at isRunning
      rcases eq_or_ne id begun with same | different
      · rcases removal with ⟨owner, previous, isDelete⟩
        rcases queuedFor_iff.mp queued with ⟨other, isQueue⟩
        rw [same] at isQueue
        change operations.calls[begun]? = _ at isQueue
        rw [isDelete] at isQueue
        cases isQueue
      · rw [Function.update_of_ne different] at isRunning
        exact closed.queues session id queued isRunning
    · intro id inside
      rw [started] at inside
      rcases List.mem_append.mp inside with old | isNew
      · exact .inl old
      · rw [List.mem_singleton.mp isNew]
        exact .inr removal

/-! ### Every state -/

/-- The call's work was given to queue or run. -/
def IsWork (operations : Operations Session) (id : Nat) : Prop :=
  operations.isRunCall id = true ∨ ∃ session, operations.QueuedFor session id = true

structure Serialized (operations : Operations Session) : Prop where
  /-- queued works of a session do not overlap -/
  alone : ∀ session one other, operations.QueuedFor session one = true →
    operations.QueuedFor session other = true → operations.stages one = .running →
      operations.stages other = .running → one = other
  /-- they start in the order they were queued, each once -/
  inOrder : ∀ session, (operations.started.filter (operations.QueuedFor session)).Pairwise (· < ·)
  /-- none starts before every earlier one is done -/
  behind : ∀ session id, operations.QueuedFor session id = true → operations.stages id ≠ .waiting →
    operations.DoneBefore session id
  /-- behind settled works, rejected or not, the next can start -/
  startable : ∀ session id, operations.QueuedFor session id = true → operations.stages id = .waiting →
    (∀ earlier < id, operations.QueuedFor session earlier = true → operations.stages earlier = .settled) →
      operations.unavailable session = false → Moves operations (.start id) (operations.start id)
  /-- remove is called when every work queued before the deletion is done -/
  removal : ∀ session id previous, operations.calls[id]? = some (.delete session previous) →
    operations.stages id ≠ .waiting → operations.DoneBefore session id
  /-- behind a resolved disposal nothing runs -/
  disposed : ∀ disposal ∈ operations.disposals, disposal.resolved = true →
    ∀ id, operations.IsWork id → operations.stages id ≠ .running

/-- What every later state keeps. -/
structure Barriers (operations later : Operations Session) : Prop where
  /-- no work of a deleted session starts -/
  deletion : ∀ session ∈ operations.deleted, ∀ id ∈ later.started, later.QueuedFor session id = true →
    id ∈ operations.started
  /-- no work starts or runs behind a resolved disposal -/
  disposal : ∀ disposal ∈ operations.disposals, disposal.resolved = true → ∀ id, later.IsWork id →
    (id ∈ later.started → id ∈ operations.started) ∧ later.stages id ≠ .running

theorem Orderly.serialized (orderly : operations.Orderly) : Serialized operations := by
  have behind : ∀ session id, operations.QueuedFor session id = true → operations.stages id ≠ .waiting →
      operations.DoneBefore session id := by
    intro session id queued begun
    rcases queuedFor_iff.mp queued with ⟨previous, isCall⟩
    exact orderly.behind id _ isCall session previous rfl begun
  refine ⟨?_, orderly.inOrder, behind, ?_, ?_, ?_⟩
  · intro session one other queued alsoQueued running alsoRunning
    have notBefore : ∀ first second, operations.QueuedFor session first = true →
        operations.QueuedFor session second = true → operations.stages first = .running →
        operations.stages second = .running → ¬ first < second := by
      intro first second isFirst isSecond firstRuns secondRuns earlier
      have done := behind session second isSecond (by rw [secondRuns]; exact Stage.noConfusion) first
        earlier isFirst
      rw [firstRuns] at done
      cases done
    have left := notBefore one other queued alsoQueued running alsoRunning
    have right := notBefore other one alsoQueued queued alsoRunning running
    omega
  · intro session id queued waits earlierSettled available
    rcases queuedFor_iff.mp queued with ⟨previous, isCall⟩
    refine .startQueued isCall waits ?_ available
    intro tail isTail
    have covers := orderly.covers id _ isCall session previous rfl
    rw [Option.mem_def.mp isTail] at covers
    exact earlierSettled tail covers.1 covers.2.1
  · intro session id previous isCall begun
    exact orderly.behind id _ isCall session previous rfl begun
  · intro disposal inside resolved id isWork running
    have closed := orderly.closed inside resolved
    rcases isWork with isRun | ⟨session, queued⟩
    · have done := closed.runs id isRun
      rw [running] at done
      cases done
    · exact closed.queues session id queued running

theorem orderly_run (run : Reaches Moves (fun _ _ => True) (initial : Operations Session) operations) :
    operations.Orderly :=
  @Reaches.invariant (Operations Session) (OperationEvent Session) Moves (fun _ _ => True) Orderly
    (fun _ _ _ orderly move _ => orderly_step orderly move) _ _ run initial_orderly

theorem Orderly.barriers (orderly : operations.Orderly)
    (run : Reaches Moves (fun _ _ => True) operations later) : Barriers operations later := by
  constructor
  · intro session gone
    have kept := @Reaches.invariant (Operations Session) (OperationEvent Session) Moves (fun _ _ => True)
      (fun state => state.Orderly ∧ session ∈ state.deleted ∧
        ∀ id ∈ state.started, state.QueuedFor session id = true → id ∈ operations.started)
      (fun _ _ _ holds move _ =>
        ⟨orderly_step holds.1 move, deleted_step holds.1 holds.2.1 holds.2.2 move⟩) _ _ run
      ⟨orderly, gone, fun id inside _ => inside⟩
    exact kept.2.2
  · intro disposal inside resolved
    have kept := @Reaches.invariant (Operations Session) (OperationEvent Session) Moves (fun _ _ => True)
      (fun state => state.Orderly ∧ Closed state ∧
        ∀ id ∈ state.started, state.IsWork id → id ∈ operations.started)
      (by
        intro before event next holds move _
        have grows := step_grows move
        rcases closed_step holds.1 holds.2.1 move with ⟨closed, starts⟩
        refine ⟨orderly_step holds.1 move, closed, ?_⟩
        intro id isStarted isWork
        rcases starts id isStarted with old | ⟨session, previous, isDelete⟩
        · have early := holds.1.started_lt old
          refine holds.2.2 id old ?_
          rcases isWork with isRun | ⟨session, queued⟩
          · exact .inl (grows.noRun holds.2.1.stopped id isRun)
          · exact .inr ⟨session, (grows.queuedFor early) ▸ queued⟩
        · have early := (List.getElem?_eq_some_iff.mp isDelete).1
          rcases isWork with isRun | ⟨owner, queued⟩
          · have wasRun := grows.noRun holds.2.1.stopped id isRun
            unfold isRunCall at wasRun
            rw [isDelete] at wasRun
            cases wasRun
          · rw [grows.queuedFor early] at queued
            rcases queuedFor_iff.mp queued with ⟨other, isQueue⟩
            rw [isDelete] at isQueue
            cases isQueue) _ _ run
      ⟨orderly, orderly.closed inside resolved, fun id isStarted _ => isStarted⟩
    intro id isWork
    refine ⟨fun isStarted => kept.2.2 id isStarted isWork, ?_⟩
    intro running
    rcases isWork with isRun | ⟨session, queued⟩
    · have done := kept.2.1.runs id isRun
      rw [running] at done
      cases done
    · exact kept.2.1.queues session id queued running

/-- Whatever is queued, run, deleted and disposed, and however the works end. -/
theorem operations_serialized
    (run : Reaches Moves (fun _ _ => True) (initial : Operations Session) operations) :
    Serialized operations ∧
      ∀ later, Reaches Moves (fun _ _ => True) operations later → Barriers operations later :=
  ⟨(orderly_run run).serialized, fun _ more => (orderly_run run).barriers more⟩

/-- Two works of one session, the first of which rejects, and a deletion behind them. -/
def sampleOperations : Operations Nat :=
  ((((((initial.queue 0).queue 0).start 0).setStage 0 .ended).cleanQueue 0 0).setStage 0 .settled).delete 0

theorem operations_serialized_sample : Serialized sampleOperations ∧
    ∀ later, Reaches Moves (fun _ _ => True) sampleOperations later → Barriers sampleOperations later := by
  have start : Reaches Moves (fun _ _ => True) (initial : Operations Nat) initial := Reaches.refl _
  have queued := (start.snoc _ (.queue 0) trivial).snoc _ (.queue 0) trivial
  have started := queued.snoc _ (@Moves.startQueued _ _ _ 0 0 none rfl rfl (fun _ absent => by cases absent) rfl)
    trivial
  have finished := started.snoc _ (@Moves.finish _ _ _ 0 rfl true) trivial
  have cleaned := finished.snoc _ (@Moves.cleanQueued _ _ _ 0 0 none rfl rfl) trivial
  have settled := cleaned.snoc _ (@Moves.settle _ _ _ 0 rfl) trivial
  exact operations_serialized (settled.snoc _ (.delete 0) trivial)

end Reflection.Plugin.Operations
