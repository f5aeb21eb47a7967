/-
Dispatch is safe under any order of events.

What the loop may rely on at each await is a condition on the pool and the lock. Steps of the tasks
only make it easier to meet, and between two awaits the loop re-establishes it.
-/

import Reflection.Worker.Tasks

namespace Reflection.Worker

open Reflection.Database

/-! ### What the loop relies on -/

/-- A job the database has handed out and the loop has not dispatched yet. -/
def Control.pending : Control → List ClaimedJob
  | .claimed (some job) => [job]
  | _ => []

def Control.Fits (workerConcurrency : Nat) (pool : Pool) (locked : Bool) : Control → Prop
  | .connecting => pool.activeTasks = []
  | .locking => pool.activeTasks = []
  | .recovering => pool.activeTasks = [] ∧ locked = true
  | .backingOff => pool.activeTasks.length ≤ workerConcurrency ∧ locked = true
  | .full _ => pool.activeTasks.length ≤ workerConcurrency ∧ locked = true
  | .claiming excluded =>
      pool.activeTasks.length < workerConcurrency ∧ locked = true ∧ pool.busy ⊆ excluded
  | .claimed answer =>
      pool.activeTasks.length < workerConcurrency ∧ locked = true ∧
        ∀ job ∈ answer, job.session ∉ pool.busy
  | .idle => pool.activeTasks.length ≤ workerConcurrency ∧ locked = true
  | .draining _ => pool.activeTasks.length ≤ workerConcurrency ∧ locked = true
  | .unlocking _ => pool.activeTasks = []
  | .pausing _ => pool.activeTasks = []
  | .ended => pool.activeTasks = []

structure Dispatcher.Sound (workerConcurrency : Nat) (worker : Dispatcher) : Prop where
  pool : worker.pool.Sound
  fits : worker.control.Fits workerConcurrency worker.pool worker.locked
  ledger : worker.handedOut = worker.pool.processed ++ worker.control.pending

/-- Between two awaits of the work loop, with no claim at hand. -/
structure Dispatcher.Working (workerConcurrency : Nat) (worker : Dispatcher) : Prop where
  pool : worker.pool.Sound
  tasks : worker.pool.activeTasks.length ≤ workerConcurrency
  locked : worker.locked = true
  ledger : worker.handedOut = worker.pool.processed

/-- Outside the work loop. -/
structure Dispatcher.Resting (worker : Dispatcher) : Prop where
  pool : worker.pool.Sound
  tasks : worker.pool.activeTasks = []
  ledger : worker.handedOut = worker.pool.processed

section Loop

variable {platform : Platform} {workerConcurrency workerMaxAttempts : Nat}
variable {worker next : Dispatcher}

theorem Control.Fits.shrinks {pool after : Pool} {locked : Bool} {control : Control}
    (fits : control.Fits workerConcurrency pool locked) (shrinks : pool.Shrinks after) :
    control.Fits workerConcurrency after locked := by
  have empty : pool.activeTasks = [] → after.activeTasks = [] := by
    intro none
    have fewer := shrinks.tasks
    rw [none] at fewer
    exact List.eq_nil_of_length_eq_zero (Nat.le_zero.mp fewer)
  cases control with
  | connecting => exact empty fits
  | locking => exact empty fits
  | recovering => exact ⟨empty fits.1, fits.2⟩
  | backingOff => exact ⟨shrinks.tasks.trans fits.1, fits.2⟩
  | full resolved => exact ⟨shrinks.tasks.trans fits.1, fits.2⟩
  | claiming excluded =>
      exact ⟨shrinks.tasks.trans_lt fits.1, fits.2.1, List.Subset.trans shrinks.busy fits.2.2⟩
  | claimed answer =>
      exact ⟨shrinks.tasks.trans_lt fits.1, fits.2.1, fun job isAnswer busy =>
        fits.2.2 job isAnswer (shrinks.busy busy)⟩
  | idle => exact ⟨shrinks.tasks.trans fits.1, fits.2⟩
  | draining failed => exact ⟨shrinks.tasks.trans fits.1, fits.2⟩
  | unlocking failed => exact empty fits
  | pausing destroyConnection => exact empty fits
  | ended => exact empty fits

namespace Dispatcher

theorem Resting.sound (resting : worker.Resting) {control : Control} (plain : control.pending = [])
    (fits : worker.pool.activeTasks = [] → control.Fits workerConcurrency worker.pool worker.locked) :
    Sound workerConcurrency { worker with control := control } := by
  refine ⟨resting.pool, fits resting.tasks, ?_⟩
  change worker.handedOut = worker.pool.processed ++ control.pending
  rw [plain, List.append_nil]
  exact resting.ledger

theorem Resting.runHead (resting : worker.Resting) : Sound workerConcurrency worker.runHead := by
  unfold Dispatcher.runHead
  split
  · exact resting.sound rfl id
  · exact resting.sound rfl id

theorem Resting.afterUnlock (resting : worker.Resting) (failed destroyConnection : Bool) :
    Sound workerConcurrency (worker.afterUnlock failed destroyConnection) := by
  unfold Dispatcher.afterUnlock
  split
  · exact resting.sound rfl id
  · exact Resting.runHead ⟨resting.pool, resting.tasks, resting.ledger⟩

theorem Working.sound (working : worker.Working workerConcurrency) {control : Control}
    (plain : control.pending = [])
    (fits : control.Fits workerConcurrency worker.pool worker.locked) :
    Sound workerConcurrency { worker with control := control } := by
  refine ⟨working.pool, fits, ?_⟩
  change worker.handedOut = worker.pool.processed ++ control.pending
  rw [plain, List.append_nil]
  exact working.ledger

theorem Working.leaveLoop (working : worker.Working workerConcurrency) (failed : Bool) :
    Sound workerConcurrency (worker.leaveLoop failed) := by
  unfold Dispatcher.leaveLoop
  split
  · rename_i none
    exact working.sound rfl (List.isEmpty_iff.mp none)
  · exact working.sound rfl ⟨working.tasks, working.locked⟩

theorem Working.pastBackoff (working : worker.Working workerConcurrency) :
    Sound workerConcurrency (worker.pastBackoff workerConcurrency) := by
  unfold Dispatcher.pastBackoff
  split
  · exact working.sound rfl ⟨working.tasks, working.locked⟩
  · rename_i place
    exact working.sound rfl ⟨Nat.lt_of_not_le place, working.locked, List.Subset.refl _⟩

theorem Working.workHead (working : worker.Working workerConcurrency) :
    Sound workerConcurrency (worker.workHead workerConcurrency) := by
  unfold Dispatcher.workHead
  split
  · exact working.leaveLoop false
  · split
    · exact ⟨working.pool, ⟨working.tasks, working.locked⟩,
        working.ledger.trans (List.append_nil _).symm⟩
    · exact working.pastBackoff

theorem Working.breakOr (working : worker.Working workerConcurrency) {onward : Dispatcher}
    (sound : Sound workerConcurrency onward) : Sound workerConcurrency (worker.breakOr onward) := by
  unfold Dispatcher.breakOr
  split
  · exact working.leaveLoop false
  · exact sound

theorem Sound.working (sound : Sound workerConcurrency worker) (plain : worker.control.pending = [])
    (tasks : worker.pool.activeTasks.length ≤ workerConcurrency) (locked : worker.locked = true) :
    worker.Working workerConcurrency := by
  refine ⟨sound.pool, tasks, locked, ?_⟩
  rw [sound.ledger, plain, List.append_nil]

theorem Sound.resting (sound : Sound workerConcurrency worker) (plain : worker.control.pending = [])
    (tasks : worker.pool.activeTasks = []) : worker.Resting := by
  refine ⟨sound.pool, tasks, ?_⟩
  rw [sound.ledger, plain, List.append_nil]

theorem Working.waited (working : worker.Working workerConcurrency) :
    worker.waited.Working workerConcurrency :=
  ⟨working.pool, working.tasks, working.locked, working.ledger⟩

/-- The answer of a claim is dispatched whether the loop stops or not. -/
theorem Sound.dispatch {answer : Option ClaimedJob} (sound : Sound workerConcurrency worker)
    (control : worker.control = .claimed answer) :
    Sound workerConcurrency (worker.dispatch workerConcurrency answer) := by
  have fits := sound.fits
  have ledger := sound.ledger
  rw [control] at fits ledger
  rcases fits with ⟨place, locked, free⟩
  unfold Dispatcher.dispatch
  cases answer with
  | none =>
      have working := sound.working (by rw [control]; rfl) place.le locked
      exact working.breakOr (working.sound rfl ⟨place.le, locked⟩)
  | some job =>
      have working : Working workerConcurrency { worker with pool := worker.pool.dispatch job } := by
        refine ⟨sound.pool.dispatch (free job rfl), ?_, locked, ledger⟩
        change (worker.pool.activeTasks ++ _).length ≤ workerConcurrency
        rw [List.length_append, List.length_singleton]
        exact place
      exact working.breakOr working.workHead

theorem Sound.wake (sound : Sound workerConcurrency worker) : Sound workerConcurrency worker.wake := by
  unfold Dispatcher.wake
  split
  · rename_i control
    have fits := sound.fits
    have ledger := sound.ledger
    rw [control] at fits ledger
    exact ⟨sound.pool, fits, ledger⟩
  · exact ⟨sound.pool, sound.fits, sound.ledger⟩

theorem Sound.noticed (sound : Sound workerConcurrency worker) (event : TaskEvent) :
    Sound workerConcurrency (worker.noticed event) := by
  unfold Dispatcher.noticed
  split
  · exact ⟨sound.pool, sound.fits, sound.ledger⟩
  · unfold Dispatcher.taskComplete
    split
    · rename_i control
      have fits := sound.fits
      have ledger := sound.ledger
      rw [control] at fits ledger
      exact ⟨sound.pool, fits, ledger⟩
    · exact sound.wake
    · exact sound
  · exact sound

theorem sound_step {event : DispatchEvent} (sound : Sound workerConcurrency worker)
    (move : Moves platform workerConcurrency workerMaxAttempts worker event next) :
    Sound workerConcurrency next := by
  have fits := sound.fits
  have ledger := sound.ledger
  cases move with
  | stop => exact Sound.wake ⟨sound.pool, sound.fits, sound.ledger⟩
  | wake => exact sound.wake
  | connected control =>
      rw [control] at fits
      exact (sound.resting (by rw [control]; rfl) fits).sound rfl id
  | connectFailed control =>
      rw [control] at fits
      exact (sound.resting (by rw [control]; rfl) fits).sound rfl id
  | lockAcquired control =>
      rw [control] at fits ledger
      exact ⟨sound.pool, ⟨fits, rfl⟩, ledger⟩
  | lockRefused control =>
      rw [control] at fits
      exact (sound.resting (by rw [control]; rfl) fits).sound rfl id
  | recovered control =>
      rw [control] at fits ledger
      have working : Working workerConcurrency { worker with staleBackoff := false } := by
        refine ⟨sound.pool, ?_, fits.2, ledger.trans (List.append_nil _)⟩
        change worker.pool.activeTasks.length ≤ workerConcurrency
        rw [fits.1]
        exact Nat.zero_le _
      exact working.workHead
  | recoveryFailed control =>
      rw [control] at fits
      exact (sound.resting (by rw [control]; rfl) fits.1).sound rfl id
  | backedOff control =>
      rw [control] at fits
      have working := (sound.working (by rw [control]; rfl) fits.1 fits.2).waited
      exact working.breakOr working.pastBackoff
  | placeFree control =>
      rw [control] at fits
      have working := sound.working (by rw [control]; rfl) fits.1 fits.2
      exact working.breakOr working.workHead
  | handedOut control taken =>
      rw [control] at fits ledger
      rcases fits with ⟨place, locked, busy⟩
      refine ⟨sound.pool, ⟨place, locked, ?_⟩, ?_⟩
      · intro job isAnswer isBusy
        cases isAnswer
        exact QueueTables.claimOldestJob_session taken (busy isBusy)
      · rw [ledger]
        exact congrArg (· ++ _) (List.append_nil _)
  | nothingDue control =>
      rw [control] at fits ledger
      refine ⟨sound.pool, ⟨fits.1, fits.2.1, ?_⟩, ledger⟩
      intro job isAnswer
      cases isAnswer
  | claimFailed control =>
      rw [control] at fits
      exact (sound.working (by rw [control]; rfl) fits.1.le fits.2.1).leaveLoop true
  | dispatched control => exact sound.dispatch control
  | idled control =>
      rw [control] at fits
      exact (sound.working (by rw [control]; rfl) fits.1 fits.2).waited.workHead
  | drained control allSettled => exact (sound.resting (by rw [control]; rfl) allSettled).sound rfl id
  | unlocked control =>
      rw [control] at fits
      have resting := sound.resting (by rw [control]; rfl) fits
      exact @Resting.afterUnlock workerConcurrency { worker with locked := false }
        ⟨resting.pool, resting.tasks, resting.ledger⟩ _ _
  | unlockFailed control =>
      rw [control] at fits
      exact (sound.resting (by rw [control]; rfl) fits).afterUnlock _ _
  | paused control =>
      rw [control] at fits
      have resting := sound.resting (by rw [control]; rfl) fits
      exact Resting.runHead ⟨resting.pool, resting.tasks, resting.ledger⟩
  | @task event pool move =>
      have shrinks := pool_shrinks move
      have moved : Sound workerConcurrency { worker with pool := pool } := by
        refine ⟨pool_step sound.pool move, fits.shrinks shrinks, ?_⟩
        rw [ledger, ← shrinks.processed]
      exact moved.noticed event

theorem started_sound : Sound workerConcurrency started := by
  refine ⟨?_, rfl, rfl⟩
  refine ⟨rfl, List.nodup_nil, ?_, ?_, List.nodup_nil, ?_, ?_, ?_⟩
  · intro task absent
    cases absent
  · intro task absent
    cases absent
  · intro task absent
    cases absent
  · intro task absent
    cases absent
  · refine ⟨PromiseChain.resolved_ordered, ?_, List.nodup_nil⟩
    intro turn
    refine iff_of_false List.not_mem_nil ?_
    rintro ⟨absent, _⟩
    exact Nat.not_lt_zero turn absent

end Dispatcher

end Loop

/-! ### Every state -/

section Safety

variable (platform : Platform) (workerConcurrency workerMaxAttempts : Nat) (worker : Dispatcher)

/-- Handed out, and its call of `process` has not settled. -/
def Dispatcher.inFlight : List ClaimedJob :=
  worker.control.pending ++
    (worker.pool.activeTasks.filter fun task => !task.phase.isSettled).map Task.job

/-- The task queues for the lane. -/
def Dispatcher.Queues (task : Task) : Prop := ∃ turn ∈ task.turn, worker.pool.resolutionLane.Waiting turn

/-- The task resolves or commits claims, and not as one that still queues. -/
def Dispatcher.Resolves (task : Task) : Prop := task.phase.inLane = true ∧ ¬ worker.Queues task

/-- Promises settle and a caller is let in, and nothing else happens. -/
def DispatchEvent.InLane : DispatchEvent → Prop
  | .task (.settleLane _) => True
  | .task (.enterLane _) => True
  | _ => False

structure Dispatcher.Safe : Prop where
  bounded : worker.inFlight.length ≤ workerConcurrency
  apart : (worker.inFlight.map ClaimedJob.session).Nodup
  /-- the calls of `process` are the claims handed out, one for each and in their order, but for
  one that was answered last and has not been dispatched -/
  once : worker.handedOut = worker.pool.processed ++ worker.control.pending
  /-- an active task is one of these calls, and no call is two tasks -/
  calls : (∀ task ∈ worker.pool.activeTasks, worker.pool.processed[task.ticket]? = some task.job) ∧
    (worker.pool.activeTasks.map Task.ticket).Nodup
  /-- that one stays at hand until it is dispatched -/
  dispatches : ∀ job, worker.control = .claimed (some job) → ∀ event next,
    Dispatcher.Moves platform workerConcurrency workerMaxAttempts worker event next →
      next.control = .claimed (some job) ∨ next.pool.processed = worker.pool.processed ++ [job]
  dispatchable : ∀ job, worker.control = .claimed (some job) → ∃ next,
    Dispatcher.Moves platform workerConcurrency workerMaxAttempts worker .answer next ∧
      next.pool.processed = worker.pool.processed ++ [job]
  locked : worker.inFlight ≠ [] → worker.locked = true
  exclusive : ∀ one ∈ worker.pool.activeTasks, ∀ other ∈ worker.pool.activeTasks,
    worker.Resolves one → worker.Resolves other → one = other
  /-- who queues has not begun -/
  queued : ∀ task ∈ worker.pool.activeTasks, worker.Queues task → ∃ result, task.phase = .resolving result
  inOrder : worker.pool.resolutionLane.entered = List.range worker.pool.resolutionLane.entered.length
  /-- whoever queues while nobody resolves gets in without any help -/
  unbroken : (∃ task ∈ worker.pool.activeTasks, worker.Queues task) →
    (∀ task ∈ worker.pool.activeTasks, ¬ worker.Resolves task) →
      ∃ later, Reaches (Dispatcher.Moves platform workerConcurrency workerMaxAttempts)
        (fun _ event => event.InLane) worker later ∧
          ∃ task ∈ later.pool.activeTasks, later.Resolves task

end Safety

section Reached

variable {platform : Platform} {workerConcurrency workerMaxAttempts : Nat}
variable {worker next : Dispatcher}

theorem Control.Fits.bound {pool : Pool} {locked : Bool} {control : Control}
    (fits : control.Fits workerConcurrency pool locked) :
    control.pending.length + pool.activeTasks.length ≤ workerConcurrency ∧
      (locked = true ∨ control.pending = [] ∧ pool.activeTasks = []) := by
  have none : pool.activeTasks = [] → control.pending = [] →
      control.pending.length + pool.activeTasks.length ≤ workerConcurrency ∧
        (locked = true ∨ control.pending = [] ∧ pool.activeTasks = []) := by
    intro noTask noClaim
    rw [noTask, noClaim]
    exact ⟨Nat.zero_le _, .inr ⟨rfl, rfl⟩⟩
  have some : pool.activeTasks.length ≤ workerConcurrency → locked = true → control.pending = [] →
      control.pending.length + pool.activeTasks.length ≤ workerConcurrency ∧
        (locked = true ∨ control.pending = [] ∧ pool.activeTasks = []) := by
    intro within isLocked noClaim
    rw [noClaim, List.length_nil, Nat.zero_add]
    exact ⟨within, .inl isLocked⟩
  cases control with
  | connecting => exact none fits rfl
  | locking => exact none fits rfl
  | recovering => exact none fits.1 rfl
  | backingOff => exact some fits.1 fits.2 rfl
  | full resolved => exact some fits.1 fits.2 rfl
  | claiming excluded => exact some fits.1.le fits.2.1 rfl
  | claimed answer =>
      refine ⟨?_, .inl fits.2.1⟩
      cases answer with
      | none =>
          change 0 + pool.activeTasks.length ≤ workerConcurrency
          rw [Nat.zero_add]
          exact fits.1.le
      | some job =>
          change 1 + pool.activeTasks.length ≤ workerConcurrency
          rw [Nat.add_comm]
          exact fits.1
  | idle => exact some fits.1 fits.2 rfl
  | draining failed => exact some fits.1 fits.2 rfl
  | unlocking failed => exact none fits rfl
  | pausing destroyConnection => exact none fits rfl
  | ended => exact none fits rfl

namespace Dispatcher

theorem Sound.flying_sublist (sound : Sound workerConcurrency worker) :
    (worker.pool.activeTasks.filter fun task => !task.phase.isSettled).Sublist
      (worker.pool.activeTasks.filter Task.active) := by
  have same : (worker.pool.activeTasks.filter fun task => !task.phase.isSettled) =
      (worker.pool.activeTasks.filter Task.active).filter fun task => !task.phase.isSettled := by
    rw [List.filter_filter]
    apply List.filter_congr
    intro task inside
    cases finished : task.finished with
    | true => simp [Task.active, finished, sound.pool.settled task inside finished]
    | false => simp [Task.active, finished]
  rw [same]
  exact List.filter_sublist

theorem Sound.bounded (sound : Sound workerConcurrency worker) :
    worker.inFlight.length ≤ workerConcurrency := by
  have flying := (List.length_filter_le (fun task : Task => !task.phase.isSettled) worker.pool.activeTasks)
  have bound := sound.fits.bound.1
  unfold Dispatcher.inFlight
  rw [List.length_append, List.length_map]
  omega

theorem Sound.apart (sound : Sound workerConcurrency worker) :
    (worker.inFlight.map ClaimedJob.session).Nodup := by
  have inPool : ((worker.pool.activeTasks.filter fun task => !task.phase.isSettled).map
      fun task => task.job.session).Nodup :=
    sound.pool.apart.sublist (sound.flying_sublist.map _)
  have fits := sound.fits
  unfold Dispatcher.inFlight
  rw [List.map_append, List.map_map]
  cases control : worker.control with
  | claimed answer =>
      cases answer with
      | none => exact inPool
      | some job =>
          rw [control] at fits
          refine List.nodup_cons.mpr ⟨?_, inPool⟩
          intro again
          apply fits.2.2 job rfl
          rw [sound.pool.busy_eq]
          exact (sound.flying_sublist.map _).subset again
  | _ => exact inPool

theorem Sound.locked_of_inFlight (sound : Sound workerConcurrency worker) (flying : worker.inFlight ≠ []) :
    worker.locked = true := by
  rcases sound.fits.bound.2 with locked | ⟨noClaim, noTask⟩
  · exact locked
  · apply absurd _ flying
    unfold Dispatcher.inFlight
    rw [noClaim, noTask]
    rfl

/-! ### The lane -/

theorem Pool.Sound.turn {pool : Pool} (sound : pool.Sound) {task : Task}
    (inside : task ∈ pool.activeTasks) {turn : Nat} (isTurn : task.turn = some turn) :
    turn < pool.resolutionLane.arrived ∧ pool.resolutionLane.released turn = false :=
  (sound.turns.held turn).mp (List.mem_filterMap.mpr ⟨task, inside, isTurn⟩)

theorem Sound.resolves (sound : Sound workerConcurrency worker) {task : Task}
    (inside : task ∈ worker.pool.activeTasks) (resolves : worker.Resolves task) :
    ∃ turn, task.turn = some turn ∧ worker.pool.resolutionLane.Inside turn := by
  have hasTurn : task.turn.isSome = true := by
    rw [sound.pool.inLane task inside]
    exact resolves.1
  rcases Option.isSome_iff_exists.mp hasTurn with ⟨turn, isTurn⟩
  have held := Pool.Sound.turn sound.pool inside isTurn
  refine ⟨turn, isTurn, ?_, held.2⟩
  by_contra notIn
  exact resolves.2 ⟨turn, isTurn, held.1, notIn⟩

theorem Sound.exclusive (sound : Sound workerConcurrency worker) {one other : Task}
    (inside : one ∈ worker.pool.activeTasks) (alsoInside : other ∈ worker.pool.activeTasks)
    (resolves : worker.Resolves one) (alsoResolves : worker.Resolves other) : one = other := by
  rcases sound.resolves inside resolves with ⟨turn, isTurn, isIn⟩
  rcases sound.resolves alsoInside alsoResolves with ⟨otherTurn, isOtherTurn, isOtherIn⟩
  have same := sound.pool.turns.ordered.exclusive isIn isOtherIn
  exact eq_of_nodup_filterMap sound.pool.turns.distinct inside alsoInside isTurn (same ▸ isOtherTurn)

/-- What the lane does by itself, the worker does. -/
theorem lane_run {chain : PromiseChain}
    (run : Reaches PromiseChain.Moves (fun _ event => event.Settles) worker.pool.resolutionLane chain) :
    Reaches (Moves platform workerConcurrency workerMaxAttempts) (fun _ event => event.InLane) worker
      { worker with pool := { worker.pool with resolutionLane := chain } } := by
  induction run with
  | refl => exact Reaches.refl worker
  | tail _ step ih =>
      rcases step with ⟨event, move, settles⟩
      cases move with
      | arrive => exact absurd settles id
      | enter waits ready => exact absurd settles id
      | release inside => exact absurd settles id
      | settle before released =>
          exact ih.snoc (.task (.settleLane _)) (.task (.settleLane before released)) trivial

theorem Sound.unbroken (sound : Sound workerConcurrency worker)
    (queues : ∃ task ∈ worker.pool.activeTasks, worker.Queues task)
    (idle : ∀ task ∈ worker.pool.activeTasks, ¬ worker.Resolves task) :
    ∃ later, Reaches (Moves platform workerConcurrency workerMaxAttempts) (fun _ event => event.InLane)
      worker later ∧ ∃ task ∈ later.pool.activeTasks, later.Resolves task := by
  have ordered := sound.pool.turns.ordered
  -- A call inside would be the turn of a task that resolves.
  have free : ∀ call < worker.pool.resolutionLane.entered.length,
      worker.pool.resolutionLane.released call = true := by
    intro call early
    by_contra unreleased
    rw [Bool.not_eq_true] at unreleased
    have entered := (ordered.mem_entered call).mpr early
    have held := (sound.pool.turns.held call).mpr ⟨Nat.lt_of_lt_of_le early ordered.arrivals, unreleased⟩
    rcases List.mem_filterMap.mp held with ⟨task, inside, isTurn⟩
    apply idle task inside
    refine ⟨by rw [← sound.pool.inLane task inside, isTurn]; rfl, ?_⟩
    rintro ⟨turn, same, waits⟩
    rw [isTurn] at same
    cases same
    exact waits.2 entered
  rcases queues with ⟨waiting, _, turn, _, waits⟩
  have notLast : worker.pool.resolutionLane.entered.length < worker.pool.resolutionLane.arrived := by
    have behind : ¬ turn < worker.pool.resolutionLane.entered.length := fun early =>
      waits.2 ((ordered.mem_entered turn).mpr early)
    have arrived := waits.1
    omega
  rcases ordered.settles worker.pool.resolutionLane.entered.length free with ⟨chain, run, same, ready⟩
  have first : chain.Waiting worker.pool.resolutionLane.entered.length := by
    refine ⟨by rw [same.arrived]; exact notLast, ?_⟩
    rw [same.entered, ordered.mem_entered]
    exact Nat.lt_irrefl _
  have unreleased : worker.pool.resolutionLane.released worker.pool.resolutionLane.entered.length = false := by
    rw [← Bool.not_eq_true]
    intro released
    exact absurd ((ordered.mem_entered _).mp (ordered.left _ released)) (Nat.lt_irrefl _)
  rcases List.mem_filterMap.mp ((sound.pool.turns.held _).mpr ⟨notLast, unreleased⟩) with
    ⟨task, inside, isTurn⟩
  refine ⟨_, (lane_run run).snoc (.task (.enterLane _)) (.task (.enterLane first ready)) trivial, task,
    inside, ?_, ?_⟩
  · rw [← sound.pool.inLane task inside, isTurn]
    rfl
  · rintro ⟨own, isOwn, still⟩
    rw [isTurn] at isOwn
    cases isOwn
    exact still.2 (List.mem_append_right _ (List.mem_singleton.mpr rfl))

/-! ### A claim at hand -/

@[simp] theorem leaveLoop_pool (failed : Bool) : (worker.leaveLoop failed).pool = worker.pool := by
  unfold leaveLoop
  split <;> rfl

@[simp] theorem workHead_pool : (worker.workHead workerConcurrency).pool = worker.pool := by
  unfold workHead pastBackoff
  split
  · exact leaveLoop_pool false
  · split
    · rfl
    · split <;> rfl

theorem dispatch_processed (job : ClaimedJob) :
    (worker.dispatch workerConcurrency (some job)).pool.processed = worker.pool.processed ++ [job] := by
  unfold dispatch breakOr
  dsimp only
  split
  · rw [leaveLoop_pool]
    rfl
  · rw [workHead_pool]
    rfl

theorem claimed_stays {answer : Option ClaimedJob} (control : worker.control = .claimed answer)
    (event : TaskEvent) (pool : Pool) :
    ({ worker with pool := pool }.noticed event).control = .claimed answer := by
  unfold noticed
  split
  · exact control
  · unfold taskComplete
    dsimp only
    rw [control]
  · exact control

theorem claimed_dispatches {event : DispatchEvent} {job : ClaimedJob}
    (control : worker.control = .claimed (some job))
    (move : Moves platform workerConcurrency workerMaxAttempts worker event next) :
    next.control = .claimed (some job) ∨ next.pool.processed = worker.pool.processed ++ [job] := by
  cases move with
  | stop =>
      left
      unfold wake
      dsimp only
      rw [control]
  | wake =>
      left
      unfold wake
      rw [control]
  | task move => exact .inl (claimed_stays control _ _)
  | dispatched isControl =>
      rw [control] at isControl
      cases isControl
      exact .inr (dispatch_processed job)
  | connected other => rw [control] at other; cases other
  | connectFailed other => rw [control] at other; cases other
  | lockAcquired other => rw [control] at other; cases other
  | lockRefused other => rw [control] at other; cases other
  | recovered other => rw [control] at other; cases other
  | recoveryFailed other => rw [control] at other; cases other
  | backedOff other => rw [control] at other; cases other
  | placeFree other => rw [control] at other; cases other
  | handedOut other _ => rw [control] at other; cases other
  | nothingDue other => rw [control] at other; cases other
  | claimFailed other => rw [control] at other; cases other
  | idled other => rw [control] at other; cases other
  | drained other _ => rw [control] at other; cases other
  | unlocked other => rw [control] at other; cases other
  | unlockFailed other => rw [control] at other; cases other
  | paused other => rw [control] at other; cases other

theorem sound_run (run : Reaches (Moves platform workerConcurrency workerMaxAttempts) (fun _ _ => True)
    started worker) : Sound workerConcurrency worker :=
  @Reaches.invariant Dispatcher DispatchEvent (Moves platform workerConcurrency workerMaxAttempts)
    (fun _ _ => True) (Sound workerConcurrency) (fun _ _ _ sound move _ => sound_step sound move) _ _ run
    started_sound

end Dispatcher

end Reached

/-- Whatever the claims answer, however the calls go and whenever a stop or a wake comes, dispatch is
safe in every state. -/
theorem dispatch_safe {platform : Platform} {workerConcurrency workerMaxAttempts : Nat}
    {worker : Dispatcher}
    (run : Reaches (Dispatcher.Moves platform workerConcurrency workerMaxAttempts) (fun _ _ => True)
      .started worker) : worker.Safe platform workerConcurrency workerMaxAttempts := by
  have sound := Dispatcher.sound_run run
  exact
    { bounded := sound.bounded
      apart := sound.apart
      once := sound.ledger
      calls := ⟨sound.pool.tickets, sound.pool.distinct⟩
      dispatches := fun job control event next move => Dispatcher.claimed_dispatches control move
      dispatchable := fun job control => ⟨_, .dispatched control, Dispatcher.dispatch_processed job⟩
      locked := sound.locked_of_inFlight
      exclusive := fun one inside other alsoInside resolves alsoResolves =>
        sound.exclusive inside alsoInside resolves alsoResolves
      queued := by
        rintro task inside ⟨turn, isTurn, waits⟩
        exact sound.pool.queued task inside turn isTurn waits.2
      inOrder := sound.pool.turns.ordered.inOrder
      unbroken := sound.unbroken }

/-! ### A stop between claim and dispatch -/

def sampleSegment : SegmentTables :=
  { group := sampleGroup
    queue := samplePosted
    nextAttemptAt := fun _ => 0
    targetUpdatedAt := 0 }

def sampleTables : QueueTables :=
  { registered := fun _ => true
    segments := [sampleSegment] }

def sampleRow : Candidate :=
  { tables := sampleSegment
    job := sampleJob
    target := sampleTarget }

theorem sampleTables_candidate : candidate sampleTables [] 0 = some sampleRow := by
  have eligible : eligibleJob sampleSegment.queue = some (sampleJob, sampleTarget) := by
    decide +kernel
  have due : dueJob 0 sampleSegment = some sampleRow := by
    unfold dueJob
    rw [eligible]
    rfl
  have one : eligibleJobs sampleTables [] 0 = [sampleRow] := by
    simp [eligibleJobs, sampleTables, due]
  have first : sampleRow.before sampleRow = false := by
    simp [Candidate.before]
  unfold candidate
  rw [one]
  simp [firstOfSession, first]

theorem sampleTables_claimed : ∃ after, sampleTables.claimOldestJob samplePlatform [] 0 7 =
    .ok (after, some sampleClaim) := by
  have taken : Database.claimOldestJob samplePlatform sampleRow.tables.group sampleRow.tables.queue 7 =
      .ok (sampleRunning, some sampleClaim) := sampleClaim_taken
  unfold QueueTables.claimOldestJob
  rw [if_neg (by simp), sampleTables_candidate]
  dsimp only
  rw [taken]
  exact ⟨_, rfl⟩

def claimedDispatcher (stopping : Bool) : Dispatcher :=
  { pool := .empty
    control := .claimed (some sampleClaim)
    stopping := stopping
    wakeRequested := stopping
    staleBackoff := false
    locked := true
    handedOut := [sampleClaim] }

/-- The worker is told to stop while the database answers its claim, and dispatches the job. -/
theorem dispatch_safe_stopping :
    ((claimedDispatcher true).dispatch 1 (some sampleClaim)).Safe samplePlatform 1 3 := by
  have start : Reaches (Dispatcher.Moves samplePlatform 1 3) (fun _ _ => True) .started .started :=
    Reaches.refl _
  have claiming := ((start.snoc .answer (.connected rfl) trivial).snoc .answer (.lockAcquired rfl)
    trivial).snoc .answer (.recovered rfl) trivial
  rcases sampleTables_claimed with ⟨after, taken⟩
  have claimed : Reaches (Dispatcher.Moves samplePlatform 1 3) (fun _ _ => True) .started
      (claimedDispatcher false) := claiming.snoc .answer (.handedOut rfl taken) trivial
  have stopped : Reaches (Dispatcher.Moves samplePlatform 1 3) (fun _ _ => True) .started
      (claimedDispatcher true) := claimed.snoc .stop .stop trivial
  exact dispatch_safe (stopped.snoc .answer (.dispatched rfl) trivial)

end Reflection.Worker
