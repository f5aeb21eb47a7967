/-
Entities and claims that the segments of all jobs share, under a worker.

A call that resolves searches for candidates among the entities of the moment, and what it prepared is
committed in a later transaction. Claims are resolved and committed in the lane, but an extraction
without claims is committed beside it. A transaction is one step here, and the answer of a commit may be
lost.
-/

import Reflection.Server.ResolvedSegments
import Reflection.Worker.DispatchSafety

namespace Reflection.Worker

open JsString ExtractionEngine
open Reflection.Database

/-- The worker, the tables its commits write, and what its calls hold until they commit. -/
structure EntityWorker (Embedding : Type) where
  worker : Dispatcher
  tables : EntityTables Embedding
  /-- the entities that searches of a call answered with -/
  offered : List (Nat × JsString)
  /-- what a call is about to commit -/
  prepared : List (Nat × Prepared Embedding)

def EntityWorker.started {Embedding : Type} (tables : EntityTables Embedding) : EntityWorker Embedding :=
  { worker := .started
    tables := tables
    offered := []
    prepared := [] }

inductive EntityEvent (Embedding : Type)
  /-- a search of the call answers with an entity -/
  | search (ticket : Nat) (id : JsString)
  | resolved (ticket : Nat)
  | committed (task : Task) (prepared : Prepared Embedding)
  /-- whatever else the worker does -/
  | dispatch (event : DispatchEvent)

section Steps

variable {Embedding : Type} (uuidv5 : JsString → JsString → JsString) (caseFold : JsString → JsString)
variable (vectorOf : JsString → Embedding)
variable (platform : Platform) (workerConcurrency workerMaxAttempts : Nat)

/-- The worker's step takes a call into its commit, or has it progress from there. -/
def Dispatcher.Commits (worker : Dispatcher) : DispatchEvent → Prop
  | .task (.proceed _ (.committing _ _)) => True
  | .task (.proceed ticket (.settled (.returned .progressed))) =>
      ∃ task ∈ worker.pool.activeTasks, task.ticket = ticket ∧
        ∃ result segment, task.phase = .committing result segment
  | _ => False

inductive EntityWorker.Moves : EntityWorker Embedding → EntityEvent Embedding → EntityWorker Embedding → Prop
  | search {state : EntityWorker Embedding} {task : Task} {result : ExtractionResult} {id : JsString}
      (inside : task ∈ state.worker.pool.activeTasks) (resolving : task.phase = .resolving result)
      (admitted : ∀ turn ∈ task.turn, state.worker.pool.resolutionLane.Inside turn)
      (found : state.tables.hasEntity id = true) :
      EntityWorker.Moves state (.search task.ticket id)
        { state with offered := (task.ticket, id) :: state.offered }
  | resolved {state : EntityWorker Embedding} {task : Task} {result : ExtractionResult}
      {services : Services Embedding} {prepared : Prepared Embedding} {next : Dispatcher}
      (inside : task ∈ state.worker.pool.activeTasks) (resolving : task.phase = .resolving result)
      (hashed : services.uuidv5 = uuidv5)
      (inOrder : ∀ texts vectors, services.embed texts (ofString "document") = .ok vectors →
        vectors = texts.map vectorOf)
      (searched : ∀ id, Offers services id → (task.ticket, id) ∈ state.offered)
      (returned : resolve services task.job result = .ok prepared)
      (move : Dispatcher.Moves platform workerConcurrency workerMaxAttempts state.worker
        (.task (.proceed task.ticket (.committing result prepared.toPreparedSegment))) next) :
      EntityWorker.Moves state (.resolved task.ticket)
        { state with
          worker := next
          prepared := (task.ticket, prepared) :: state.prepared }
  | committed {state : EntityWorker Embedding} {task : Task} {result : ExtractionResult}
      {segment : PreparedSegment} {prepared : Prepared Embedding} {after : EntityTables Embedding}
      {phase : Phase} {next : Dispatcher}
      (inside : task ∈ state.worker.pool.activeTasks) (committing : task.phase = .committing result segment)
      (held : (task.ticket, prepared) ∈ state.prepared)
      (done : state.tables.commitResolution uuidv5 caseFold prepared = .ok after)
      (answered : phase = reported true ∨ phase = caught workerMaxAttempts task.job false)
      (move : Dispatcher.Moves platform workerConcurrency workerMaxAttempts state.worker
        (.task (.proceed task.ticket phase)) next) :
      EntityWorker.Moves state (.committed task prepared)
        { state with
          worker := next
          tables := after }
  | dispatch {state : EntityWorker Embedding} {event : DispatchEvent} {next : Dispatcher}
      (apart : ¬ state.worker.Commits event)
      (move : Dispatcher.Moves platform workerConcurrency workerMaxAttempts state.worker event next) :
      EntityWorker.Moves state (.dispatch event) { state with worker := next }

/-- A commit beside the lane lets go of no entity: what the claims it replaces refer to, a claim of
another segment refers to as well. -/
def EntityWorker.Spares (state : EntityWorker Embedding) : EntityEvent Embedding → Prop
  | .committed task prepared => task.phase.inLane = false →
      let segmentId := uuidv5 prepared.id.text SEGMENT_NAMESPACE
      ∀ id ∈ state.tables.oldEntityIds segmentId, ∃ row,
        (∃ key, state.tables.claims.get? key = some row) ∧ row.segmentId ≠ segmentId ∧
          EntityTables.Refers row id
  | _ => True

end Steps

/-! ### Steps of the tasks -/

section Tasks

variable {platform : Platform} {workerConcurrency workerMaxAttempts : Nat}
variable {worker next : Dispatcher} {pool after : Pool} {event : DispatchEvent}

/-- Where a task that is active behind a step comes from. -/
inductive Task.From (workerMaxAttempts : Nat) (pool : Pool) (event : DispatchEvent) (task : Task) : Prop
  | stays (before : Task) (inside : before ∈ pool.activeTasks) (ticket : task.ticket = before.ticket)
      (phase : task.phase = before.phase) (turn : task.turn = before.turn)
  | dispatched (ticket : task.ticket = pool.processed.length) (job : ClaimedJob) (phase : task.phase = start job)
  | proceeds (before : Task) (inside : before ∈ pool.activeTasks) (ticket : task.ticket = before.ticket)
      (admitted : ∀ turn ∈ before.turn, pool.resolutionLane.Inside turn)
      (follows : Follows workerMaxAttempts before.job before.phase task.phase)
      (isEvent : event = .task (.proceed before.ticket task.phase))

/-- The tasks behind a step come from those before it, who was let into the lane stays so, and no
call of `process` is forgotten. -/
structure Pool.Continues (workerMaxAttempts : Nat) (pool : Pool) (event : DispatchEvent) (after : Pool) : Prop where
  tasks : ∀ task ∈ after.activeTasks, task.From workerMaxAttempts pool event
  entered : pool.resolutionLane.entered ⊆ after.resolutionLane.entered
  processed : pool.processed.length ≤ after.processed.length

theorem Pool.continues_same : pool.Continues workerMaxAttempts event pool :=
  ⟨fun task inside => .stays task inside rfl rfl rfl, List.Subset.refl _, Nat.le_refl _⟩

theorem Pool.continues_dispatch (job : ClaimedJob) : pool.Continues workerMaxAttempts event (pool.dispatch job) := by
  refine ⟨fun task inside => ?_, ?_, ?_⟩
  · rcases List.mem_append.mp inside with old | isNew
    · exact .stays task old rfl rfl rfl
    · rw [List.mem_singleton.mp isNew]
      exact .dispatched rfl job rfl
  · unfold Pool.dispatch PromiseChain.arrive
    dsimp only
    split <;> exact List.Subset.refl _
  · change _ ≤ (pool.processed ++ [job]).length
    rw [List.length_append]
    exact Nat.le_add_right _ _

theorem Task.proceed_phase (task : Task) (lane : PromiseChain) (phase : Phase) :
    (task.proceed lane phase).1.phase = phase := by
  unfold Task.proceed
  split <;> split <;> rfl

theorem Pool.Moves.continues {event : TaskEvent} (move : Pool.Moves workerMaxAttempts pool event after) :
    pool.Continues workerMaxAttempts (.task event) after := by
  cases move with
  | @proceed earlier later task phase waits admitted follows =>
      have member : task ∈ pool.activeTasks := waits ▸ List.mem_append_right _ List.mem_cons_self
      refine ⟨fun other inside => ?_, ?_, Nat.le_refl _⟩
      · rcases mem_replaced waits inside with isTask | old
        · rw [isTask]
          refine .proceeds task member (Task.proceed_ticket _ _ _) admitted ?_ ?_
          · rw [Task.proceed_phase]
            exact follows
          · rw [Task.proceed_phase]
        · exact .stays other old rfl rfl rfl
      · rw [Task.proceed_entered]
        exact List.Subset.refl _
  | enterLane waits ready =>
      exact ⟨fun other inside => .stays other inside rfl rfl rfl, List.subset_append_left _ _, Nat.le_refl _⟩
  | settleLane before released =>
      exact ⟨fun other inside => .stays other inside rfl rfl rfl, List.Subset.refl _, Nat.le_refl _⟩
  | @finish earlier later task outcome waits settled unfinished =>
      have member : task ∈ pool.activeTasks := waits ▸ List.mem_append_right _ List.mem_cons_self
      refine ⟨fun other inside => ?_, List.Subset.refl _, Nat.le_refl _⟩
      rcases mem_replaced waits inside with isTask | old
      · rw [isTask]
        exact .stays task member rfl rfl rfl
      · exact .stays other old rfl rfl rfl
  | @remove earlier later task waits finished =>
      refine ⟨fun other inside => ?_, List.Subset.refl _, Nat.le_refl _⟩
      refine .stays other ?_ rfl rfl rfl
      rw [waits]
      rcases List.mem_append.mp inside with front | back
      · exact List.mem_append_left _ front
      · exact List.mem_append_right _ (List.mem_cons_of_mem _ back)

theorem Dispatcher.breakOr_pool {onward : Dispatcher} (same : onward.pool = worker.pool) :
    (worker.breakOr onward).pool = worker.pool := by
  unfold Dispatcher.breakOr
  split
  · exact leaveLoop_pool false
  · exact same

theorem Dispatcher.pastBackoff_pool : (worker.pastBackoff workerConcurrency).pool = worker.pool := by
  unfold Dispatcher.pastBackoff
  split <;> rfl

theorem Dispatcher.wake_pool : worker.wake.pool = worker.pool := by
  unfold Dispatcher.wake
  split <;> rfl

theorem Dispatcher.runHead_pool : worker.runHead.pool = worker.pool := by
  unfold Dispatcher.runHead
  split <;> rfl

theorem Dispatcher.afterUnlock_pool (failed destroyConnection : Bool) :
    (worker.afterUnlock failed destroyConnection).pool = worker.pool := by
  unfold Dispatcher.afterUnlock
  split
  · rfl
  · exact runHead_pool

theorem Dispatcher.noticed_pool (event : TaskEvent) : (worker.noticed event).pool = worker.pool := by
  unfold Dispatcher.noticed
  split
  · rfl
  · unfold Dispatcher.taskComplete
    split
    · rfl
    · exact wake_pool
    · rfl
  · rfl

theorem Dispatcher.dispatch_pool (answer : Option ClaimedJob) :
    (worker.dispatch workerConcurrency answer).pool = worker.pool ∨
      ∃ job, (worker.dispatch workerConcurrency answer).pool = worker.pool.dispatch job := by
  cases answer with
  | none => exact Or.inl (breakOr_pool rfl)
  | some job => exact Or.inr ⟨job, breakOr_pool workHead_pool⟩

/-- Only a dispatch and a step of a task change the pool. -/
theorem Dispatcher.Moves.continues
    (move : Dispatcher.Moves platform workerConcurrency workerMaxAttempts worker event next) :
    worker.pool.Continues workerMaxAttempts event next.pool := by
  have unchanged : next.pool = worker.pool → worker.pool.Continues workerMaxAttempts event next.pool := by
    intro same
    rw [same]
    exact Pool.continues_same
  cases move with
  | @dispatched answer control =>
      rcases Dispatcher.dispatch_pool answer with same | ⟨job, same⟩
      · exact unchanged same
      · rw [same]
        exact Pool.continues_dispatch job
  | task move =>
      rw [Dispatcher.noticed_pool]
      exact move.continues
  | stop => exact unchanged Dispatcher.wake_pool
  | wake => exact unchanged Dispatcher.wake_pool
  | connected => exact unchanged rfl
  | connectFailed => exact unchanged rfl
  | lockAcquired => exact unchanged rfl
  | lockRefused => exact unchanged rfl
  | recovered => exact unchanged Dispatcher.workHead_pool
  | recoveryFailed => exact unchanged rfl
  | backedOff => exact unchanged (Dispatcher.breakOr_pool Dispatcher.pastBackoff_pool)
  | placeFree => exact unchanged (Dispatcher.breakOr_pool Dispatcher.workHead_pool)
  | handedOut => exact unchanged rfl
  | nothingDue => exact unchanged rfl
  | claimFailed => exact unchanged (Dispatcher.leaveLoop_pool true)
  | idled => exact unchanged Dispatcher.workHead_pool
  | drained => exact unchanged rfl
  | unlocked => exact unchanged (Dispatcher.afterUnlock_pool _ _)
  | unlockFailed => exact unchanged (Dispatcher.afterUnlock_pool _ _)
  | paused => exact unchanged Dispatcher.runHead_pool

/-- Who proceeds was let in, and is found again in the next phase alone. -/
theorem Dispatcher.Moves.proceeded (sound : worker.Sound workerConcurrency) {task : Task} {phase : Phase}
    (inside : task ∈ worker.pool.activeTasks)
    (move : Dispatcher.Moves platform workerConcurrency workerMaxAttempts worker
      (.task (.proceed task.ticket phase)) next) :
    (∀ turn ∈ task.turn, worker.pool.resolutionLane.Inside turn) ∧
      Follows workerMaxAttempts task.job task.phase phase ∧
        ∀ other ∈ next.pool.activeTasks, other.ticket = task.ticket → other.phase = phase := by
  have soundNext := Dispatcher.sound_step sound move
  generalize isEvent : TaskEvent.proceed task.ticket phase = taskEvent at move
  cases move with
  | @task _ pool move =>
      rw [Dispatcher.noticed_pool] at *
      cases move with
      | @proceed earlier later found _ waits admitted follows =>
          injection isEvent with sameTicket samePhase
          subst samePhase
          have member : found ∈ worker.pool.activeTasks := waits ▸ List.mem_append_right _ List.mem_cons_self
          have same : task = found := List.inj_on_of_nodup_map sound.pool.distinct inside member sameTicket
          subst same
          refine ⟨admitted, follows, fun other isOther isTicket => ?_⟩
          have distinct := soundNext.pool.distinct
          rw [Dispatcher.noticed_pool] at distinct
          have isProceeded := List.inj_on_of_nodup_map distinct isOther
            (List.mem_append_right _ List.mem_cons_self)
            (isTicket.trans (Task.proceed_ticket task worker.pool.resolutionLane phase).symm)
          rw [isProceeded, Task.proceed_phase]
      | enterLane => cases isEvent
      | settleLane => cases isEvent
      | finish => cases isEvent
      | remove => cases isEvent

end Tasks

/-! ### The tables in every state -/

section Runs

variable {Embedding : Type} {uuidv5 : JsString → JsString → JsString} {caseFold : JsString → JsString}
variable {vectorOf : JsString → Embedding} {platform : Platform} {workerConcurrency workerMaxAttempts : Nat}
variable {state next : EntityWorker Embedding} {event : EntityEvent Embedding}

/-- Every entity that is not new is still there. -/
def Chosen (tables : EntityTables Embedding) (prepared : Prepared Embedding) : Prop :=
  ∀ entity ∈ prepared.entities, entity.isNew = false → tables.hasEntity entity.id = true

/-- The tables are sound, and what is about to be committed fits together. -/
structure EntityWorker.Sound (uuidv5 : JsString → JsString → JsString) (state : EntityWorker Embedding) : Prop where
  tables : state.tables.Sound uuidv5
  fits : ∀ held ∈ state.prepared,
    EntityTables.Fits uuidv5 (uuidv5 held.2.id.text SEGMENT_NAMESPACE) held.2

theorem EntityWorker.Sound.step (unique : ∀ namespaceId, Function.Injective fun name => uuidv5 name namespaceId)
    (sound : state.Sound uuidv5)
    (move : EntityWorker.Moves uuidv5 caseFold vectorOf platform workerConcurrency workerMaxAttempts state event next) :
    next.Sound uuidv5 := by
  cases move with
  | search => exact ⟨sound.tables, sound.fits⟩
  | dispatch => exact ⟨sound.tables, sound.fits⟩
  | @resolved task result services prepared next inside resolving hashed inOrder searched returned move =>
      subst hashed
      have resolved := resolve_resolved unique inOrder returned
      refine ⟨sound.tables, fun held isHeld => ?_⟩
      rcases List.mem_cons.mp isHeld with same | old
      · rw [same]
        change EntityTables.Fits _ (services.uuidv5 prepared.id.text SEGMENT_NAMESPACE) prepared
        rw [resolved.id]
        exact resolved.fits
      · exact sound.fits held old
  | committed inside committing held done answered move =>
      exact ⟨sound.tables.commitResolution (sound.fits _ held) done, sound.fits⟩

/-! ### Candidates while a call resolves and commits -/

/-- Nothing was searched for yet. -/
def Phase.unsearched : Phase → Bool
  | .extracting => true
  | .publishing _ => true
  | _ => false

/-- Nothing was prepared yet. -/
def Phase.unresolved : Phase → Bool
  | .resolving _ => true
  | phase => phase.unsearched

/-- What a call holds of its candidates: in the lane, everything it was offered and everything it
chose is still there. -/
def EntityWorker.Holds (state : EntityWorker Embedding) (task : Task) : Prop :=
  match task.phase with
  | .resolving result => result.claims ≠ [] →
      ∀ id, (task.ticket, id) ∈ state.offered → state.tables.hasEntity id = true
  | .committing result _ => ∀ prepared, (task.ticket, prepared) ∈ state.prepared →
      (result.claims = [] → prepared.entities = []) ∧ (result.claims ≠ [] → Chosen state.tables prepared)
  | _ => True

/-- The books of the searches: a ticket occurs in them from the search on, and a call that waits for
the lane has not searched. -/
structure EntityWorker.Books (workerConcurrency : Nat) (state : EntityWorker Embedding) : Prop where
  worker : state.worker.Sound workerConcurrency
  offered : ∀ entry ∈ state.offered, entry.1 < state.worker.pool.processed.length
  prepared : ∀ entry ∈ state.prepared, entry.1 < state.worker.pool.processed.length
  unsearched : ∀ task ∈ state.worker.pool.activeTasks, task.phase.unsearched = true ∨
    (∃ turn ∈ task.turn, turn ∉ state.worker.pool.resolutionLane.entered) →
      ∀ id, (task.ticket, id) ∉ state.offered
  unresolved : ∀ task ∈ state.worker.pool.activeTasks, task.phase.unresolved = true →
    ∀ prepared, (task.ticket, prepared) ∉ state.prepared

/-- Who resolves next has published before. -/
theorem Follows.to_resolving {job : ClaimedJob} {phase next : Phase}
    (follows : Follows workerMaxAttempts job phase next) {result : ExtractionResult} (isNext : next = .resolving result) :
    phase = .publishing result := by
  cases follows with
  | published other =>
      cases isNext
      rfl
  | extracted => cases isNext
  | unpublished => cases isNext
  | resolved => cases isNext
  | committed => cases isNext
  | threw => cases isNext
  | finished => cases isNext
  | finishThrew => cases isNext

theorem Follows.to_unsearched {job : ClaimedJob} {phase next : Phase}
    (follows : Follows workerMaxAttempts job phase next) (isNext : next.unsearched = true) : phase = .extracting := by
  cases follows with
  | extracted => rfl
  | published => cases isNext
  | unpublished => cases isNext
  | resolved => cases isNext
  | committed => cases isNext
  | threw => cases isNext
  | finished => cases isNext
  | finishThrew => cases isNext

theorem Follows.to_unresolved {job : ClaimedJob} {phase next : Phase}
    (follows : Follows workerMaxAttempts job phase next) (isNext : next.unresolved = true) :
    phase.unsearched = true := by
  cases next with
  | resolving result =>
      rw [follows.to_resolving rfl]
      rfl
  | extracting =>
      rw [follows.to_unsearched isNext]
      rfl
  | publishing result =>
      rw [follows.to_unsearched isNext]
      rfl
  | committing => cases isNext
  | finishing => cases isNext
  | settled => cases isNext

/-- Books that are kept when only the worker moves. -/
theorem EntityWorker.Books.move {moved : Dispatcher} {event : DispatchEvent} (books : state.Books workerConcurrency)
    (move : Dispatcher.Moves platform workerConcurrency workerMaxAttempts state.worker event moved) :
    EntityWorker.Books workerConcurrency { state with worker := moved } := by
  have continues := move.continues
  have sound := Dispatcher.sound_step books.worker move
  have fresh : ∀ {ticket : Nat}, ticket = state.worker.pool.processed.length →
      (∀ id, (ticket, id) ∉ state.offered) ∧ ∀ prepared, (ticket, prepared) ∉ state.prepared := by
    intro ticket same
    constructor
    · intro id inside
      exact absurd (books.offered _ inside) (by rw [same]; exact Nat.lt_irrefl _)
    · intro prepared inside
      exact absurd (books.prepared _ inside) (by rw [same]; exact Nat.lt_irrefl _)
  refine ⟨sound, fun entry inside => (books.offered entry inside).trans_le continues.processed,
    fun entry inside => (books.prepared entry inside).trans_le continues.processed,
    fun task inside blank => ?_, fun task inside unresolved => ?_⟩
  · rcases continues.tasks task inside with ⟨before, isBefore, ticket, phase, turn⟩ | ⟨ticket, _, _⟩ |
      ⟨before, isBefore, ticket, admitted, follows, _⟩
    · rw [ticket]
      apply books.unsearched before isBefore
      rcases blank with unsearched | ⟨waits, isTurn, notIn⟩
      · rw [phase] at unsearched
        exact Or.inl unsearched
      · rw [turn] at isTurn
        exact Or.inr ⟨waits, isTurn, fun old => notIn (continues.entered old)⟩
    · exact (fresh ticket).1
    · rw [ticket]
      apply books.unsearched before isBefore
      left
      rcases blank with unsearched | ⟨waits, isTurn, notIn⟩
      · rw [follows.to_unsearched unsearched]
        rfl
      · obtain ⟨result, isResolving⟩ := sound.pool.queued task inside waits isTurn notIn
        rw [follows.to_resolving isResolving]
        rfl
  · rcases continues.tasks task inside with ⟨before, isBefore, ticket, phase, _⟩ | ⟨ticket, _, _⟩ |
      ⟨before, isBefore, ticket, _, follows, _⟩
    · rw [ticket]
      apply books.unresolved before isBefore
      rw [← phase]
      exact unresolved
    · exact (fresh ticket).2
    · rw [ticket]
      apply books.unresolved before isBefore
      have unsearched := follows.to_unresolved unresolved
      cases isPhase : before.phase with
      | extracting => rfl
      | publishing => rfl
      | _ =>
          rw [isPhase] at unsearched
          cases unsearched

/-- The books with what a call holds of its candidates. -/
structure EntityWorker.Guarded (workerConcurrency : Nat) (uuidv5 : JsString → JsString → JsString)
    (state : EntityWorker Embedding) : Prop where
  sound : state.Sound uuidv5
  books : state.Books workerConcurrency
  holds : ∀ task ∈ state.worker.pool.activeTasks, state.Holds task

/-- A call of `process` that has just been made holds nothing. -/
theorem EntityWorker.Books.holds_dispatched (books : state.Books workerConcurrency) {task : Task} {job : ClaimedJob}
    (ticket : task.ticket = state.worker.pool.processed.length) (phase : task.phase = start job)
    {after : EntityWorker Embedding} (offered : after.offered = state.offered) : after.Holds task := by
  unfold EntityWorker.Holds
  rw [phase]
  unfold start
  cases job.extractionResult with
  | none => trivial
  | some result =>
      intro _ id inside
      rw [offered, ticket] at inside
      exact absurd (books.offered _ inside) (Nat.lt_irrefl _)

/-- A call holds on to its candidates when no entity is lost. -/
theorem EntityWorker.Holds.mono {after : EntityWorker Embedding} {task before : Task} (holds : state.Holds before)
    (ticket : task.ticket = before.ticket) (phase : task.phase = before.phase)
    (offered : after.offered = state.offered) (prepared : after.prepared = state.prepared)
    (kept : ∀ id, state.tables.hasEntity id = true → after.tables.hasEntity id = true) : after.Holds task := by
  unfold EntityWorker.Holds at *
  rw [phase, ticket, offered, prepared]
  split
  · rename_i result isPhase
    rw [isPhase] at holds
    exact fun claims id inside => kept id (holds claims id inside)
  · rename_i result segment isPhase
    rw [isPhase] at holds
    intro held inside
    refine ⟨(holds held inside).1, fun claims entity isEntity notNew => ?_⟩
    exact kept entity.id ((holds held inside).2 claims entity isEntity notNew)
  · trivial

theorem EntityWorker.Guarded.search {task : Task} {result : ExtractionResult} {id : JsString}
    (guarded : state.Guarded workerConcurrency uuidv5) (inside : task ∈ state.worker.pool.activeTasks)
    (resolving : task.phase = .resolving result)
    (admitted : ∀ turn ∈ task.turn, state.worker.pool.resolutionLane.Inside turn)
    (found : state.tables.hasEntity id = true) :
    EntityWorker.Guarded workerConcurrency uuidv5 { state with offered := (task.ticket, id) :: state.offered } := by
  have books := guarded.books
  have sameTask : ∀ other ∈ state.worker.pool.activeTasks, other.ticket = task.ticket → other = task :=
    fun other isOther same => List.inj_on_of_nodup_map books.worker.pool.distinct isOther inside same
  refine ⟨⟨guarded.sound.tables, guarded.sound.fits⟩,
    ⟨books.worker, fun entry isEntry => ?_, books.prepared, fun other isOther blank offeredId isOffered => ?_,
      books.unresolved⟩, fun other isOther => ?_⟩
  · rcases List.mem_cons.mp isEntry with same | old
    · rw [same]
      exact (List.getElem?_eq_some_iff.mp (books.worker.pool.tickets task inside)).1
    · exact books.offered entry old
  · rcases List.mem_cons.mp isOffered with same | old
    · have isTask := sameTask other isOther (Prod.mk.inj same).1
      subst isTask
      rcases blank with unsearched | ⟨turn, isTurn, notIn⟩
      · rw [resolving] at unsearched
        cases unsearched
      · exact notIn (admitted turn isTurn).1
    · exact books.unsearched other isOther blank offeredId old
  · have holds := guarded.holds other isOther
    unfold EntityWorker.Holds at *
    split
    · rename_i held isPhase
      rw [isPhase] at holds
      intro claims offeredId isOffered
      rcases List.mem_cons.mp isOffered with same | old
      · rw [(Prod.mk.inj same).2]
        exact found
      · exact holds claims offeredId old
    · rename_i held segment isPhase
      rw [isPhase] at holds
      exact holds
    · trivial

theorem EntityWorker.Guarded.dispatch {dispatched : DispatchEvent} {moved : Dispatcher}
    (guarded : state.Guarded workerConcurrency uuidv5) (apart : ¬ state.worker.Commits dispatched)
    (move : Dispatcher.Moves platform workerConcurrency workerMaxAttempts state.worker dispatched moved) :
    EntityWorker.Guarded workerConcurrency uuidv5 { state with worker := moved } := by
  refine ⟨⟨guarded.sound.tables, guarded.sound.fits⟩, guarded.books.move move, fun task inside => ?_⟩
  rcases move.continues.tasks task inside with ⟨before, isBefore, ticket, phase, _⟩ | ⟨ticket, job, phase⟩ |
    ⟨before, isBefore, ticket, _, follows, isEvent⟩
  · exact (guarded.holds before isBefore).mono ticket phase rfl rfl fun _ there => there
  · exact guarded.books.holds_dispatched ticket phase rfl
  · unfold EntityWorker.Holds
    split
    · rename_i result isPhase
      intro _ id isOffered
      have published := follows.to_resolving isPhase
      rw [ticket] at isOffered
      exact absurd isOffered (guarded.books.unsearched before isBefore (Or.inl (by rw [published]; rfl)) id)
    · rename_i result segment isPhase
      rw [isEvent, isPhase] at apart
      exact absurd trivial apart
    · trivial

theorem EntityWorker.Guarded.resolved {task : Task} {result : ExtractionResult} {services : Services Embedding}
    {prepared : Prepared Embedding} {moved : Dispatcher} (guarded : state.Guarded workerConcurrency services.uuidv5)
    (soundNext : EntityWorker.Sound services.uuidv5
      { state with
        worker := moved
        prepared := (task.ticket, prepared) :: state.prepared })
    (inside : task ∈ state.worker.pool.activeTasks) (resolving : task.phase = .resolving result)
    (resolution : Resolved services task.job result prepared)
    (searched : ∀ id, Offers services id → (task.ticket, id) ∈ state.offered)
    (move : Dispatcher.Moves platform workerConcurrency workerMaxAttempts state.worker
      (.task (.proceed task.ticket (.committing result prepared.toPreparedSegment))) moved) :
    EntityWorker.Guarded workerConcurrency services.uuidv5
      { state with
        worker := moved
        prepared := (task.ticket, prepared) :: state.prepared } := by
  have books := guarded.books
  have movedBooks := books.move move
  obtain ⟨_, _, only⟩ := move.proceeded books.worker inside
  have ticketBound : task.ticket < moved.pool.processed.length :=
    (List.getElem?_eq_some_iff.mp (books.worker.pool.tickets task inside)).1.trans_le move.continues.processed
  refine ⟨soundNext, ⟨movedBooks.worker, movedBooks.offered, fun entry isEntry => ?_, movedBooks.unsearched,
    fun other isOther unresolved held isHeld => ?_⟩, fun other isOther => ?_⟩
  · rcases List.mem_cons.mp isEntry with same | old
    · rw [same]
      exact ticketBound
    · exact movedBooks.prepared entry old
  · rcases List.mem_cons.mp isHeld with same | old
    · rw [only other isOther (Prod.mk.inj same).1] at unresolved
      cases unresolved
    · exact movedBooks.unresolved other isOther unresolved held old
  · by_cases isTask : other.ticket = task.ticket
    · unfold EntityWorker.Holds
      rw [only other isOther isTask, isTask]
      intro held isHeld
      rcases List.mem_cons.mp isHeld with same | old
      · rw [(Prod.mk.inj same).2]
        refine ⟨resolution.claimFree, fun claims entity isEntity notNew => ?_⟩
        have holds := guarded.holds task inside
        unfold EntityWorker.Holds at holds
        rw [resolving] at holds
        exact holds claims entity.id (searched entity.id (resolution.chosen entity isEntity notNew))
      · exact absurd old (books.unresolved task inside (by rw [resolving]; rfl) held)
    · rcases move.continues.tasks other isOther with ⟨before, isBefore, ticket, phase, _⟩ | ⟨ticket, job, phase⟩ |
        ⟨before, isBefore, ticket, _, _, isEvent⟩
      · have holds := guarded.holds before isBefore
        unfold EntityWorker.Holds at *
        rw [phase]
        split
        · rename_i held isPhase
          rw [isPhase] at holds
          rw [ticket]
          exact holds
        · rename_i held segment isPhase
          rw [isPhase] at holds
          intro stored isStored
          rcases List.mem_cons.mp isStored with same | old
          · exact absurd (Prod.mk.inj same).1 isTask
          · rw [ticket] at old
            exact holds stored old
        · trivial
      · exact books.holds_dispatched ticket phase rfl
      · injection isEvent with isEvent
        injection isEvent with sameTicket _
        exact absurd (ticket.trans sameTicket.symm) isTask

/-- A commit that lets go of nothing keeps every entity. -/
theorem hasEntity_spared {tables after : EntityTables Embedding} {prepared : Prepared Embedding}
    (done : tables.commitResolution uuidv5 caseFold prepared = .ok after)
    (spares : ∀ id ∈ tables.oldEntityIds (uuidv5 prepared.id.text SEGMENT_NAMESPACE), ∃ row,
      (∃ key, tables.claims.get? key = some row) ∧ row.segmentId ≠ uuidv5 prepared.id.text SEGMENT_NAMESPACE ∧
        EntityTables.Refers row id) {id : JsString} (there : tables.hasEntity id = true) :
    after.hasEntity id = true := by
  rcases EntityTables.commitResolution_cases done with ⟨_, same⟩ | ⟨_, written⟩
  · rw [same]
    exact there
  · rw [written.entities]
    refine ⟨Or.inl there, fun old => ?_⟩
    obtain ⟨row, ⟨key, found⟩, isOther, isReferred⟩ := spares id old
    exact EntityTables.refersTo_iff.mpr
      ⟨row, ⟨key, (written.claims key row).mpr (Or.inl ⟨found, isOther⟩)⟩, isReferred⟩

/-- Two calls in the lane that were let in are one. -/
theorem EntityWorker.Books.alone (books : state.Books workerConcurrency) {one other : Task}
    (inside : one ∈ state.worker.pool.activeTasks) (alsoInside : other ∈ state.worker.pool.activeTasks)
    (inLane : one.phase.inLane = true) (alsoInLane : other.phase.inLane = true)
    (entered : ∀ turn ∈ one.turn, turn ∈ state.worker.pool.resolutionLane.entered)
    (alsoEntered : ∀ turn ∈ other.turn, turn ∈ state.worker.pool.resolutionLane.entered) : one = other := by
  apply books.worker.exclusive inside alsoInside
  · exact ⟨inLane, fun ⟨turn, isTurn, waits⟩ => waits.2 (entered turn isTurn)⟩
  · exact ⟨alsoInLane, fun ⟨turn, isTurn, waits⟩ => waits.2 (alsoEntered turn isTurn)⟩

theorem inLane_of_claims {result : ExtractionResult} (claims : result.claims ≠ []) :
    (!result.claims.isEmpty) = true := by
  rw [Bool.not_eq_true', List.isEmpty_eq_false_iff]
  exact claims

/-- Beside a commit in the lane no call holds a candidate. -/
theorem EntityWorker.Guarded.holds_besides (guarded : state.Guarded workerConcurrency uuidv5) {task before : Task}
    (inside : task ∈ state.worker.pool.activeTasks) (inLane : task.phase.inLane = true)
    (admitted : ∀ turn ∈ task.turn, state.worker.pool.resolutionLane.Inside turn)
    (isBefore : before ∈ state.worker.pool.activeTasks) (different : before ≠ task)
    {after : EntityWorker Embedding} (offered : after.offered = state.offered)
    (prepared : after.prepared = state.prepared) : after.Holds before := by
  have books := guarded.books
  have queues : before.phase.inLane = true →
      ∃ turn ∈ before.turn, turn ∉ state.worker.pool.resolutionLane.entered := by
    intro alsoInLane
    by_contra allEntered
    push Not at allEntered
    exact different (books.alone isBefore inside alsoInLane inLane allEntered
      fun turn isTurn => (admitted turn isTurn).1)
  have holds := guarded.holds before isBefore
  unfold EntityWorker.Holds at *
  split
  · rename_i result isPhase
    intro claims id isOffered
    rw [offered] at isOffered
    have waits := queues (by rw [isPhase]; exact inLane_of_claims claims)
    exact absurd isOffered (books.unsearched before isBefore (Or.inr waits) id)
  · rename_i result segment isPhase
    rw [isPhase] at holds
    intro held isHeld
    rw [prepared] at isHeld
    refine ⟨(holds held isHeld).1, fun claims => ?_⟩
    obtain ⟨turn, isTurn, notIn⟩ := queues (by rw [isPhase]; exact inLane_of_claims claims)
    obtain ⟨other, isResolving⟩ := books.worker.pool.queued before isBefore turn isTurn notIn
    rw [isPhase] at isResolving
    cases isResolving
  · trivial

theorem EntityWorker.Guarded.committed {task : Task}
    {prepared : Prepared Embedding} {tables : EntityTables Embedding} {phase : Phase} {moved : Dispatcher}
    (guarded : state.Guarded workerConcurrency uuidv5)
    (inside : task ∈ state.worker.pool.activeTasks) (held : (task.ticket, prepared) ∈ state.prepared)
    (done : state.tables.commitResolution uuidv5 caseFold prepared = .ok tables)
    (answered : phase = reported true ∨ phase = caught workerMaxAttempts task.job false)
    (move : Dispatcher.Moves platform workerConcurrency workerMaxAttempts state.worker
      (.task (.proceed task.ticket phase)) moved)
    (spares : state.Spares uuidv5 (.committed task prepared)) :
    EntityWorker.Guarded workerConcurrency uuidv5
      { state with
        worker := moved
        tables := tables } := by
  have books := guarded.books
  have movedBooks := books.move move
  obtain ⟨admitted, _, only⟩ := move.proceeded books.worker inside
  refine ⟨⟨guarded.sound.tables.commitResolution (guarded.sound.fits _ held) done, guarded.sound.fits⟩,
    ⟨movedBooks.worker, movedBooks.offered, movedBooks.prepared, movedBooks.unsearched, movedBooks.unresolved⟩,
    fun other isOther => ?_⟩
  by_cases isTask : other.ticket = task.ticket
  · unfold EntityWorker.Holds
    rw [only other isOther isTask]
    rcases answered with same | same
    · rw [same]
      trivial
    · rw [same]
      trivial
  · rcases move.continues.tasks other isOther with ⟨before, isBefore, ticket, samePhase, _⟩ | ⟨ticket, job, isStart⟩ |
      ⟨before, isBefore, ticket, _, _, isEvent⟩
    · cases inLane : task.phase.inLane with
      | true =>
          have different : before ≠ task := by
            intro same
            rw [same] at ticket
            exact isTask ticket
          have holds : EntityWorker.Holds
              { state with
                worker := moved
                tables := tables } before := guarded.holds_besides inside inLane admitted isBefore different rfl rfl
          exact holds.mono ticket samePhase rfl rfl fun _ there => there
      | false =>
          exact (guarded.holds before isBefore).mono ticket samePhase rfl rfl fun _ there =>
            hasEntity_spared done (spares inLane) there
    · exact books.holds_dispatched ticket isStart rfl
    · injection isEvent with isEvent
      injection isEvent with sameTicket _
      exact absurd (ticket.trans sameTicket.symm) isTask

theorem EntityWorker.Guarded.step (unique : ∀ namespaceId, Function.Injective fun name => uuidv5 name namespaceId)
    (guarded : state.Guarded workerConcurrency uuidv5)
    (move : EntityWorker.Moves uuidv5 caseFold vectorOf platform workerConcurrency workerMaxAttempts state event next)
    (spares : state.Spares uuidv5 event) : next.Guarded workerConcurrency uuidv5 := by
  have soundNext := guarded.sound.step unique move
  cases move with
  | search inside resolving admitted found => exact guarded.search inside resolving admitted found
  | dispatch apart move => exact guarded.dispatch apart move
  | resolved inside resolving hashed inOrder searched returned move =>
      subst hashed
      exact guarded.resolved soundNext inside resolving (resolve_resolved unique inOrder returned) searched move
  | committed inside _ held done answered move =>
      exact guarded.committed inside held done answered move spares

theorem EntityWorker.started_sound {tables : EntityTables Embedding} (sound : tables.Sound uuidv5) :
    (EntityWorker.started tables).Sound uuidv5 :=
  ⟨sound, fun _ absent => absurd absent List.not_mem_nil⟩

end Runs

/-! ### Every state -/

section Results

variable {Embedding : Type} (uuidv5 : JsString → JsString → JsString) (caseFold : JsString → JsString)
variable (vectorOf : JsString → Embedding) (platform : Platform) (workerConcurrency workerMaxAttempts : Nat)

/-- Whatever runs beside what, no claim dangles and no entity is left over, and what a call is about to
commit is refused exactly where an entity it chose has gone. -/
theorem entities_stay_closed (unique : ∀ namespaceId, Function.Injective fun name => uuidv5 name namespaceId)
    (tables : EntityTables Embedding) (sound : tables.Sound uuidv5) (state : EntityWorker Embedding)
    (run : Reaches (EntityWorker.Moves uuidv5 caseFold vectorOf platform workerConcurrency workerMaxAttempts)
      (fun _ _ => True) (.started tables) state) :
    state.tables.Sound uuidv5 ∧ ∀ held ∈ state.prepared,
      ((∃ after, state.tables.commitResolution uuidv5 caseFold held.2 = .ok after) ↔
        state.tables.newerProjection (uuidv5 held.2.id.text SEGMENT_NAMESPACE) held.2 = true ∨
          Chosen state.tables held.2) := by
  have reached := @Reaches.invariant _ _
    (EntityWorker.Moves uuidv5 caseFold vectorOf platform workerConcurrency workerMaxAttempts) (fun _ _ => True)
    (EntityWorker.Sound uuidv5) (fun _ _ _ sound move _ => sound.step unique move) _ _ run
    (EntityWorker.started_sound sound)
  exact ⟨reached.tables, fun held inside =>
    EntityTables.commitResolution_returns_iff unique reached.tables (reached.fits held inside)⟩

end Results

/-! ### A run with claims -/

section OneCall

variable (job : ClaimedJob) (result : ExtractionResult)

/-- A worker that waits where it was handed the job. -/
def claimedCall : Dispatcher :=
  { pool := .empty
    control := .claimed (some job)
    stopping := false
    wakeRequested := false
    staleBackoff := false
    locked := true
    handedOut := [job] }

/-- A worker with one call of `process`, in the given phase. -/
def oneCall (phase : Phase) (turn : Option Nat) (lane : PromiseChain) : Dispatcher :=
  { pool :=
      { activeTasks :=
          [{ ticket := 0
             job := job
             phase := phase
             turn := turn
             finished := false }]
        activeSessions := addActiveSession [] job.session
        resolutionLane := lane
        processed := [job] }
    control := .full false
    stopping := false
    wakeRequested := false
    staleBackoff := false
    locked := true
    handedOut := [job] }

/-- One call is alone in the lane. -/
def enteredLane : PromiseChain := PromiseChain.resolved.arrive.enter 0

def oneCallEntities (worker : Dispatcher) (prepared : List (Nat × Prepared JsString)) : EntityWorker JsString :=
  { worker := worker
    tables := .empty
    offered := []
    prepared := prepared }

variable {job result} {platform : Platform} {workerMaxAttempts : Nat}

theorem claimedCall_dispatched (begins : start job = .extracting) :
    Dispatcher.Moves platform 1 workerMaxAttempts (claimedCall job) .answer (oneCall job .extracting none .resolved) := by
  have same : (claimedCall job).dispatch 1 (some job) = oneCall job .extracting none .resolved := by
    unfold Dispatcher.dispatch Dispatcher.breakOr Pool.dispatch claimedCall oneCall
    dsimp only
    rw [begins]
    rfl
  rw [← same]
  exact .dispatched rfl

theorem oneCall_proceeds {phase next : Phase} {turn laterTurn : Option Nat} {lane later : PromiseChain}
    (admitted : ∀ own ∈ turn, lane.Inside own) (follows : Follows workerMaxAttempts job phase next)
    (proceeds : Task.proceed ⟨0, job, phase, turn, false⟩ lane next = (⟨0, job, next, laterTurn, false⟩, later)) :
    Dispatcher.Moves platform 1 workerMaxAttempts (oneCall job phase turn lane) (.task (.proceed 0 next))
      (oneCall job next laterTurn later) := by
  have move := @Pool.Moves.proceed workerMaxAttempts (oneCall job phase turn lane).pool [] []
    ⟨0, job, phase, turn, false⟩ next rfl admitted follows
  change Pool.Moves _ _ _
    { (oneCall job phase turn lane).pool with
      activeTasks := [] ++ [(Task.proceed ⟨0, job, phase, turn, false⟩ lane next).1]
      resolutionLane := (Task.proceed ⟨0, job, phase, turn, false⟩ lane next).2 } at move
  rw [proceeds] at move
  exact .task move

/-- The moves of a worker whose embeddings are the texts themselves. -/
abbrev SampleMoves : EntityWorker JsString → EntityEvent JsString → EntityWorker JsString → Prop :=
  EntityWorker.Moves sampleServices.uuidv5 id (fun text => text) samplePlatform 1 3

abbrev SampleRun (state : EntityWorker JsString) : Prop :=
  Reaches SampleMoves (EntityWorker.Spares sampleServices.uuidv5) (.started .empty) state

theorem sample_unique : ∀ namespaceId, Function.Injective fun name => sampleServices.uuidv5 name namespaceId :=
  fun _ _ _ same => List.append_cancel_left same

theorem sample_inOrder : ∀ texts vectors, sampleServices.embed texts (ofString "document") = .ok vectors →
    vectors = texts.map fun text => text := by
  intro texts vectors answered
  cases answered
  exact (List.map_id texts).symm

theorem none_admits {lane : PromiseChain} : ∀ own ∈ (none : Option Nat), lane.Inside own := by
  intro own absent
  cases absent

/-- A job that is handed out first is in the lane with its claims. -/
theorem run_resolving {tables after : QueueTables} {now leaseId : Nat} (begins : start job = .extracting)
    (taken : tables.claimOldestJob samplePlatform [] now leaseId = .ok (after, some job))
    (claims : result.claims.isEmpty = false) :
    SampleRun (oneCallEntities (oneCall job (.resolving result) (some 0) enteredLane) []) := by
  have begun : SampleRun (.started .empty) := Reaches.refl _
  have connected := begun.snoc (.dispatch .answer) (.dispatch id (.connected rfl)) trivial
  have locked := connected.snoc (.dispatch .answer) (.dispatch id (.lockAcquired rfl)) trivial
  have recovered := locked.snoc (.dispatch .answer) (.dispatch id (.recovered rfl)) trivial
  have claimed : SampleRun (oneCallEntities (claimedCall job) []) :=
    recovered.snoc (.dispatch .answer) (.dispatch id (.handedOut rfl taken)) trivial
  have extracting : SampleRun (oneCallEntities (oneCall job .extracting none .resolved) []) :=
    claimed.snoc (.dispatch .answer) (.dispatch id (claimedCall_dispatched begins)) trivial
  have publishing : SampleRun (oneCallEntities (oneCall job (.publishing result) none .resolved) []) :=
    extracting.snoc (.dispatch (.task (.proceed 0 (.publishing result))))
      (.dispatch id (oneCall_proceeds none_admits (.extracted result) rfl)) trivial
  have queues : Task.proceed ⟨0, job, .publishing result, none, false⟩ .resolved (.resolving result) =
      (⟨0, job, .resolving result, some 0, false⟩, PromiseChain.resolved.arrive) := by
    have inLane : (Phase.resolving result).inLane = true := by
      rw [Phase.inLane, claims]
      rfl
    unfold Task.proceed
    dsimp only
    rw [if_pos inLane]
    rfl
  have queued : SampleRun
      (oneCallEntities (oneCall job (.resolving result) (some 0) PromiseChain.resolved.arrive) []) :=
    publishing.snoc (.dispatch (.task (.proceed 0 (.resolving result))))
      (.dispatch id (oneCall_proceeds none_admits (.published result) queues)) trivial
  exact queued.snoc (.dispatch (.task (.enterLane 0)))
    (.dispatch id (.task (.enterLane ⟨Nat.zero_lt_one, List.not_mem_nil⟩ rfl))) trivial

theorem enteredLane_admits : ∀ turn ∈ some 0, enteredLane.Inside turn := by
  intro turn isTurn
  cases isTurn
  exact ⟨List.mem_singleton.mpr rfl, rfl⟩

/-- And commits them next. -/
theorem run_committing {prepared : Prepared JsString} (claims : result.claims.isEmpty = false)
    (isPrepared : resolve sampleServices job result = .ok prepared)
    (run : SampleRun (oneCallEntities (oneCall job (.resolving result) (some 0) enteredLane) [])) :
    SampleRun (oneCallEntities (oneCall job (.committing result prepared.toPreparedSegment) (some 0) enteredLane)
      [(0, prepared)]) := by
  have searched : ∀ id, Offers sampleServices id → (0, id) ∈ ([] : List (Nat × JsString)) := by
    rintro id ⟨_, _, _, _, answered, _, inside, _⟩
    cases answered
    cases inside
  have stays : Task.proceed ⟨0, job, .resolving result, some 0, false⟩ enteredLane
      (.committing result prepared.toPreparedSegment) =
        (⟨0, job, .committing result prepared.toPreparedSegment, some 0, false⟩, enteredLane) := by
    have inLane : (Phase.committing result prepared.toPreparedSegment).inLane = true := by
      rw [Phase.inLane, claims]
      rfl
    unfold Task.proceed
    dsimp only
    rw [if_pos inLane]
  have moved := @oneCall_proceeds job samplePlatform 3 _ _ _ _ _ _ enteredLane_admits
    (.resolved result prepared.toPreparedSegment) stays
  have move := @EntityWorker.Moves.resolved JsString sampleServices.uuidv5 id (fun text => text) samplePlatform 1 3
    (oneCallEntities (oneCall job (.resolving result) (some 0) enteredLane) []) _ result sampleServices prepared _
    (List.mem_singleton.mpr rfl) rfl rfl sample_inOrder searched isPrepared moved
  exact run.snoc (.resolved 0) move trivial

end OneCall

/-- Whose claims they are does not matter. -/
theorem friendship_resolved (job : ClaimedJob) :
    ∃ prepared, resolve sampleServices job friendship = .ok prepared := by
  have returns : (resolve sampleServices resolvedJob friendship).toOption.isSome = true := by
    decide +kernel
  cases outcome : resolve sampleServices resolvedJob friendship with
  | error error =>
      rw [outcome] at returns
      cases returns
  | ok other =>
      obtain ⟨⟨specs, contexts⟩, offered, behind⟩ := except_bind_ok outcome
      obtain ⟨plan, isPlan, _⟩ := except_bind_ok behind
      have alsoPlan : resolutionPlan sampleServices job friendship contexts = .ok plan := isPlan
      have answers : ∀ texts, sampleServices.embed texts (ofString "document") = .ok (texts.map fun text => text) :=
        fun texts => congrArg Except.ok (List.map_id texts).symm
      have oneObject : ∀ claim ∈ friendship.claims, OneObject claim := by
        intro claim inside
        rw [List.mem_singleton.mp inside]
        exact Bool.noConfusion
      unfold resolve
      rw [offered, except_ok_bind]
      dsimp only
      rw [alsoPlan, except_ok_bind]
      exact preparePlan_returns answers (resolutionPlan_planned offered alsoPlan)
        (contextSpecs_spec (mentionContexts_spec offered).1).2 oneObject

theorem reaches_committing : ∃ prepared, Resolved sampleServices sampleClaim friendship prepared ∧
    SampleRun (oneCallEntities (oneCall sampleClaim (.committing friendship prepared.toPreparedSegment) (some 0)
      enteredLane) [(0, prepared)]) := by
  obtain ⟨prepared, isPrepared⟩ := friendship_resolved sampleClaim
  obtain ⟨after, taken⟩ := sampleTables_claimed
  exact ⟨prepared, resolve_resolved sample_unique sample_inOrder isPrepared,
    run_committing rfl isPrepared (run_resolving rfl taken rfl)⟩

/-- The claims of the call are committed. -/
theorem entities_stay_closed_sample : ∃ prepared after,
    (EntityTables.empty : EntityTables JsString).commitResolution sampleServices.uuidv5 id prepared = .ok after ∧
      after.Sound sampleServices.uuidv5 := by
  obtain ⟨prepared, resolved, run⟩ := reaches_committing
  have all : Reaches SampleMoves (fun _ _ => True) (.started .empty) _ := run.mono fun _ _ _ => trivial
  have chosen : Chosen (EntityTables.empty : EntityTables JsString) prepared := by
    intro entity inside notNew
    obtain ⟨_, _, _, _, answered, _, isCandidate, _⟩ := resolved.chosen entity inside notNew
    cases answered
    cases isCandidate
  obtain ⟨_, refused⟩ := entities_stay_closed sampleServices.uuidv5 id (fun text => text) samplePlatform 1 3
    sample_unique .empty EntityTables.empty_sound _ all
  obtain ⟨after, done⟩ := (refused _ List.mem_cons_self).mpr (Or.inr chosen)
  have committed := all.snoc (.committed _ prepared)
    (.committed (List.mem_singleton.mpr rfl) rfl List.mem_cons_self done (Or.inl rfl)
      (oneCall_proceeds enteredLane_admits (.committed friendship prepared.toPreparedSegment true) rfl)) trivial
  obtain ⟨sound, _⟩ := entities_stay_closed sampleServices.uuidv5 id (fun text => text) samplePlatform 1 3
    sample_unique .empty EntityTables.empty_sound _ committed
  exact ⟨prepared, after, done, sound⟩

end Reflection.Worker
