/-
The books of the active tasks.

The active sessions are those of the tasks, the tickets point at the calls of `process`, and the
turns are the calls of the lane that have not released it. Every step of a task keeps them, and so
does the dispatch of a job whose session is not busy.
-/

import Reflection.Foundation.Lists
import Reflection.Worker.Dispatch

namespace Reflection.Worker

open Reflection.Database

/-! ### The turns of the lane -/

/-- The turns the tasks hold are the calls of the lane that have not released it. -/
structure Turns (turns : List Nat) (lane : PromiseChain) : Prop where
  ordered : lane.Ordered
  held : ∀ turn, turn ∈ turns ↔ turn < lane.arrived ∧ lane.released turn = false
  distinct : turns.Nodup

section Turns

variable {front back turns : List Nat} {lane after : PromiseChain} {turn : Nat}

theorem Turns.arrive (books : Turns (front ++ back) lane) :
    Turns (front ++ lane.arrived :: back) lane.arrive := by
  have ordered := books.ordered
  have isNew : lane.arrived ∉ front ++ back := fun old =>
    absurd ((books.held lane.arrived).mp old).1 (Nat.lt_irrefl _)
  have unreleased : lane.released lane.arrived = false := by
    rw [← Bool.not_eq_true]
    intro released
    have inside := (ordered.mem_entered _).mp (ordered.left _ released)
    exact absurd (Nat.lt_of_lt_of_le inside ordered.arrivals) (Nat.lt_irrefl _)
  refine ⟨PromiseChain.ordered_step ordered .arrive, ?_, ?_⟩
  · intro turn
    rw [List.perm_middle.mem_iff, List.mem_cons, books.held]
    change _ ↔ turn < lane.arrived + 1 ∧ lane.released turn = false
    constructor
    · rintro (same | ⟨earlier, free⟩)
      · rw [same]
        exact ⟨Nat.lt_succ_self _, unreleased⟩
      · exact ⟨Nat.lt_succ_of_lt earlier, free⟩
    · rintro ⟨within, free⟩
      rcases Nat.lt_succ_iff_lt_or_eq.mp within with earlier | same
      · exact .inr ⟨earlier, free⟩
      · exact .inl same
  · exact List.nodup_middle.mpr (List.nodup_cons.mpr ⟨isNew, books.distinct⟩)

theorem Turns.release (books : Turns (front ++ turn :: back) lane) (inside : lane.Inside turn) :
    Turns (front ++ back) (lane.release turn) := by
  rcases List.nodup_cons.mp (List.nodup_middle.mp books.distinct) with ⟨gone, distinct⟩
  refine ⟨PromiseChain.ordered_step books.ordered (.release inside), ?_, distinct⟩
  intro other
  change _ ↔ other < lane.arrived ∧ Function.update lane.released turn true other = false
  rcases eq_or_ne other turn with same | different
  · rw [same, Function.update_self]
    exact iff_of_false gone (by simp)
  · rw [Function.update_of_ne different, ← books.held, List.perm_middle.mem_iff, List.mem_cons]
    exact (or_iff_right different).symm

/-- Neither letting a call in nor settling a tail changes who holds a turn. -/
theorem Turns.moved {event : PromiseChain.Event} (books : Turns turns lane)
    (move : PromiseChain.Moves lane event after) (arrived : after.arrived = lane.arrived)
    (released : after.released = lane.released) : Turns turns after := by
  refine ⟨PromiseChain.ordered_step books.ordered move, ?_, books.distinct⟩
  intro turn
  rw [arrived, released]
  exact books.held turn

end Turns

/-! ### The pool's books -/

/-- The task's session is among the active ones. -/
def Task.active (task : Task) : Bool := !task.finished

/-- Its entry of activeSessions. -/
def Task.entry (task : Task) : JsString × SourceSession :=
  (sourceSessionKey task.job.session, task.job.session)

structure Pool.Sound (pool : Pool) : Prop where
  sessions : pool.activeSessions = (pool.activeTasks.filter Task.active).map Task.entry
  apart : ((pool.activeTasks.filter Task.active).map fun task => task.job.session).Nodup
  settled : ∀ task ∈ pool.activeTasks, task.finished = true → task.phase.isSettled = true
  tickets : ∀ task ∈ pool.activeTasks, pool.processed[task.ticket]? = some task.job
  distinct : (pool.activeTasks.map Task.ticket).Nodup
  inLane : ∀ task ∈ pool.activeTasks, task.turn.isSome = task.phase.inLane
  /-- a call that was not let in has not begun to resolve -/
  queued : ∀ task ∈ pool.activeTasks, ∀ turn ∈ task.turn, turn ∉ pool.resolutionLane.entered →
    ∃ result, task.phase = .resolving result
  turns : Turns (pool.activeTasks.filterMap Task.turn) pool.resolutionLane

/-- What a step of the tasks leaves to the loop. -/
structure Pool.Shrinks (pool after : Pool) : Prop where
  tasks : after.activeTasks.length ≤ pool.activeTasks.length
  busy : after.busy ⊆ pool.busy
  processed : after.processed = pool.processed

section Pools

variable {workerMaxAttempts : Nat} {pool after : Pool} {event : TaskEvent}

theorem Pool.Sound.busy_eq (sound : pool.Sound) :
    pool.busy = (pool.activeTasks.filter Task.active).map fun task => task.job.session := by
  rw [Pool.busy, sound.sessions, List.map_map]
  rfl

theorem Phase.inLane_of_settled {phase : Phase} (settled : phase.isSettled = true) :
    phase.inLane = false := by
  cases phase with
  | settled outcome => rfl
  | extracting => cases settled
  | publishing result => cases settled
  | resolving result => cases settled
  | committing result prepared => cases settled
  | finishing terminal => cases settled

theorem Follows.unsettled {job : ClaimedJob} {phase next : Phase}
    (follows : Follows workerMaxAttempts job phase next) : phase.isSettled = false := by
  cases follows with
  | threw working terminalError =>
      cases phase with
      | settled outcome => cases working
      | _ => rfl
  | _ => rfl

theorem start_inLane {job : ClaimedJob} (inLane : (start job).inLane = true) :
    ∃ result, start job = .resolving result := by
  unfold start at inLane ⊢
  split
  · rename_i absent
    rw [absent] at inLane
    cases inLane
  · exact ⟨_, rfl⟩

/-- The lane is asked for before the extraction is resolved, and at no other place. -/
theorem Follows.entersLane {job : ClaimedJob} {phase next : Phase}
    (follows : Follows workerMaxAttempts job phase next) (outside : phase.inLane = false)
    (inLane : next.inLane = true) : ∃ result, next = .resolving result := by
  cases follows with
  | extracted result => cases inLane
  | published result => exact ⟨result, rfl⟩
  | unpublished result => cases inLane
  | resolved result prepared =>
      rw [show (Phase.committing result prepared).inLane = (Phase.resolving result).inLane from rfl,
        outside] at inLane
      cases inLane
  | committed result prepared updated => cases inLane
  | threw working terminalError => cases inLane
  | finished terminal updated => cases inLane
  | finishThrew terminal => cases inLane

@[simp] theorem Task.proceed_ticket (task : Task) (lane : PromiseChain) (next : Phase) :
    (task.proceed lane next).1.ticket = task.ticket := by
  unfold Task.proceed
  split <;> split <;> rfl

@[simp] theorem Task.proceed_job (task : Task) (lane : PromiseChain) (next : Phase) :
    (task.proceed lane next).1.job = task.job := by
  unfold Task.proceed
  split <;> split <;> rfl

@[simp] theorem Task.proceed_finished (task : Task) (lane : PromiseChain) (next : Phase) :
    (task.proceed lane next).1.finished = task.finished := by
  unfold Task.proceed
  split <;> split <;> rfl

theorem Task.proceed_inLane (task : Task) (lane : PromiseChain) (next : Phase) :
    (task.proceed lane next).1.turn.isSome = (task.proceed lane next).1.phase.inLane := by
  unfold Task.proceed
  split
  · rename_i noTurn
    split
    · rename_i lanePhase
      exact lanePhase.symm
    · rename_i otherPhase
      rw [Bool.not_eq_true] at otherPhase
      change task.turn.isSome = next.inLane
      rw [noTurn, otherPhase]
      rfl
  · rename_i turn isTurn
    split
    · rename_i lanePhase
      change task.turn.isSome = next.inLane
      rw [isTurn, lanePhase]
      rfl
    · rename_i otherPhase
      exact (Bool.not_eq_true _ ▸ otherPhase).symm

/-- A step of a task lets nobody in. -/
@[simp] theorem Task.proceed_entered (task : Task) (lane : PromiseChain) (next : Phase) :
    (task.proceed lane next).2.entered = lane.entered := by
  unfold Task.proceed
  split <;> split <;> rfl

theorem Task.proceed_queued {task : Task} {lane : PromiseChain} {next : Phase}
    (inLane : task.turn.isSome = task.phase.inLane) (admitted : ∀ turn ∈ task.turn, lane.Inside turn)
    (follows : Follows workerMaxAttempts task.job task.phase next) :
    ∀ turn ∈ (task.proceed lane next).1.turn, turn ∉ lane.entered →
      ∃ result, (task.proceed lane next).1.phase = .resolving result := by
  intro turn isTurn notIn
  unfold Task.proceed at isTurn ⊢
  cases had : task.turn with
  | none =>
      rw [had] at inLane isTurn
      cases lanePhase : next.inLane with
      | true => exact follows.entersLane inLane.symm lanePhase
      | false =>
          rw [lanePhase] at isTurn
          cases isTurn
  | some own =>
      rw [had] at isTurn
      have inside := admitted own had
      cases lanePhase : next.inLane with
      | true =>
          rw [lanePhase] at isTurn
          cases isTurn
          exact absurd inside.1 notIn
      | false =>
          rw [lanePhase] at isTurn
          cases isTurn

/-- The turns behind a step of one task. -/
theorem Turns.proceed {earlier later : List Task} {task : Task} {lane : PromiseChain} {next : Phase}
    (books : Turns ((earlier ++ task :: later).filterMap Task.turn) lane)
    (admitted : ∀ turn ∈ task.turn, lane.Inside turn) :
    Turns ((earlier ++ (task.proceed lane next).1 :: later).filterMap Task.turn)
      (task.proceed lane next).2 := by
  rw [List.filterMap_append, List.filterMap_cons] at books ⊢
  unfold Task.proceed
  cases isTurn : task.turn with
  | none =>
      rw [isTurn] at books
      dsimp only at books ⊢
      cases lanePhase : next.inLane with
      | true => exact books.arrive
      | false =>
          simp only [Bool.false_eq_true, ↓reduceIte]
          exact books
  | some turn =>
      rw [isTurn] at books
      dsimp only at books ⊢
      cases lanePhase : next.inLane with
      | true =>
          simp only [↓reduceIte]
          exact books
      | false => exact books.release (admitted turn isTurn)

/-- Every other task of a list stays when one of its tasks is replaced. -/
theorem mem_replaced {earlier later : List Task} {task changed other : Task} {tasks : List Task}
    (split : tasks = earlier ++ task :: later) (inside : other ∈ earlier ++ changed :: later) :
    other = changed ∨ other ∈ tasks := by
  rcases List.mem_append.mp inside with front | back
  · exact .inr (split ▸ List.mem_append_left _ front)
  · rcases List.mem_cons.mp back with same | behind
    · exact .inl same
    · exact .inr (split ▸ List.mem_append_right _ (List.mem_cons_of_mem _ behind))

theorem Pool.Sound.proceed {earlier later : List Task} {task : Task} {next : Phase} (sound : pool.Sound)
    (waits : pool.activeTasks = earlier ++ task :: later)
    (admitted : ∀ turn ∈ task.turn, pool.resolutionLane.Inside turn)
    (follows : Follows workerMaxAttempts task.job task.phase next) :
    Pool.Sound
      { pool with
        activeTasks := earlier ++ (task.proceed pool.resolutionLane next).1 :: later
        resolutionLane := (task.proceed pool.resolutionLane next).2 } := by
  have member : task ∈ pool.activeTasks := waits ▸ List.mem_append_right _ List.mem_cons_self
  have unfinished : task.finished = false := by
    rw [← Bool.not_eq_true]
    intro finished
    have settled := sound.settled task member finished
    rw [follows.unsettled] at settled
    cases settled
  have sessions := sound.sessions
  have apart := sound.apart
  have distinct := sound.distinct
  have turns := sound.turns
  rw [waits] at sessions apart distinct turns
  refine ⟨?_, ?_, ?_, ?_, ?_, ?_, ?_, turns.proceed admitted⟩
  · rw [sessions]
    simp [List.filter_append, Task.active, unfinished, Task.entry]
  · simpa [List.filter_append, List.filter_cons, Task.active, unfinished] using apart
  · intro other inside finished
    rcases mem_replaced waits inside with same | old
    · rw [same, Task.proceed_finished, unfinished] at finished
      cases finished
    · exact sound.settled other old finished
  · intro other inside
    rcases mem_replaced waits inside with same | old
    · rw [same, Task.proceed_ticket, Task.proceed_job]
      exact sound.tickets task member
    · exact sound.tickets other old
  · simpa using distinct
  · intro other inside
    rcases mem_replaced waits inside with same | old
    · rw [same]
      exact task.proceed_inLane pool.resolutionLane next
    · exact sound.inLane other old
  · intro other inside turn isTurn notIn
    rw [Task.proceed_entered] at notIn
    rcases mem_replaced waits inside with same | old
    · rw [same] at isTurn ⊢
      exact Task.proceed_queued (sound.inLane task member) admitted follows turn isTurn notIn
    · exact sound.queued other old turn isTurn notIn

theorem deleteActiveSession_entry {front back : List Task} {task : Task}
    (apart : ((front ++ task :: back).map fun other => other.job.session).Nodup) :
    deleteActiveSession ((front ++ task :: back).map Task.entry) task.job.session =
      (front ++ back).map Task.entry := by
  rw [List.map_append, List.map_cons] at apart
  have gone := (List.nodup_cons.mp (List.nodup_middle.mp apart)).1
  have kept : ∀ other ∈ front ++ back,
      (other.entry.1 != sourceSessionKey task.job.session) = true := by
    intro other inside
    rw [bne_iff_ne]
    intro same
    have sameSession : other.job.session = task.job.session := sourceSessionKey_injective same
    apply gone
    rw [← sameSession, ← List.map_append]
    exact List.mem_map_of_mem inside
  have all : ∀ tasks : List Task, (∀ other ∈ tasks, other ∈ front ++ back) →
      deleteActiveSession (tasks.map Task.entry) task.job.session = tasks.map Task.entry := by
    intro tasks inside
    unfold deleteActiveSession
    rw [List.filter_eq_self]
    intro entry isEntry
    rcases List.mem_map.mp isEntry with ⟨other, isOther, same⟩
    rw [← same]
    exact kept other (inside other isOther)
  have own : (task.entry.1 != sourceSessionKey task.job.session) = false := by
    simp [Task.entry]
  have fronts := all front fun other inside => List.mem_append_left _ inside
  have backs := all back fun other inside => List.mem_append_right _ inside
  unfold deleteActiveSession at fronts backs ⊢
  rw [List.map_append, List.map_cons, List.filter_append, List.filter_cons_of_neg (by simp [own]),
    fronts, backs, List.map_append]

theorem Pool.Sound.finish {earlier later : List Task} {task : Task} {outcome : Settlement}
    (sound : pool.Sound) (waits : pool.activeTasks = earlier ++ task :: later)
    (settled : task.phase = .settled outcome) (unfinished : task.finished = false) :
    Pool.Sound
      { pool with
        activeTasks := earlier ++ { task with finished := true } :: later
        activeSessions := deleteActiveSession pool.activeSessions task.job.session } := by
  have member : task ∈ pool.activeTasks := waits ▸ List.mem_append_right _ List.mem_cons_self
  have wasActive : task.active = true := by
    unfold Task.active
    rw [unfinished]
    rfl
  have isActive : Task.active { task with finished := true } = false := rfl
  have sessions := sound.sessions
  have apart := sound.apart
  have distinct := sound.distinct
  have turns := sound.turns
  rw [waits, List.filter_append, List.filter_cons_of_pos wasActive] at sessions apart
  rw [waits] at distinct turns
  have remaining : (earlier ++ { task with finished := true } :: later).filter Task.active =
      earlier.filter Task.active ++ later.filter Task.active := by
    rw [List.filter_append, List.filter_cons_of_neg (by simp [isActive])]
  refine ⟨?_, ?_, ?_, ?_, ?_, ?_, ?_, ?_⟩
  · rw [remaining]
    change deleteActiveSession pool.activeSessions task.job.session = _
    rw [sessions, deleteActiveSession_entry apart]
  · rw [remaining, List.map_append]
    rw [List.map_append, List.map_cons] at apart
    exact (List.nodup_cons.mp (List.nodup_middle.mp apart)).2
  · intro other inside finished
    rcases mem_replaced waits inside with same | old
    · rw [same, settled]
      rfl
    · exact sound.settled other old finished
  · intro other inside
    rcases mem_replaced waits inside with same | old
    · rw [same]
      exact sound.tickets task member
    · exact sound.tickets other old
  · simpa using distinct
  · intro other inside
    rcases mem_replaced waits inside with same | old
    · rw [same]
      exact sound.inLane task member
    · exact sound.inLane other old
  · intro other inside
    rcases mem_replaced waits inside with same | old
    · rw [same]
      exact sound.queued task member
    · exact sound.queued other old
  · simpa [List.filterMap_append, List.filterMap_cons] using turns

theorem Pool.Sound.remove {earlier later : List Task} {task : Task} (sound : pool.Sound)
    (waits : pool.activeTasks = earlier ++ task :: later) (finished : task.finished = true) :
    Pool.Sound { pool with activeTasks := earlier ++ later } := by
  have member : task ∈ pool.activeTasks := waits ▸ List.mem_append_right _ List.mem_cons_self
  have kept : ∀ other ∈ earlier ++ later, other ∈ pool.activeTasks := by
    intro other inside
    rw [waits, List.perm_middle.mem_iff]
    exact List.mem_cons_of_mem _ inside
  have inactive : ¬ task.active = true := by
    unfold Task.active
    rw [finished]
    exact Bool.false_ne_true
  have noTurn : task.turn = none := by
    have inLane := sound.inLane task member
    rw [Phase.inLane_of_settled (sound.settled task member finished)] at inLane
    exact Option.not_isSome_iff_eq_none.mp (by rw [inLane]; exact Bool.false_ne_true)
  have sessions := sound.sessions
  have apart := sound.apart
  have distinct := sound.distinct
  have turns := sound.turns
  rw [waits, List.filter_append, List.filter_cons_of_neg inactive, ← List.filter_append] at sessions apart
  rw [waits, List.map_append, List.map_cons] at distinct
  rw [waits, List.filterMap_append, List.filterMap_cons_none noTurn, ← List.filterMap_append] at turns
  exact
    { sessions := sessions
      apart := apart
      settled := fun other inside => sound.settled other (kept other inside)
      tickets := fun other inside => sound.tickets other (kept other inside)
      distinct := by
        change ((earlier ++ later).map Task.ticket).Nodup
        rw [List.map_append]
        exact (List.nodup_cons.mp (List.nodup_middle.mp distinct)).2
      inLane := fun other inside => sound.inLane other (kept other inside)
      queued := fun other inside => sound.queued other (kept other inside)
      turns := turns }

theorem pool_step (sound : pool.Sound) (move : Pool.Moves workerMaxAttempts pool event after) :
    after.Sound := by
  cases move with
  | proceed waits admitted follows => exact sound.proceed waits admitted follows
  | enterLane waits ready =>
      exact
        { sessions := sound.sessions
          apart := sound.apart
          settled := sound.settled
          tickets := sound.tickets
          distinct := sound.distinct
          inLane := sound.inLane
          queued := fun task inside turn isTurn notIn =>
            sound.queued task inside turn isTurn fun already => notIn (List.mem_append_left _ already)
          turns := sound.turns.moved (.enter waits ready) rfl rfl }
  | settleLane before released =>
      exact
        { sessions := sound.sessions
          apart := sound.apart
          settled := sound.settled
          tickets := sound.tickets
          distinct := sound.distinct
          inLane := sound.inLane
          queued := sound.queued
          turns := sound.turns.moved (.settle before released) rfl rfl }
  | finish waits settled unfinished => exact sound.finish waits settled unfinished
  | remove waits finished => exact sound.remove waits finished

theorem pool_shrinks (move : Pool.Moves workerMaxAttempts pool event after) : pool.Shrinks after := by
  cases move with
  | proceed waits admitted follows =>
      refine ⟨?_, List.Subset.refl _, rfl⟩
      rw [waits, List.length_append, List.length_append, List.length_cons, List.length_cons]
  | enterLane waits ready => exact ⟨Nat.le_refl _, List.Subset.refl _, rfl⟩
  | settleLane before released => exact ⟨Nat.le_refl _, List.Subset.refl _, rfl⟩
  | finish waits settled unfinished =>
      refine ⟨?_, ?_, rfl⟩
      · rw [waits, List.length_append, List.length_append, List.length_cons, List.length_cons]
      · exact List.map_subset _ (List.filter_subset_self _)
  | remove waits finished =>
      refine ⟨?_, List.Subset.refl _, rfl⟩
      rw [waits, List.length_append, List.length_append, List.length_cons]
      omega

theorem Pool.Sound.dispatch {job : ClaimedJob} (sound : pool.Sound) (free : job.session ∉ pool.busy) :
    (pool.dispatch job).Sound := by
  have added : addActiveSession pool.activeSessions job.session =
      pool.activeSessions ++ [(sourceSessionKey job.session, job.session)] := by
    unfold addActiveSession
    rw [if_neg]
    rw [List.any_eq_true]
    rintro ⟨entry, inside, sameKey⟩
    rw [sound.sessions] at inside
    rcases List.mem_map.mp inside with ⟨task, isActive, isEntry⟩
    rw [← isEntry, beq_iff_eq] at sameKey
    have same : task.job.session = job.session := sourceSessionKey_injective sameKey
    apply free
    rw [sound.busy_eq, ← same]
    exact List.mem_map.mpr ⟨task, isActive, rfl⟩
  have early : ∀ task ∈ pool.activeTasks, task.ticket < pool.processed.length := fun task inside =>
    (List.getElem?_eq_some_iff.mp (sound.tickets task inside)).1
  rw [sound.busy_eq] at free
  have entered : (pool.dispatch job).resolutionLane.entered = pool.resolutionLane.entered := by
    change (if (start job).inLane then pool.resolutionLane.arrive else pool.resolutionLane).entered = _
    split <;> rfl
  refine ⟨?_, ?_, ?_, ?_, ?_, ?_, ?_, ?_⟩
  · change addActiveSession pool.activeSessions job.session = _
    rw [added, sound.sessions]
    simp [Pool.dispatch, List.filter_append, Task.active, Task.entry]
  · simp only [Pool.dispatch, List.filter_append, List.map_append]
    exact List.nodup_append'.mpr ⟨sound.apart, by simp [Task.active], by simpa [Task.active] using free⟩
  · intro task inside finished
    rcases List.mem_append.mp inside with old | isNew
    · exact sound.settled task old finished
    · rw [List.mem_singleton.mp isNew] at finished
      cases finished
  · intro task inside
    rcases List.mem_append.mp inside with old | isNew
    · change (pool.processed ++ [job])[task.ticket]? = _
      rw [List.getElem?_append_left (early task old)]
      exact sound.tickets task old
    · rw [List.mem_singleton.mp isNew]
      change (pool.processed ++ [job])[pool.processed.length]? = _
      rw [List.getElem?_append_right (Nat.le_refl _), Nat.sub_self]
      rfl
  · simp only [Pool.dispatch, List.map_append]
    refine List.nodup_append'.mpr ⟨sound.distinct, by simp, ?_⟩
    intro ticket inside again
    rcases List.mem_map.mp inside with ⟨task, isTask, same⟩
    have before := early task isTask
    have behind : ticket = pool.processed.length := by simpa using again
    omega
  · intro task inside
    rcases List.mem_append.mp inside with old | isNew
    · exact sound.inLane task old
    · rw [List.mem_singleton.mp isNew]
      cases lanePhase : (start job).inLane with
      | true => simp
      | false => simp
  · intro task inside turn isTurn notIn
    rw [entered] at notIn
    rcases List.mem_append.mp inside with old | isNew
    · exact sound.queued task old turn isTurn notIn
    · rw [List.mem_singleton.mp isNew] at isTurn ⊢
      apply start_inLane
      by_contra outside
      dsimp only at isTurn
      rw [if_neg outside] at isTurn
      cases isTurn
  · have turns := sound.turns
    rw [← List.append_nil (pool.activeTasks.filterMap Task.turn)] at turns
    change Turns ((pool.activeTasks ++ _).filterMap Task.turn) _
    rw [List.filterMap_append]
    cases lanePhase : (start job).inLane with
    | true => simpa [Pool.dispatch, lanePhase] using turns.arrive
    | false => simpa [Pool.dispatch, lanePhase] using turns

end Pools

end Reflection.Worker
