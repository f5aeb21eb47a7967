/-
A worker that processes its claims while other transactions go on.

A call of `process` extracts, publishes, resolves and commits. Whatever throws on the way leads to
`finishFailedAttempt`, and whatever that throws leaves the call. A transaction is carried out and
answered, or carried out while its answer is lost, or rolled back; the last two throw.
-/

import Reflection.Database.Leases

namespace Reflection.Worker

open Reflection.Database

inductive ProcessResult
  | progressed
  | stale
deriving DecidableEq

/-- How a call of `process` settles. -/
inductive Settlement
  | returned (result : ProcessResult)
  | rejected
deriving DecidableEq

/-- What a call of `process` waits for. -/
inductive Phase
  | extracting
  | publishing (result : ExtractionResult)
  | resolving (result : ExtractionResult)
  | committing (result : ExtractionResult) (prepared : PreparedSegment)
  | finishing (terminal : Bool)
  | settled (outcome : Settlement)
deriving DecidableEq

/-- Where `process` starts: a staged extraction is reused. -/
def start (job : ClaimedJob) : Phase :=
  match job.extractionResult with
  | none => .extracting
  | some result => .resolving result

/-- The catch block: a terminal validation error or the last attempt is not retried. -/
def caught (workerMaxAttempts : Nat) (job : ClaimedJob) (terminalError : Bool) : Phase :=
  .finishing (terminalError || !decide (job.attempts < workerMaxAttempts))

/-- `committed ? "progressed" : "stale"`. -/
def reported (updated : Bool) : Phase := .settled (.returned (if updated then .progressed else .stale))

/-- What happens to a waiting call. The engine throws a terminal error or another. -/
inductive Occurrence
  | answered
  | threw (terminalError : Bool)
  | lost
  | rolledBack
deriving DecidableEq

section Calls

variable (platform : Platform) (group : Group) (workerMaxAttempts : Nat)

/-- One step of a call of `process`, with the rows before and after. -/
inductive Proceeds (job : ClaimedJob) : System → Phase → Occurrence → System → Phase → Prop
  | extracted {system : System} (result : ExtractionResult) :
      Proceeds job system .extracting .answered system (.publishing result)
  | extractionFailed {system : System} (terminalError : Bool) :
      Proceeds job system .extracting (.threw terminalError) system
        (caught workerMaxAttempts job terminalError)
  | published {system : System} {after : Queue} {result : ExtractionResult} {staged : Bool}
      (done : publishExtraction platform group system.queue job result = .ok (after, staged)) :
      Proceeds job system (.publishing result) .answered
        { system with
          queue := after
          published := if staged then some (job, result) else system.published }
        (if staged then .resolving result else .settled (.returned .stale))
  | publicationRefused {system : System} {result : ExtractionResult} {error : QueueError}
      (refused : publishExtraction platform group system.queue job result = .error error) :
      Proceeds job system (.publishing result) .answered system (caught workerMaxAttempts job false)
  | publicationLost {system : System} {after : Queue} {result : ExtractionResult} {staged : Bool}
      (done : publishExtraction platform group system.queue job result = .ok (after, staged)) :
      Proceeds job system (.publishing result) .lost
        { system with
          queue := after
          published := if staged then some (job, result) else system.published }
        (caught workerMaxAttempts job false)
  | publicationRolledBack {system : System} {result : ExtractionResult} :
      Proceeds job system (.publishing result) .rolledBack system (caught workerMaxAttempts job false)
  | resolved {system : System} {result : ExtractionResult} (prepared : PreparedSegment) :
      Proceeds job system (.resolving result) .answered system (.committing result prepared)
  | resolutionFailed {system : System} {result : ExtractionResult} (terminalError : Bool) :
      Proceeds job system (.resolving result) (.threw terminalError) system
        (caught workerMaxAttempts job terminalError)
  | committed {system : System} {after : Queue} {result : ExtractionResult}
      {prepared : PreparedSegment} {updated : Bool}
      (done : commitResolution platform group system.queue job result prepared = .ok (after, updated)) :
      Proceeds job system (.committing result prepared) .answered { system with queue := after }
        (reported updated)
  | commitRefused {system : System} {result : ExtractionResult} {prepared : PreparedSegment}
      {error : QueueError}
      (refused : commitResolution platform group system.queue job result prepared = .error error) :
      Proceeds job system (.committing result prepared) .answered system
        (caught workerMaxAttempts job false)
  | commitLost {system : System} {after : Queue} {result : ExtractionResult}
      {prepared : PreparedSegment} {updated : Bool}
      (done : commitResolution platform group system.queue job result prepared = .ok (after, updated)) :
      Proceeds job system (.committing result prepared) .lost { system with queue := after }
        (caught workerMaxAttempts job false)
  | commitRolledBack {system : System} {result : ExtractionResult} {prepared : PreparedSegment} :
      Proceeds job system (.committing result prepared) .rolledBack system
        (caught workerMaxAttempts job false)
  | finished {system : System} {after : Queue} {terminal updated : Bool}
      (done : finishFailedAttempt platform group system.queue job terminal = .ok (after, updated)) :
      Proceeds job system (.finishing terminal) .answered { system with queue := after }
        (reported updated)
  | finishRefused {system : System} {terminal : Bool} {error : QueueError}
      (refused : finishFailedAttempt platform group system.queue job terminal = .error error) :
      Proceeds job system (.finishing terminal) .answered system (.settled .rejected)
  | finishLost {system : System} {after : Queue} {terminal updated : Bool}
      (done : finishFailedAttempt platform group system.queue job terminal = .ok (after, updated)) :
      Proceeds job system (.finishing terminal) .lost { system with queue := after } (.settled .rejected)
  | finishRolledBack {system : System} {terminal : Bool} :
      Proceeds job system (.finishing terminal) .rolledBack system (.settled .rejected)

end Calls

/-! ### Runs -/

/-- A worker's calls of `process` beside the rows of one segment. -/
structure ExtractionWorker where
  system : System
  /-- the work loop runs under the advisory lock -/
  holdsLock : Bool
  calls : List (ClaimedJob × Phase)

/-- The worker before it takes the lock, whatever happened until then. -/
def ExtractionWorker.idle (system : System) : ExtractionWorker :=
  { system := system
    holdsLock := false
    calls := [] }

/-- The claim a label reports on. -/
def reporter : Label → Option ClaimedJob
  | .publish claim _ => some claim
  | .commit claim _ _ => some claim
  | .finish claim _ => some claim
  | _ => none

/-- Claims and recoveries are made under the lock. -/
def needsLock : Label → Bool
  | .claim _ => true
  | .recover => true
  | _ => false

inductive Event
  /-- a transaction of somebody else -/
  | elsewhere (label : Label)
  | takeLock
  | leaveLock
  | claim (leaseId : Nat)
  | call (job : ClaimedJob) (phase : Phase) (occurrence : Occurrence)

inductive Moves (platform : Platform) (group : Group) (workerMaxAttempts : Nat) :
    ExtractionWorker → Event → ExtractionWorker → Prop
  | elsewhere {worker : ExtractionWorker} {label : Label} {system : System}
      (step : Step platform group worker.system label system)
      (foreign : ∀ claim ∈ reporter label, claim ∉ worker.calls.map Prod.fst)
      (locked : needsLock label = true → worker.holdsLock = false) :
      Moves platform group workerMaxAttempts worker (.elsewhere label) { worker with system := system }
  | takeLock {worker : ExtractionWorker} {system : System} (free : worker.holdsLock = false)
      (step : Step platform group worker.system .recover system) :
      Moves platform group workerMaxAttempts worker .takeLock
        { worker with
          system := system
          holdsLock := true }
  | leaveLock {worker : ExtractionWorker} (held : worker.holdsLock = true)
      (done : ∀ call ∈ worker.calls, ∃ outcome, call.2 = .settled outcome) :
      Moves platform group workerMaxAttempts worker .leaveLock { worker with holdsLock := false }
  | claim {worker : ExtractionWorker} {leaseId : Nat} {after : Queue} {claimed : Option ClaimedJob}
      (held : worker.holdsLock = true)
      (fresh : ∀ claim ∈ worker.system.claims, claim.leaseId ≠ leaseId)
      (taken : claimOldestJob platform group worker.system.queue leaseId = .ok (after, claimed)) :
      Moves platform group workerMaxAttempts worker (.claim leaseId)
        { worker with
          system :=
            { worker.system with
              queue := after
              claims := claimed.toList ++ worker.system.claims }
          calls := (claimed.toList.map fun job => (job, start job)) ++ worker.calls }
  | call {worker : ExtractionWorker} {job : ClaimedJob} {phase next : Phase} {occurrence : Occurrence}
      {earlier later : List (ClaimedJob × Phase)} {system : System}
      (waits : worker.calls = earlier ++ (job, phase) :: later)
      (proceeds : Proceeds platform group workerMaxAttempts job worker.system phase occurrence system
        next) :
      Moves platform group workerMaxAttempts worker (.call job phase occurrence)
        { worker with
          system := system
          calls := earlier ++ (job, next) :: later }

section Runs

variable {platform : Platform} {group : Group} {workerMaxAttempts : Nat}
variable {worker next : ExtractionWorker} {event : Event}

/-- A step of a call is a step of the queue, or leaves the queue alone. -/
theorem Proceeds.step {job : ClaimedJob} {system after : System} {phase last : Phase}
    {occurrence : Occurrence} (held : job ∈ system.claims)
    (proceeds : Proceeds platform group workerMaxAttempts job system phase occurrence after last) :
    after = system ∨ ∃ label, Step platform group system label after ∧ after.claims = system.claims := by
  cases proceeds with
  | extracted result => exact .inl rfl
  | extractionFailed terminalError => exact .inl rfl
  | published done => exact .inr ⟨_, .publish held done, rfl⟩
  | publicationRefused refused => exact .inl rfl
  | publicationLost done => exact .inr ⟨_, .publish held done, rfl⟩
  | publicationRolledBack => exact .inl rfl
  | resolved prepared => exact .inl rfl
  | resolutionFailed terminalError => exact .inl rfl
  | committed done => exact .inr ⟨_, .commit held done, rfl⟩
  | commitRefused refused => exact .inl rfl
  | commitLost done => exact .inr ⟨_, .commit held done, rfl⟩
  | commitRolledBack => exact .inl rfl
  | finished done => exact .inr ⟨_, .finish held done, rfl⟩
  | finishRefused refused => exact .inl rfl
  | finishLost done => exact .inr ⟨_, .finish held done, rfl⟩
  | finishRolledBack => exact .inl rfl

/-- A released claim stays released: a later claim comes under a new lease. -/
theorem released_step {system after : System} {label : Label} {claim : ClaimedJob}
    (reached : Reachable platform group system) (step : Step platform group system label after)
    (inside : claim ∈ system.claims) (released : Released system.queue claim) :
    Released after.queue claim := by
  have holds := reached.invariant
  rcases step_cases holds reached.stagedParses step with ⟨kept, _⟩ |
    ⟨leaseId, job, target, made, fresh, eligible, _, queue, _⟩
  · exact released.kept kept
  · intro row member
    rw [queue] at member
    rcases mem_leasedQueue holds (eligibleJob_some eligible).2.1 member with old | isLeased
    · exact released row old
    · rw [← Bool.not_eq_true, leases_iff, isLeased]
      rintro ⟨_, _, lease⟩
      exact fresh claim inside (Option.some.inj lease).symm

/-- A call that settles has left its lease, unless its last write was rolled back under it. -/
theorem Proceeds.released {job : ClaimedJob} {system after : System} {phase : Phase}
    {occurrence : Occurrence} {outcome : Settlement} (reached : Reachable platform group system)
    (held : job ∈ system.claims)
    (proceeds : Proceeds platform group workerMaxAttempts job system phase occurrence after
      (.settled outcome))
    (finishes : ∀ terminal, phase = .finishing terminal → occurrence = .rolledBack →
      Released system.queue job) : Released after.queue job := by
  have holds := reached.invariant
  have handed := reached.held job held
  generalize settles : Phase.settled outcome = last at proceeds
  cases proceeds with
  | extracted result => cases settles
  | extractionFailed terminalError => cases settles
  | @published queue result staged done =>
      cases staged with
      | true => cases settles
      | false => exact (publishExtraction_gaveUp done).released holds handed.snapshots
  | publicationRefused refused => cases settles
  | publicationLost done => cases settles
  | publicationRolledBack => cases settles
  | resolved prepared => cases settles
  | resolutionFailed terminalError => cases settles
  | @committed queue result prepared updated done =>
      cases updated with
      | true => exact (commitResolution_running holds done).2
      | false => exact (commitResolution_gaveUp done).released holds handed.snapshots
  | commitRefused refused => cases settles
  | commitLost done => cases settles
  | commitRolledBack => cases settles
  | finished done => exact finishFailedAttempt_released holds handed.snapshots done
  | @finishRefused terminal error refused =>
      -- A claim that was handed out passes every check of the write.
      rcases handed.finishes holds terminal with ⟨_, _, done⟩
      rw [done] at refused
      cases refused
  | finishLost done => exact finishFailedAttempt_released holds handed.snapshots done
  | @finishRolledBack terminal => exact finishes terminal rfl rfl

/-- What holds of a worker whose finishing writes are not rolled back. -/
structure Sound (platform : Platform) (group : Group) (worker : ExtractionWorker) : Prop where
  reached : Reachable platform group worker.system
  held : ∀ call ∈ worker.calls, call.1 ∈ worker.system.claims
  released : ∀ call ∈ worker.calls, ∀ outcome, call.2 = .settled outcome →
    Released worker.system.queue call.1

/-- No finishing write is rolled back while the job runs under the claim's lease. -/
def Finishes (worker : ExtractionWorker) (event : Event) : Prop :=
  ∀ job terminal, event = .call job (.finishing terminal) .rolledBack →
    Released worker.system.queue job

theorem claims_step {system after : System} {label : Label} {claim : ClaimedJob}
    (step : Step platform group system label after) (inside : claim ∈ system.claims) :
    claim ∈ after.claims := by
  cases step with
  | claim _ _ => exact List.mem_append_right _ inside
  | _ => exact inside

/-- A transaction of the queue keeps what is known of the calls. -/
theorem Sound.stepped {system : System} {label : Label} (sound : Sound platform group worker)
    (step : Step platform group worker.system label system) :
    Sound platform group { worker with system := system } :=
  { reached := sound.reached.snoc _ step trivial
    held := fun call inside => claims_step step (sound.held call inside)
    released := fun call inside outcome settles =>
      released_step sound.reached step (sound.held call inside) (sound.released call inside outcome settles) }

theorem start_unsettled (job : ClaimedJob) (outcome : Settlement) : start job ≠ .settled outcome := by
  unfold start
  split
  · intro same
    cases same
  · intro same
    cases same

theorem sound_step (sound : Sound platform group worker)
    (move : Moves platform group workerMaxAttempts worker event next) (finishes : Finishes worker event) :
    Sound platform group next := by
  cases move with
  | elsewhere step _ _ => exact sound.stepped step
  | takeLock _ step =>
      have stepped := sound.stepped step
      exact ⟨stepped.reached, stepped.held, stepped.released⟩
  | leaveLock _ _ => exact ⟨sound.reached, sound.held, sound.released⟩
  | @claim leaseId after claimed held fresh taken =>
      have stepped := sound.stepped (.claim fresh taken)
      refine ⟨stepped.reached, ?_, ?_⟩
      · intro call inside
        rcases List.mem_append.mp inside with isNew | old
        · rcases List.mem_map.mp isNew with ⟨job, isClaimed, same⟩
          rw [← same]
          exact List.mem_append_left _ isClaimed
        · exact stepped.held call old
      · intro call inside outcome settles
        rcases List.mem_append.mp inside with isNew | old
        · rcases List.mem_map.mp isNew with ⟨job, _, same⟩
          rw [← same] at settles
          exact absurd settles (start_unsettled job outcome)
        · exact stepped.released call old outcome settles
  | @call job phase last occurrence earlier later system waits proceeds =>
      have inside : job ∈ worker.system.claims :=
        sound.held (job, phase) (waits ▸ List.mem_append_right _ List.mem_cons_self)
      have kept : ∀ call ∈ earlier ++ later, call ∈ worker.calls := by
        intro call member
        rw [waits]
        rcases List.mem_append.mp member with front | back
        · exact List.mem_append_left _ front
        · exact List.mem_append_right _ (List.mem_cons_of_mem _ back)
      have others : Sound platform group { worker with system := system } := by
        rcases proceeds.step inside with same | ⟨label, step, _⟩
        · rw [same]
          exact sound
        · exact sound.stepped step
      have claimed : job ∈ system.claims :=
        others.held (job, phase) (waits ▸ List.mem_append_right _ List.mem_cons_self)
      refine ⟨others.reached, ?_, ?_⟩
      · intro call member
        rcases List.mem_append.mp member with front | back
        · exact others.held call (kept call (List.mem_append_left _ front))
        · rcases List.mem_cons.mp back with same | behind
          · rw [same]
            exact claimed
          · exact others.held call (kept call (List.mem_append_right _ behind))
      · intro call member outcome settles
        rcases List.mem_append.mp member with front | back
        · exact others.released call (kept call (List.mem_append_left _ front)) outcome settles
        · rcases List.mem_cons.mp back with same | behind
          · rw [same] at settles ⊢
            change last = _ at settles
            rw [settles] at proceeds
            apply proceeds.released sound.reached inside
            rintro terminal rfl rfl
            exact finishes job terminal rfl
          · exact others.released call (kept call (List.mem_append_right _ behind)) outcome settles

theorem sound_run {system : System} (reached : Reachable platform group system)
    (run : Reaches (Moves platform group workerMaxAttempts) Finishes
      (.idle system) worker) : Sound platform group worker := by
  apply @Reaches.invariant ExtractionWorker Event (Moves platform group workerMaxAttempts)
    Finishes (Sound platform group)
    (fun _ _ _ sound move finishes => sound_step sound move finishes) _ _ run
  refine ⟨reached, ?_, ?_⟩
  · intro call absent
    cases absent
  · intro call absent
    cases absent

end Runs

/-! ### Orphaned jobs -/

section Orphans

variable (platform : Platform) (group : Group) (workerMaxAttempts : Nat)

/-- The worker keeps its lock. -/
def Event.KeepsLock : Event → Prop
  | .takeLock => False
  | .leaveLock => False
  | _ => True

/-- Some way on, on which the worker keeps its lock, ends the claim's lease. -/
def StillMoves (worker : ExtractionWorker) (job : ClaimedJob) : Prop :=
  ∃ later, Reaches (Moves platform group workerMaxAttempts) (fun _ event => event.KeepsLock) worker later ∧
    Released later.system.queue job

/-- While the worker holds its lock, the job of a settled call has left the lease of the call, or
the worker can still end it. -/
def NothingOrphaned (worker : ExtractionWorker) : Prop :=
  worker.holdsLock = true → ∀ call ∈ worker.calls, ∀ outcome, call.2 = .settled outcome →
    Released worker.system.queue call.1 ∨ StillMoves platform group workerMaxAttempts worker call.1

end Orphans

/-- As long as no finishing write is rolled back under its lease, no job is orphaned, whatever else
fails. -/
theorem settled_calls_released {platform : Platform} {group : Group} {workerMaxAttempts : Nat}
    {system : System} {worker : ExtractionWorker} (reached : Reachable platform group system)
    (run : Reaches (Moves platform group workerMaxAttempts) Finishes
      (.idle system) worker) : NothingOrphaned platform group workerMaxAttempts worker :=
  fun _ call inside outcome settles =>
    .inl ((sound_run reached run).released call inside outcome settles)

/-! ### A finishing write that is rolled back -/

/-- A job that runs under a claim whose only call has settled. -/
structure Orphaned (platform : Platform) (group : Group) (worker : ExtractionWorker) (job : JobRow)
    (claim : ClaimedJob) (outcome : Settlement) : Prop where
  reached : Reachable platform group worker.system
  member : job ∈ worker.system.queue.jobs
  leased : claim.leases job = true
  locked : worker.holdsLock = true
  claims : worker.system.claims = [claim]
  calls : worker.calls = [(claim, .settled outcome)]

section Orphan

variable {platform : Platform} {group : Group} {workerMaxAttempts : Nat}
variable {worker next : ExtractionWorker} {event : Event} {job : JobRow} {claim : ClaimedJob}
variable {outcome : Settlement}

theorem Proceeds.unsettled {system after : System} {last : Phase} {occurrence : Occurrence} :
    ¬ Proceeds platform group workerMaxAttempts claim system (.settled outcome) occurrence after last := by
  intro proceeds
  cases proceeds

/-- Nothing but a recovery ends the lease, and a running job blocks every claim of its segment. -/
theorem orphaned_step (orphaned : Orphaned platform group worker job claim outcome)
    (move : Moves platform group workerMaxAttempts worker event next) (keeps : event.KeepsLock) :
    Orphaned platform group next job claim outcome := by
  have running : job.status = .running := (leases_iff.mp orphaned.leased).2.1
  have holds := orphaned.reached.invariant
  have parses := orphaned.reached.stagedParses
  have blocked : ∀ selected, eligibleJob worker.system.queue ≠ some selected := by
    rintro ⟨selected, target⟩ eligible
    have idle := (eligibleJob_some eligible).2.2.2.2
    rw [Queue.anyRunning, List.any_eq_false] at idle
    exact idle job orphaned.member (beq_iff_eq.mpr running)
  cases move with
  | @elsewhere label system step foreign free =>
      have locked : needsLock label = false := by
        by_contra needs
        rw [Bool.not_eq_false] at needs
        have isFree := free needs
        rw [orphaned.locked] at isFree
        cases isFree
      rcases step_cases holds parses step with ⟨kept, same⟩ | ⟨_, selected, target, _, _, eligible, _⟩
      · -- A report needs a claim that another worker holds, and there is none.
        have spared : touchedBy label job = false := by
          have absent : ∀ reporting, reporter label = some reporting →
              reporting ∉ worker.system.claims := by
            intro reporting isReporter inside
            have elsewhere := foreign reporting isReporter
            rw [orphaned.calls] at elsewhere
            rw [orphaned.claims] at inside
            exact elsewhere inside
          cases step with
          | publish held _ => exact absurd held (absent _ rfl)
          | commit held _ => exact absurd held (absent _ rfl)
          | finish held _ => exact absurd held (absent _ rfl)
          | recover _ => cases locked
          | _ => rfl
        exact
          { reached := orphaned.reached.snoc _ step trivial
            member := kept.stays job orphaned.member running spared
            leased := orphaned.leased
            locked := orphaned.locked
            claims := same.trans orphaned.claims
            calls := orphaned.calls }
      · exact absurd eligible (blocked _)
  | takeLock _ _ => exact absurd keeps id
  | leaveLock _ _ => exact absurd keeps id
  | @claim leaseId after claimed held fresh taken =>
      have reached := orphaned.reached.snoc _ (.claim fresh taken) trivial
      rcases claimOldestJob_cases holds parses taken with ⟨same, none⟩ | ⟨_, _, _, _, eligible, _⟩
      · subst same none
        exact
          { reached := reached
            member := orphaned.member
            leased := orphaned.leased
            locked := orphaned.locked
            claims := orphaned.claims
            calls := orphaned.calls }
      · exact absurd eligible (blocked _)
  | @call caller phase last occurrence earlier later system waits proceeds =>
      rw [orphaned.calls] at waits
      have inside : (caller, phase) ∈ [(claim, Phase.settled outcome)] := by
        rw [waits]
        exact List.mem_append_right _ List.mem_cons_self
      cases List.mem_singleton.mp inside
      exact absurd proceeds Proceeds.unsettled

theorem Orphaned.stays (orphaned : Orphaned platform group worker job claim outcome) :
    ¬ StillMoves platform group workerMaxAttempts worker claim := by
  rintro ⟨later, run, released⟩
  have last := @Reaches.invariant ExtractionWorker Event (Moves platform group workerMaxAttempts)
    (fun _ event => event.KeepsLock)
    (fun worker => Orphaned platform group worker job claim outcome)
    (fun _ _ _ orphaned move keeps => orphaned_step orphaned move keeps) _ _ run orphaned
  have ended := released job last.member
  rw [last.leased] at ended
  cases ended

end Orphan

/-! ### A run -/

/-- One request was posted. -/
def postedSystem : System := { System.initial with queue := samplePosted }

def claimedSystem : System :=
  { queue := sampleRunning
    claims := [sampleClaim]
    published := none }

def sampleWorker (system : System) (calls : List (ClaimedJob × Phase)) : ExtractionWorker :=
  { system := system
    holdsLock := true
    calls := calls }

theorem postedSystem_reachable : Reachable samplePlatform sampleGroup postedSystem := by
  have posted : enqueue samplePlatform sampleGroup Queue.empty sampleRequest 1 =
      .ok (samplePosted, 1) := by
    decide +kernel
  have step : Step samplePlatform sampleGroup System.initial (.enqueue 1 sampleRequest) postedSystem := by
    apply Step.enqueue
    · intro job absent
      cases absent
    · exact posted
  have start : Reachable samplePlatform sampleGroup System.initial := Reaches.refl _
  exact start.snoc _ step trivial

theorem sampleClaim_taken : claimOldestJob samplePlatform sampleGroup samplePosted 7 =
    .ok (sampleRunning, some sampleClaim) := by
  decide +kernel

/-- The worker takes its lock and a claim, and the extraction throws. -/
theorem sampleWorker_failing : Reaches (Moves samplePlatform sampleGroup 3) Finishes
    (.idle postedSystem) (sampleWorker claimedSystem [(sampleClaim, .finishing false)]) := by
  have locked : Moves samplePlatform sampleGroup 3 (.idle postedSystem) .takeLock
      (sampleWorker postedSystem []) := by
    apply Moves.takeLock rfl
    exact Step.recover rfl
  have claimed : Moves samplePlatform sampleGroup 3 (sampleWorker postedSystem []) (.claim 7)
      (sampleWorker claimedSystem [(sampleClaim, .extracting)]) := by
    apply @Moves.claim _ _ _ (sampleWorker postedSystem []) 7 sampleRunning (some sampleClaim) rfl
    · intro claim absent
      cases absent
    · exact sampleClaim_taken
  have failed : Moves samplePlatform sampleGroup 3 (sampleWorker claimedSystem [(sampleClaim, .extracting)])
      (.call sampleClaim .extracting (.threw false))
      (sampleWorker claimedSystem [(sampleClaim, .finishing false)]) :=
    @Moves.call _ _ _ (sampleWorker claimedSystem [(sampleClaim, .extracting)]) _ _ _ _ [] [] _ rfl
      (.extractionFailed false)
  have start : Reaches (Moves samplePlatform sampleGroup 3) Finishes
      (.idle postedSystem) (.idle postedSystem) := Reaches.refl _
  refine ((start.snoc _ locked ?_).snoc _ claimed ?_).snoc _ failed ?_
  · intro job terminal same
    cases same
  · intro job terminal same
    cases same
  · intro job terminal same
    cases same

def orphanedWorker : ExtractionWorker :=
  sampleWorker claimedSystem [(sampleClaim, .settled .rejected)]

def orphanedJob : JobRow :=
  { sampleJob with
    status := .running
    attempts := 1
    leaseId := some 7 }

theorem claimedSystem_reachable : Reachable samplePlatform sampleGroup claimedSystem :=
  (sound_run postedSystem_reachable sampleWorker_failing).reached

/-- The database rolls the finishing write back: the job runs on under a lease nobody holds, and
nothing the worker does with its lock ends it. -/
theorem rolledBack_finish_orphans :
    Reachable samplePlatform sampleGroup postedSystem ∧
      Reaches (Moves samplePlatform sampleGroup 3) (fun _ _ => True) (.idle postedSystem)
        orphanedWorker ∧
      ¬ NothingOrphaned samplePlatform sampleGroup 3 orphanedWorker := by
  have rolledBack : Moves samplePlatform sampleGroup 3
      (sampleWorker claimedSystem [(sampleClaim, .finishing false)])
      (.call sampleClaim (.finishing false) .rolledBack) orphanedWorker :=
    @Moves.call _ _ _ (sampleWorker claimedSystem [(sampleClaim, .finishing false)]) _ _ _ _ [] [] _ rfl
      .finishRolledBack
  have failing : Reaches (Moves samplePlatform sampleGroup 3) (fun _ _ => True) (.idle postedSystem)
      (sampleWorker claimedSystem [(sampleClaim, .finishing false)]) :=
    sampleWorker_failing.mono fun _ _ _ => trivial
  have orphaned : Orphaned samplePlatform sampleGroup orphanedWorker orphanedJob sampleClaim .rejected :=
    { reached := claimedSystem_reachable
      member := List.mem_cons_self
      leased := rfl
      locked := rfl
      claims := rfl
      calls := rfl }
  refine ⟨postedSystem_reachable, failing.snoc _ rolledBack trivial, ?_⟩
  intro nothing
  rcases nothing rfl _ List.mem_cons_self .rejected rfl with released | moves
  · have ended := released orphanedJob orphaned.member
    rw [orphaned.leased] at ended
    cases ended
  · exact orphaned.stays moves

def retriedQueue : Queue :=
  { jobs := [{ sampleJob with attempts := 1 }]
    target := some sampleTarget
    segment := none }

def finishedSystem : System := { claimedSystem with queue := retriedQueue }

/-- The same run with a finishing write that gets through. -/
theorem settled_calls_released_sample :
    NothingOrphaned samplePlatform sampleGroup 3
      (sampleWorker finishedSystem [(sampleClaim, .settled (.returned .progressed))]) := by
  have finished : finishFailedAttempt samplePlatform sampleGroup sampleRunning sampleClaim false =
      .ok (retriedQueue, true) := by
    decide +kernel
  have proceeds : Proceeds samplePlatform sampleGroup 3 sampleClaim claimedSystem (.finishing false)
      .answered finishedSystem (.settled (.returned .progressed)) :=
    @Proceeds.finished _ _ _ sampleClaim claimedSystem retriedQueue false true finished
  have move : Moves samplePlatform sampleGroup 3
      (sampleWorker claimedSystem [(sampleClaim, .finishing false)])
      (.call sampleClaim (.finishing false) .answered)
      (sampleWorker finishedSystem [(sampleClaim, .settled (.returned .progressed))]) :=
    @Moves.call _ _ _ (sampleWorker claimedSystem [(sampleClaim, .finishing false)]) _ _ _ _ [] [] _ rfl
      proceeds
  exact settled_calls_released postedSystem_reachable
    (sampleWorker_failing.snoc _ move fun job terminal same => by cases same)

end Reflection.Worker
