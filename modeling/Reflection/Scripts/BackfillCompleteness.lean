/-
What a backfill that finishes has done.

Every session of the queue either has its final outcome or is still queued, in exactly one place,
and a session that was completed while it existed has every segment of its last plan confirmed,
unless a failure was recorded. Plans of other sessions do not touch the last plan of a completed
one, because a completed session is queued no more.
-/

import Reflection.Scripts.BackfillConfirmation

namespace Reflection.Backfill

open JsString

/-! ### What a log says of a session -/

def planOf (sessionId : JsString) : Event → Option (SegmentManifest × List PlannedSegment)
  | .planned other manifest segments => if other = sessionId then some (manifest, segments) else none
  | _ => none

/-- The last plan that was made for a session, with the manifest it was made from. -/
def lastPlan (sessionId : JsString) (log : List Event) : Option (SegmentManifest × List PlannedSegment) :=
  (log.filterMap (planOf sessionId)).getLast?

def ProcessSessionOutcome.isFinal (outcome : ProcessSessionOutcome) : Bool :=
  outcome == .completed || outcome == .failed

def finalOutcome : Event → Option JsString
  | .outcome sessionId outcome _ => if outcome.isFinal then some sessionId else none
  | _ => none

/-- The sessions that got a final outcome, one entry an outcome. -/
def finalOutcomes (log : List Event) : List JsString := log.filterMap finalOutcome

/-- Every segment of the last plan of a session is confirmed. -/
def PlanDone (sessionId : JsString) (log : List Event) : Prop :=
  ∃ manifest segments, lastPlan sessionId log = some (manifest, segments) ∧
    ∀ segment ∈ segments, Confirmed log manifest segment

theorem Event.Quiet.planOf {event : Event} (quiet : event.Quiet) (sessionId : JsString) :
    planOf sessionId event = none := by
  cases event <;> first | rfl | cases quiet

theorem Event.Quiet.finalOutcome {event : Event} (quiet : event.Quiet) : finalOutcome event = none := by
  cases event <;> first | rfl | cases quiet

theorem lastPlan_append {sessionId : JsString} {log more : List Event}
    (unplanned : ∀ event ∈ more, planOf sessionId event = none) :
    lastPlan sessionId (log ++ more) = lastPlan sessionId log := by
  unfold lastPlan
  rw [List.filterMap_append, List.filterMap_eq_nil_iff.mpr unplanned, List.append_nil]

theorem lastPlan_planned (sessionId : JsString) (log : List Event) (manifest : SegmentManifest)
    (segments : List PlannedSegment) :
    lastPlan sessionId (log ++ [.planned sessionId manifest segments]) = some (manifest, segments) := by
  have own : planOf sessionId (.planned sessionId manifest segments) = some (manifest, segments) :=
    if_pos rfl
  unfold lastPlan
  rw [List.filterMap_append, List.filterMap_cons, own, List.filterMap_nil, List.getLast?_concat]

theorem PlanDone.append {sessionId : JsString} {log more : List Event} (done : PlanDone sessionId log)
    (unplanned : ∀ event ∈ more, planOf sessionId event = none) : PlanDone sessionId (log ++ more) := by
  obtain ⟨manifest, segments, last, confirmed⟩ := done
  refine ⟨manifest, segments, ?_, fun segment inside => (confirmed segment inside).append⟩
  rw [lastPlan_append unplanned, last]

theorem mem_finalOutcomes {sessionId : JsString} {outcome : ProcessSessionOutcome} {exist : Bool}
    {log : List Event} (inside : .outcome sessionId outcome exist ∈ log) (isFinal : outcome.isFinal = true) :
    sessionId ∈ finalOutcomes log :=
  List.mem_filterMap.mpr ⟨_, inside, if_pos isFinal⟩

/-! ### Visiting a session -/

/-- What a step inside a session may add to the log. -/
def Event.Of (sessionId : JsString) (event : Event) : Prop :=
  event.Quiet ∨ ∃ manifest segments, event = .planned sessionId manifest segments

/-- The relation of the worlds before and behind a visit of a session. -/
structure Visit (sessionId : JsString) (before after : World) : Prop where
  log : ∃ more, after.log = before.log ++ more ∧ ∀ event ∈ more, event.Of sessionId
  failed : before.state.segmentsFailed ≤ after.state.segmentsFailed
  counted : AttemptedCounted before → AttemptedCounted after

theorem Steady.visit {sessionId : JsString} {before after : World} (steady : Steady before after) :
    Visit sessionId before after := by
  obtain ⟨more, isMore, quiet⟩ := steady.log
  exact
    { log := ⟨more, isMore, fun event inside => .inl (quiet event inside)⟩
      failed := steady.failed
      counted := steady.counted }

theorem Visit.trans {sessionId : JsString} {before middle after : World}
    (first : Visit sessionId before middle) (second : Visit sessionId middle after) :
    Visit sessionId before after := by
  obtain ⟨early, isEarly, ofEarly⟩ := first.log
  obtain ⟨late, isLate, ofLate⟩ := second.log
  refine
    { log := ⟨early ++ late, by rw [isLate, isEarly, List.append_assoc], fun event inside => ?_⟩
      failed := first.failed.trans second.failed
      counted := fun holds => second.counted (first.counted holds) }
  rcases List.mem_append.mp inside with one | other
  · exact ofEarly event one
  · exact ofLate event other

section Sessions

variable {library : Segmentation} (context : ProcessingContext library)

/-- Parsing the registry entry again changes no segment id. -/
theorem sourceSegmentIdForRequest_parsed {source parsed : SourceInfo}
    (isParsed : parseSourceInfo source = .ok parsed) (request : SegmentCreate) :
    sourceSegmentIdForRequest parsed.id request parsed =
      sourceSegmentIdForRequest source.id request source := by
  obtain ⟨id, isId, same⟩ := except_bind_ok isParsed
  cases same
  have again : parseSourceInfo { source with id := id } = .ok { source with id := id } := by
    unfold parseSourceInfo
    rw [parseSourceId_parsed "source" isId]
    rfl
  obtain ⟨trimmed, valid⟩ := parse_ok_iff.mp isId
  have owner : parseSourceId source.id "segment request source" = .ok id :=
    parse_ok_iff.mpr ⟨trimmed, valid⟩
  unfold sourceSegmentIdForRequest
  rw [again, isParsed, parseSourceId_parsed "segment request source" isId, owner]

/-- A plan that was made is in the log, and its segments are as their submissions say. -/
theorem segmentPlan_planned (sessionId : JsString) (messages : List library.Message) (world : World) :
    wp (segmentPlan context sessionId messages)
      (fun segments after => ∃ manifest,
        after.log = world.log ++ [.planned sessionId manifest segments] ∧
        after.state = world.state ∧ after.attemptedSnapshots = world.attemptedSnapshots ∧
        ∀ segment ∈ segments, WellPlanned context segment ∧
          (isDone segment = true → PlanConfirms manifest segment))
      (fun _ after => Steady world after) world := by
  unfold segmentPlan
  rw [wp_bind]
  cases parsed : parseSourceInfo context.source with
  | error error => exact Steady.of_same rfl (Nat.le_refl _) rfl id
  | ok source =>
      rw [contractLifted, wp_pure, wp_bind, attempt, wp_bind, ask, wp_bind, wp_get, wp_bind, wp_set, wp_pure]
      cases context.surroundings.requestSegments world.moment sessionId with
      | error error => exact Steady.of_same rfl (Nat.le_refl _) rfl id
      | ok answer =>
          rw [lift, wp_pure]
          split
          · exact Steady.of_same rfl (Nat.le_refl _) rfl id
          · rename_i manifest valid
            split
            · exact Steady.of_same rfl (Nat.le_refl _) rfl id
            · rename_i segments made
              rw [wp_bind, note, wp_modify, wp_pure]
              refine ⟨manifest, rfl, rfl, rfl, fun segment inside => ⟨?_, fun done => ?_⟩⟩
              · unfold planSessionSegments at made
                split at made
                · cases made
                · obtain ⟨planned, mapped, checked⟩ := except_bind_ok made
                  dsimp only at checked
                  split at checked
                  · cases checked
                    obtain ⟨cut, _, isPlan⟩ := exists_left_of_forall₂ (mapM_ok_iff.mp mapped) inside
                    obtain ⟨submission, _, named⟩ := except_bind_ok isPlan
                    obtain ⟨segmentId, isName, compared⟩ := except_bind_ok named
                    obtain ⟨found, _, same⟩ := except_bind_ok compared
                    cases same
                    refine ⟨?_, rfl⟩
                    rw [← sourceSegmentIdForRequest_parsed parsed]
                    cases result : sourceSegmentIdForRequest source.id submission source with
                    | error error =>
                        rw [result] at isName
                        cases isName
                    | ok name =>
                        rw [result] at isName
                        cases isName
                        rfl
                  · cases checked
              · refine planSessionSegments_confirms made segment inside ?_
                rcases Bool.or_eq_true_iff.mp done with committed | succeeded
                · exact .inl (eq_of_beq committed)
                · exact .inr (eq_of_beq succeeded)

/-- A visit so far: nobody was counted as visited. -/
structure Visiting (sessionId : JsString) (before after : World) : Prop where
  visit : Visit sessionId before after
  visited : after.state.sessionsVisited = before.state.sessionsVisited

theorem Visiting.steady {sessionId : JsString} {before middle after : World}
    (first : Visiting sessionId before middle) (second : Steady middle after) :
    Visiting sessionId before after :=
  { visit := first.visit.trans second.visit
    visited := second.visited.trans first.visited }

/-- What holds when a session was processed with an outcome. -/
structure Processed (sessionId : JsString) (before : World) (outcome : ProcessSessionOutcome)
    (after : World) : Prop where
  visit : Visit sessionId before after
  visited : after.state.sessionsVisited =
    before.state.sessionsVisited + if outcome.isFinal then 1 else 0
  done : outcome = .completed → after.state.segmentsFailed = 0 → PlanDone sessionId after.log

/-- An outcome that is not final leaves the session to be visited again. -/
theorem Visiting.processed {sessionId : JsString} {before after : World}
    {outcome : ProcessSessionOutcome} (visiting : Visiting sessionId before after)
    (notFinal : outcome.isFinal = false) : Processed sessionId before outcome after := by
  refine
    { visit := visiting.visit
      visited := by rw [visiting.visited, notFinal]; rfl
      done := fun completed => ?_ }
  rw [completed] at notFinal
  cases notFinal

theorem processPlan_processed (fuel : Nat) (session : SessionRow) (messages : List library.Message)
    (observedUpdatedAt : Int) {world : World} (counted : AttemptedCounted world) :
    wp (processPlan context fuel session messages observedUpdatedAt)
      (fun outcome after => Processed session.id world outcome after)
      (fun _ after => Visiting session.id world after) world := by
  have start : Visiting session.id world world :=
    { visit := (Std.Refl.refl world : Steady world world).visit
      visited := rfl }
  have revalidates := revalidateSession_steady context session.id observedUpdatedAt
  unfold processPlan
  rw [wp_bind]
  refine wp_mono (revalidates world) (fun _ first toFirst => ?_) fun _ _ reached => start.steady reached
  have atFirst := start.steady toFirst
  rw [wp_bind]
  refine wp_mono (segmentPlan_planned context session.id messages first)
    (fun segments second planned => ?_) fun _ _ reached => atFirst.steady reached
  obtain ⟨manifest, isLog, isState, isAttempted, each⟩ := planned
  have atSecond : Visiting session.id world second :=
    { visit := atFirst.visit.trans
        { log := ⟨_, isLog, fun event inside => .inr ⟨manifest, segments, List.mem_singleton.mp inside⟩⟩
          failed := by rw [isState]
          counted := fun holds => by
            unfold AttemptedCounted at holds ⊢
            rw [isState, isAttempted]
            exact holds }
      visited := by rw [isState, atFirst.visited] }
  rw [wp_bind]
  refine wp_mono (revalidates second) (fun _ third toThird => ?_) fun _ _ reached => atSecond.steady reached
  rw [wp_bind, updateState, wp_modify]
  have toFourth : Steady third
      { third with
        state :=
          { third.state with
            status := .running
            currentSessionId := some session.id
            currentSessionTitle := session.title } } :=
    Steady.of_same rfl (Nat.le_refl _) rfl id
  have atFourth := (atSecond.steady toThird).steady toFourth
  rw [wp_bind]
  have confirms := wp_steady (processSegments_steady context fuel session observedUpdatedAt 0 segments)
    (processSegments_confirms fuel session observedUpdatedAt 0 (fun segment inside => (each segment inside).1)
      (atFourth.visit.counted counted))
  refine wp_mono confirms (fun result fifth both => ?_) fun _ _ both => atFourth.steady both.2
  obtain ⟨confirmed, toFifth⟩ := both
  have atFifth := atFourth.steady toFifth
  cases result with
  | some deferredSegment =>
      dsimp only
      rw [wp_bind]
      refine wp_mono (ask_steady context.surroundings.nowMs fifth) (fun now sixth toSixth => ?_)
        fun _ _ reached => atFifth.steady reached
      have atSixth := atFifth.steady toSixth
      split
      · -- The deferral has lasted too long: the segment counts as failed and the session as visited.
        refine
          { visit := atSixth.visit.trans
              { log := ⟨[], (List.append_nil _).symm, fun _ inside => absurd inside List.not_mem_nil⟩
                failed := Nat.le_succ _
                counted := fun _ _ => Nat.succ_pos _ }
            visited := ?_
            done := ?_ }
        · change sixth.state.sessionsVisited + 1 = world.state.sessionsVisited + 1
          rw [atSixth.visited]
        · intro completed
          cases completed
      · have cleared : Steady sixth { sixth with state := { sixth.state with currentSegment := none } } :=
          Steady.of_same rfl (Nat.le_refl _) rfl id
        exact (atSixth.steady cleared).processed rfl
  | none =>
      refine
        { visit := atFifth.visit.trans
            { log := ⟨[], (List.append_nil _).symm, fun _ inside => absurd inside List.not_mem_nil⟩
              failed := Nat.le_refl _
              counted := id }
          visited := ?_
          done := fun _ none => ?_ }
      · change fifth.state.sessionsVisited + 1 = world.state.sessionsVisited + 1
        rw [atFifth.visited]
      · obtain ⟨more, isMore, quiet⟩ := (IsTrans.trans _ _ _ (IsTrans.trans _ _ _ toThird toFourth) toFifth : Steady second fifth).log
        have last : lastPlan session.id fifth.log = some (manifest, segments) := by
          rw [isMore, lastPlan_append fun event inside => (quiet event inside).planOf session.id, isLog,
            lastPlan_planned]
        refine ⟨manifest, segments, last, fun segment inside => ?_⟩
        rcases confirmed rfl none segment inside with done | byJob
        · exact .inl ((each segment inside).2 done)
        · exact .inr byJob

theorem processSession_processed (fuel : Nat) (session : SessionRow) (messages : List library.Message)
    (observedUpdatedAt : Int) {world : World} (counted : AttemptedCounted world) :
    wp (processSession context fuel session messages (some observedUpdatedAt))
      (fun outcome after => Processed session.id world outcome after) (fun _ _ => True) world := by
  have start : Steady world { world with activeSegment := none } :=
    Steady.of_same rfl (Nat.le_refl _) rfl id
  unfold processSession
  rw [wp_bind, wp_modify, wp_tryCatch]
  refine wp_mono (processPlan_processed context fuel session messages observedUpdatedAt
    (start.counted counted)) (fun outcome after processed => ?_) fun error after visiting => ?_
  · exact
      { visit := start.visit.trans processed.visit
        visited := processed.visited
        done := processed.done }
  · have whole : Visiting session.id world after :=
      { visit := start.visit.trans visiting.visit
        visited := visiting.visited }
    unfold handleSessionError
    cases error with
    | revisionChanged changed => exact whole.processed rfl
    | replanRequired => exact whole.processed rfl
    | superseded jobId => exact whole.processed rfl
    | http status =>
        dsimp only
        rw [wp_bind, wp_get]
        split
        · exact whole.processed rfl
        · exact trivial
    | planning planned cause =>
        refine
          { visit := whole.visit.trans
              { log := ⟨[], (List.append_nil _).symm, fun event inside => (nomatch inside)⟩
                failed := Nat.le_succ _
                counted := fun _ _ => Nat.succ_pos _ }
            visited := ?_
            done := fun completed => (nomatch completed) }
        change after.state.sessionsVisited + 1 = world.state.sessionsVisited + 1
        rw [whole.visited]
    | contract error => exact trivial
    | identity error => exact trivial
    | manifest error => exact trivial
    | other => exact trivial
    | unfinished => exact trivial

/-! ### The queue -/

/-- Every session has its final outcome or is still queued, and the sessions that were completed
while they existed have their last plans done, unless a failure was recorded. -/
structure Progress (queue : List SessionRow) (world : World) : Prop where
  outcomes : (finalOutcomes world.log ++ queue.map (·.id)).Perm (context.sessions.map (·.id))
  visited : world.state.sessionsVisited = (finalOutcomes world.log).length
  counted : AttemptedCounted world
  done : world.state.segmentsFailed = 0 → ∀ sessionId,
    .outcome sessionId .completed true ∈ world.log → PlanDone sessionId world.log
  clean : .cleanup ∉ world.log

section Progress

variable {context} {queue : List SessionRow} {before after : World}

theorem Progress.reorder {other : List SessionRow} (progress : Progress context queue before)
    (same : queue.Perm other) : Progress context other before :=
  { progress with outcomes := ((same.symm.map _).append_left _).trans progress.outcomes }

theorem Event.Of.finalOutcome {sessionId : JsString} {event : Event} (of : event.Of sessionId) :
    finalOutcome event = none := by
  rcases of with quiet | ⟨manifest, segments, rfl⟩
  · exact quiet.finalOutcome
  · rfl

theorem Visit.finalOutcomes {sessionId : JsString} (visit : Visit sessionId before after) :
    finalOutcomes after.log = finalOutcomes before.log := by
  obtain ⟨more, isMore, each⟩ := visit.log
  rw [isMore, Backfill.finalOutcomes, List.filterMap_append,
    List.filterMap_eq_nil_iff.mpr fun event inside => (each event inside).finalOutcome, List.append_nil]
  rfl

/-- A visit adds neither an outcome nor the cleanup. -/
theorem Visit.old {sessionId : JsString} (visit : Visit sessionId before after) {event : Event}
    (foreign : ¬ event.Of sessionId) (inside : event ∈ after.log) : event ∈ before.log := by
  obtain ⟨more, isMore, each⟩ := visit.log
  rw [isMore] at inside
  rcases List.mem_append.mp inside with old | new
  · exact old
  · exact absurd (each event new) foreign

theorem not_of_outcome {sessionId other : JsString} {outcome : ProcessSessionOutcome} {exist : Bool} :
    ¬ (Event.outcome other outcome exist).Of sessionId := by
  rintro (quiet | ⟨_, _, same⟩)
  · exact quiet
  · cases same

theorem not_of_cleanup {sessionId : JsString} : ¬ Event.cleanup.Of sessionId := by
  rintro (quiet | ⟨_, _, same⟩)
  · exact quiet
  · cases same

/-- The last plan of another session stays done over a visit. -/
theorem Visit.planDone {sessionId other : JsString} (visit : Visit sessionId before after)
    (differs : sessionId ≠ other) (done : PlanDone other before.log) : PlanDone other after.log := by
  obtain ⟨more, isMore, each⟩ := visit.log
  rw [isMore]
  refine done.append fun event inside => ?_
  rcases each event inside with quiet | ⟨manifest, segments, rfl⟩
  · exact quiet.planOf other
  · exact if_neg differs

/-- A visit of a queued session that counts nobody as visited keeps the progress. -/
theorem Progress.visit {sessionId : JsString} (progress : Progress context queue before)
    (distinct : (context.sessions.map (·.id)).Nodup) (visit : Visit sessionId before after)
    (visited : after.state.sessionsVisited = before.state.sessionsVisited)
    (queued : sessionId ∈ queue.map (·.id)) : Progress context queue after := by
  refine
    { outcomes := by rw [visit.finalOutcomes]; exact progress.outcomes
      visited := by rw [visited, progress.visited, visit.finalOutcomes]
      counted := visit.counted progress.counted
      done := fun none other completed => ?_
      clean := fun inside => progress.clean (visit.old not_of_cleanup inside) }
  have old := visit.old not_of_outcome completed
  have earlier : before.state.segmentsFailed = 0 := by
    have more := visit.failed
    omega
  refine visit.planDone ?_ (progress.done earlier other old)
  rintro rfl
  -- A session with a final outcome is not queued.
  have both := progress.outcomes.nodup_iff.mpr distinct
  exact (List.nodup_append.mp both).2.2 _ (mem_finalOutcomes old rfl) _ queued rfl

/-- Steps inside no session keep the progress as they are. -/
theorem Progress.steady (progress : Progress context queue before) (steady : Steady before after) :
    Progress context queue after := by
  obtain ⟨more, isMore, quiet⟩ := steady.log
  have visit : Visit ([] : JsString) before after := steady.visit
  refine
    { outcomes := by rw [visit.finalOutcomes]; exact progress.outcomes
      visited := by rw [steady.visited, progress.visited, visit.finalOutcomes]
      counted := steady.counted progress.counted
      done := fun none other completed => ?_
      clean := fun inside => progress.clean (visit.old not_of_cleanup inside) }
  have earlier : before.state.segmentsFailed = 0 := by
    have fewer := steady.failed
    omega
  rw [isMore]
  exact (progress.done earlier other (visit.old not_of_outcome completed)).append
    fun event inside => (quiet event inside).planOf other

/-- The world with the outcome of a session noted. -/
def withOutcome (sessionId : JsString) (outcome : ProcessSessionOutcome) (exist : Bool) (world : World) :
    World :=
  { world with log := world.log ++ [.outcome sessionId outcome exist] }

theorem finalOutcomes_withOutcome (sessionId : JsString) (outcome : ProcessSessionOutcome) (exist : Bool)
    (world : World) : finalOutcomes (withOutcome sessionId outcome exist world).log =
      finalOutcomes world.log ++ if outcome.isFinal then [sessionId] else [] := by
  have own : finalOutcome (.outcome sessionId outcome exist) =
      if outcome.isFinal then some sessionId else none := rfl
  unfold withOutcome finalOutcomes
  rw [List.filterMap_append, List.filterMap_cons, own, List.filterMap_nil]
  cases outcome.isFinal <;> rfl

/-- A processed session leaves the queue with a final outcome and stays in it without one. -/
theorem Progress.processed {session : SessionRow} {rest : List SessionRow}
    {outcome : ProcessSessionOutcome} {exist : Bool} (progress : Progress context (session :: rest) before)
    (distinct : (context.sessions.map (·.id)).Nodup) (visit : Visit session.id before after)
    (visited : after.state.sessionsVisited =
      before.state.sessionsVisited + if outcome.isFinal then 1 else 0)
    (finished : exist = true → outcome = .completed → after.state.segmentsFailed = 0 →
      PlanDone session.id after.log) :
    Progress context (if outcome.isFinal then rest else session :: rest)
      (withOutcome session.id outcome exist after) := by
  have queued : session.id ∈ (session :: rest).map (·.id) := List.mem_map_of_mem List.mem_cons_self
  have fresh : session.id ∉ finalOutcomes before.log := by
    intro old
    have both := progress.outcomes.nodup_iff.mpr distinct
    exact (List.nodup_append.mp both).2.2 _ old _ queued rfl
  refine
    { outcomes := ?_
      visited := ?_
      counted := visit.counted progress.counted
      done := fun none other completed => ?_
      clean := fun inside => ?_ }
  · rw [finalOutcomes_withOutcome, visit.finalOutcomes]
    cases outcome.isFinal with
    | true =>
        rw [if_pos rfl, if_pos rfl, List.append_assoc]
        exact progress.outcomes
    | false =>
        rw [if_neg Bool.false_ne_true, if_neg Bool.false_ne_true, List.append_nil]
        exact progress.outcomes
  · rw [finalOutcomes_withOutcome, visit.finalOutcomes, List.length_append, ← progress.visited]
    change after.state.sessionsVisited = _
    rw [visited]
    cases outcome.isFinal <;> rfl
  · have plain : planOf other (.outcome session.id outcome exist) = Option.none := rfl
    have unplanned : ∀ event ∈ [Event.outcome session.id outcome exist], planOf other event = Option.none := by
      intro event inside
      rw [List.mem_singleton.mp inside, plain]
    rcases List.mem_append.mp completed with earlierEvent | own
    · have old := visit.old not_of_outcome earlierEvent
      have earlier : before.state.segmentsFailed = 0 := by
        have more := visit.failed
        change after.state.segmentsFailed = 0 at none
        omega
      have differs : session.id ≠ other := by
        rintro rfl
        exact fresh (mem_finalOutcomes old rfl)
      exact (visit.planDone differs (progress.done earlier other old)).append unplanned
    · cases List.mem_singleton.mp own
      exact (finished rfl rfl none).append unplanned
  · rcases List.mem_append.mp inside with old | own
    · exact progress.clean (visit.old not_of_cleanup old)
    · cases List.mem_singleton.mp own

end Progress

theorem isFinal_iff (outcome : ProcessSessionOutcome) :
    outcome.isFinal = true ↔ outcome = .completed ∨ outcome = .failed := by
  cases outcome <;> decide

theorem retryTime_steady (session : SessionRow) (outcome : ProcessSessionOutcome) :
    Keeps Steady (retryTime context session outcome) := by
  have later : ∀ delay : Int, Keeps Steady (do
      let now ← ask context.surroundings.nowMs
      pure (now + delay)) := fun delay => Keeps.bind (ask_steady _) fun _ => Keeps.pure _
  refine Keeps.bind (ask_steady _) fun currentUpdatedAt => ?_
  cases outcome <;> cases currentUpdatedAt <;> first | exact later _ | exact Keeps.pure _

/-- However a session is processed, one visit covers it. -/
theorem processSession_visit (fuel : Nat) (session : SessionRow) (messages : List library.Message)
    (observedUpdatedAt : Option Int) {world : World} (counted : AttemptedCounted world) :
    wp (processSession context fuel session messages observedUpdatedAt)
      (fun outcome after => Visit session.id world after ∧
        after.state.sessionsVisited = world.state.sessionsVisited + (if outcome.isFinal then 1 else 0) ∧
        (observedUpdatedAt.isSome = true → outcome = .completed → after.state.segmentsFailed = 0 →
          PlanDone session.id after.log))
      (fun _ _ => True) world := by
  cases observedUpdatedAt with
  | none =>
      refine ⟨?_, rfl, nofun⟩
      exact
        { log := ⟨[], (List.append_nil _).symm, fun event inside => (nomatch inside)⟩
          failed := Nat.le_refl _
          counted := id }
  | some observedUpdatedAt =>
      exact wp_mono (processSession_processed context fuel session messages observedUpdatedAt counted)
        (fun outcome after processed => ⟨processed.visit, processed.visited, fun _ => processed.done⟩)
        fun _ _ _ => trivial

section Runs

variable (distinct : (context.sessions.map (·.id)).Nodup)

include distinct

/-- One pass: what it returns is what is still queued. -/
theorem processQueue_progress (fuel : Nat) (sessions kept : List SessionRow) {world : World}
    (progress : Progress context (sessions ++ kept) world) :
    wp (processQueue context fuel sessions)
      (fun deferred after => Progress context (deferred.map Prod.fst ++ kept) after)
      (fun _ _ => True) world := by
  induction sessions generalizing kept world with
  | nil => exact progress
  | cons session rest ih =>
      have keeping : ∀ (retryAt : Int) (start : World), Progress context (session :: (rest ++ kept)) start →
          wp (do
              let deferred ← processQueue context fuel rest
              pure ((session, retryAt) :: deferred))
            (fun deferred after => Progress context (deferred.map Prod.fst ++ kept) after)
            (fun _ _ => True) start := by
        intro retryAt start queued
        rw [wp_bind]
        refine wp_mono (ih (session :: kept) (queued.reorder List.perm_middle.symm))
          (fun deferred after later => ?_) fun _ _ _ => trivial
        exact later.reorder List.perm_middle
      unfold processQueue
      rw [wp_bind]
      refine wp_mono (stableSessionSnapshot_steady context session.id world)
        (fun snapshot first toFirst => ?_) fun _ _ _ => trivial
      have atFirst := progress.steady toFirst
      cases snapshot with
      | notReady retryAt => exact keeping retryAt first atFirst
      | ready messages observedUpdatedAt =>
          dsimp only
          rw [wp_bind]
          refine wp_mono (processSession_visit context fuel session messages observedUpdatedAt
            atFirst.counted) (fun outcome second processed => ?_) fun _ _ _ => trivial
          obtain ⟨visit, visited, finished⟩ := processed
          have atSecond := atFirst.processed distinct visit visited finished
          rw [wp_bind, note, wp_modify]
          change wp _ _ _ (withOutcome session.id outcome observedUpdatedAt.isSome second)
          split
          · rename_i isFinal
            rw [if_pos ((isFinal_iff outcome).mpr isFinal)] at atSecond
            exact ih kept atSecond
          · rename_i notFinal
            rw [if_neg fun isFinal => notFinal ((isFinal_iff outcome).mp isFinal)] at atSecond
            rw [wp_bind]
            exact wp_mono (retryTime_steady context session outcome _)
              (fun retryAt third toThird => keeping retryAt third (atSecond.steady toThird))
              fun _ _ _ => trivial

/-- When the passes end, nothing is queued. -/
theorem processSessions_progress (fuel passes : Nat) (sessions : List SessionRow) {world : World}
    (progress : Progress context sessions world) :
    wp (processSessions context fuel passes sessions) (fun _ after => Progress context [] after)
      (fun _ _ => True) world := by
  induction passes generalizing sessions world with
  | zero =>
      cases sessions with
      | nil => exact progress
      | cons session rest => exact trivial
  | succ passes ih =>
      cases sessions with
      | nil => exact progress
      | cons session rest =>
          unfold processSessions
          rw [wp_bind]
          have pass := processQueue_progress context distinct fuel (session :: rest) []
            (by rw [List.append_nil]; exact progress)
          refine wp_mono pass (fun deferred first atFirst => ?_) fun _ _ _ => trivial
          rw [List.append_nil] at atFirst
          split
          · rename_i isEmpty
            rw [List.isEmpty_iff.mp isEmpty] at atFirst
            exact atFirst
          · rw [wp_bind]
            refine wp_mono (updateState_steady ?_ ?_ first) (fun _ second toSecond => ?_)
              fun _ _ _ => trivial
            · exact fun _ => Nat.le_refl _
            · exact fun _ => rfl
            rw [wp_bind]
            refine wp_mono (ask_steady (fun _ => ()) second) (fun _ third toThird => ?_)
              fun _ _ _ => trivial
            exact ih _ ((atFirst.steady toSecond).steady toThird)

end Runs

/-- What a run that finished leaves behind. -/
structure Complete (final : World) : Prop where
  outcomes : (finalOutcomes final.log).Perm (context.sessions.map (·.id))
  visited : final.state.sessionsVisited = context.sessions.length
  done : final.state.segmentsFailed = 0 → ∀ sessionId,
    .outcome sessionId .completed true ∈ final.log → PlanDone sessionId final.log
  cleanup : .cleanup ∈ final.log → final.state.segmentsFailed = 0 ∨ context.allowFailures = true

/-- The cleanup is scheduled only where it is due. -/
theorem scheduleCleanup_complete {world : World} (progress : Progress context [] world) :
    wp (scheduleCleanup context) (fun _ after => Complete context after) (fun _ _ => True) world := by
  have outcomes : (finalOutcomes world.log).Perm (context.sessions.map (·.id)) := by
    have all := progress.outcomes
    rwa [List.map_nil, List.append_nil] at all
  have visited : world.state.sessionsVisited = context.sessions.length := by
    rw [progress.visited, outcomes.length_eq, List.length_map]
  unfold scheduleCleanup
  rw [wp_bind, wp_get]
  split
  · rename_i allowed
    rw [wp_bind, note, wp_modify]
    have due : world.state.segmentsFailed = 0 ∨ context.allowFailures = true := by
      rcases Bool.or_eq_true_iff.mp allowed with none | permitted
      · exact .inl (eq_of_beq none)
      · exact .inr permitted
    have unplanned : ∀ sessionId, ∀ event ∈ [Event.cleanup], planOf sessionId event = none := by
      intro sessionId event inside
      rw [List.mem_singleton.mp inside]
      rfl
    cases context.surroundings.scheduleLaunchAgentCleanup with
    | error error => exact trivial
    | ok scheduled =>
        refine
          { outcomes := ?_
            visited := visited
            done := fun none sessionId completed => ?_
            cleanup := fun _ => due }
        · change (finalOutcomes (world.log ++ [.cleanup])).Perm _
          rw [finalOutcomes, List.filterMap_append]
          exact (List.append_nil (finalOutcomes world.log)).symm ▸ outcomes
        · rcases List.mem_append.mp completed with old | own
          · exact (progress.done none sessionId old).append (unplanned sessionId)
          · cases List.mem_singleton.mp own
  · exact
      { outcomes := outcomes
        visited := visited
        done := progress.done
        cleanup := fun inside => absurd inside progress.clean }

theorem finish_complete {world : World} (progress : Progress context [] world) :
    wp (finish context) (fun _ after => Complete context after) (fun _ _ => True) world := by
  unfold finish
  rw [wp_bind]
  refine wp_mono (updateState_steady ?_ ?_ world)
    (fun _ after toAfter => scheduleCleanup_complete context (progress.steady toAfter)) fun _ _ _ => trivial
  · exact fun _ => Nat.le_refl _
  · exact fun _ => rfl

end Sessions

/-- When a backfill finishes, every session has exactly one final outcome and was visited once.
Without a failed segment, every session that was completed while it existed has each segment of
its last plan confirmed, by the manifest of the plan or by a job that was revalidated. The cleanup
is scheduled only without a failed segment or where failures are allowed. -/
theorem runBackfill_complete {library : Segmentation} (context : ProcessingContext library)
    (distinct : (context.sessions.map (·.id)).Nodup) (fuel : Nat) (final : World)
    (finished : runBackfill context fuel (initialWorld context) = .ok () final) :
    (finalOutcomes final.log).Perm (context.sessions.map (·.id)) ∧
      final.state.sessionsVisited = context.sessions.length ∧
      (final.state.segmentsFailed = 0 → ∀ sessionId,
        .outcome sessionId .completed true ∈ final.log →
          ∃ manifest segments, lastPlan sessionId final.log = some (manifest, segments) ∧
            ∀ segment ∈ segments, Confirmed final.log manifest segment) ∧
      (.cleanup ∈ final.log → final.state.segmentsFailed = 0 ∨ context.allowFailures = true) := by
  have start : Progress context context.sessions (initialWorld context) :=
    { outcomes := List.Perm.refl _
      visited := rfl
      counted := fun attempted => absurd rfl attempted
      done := fun _ sessionId completed => (nomatch completed)
      clean := fun inside => (nomatch inside) }
  have locked : ∀ {world : World}, Progress context context.sessions world →
      wp (runLocked context fuel) (fun _ after => Complete context after) (fun _ _ => True) world := by
    intro world progress
    unfold runLocked
    rw [wp_bind]
    refine wp_mono (updateState_steady ?_ ?_ world) (fun _ first toFirst => ?_) fun _ _ _ => trivial
    · exact fun _ => Nat.le_refl _
    · exact fun _ => rfl
    rw [wp_bind]
    refine wp_mono (processPriorityJobs_steady context fuel _ first) (fun _ second toSecond => ?_)
      fun _ _ _ => trivial
    rw [wp_bind]
    exact wp_mono (processSessions_progress context distinct fuel fuel _
      ((progress.steady toFirst).steady toSecond)) (fun _ third done => finish_complete context done)
      fun _ _ _ => trivial
  have whole : wp (runBackfill context fuel) (fun _ after => Complete context after) (fun _ _ => True)
      (initialWorld context) := by
    unfold runBackfill
    rw [wp_bind]
    refine wp_mono (lift_steady _ _) (fun _ first toFirst => ?_) fun _ _ _ => trivial
    rw [wp_tryCatch]
    refine wp_mono (locked (start.steady toFirst)) (fun _ _ done => done) fun error after _ => ?_
    exact trivial
  have complete := wp_ok whole finished
  exact ⟨complete.outcomes, complete.visited, complete.done, complete.cleanup⟩

/-! ### A run -/

def sampleSource : SourceInfo :=
  { id := ofString "laptop"
    kind := .opencodeV1
    identityScheme := .legacy }

def sampleFingerprint : JsString :=
  ofString "e163296f04bcbc9d52b9f3d1d7d7d6580312098879249ef485b8c7c35ef0111f"

def sampleSegment : ReflectionSegment :=
  { startUserMessageId := ofString "m1"
    endUserMessageId := ofString "m1"
    sourceBoundaryVersion := .v1
    startSourceMessageId := none
    endSourceMessageId := none
    closed := true
    messages :=
      [{ role := .user
         text := ofString "hello" }]
    projectionVersion := none }

/-- Every session is one closed turn. -/
def sampleLibrary : Segmentation :=
  { Message := JsString
    segmentMessages := fun _ _ _ => some [sampleSegment]
    isSafeSegmentSnapshot := fun _ _ => true }

def sampleManifest : SegmentManifest :=
  { sourceId := ofString "laptop"
    sessionId := ofString "s1"
    segments := []
    boundaries := []
    targets :=
      [{ id := .legacyV1 (ofString "s1") (ofString "m1")
         boundary := .v1 (ofString "m1") (ofString "m1")
         projectionVersion := 1
         status := .succeeded
         sourceFingerprint := sampleFingerprint }] }

/-- Two sessions; the first is still there and done, the second is gone. -/
def sampleContext : ProcessingContext sampleLibrary :=
  { sha256 := fun _ => sampleFingerprint
    surroundings :=
      { sessionUpdatedAt := fun _ sessionId => if sessionId = ofString "s1" then some 0 else none
        sessionMessages := fun _ _ => .ok [ofString "hello"]
        nowMs := fun moment => 1000000 + moment
        requestSegments := fun _ _ => .ok (some sampleManifest)
        postSegment := fun _ _ => .error (.http 503)
        getJob := fun _ _ => .error (.http 404)
        retryJob := fun _ _ => .error (.http 404)
        waitForJob := fun _ _ => .error (.http 404)
        acquireLock := .ok ()
        scheduleLaunchAgentCleanup := .ok () }
    sessions :=
      [{ id := ofString "s1"
         title := none
         timeUpdated := 0 },
       { id := ofString "s2"
         title := none
         timeUpdated := 0 }]
    source := sampleSource
    providerPollMs := 1000
    jobPollMs := 1000
    priorityJobIds := [7]
    maxMutableSourceDeferralMs := 86400000
    allowFailures := false }


def ended : EStateM.Result BackfillError World Unit → Bool
  | .ok _ _ => true
  | .error _ _ => false

theorem runBackfill_complete_sample :
    ∃ final, runBackfill sampleContext 9 (initialWorld sampleContext) = .ok () final ∧
      (finalOutcomes final.log).Perm [ofString "s1", ofString "s2"] ∧
      final.state.sessionsVisited = 2 := by
  have finishes : ended (runBackfill sampleContext 9 (initialWorld sampleContext)) = true := by
    decide +kernel
  cases run : runBackfill sampleContext 9 (initialWorld sampleContext) with
  | error error world =>
      rw [run] at finishes
      cases finishes
  | ok result final =>
      have complete := runBackfill_complete sampleContext (by decide) 9 final run
      exact ⟨final, rfl, complete.1, complete.2.1⟩

end Reflection.Backfill
