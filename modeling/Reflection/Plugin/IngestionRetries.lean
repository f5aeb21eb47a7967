/-
How often the failure of one target is retried.

Each function of a call ends at an await where the call may rely on what the invariant says. So the
invariant survives every step of any calls, aborts, clears and late requests.
-/

import Mathlib
import Reflection.Plugin.IngestionInvariant

namespace Reflection.Plugin

namespace Ingestion

variable {ingestion after : Ingestion} {place : Nat} {point : Point} {key : RetryKey} {running : Nat}

/-! ### Where a call lands -/

/-- After a call ran to its next await all is as it should be. -/
structure Lands (running : Nat) (next : Ingestion × Point) : Prop where
  sound : Sound next.1 (some running)
  placed : Placed next.1 running next.2
  alone : ∀ key, next.2.holds = some key → Alone next.1 running key

theorem Sound.lands_free (sound : Sound ingestion (some running))
    (placed : Placed ingestion running point) (free : point.holds = none) :
    Lands running (ingestion, point) := by
  refine ⟨sound, placed, ?_⟩
  intro key holds
  rw [free] at holds
  cases holds

theorem Sound.leaveRetry_lands (sound : Sound ingestion (some running))
    (alone : Alone ingestion running key) (free : point.holds = none)
    (placed : Placed ingestion running point) :
    Lands running (ingestion.leaveRetry key point) := by
  refine (sound.setRetrying alone false).lands_free ?_ free
  refine placed.mono ?_ (fun _ inside => inside)
  intro held holds
  rw [free] at holds
  cases holds

theorem Sound.leaveRetry_ended (sound : Sound ingestion (some running))
    (alone : Alone ingestion running key) : Lands running (ingestion.leaveRetry key .ended) :=
  sound.leaveRetry_lands alone rfl trivial

theorem Sound.attemptRetry_lands (sound : Sound ingestion (some running)) {frame : Frame}
    {job : NativeJobResponse} (aborted : Bool)
    (alone : Alone ingestion running frame.segment.retryKey)
    (guarded : ingestion.retrying frame.segment.retryKey = true)
    (nothing : ingestion.pendingRetries frame.segment.retryKey = none)
    (shown : Shown ingestion running frame job) :
    Lands running (ingestion.attemptRetry aborted frame job) := by
  unfold attemptRetry
  dsimp only
  split
  · rename_i alive
    exact sound.leaveRetry_lands alone rfl ⟨shown, alive⟩
  · split
    · exact sound.leaveRetry_ended alone
    · rename_i unretried
      have attempted := sound.withAttempt alone shown.2 nothing
      have isFor : AttemptFor (ingestion.withAttempt frame.segment.retryKey job)
          frame.segment.retryKey ingestion.attempts.length := withAttempt_for shown.2
      have isPending : (ingestion.withAttempt frame.segment.retryKey job).pendingRetries
          frame.segment.retryKey = some ingestion.attempts.length := Function.update_self _ _ _
      cases aborted with
      | true =>
          refine ⟨attempted, ⟨guarded, isFor, Or.inr isPending, ?_⟩, ?_⟩
          · intro sent impossible
            cases impossible
          · intro key holds
            cases holds
            exact alone
      | false =>
          have unsent : ∀ (place : Nat) other, ingestion.posts[place]? = some other →
              other.attempt ≠ ingestion.attempts.length := by
            intro place other found
            exact Nat.ne_of_lt (sound.attempted place other found)
          refine ⟨?_, ⟨guarded, isFor, Or.inr isPending, ?_⟩, ?_⟩
          · refine attempted.withPost isPending ?_ unsent rfl rfl ?_
            · exact ⟨_, List.getElem?_concat_length, rfl⟩
            · intro place other found sameKey current
              exact sound.all_refused (Bool.eq_false_iff.mpr unretried) nothing found sameKey current
          · intro sent isSent
            cases isSent
            exact ⟨_, List.getElem?_concat_length, rfl, rfl, rfl⟩
          · intro key holds
            cases holds
            exact alone

theorem Sound.enterRetry_lands (sound : Sound ingestion (some running)) {frame : Frame}
    {job : NativeJobResponse} (aborted : Bool) (shown : Shown ingestion running frame job) :
    Lands running (ingestion.enterRetry aborted frame job) := by
  unfold enterRetry
  dsimp only
  split
  · exact sound.lands_free trivial rfl
  · rename_i unguarded
    have alone := sound.alone_of_unguarded (Bool.eq_false_iff.mpr unguarded)
    have entered := sound.setRetrying alone true
    have guarded : Function.update ingestion.retrying frame.segment.retryKey true
        frame.segment.retryKey = true := Function.update_self _ _ _
    cases isPending : ingestion.pendingRetries frame.segment.retryKey with
    | none => exact entered.attemptRetry_lands aborted alone guarded isPending shown
    | some attempt =>
        refine ⟨entered, ⟨guarded, sound.pending _ _ isPending, Or.inr isPending⟩, ?_⟩
        intro key holds
        cases holds
        exact alone

theorem validate_jobOf {current original : NativeJobResponse}
    (valid : validate current original = true) (isJob : JobOf key original) : JobOf key current := by
  unfold validate at valid
  simp only [Bool.and_eq_true, beq_iff_eq] at valid
  obtain ⟨⟨⟨⟨⟨_, sameSegment⟩, sameFingerprint⟩, _⟩, _⟩, _⟩ := valid
  exact ⟨sameSegment.trans isJob.1, sameFingerprint.trans isJob.2⟩

/-- What an observation leaves: either no change, or nothing is pending any more. -/
structure Observed (running : Nat) (key : RetryKey) (ingestion : Ingestion)
    (seen : Ingestion × Option NativeJobResponse) (current : NativeJobResponse) : Prop where
  sound : Sound seen.1 (some running)
  calls : seen.1.calls = ingestion.calls
  retrying : seen.1.retrying = ingestion.retrying
  responses : seen.1.responses = ingestion.responses
  result : ∀ job, seen.2 = some job → job = current ∧ seen.1.pendingRetries key = none

theorem Sound.observe (sound : Sound ingestion (some running)) {attempt : Nat} {pending : Attempt}
    (alone : Alone ingestion running key) (found : ingestion.attempts[attempt]? = some pending)
    (only : OnlyPending ingestion key attempt) (current : NativeJobResponse) :
    Observed running key ingestion (ingestion.observe key current pending) current := by
  have dropped : Function.update ingestion.pendingRetries key none key = none :=
    Function.update_self _ _ _
  unfold Ingestion.observe
  split
  · refine ⟨?_, rfl, rfl, rfl, ?_⟩
    · refine sound.dropPending alone _ ?_ ?_ (Or.inl (Function.update_self _ _ _))
      · intro other different
        exact Function.update_of_ne different _ _
      · intro _
        exact Function.update_self _ _ _
    · intro job isResult
      exact ⟨(Option.some.inj isResult).symm, dropped⟩
  · split
    · rename_i failure
      refine ⟨?_, rfl, rfl, rfl, ?_⟩
      · refine sound.dropPending alone ingestion.retried (fun _ _ => rfl) id (Or.inr ?_)
        intro place isPending other at_place
        rcases only with nothing | same
        · rw [nothing] at isPending
          cases isPending
        · rw [same] at isPending
          rw [← Option.some.inj isPending, found] at at_place
          rw [← Option.some.inj at_place]
          exact (Bool.and_eq_true _ _ ▸ failure).2
      · intro job isResult
        exact ⟨(Option.some.inj isResult).symm, dropped⟩
    · refine ⟨sound, rfl, rfl, rfl, ?_⟩
      intro job isResult
      cases isResult

theorem Sound.reconcileAnswered_lands (sound : Sound ingestion (some running)) {frame : Frame}
    {attempt : Nat} (caller : Caller) {reply : Option NativeJobResponse}
    (alone : Alone ingestion running frame.segment.retryKey)
    (placed : Placed ingestion running (.reconciling frame attempt caller))
    (logged : ∀ job, reply = some job → (running, job) ∈ ingestion.responses) :
    Lands running (ingestion.reconcileAnswered frame attempt caller reply) := by
  obtain ⟨guarded, attempted, only⟩ := placed
  have unresolved : Lands running (ingestion, .reconciled frame attempt caller none) := by
    refine ⟨sound, ⟨guarded, ?_⟩, ?_⟩
    · intro job impossible
      cases impossible
    · intro key holds
      cases holds
      exact alone
  obtain ⟨pending, found, isJob⟩ := attempted
  unfold reconcileAnswered
  rw [found]
  cases reply with
  | none => exact unresolved
  | some current =>
      dsimp only
      split
      · rename_i valid
        have seen := sound.observe alone found only current
        refine ⟨seen.sound, ⟨?_, ?_⟩, ?_⟩
        · rw [seen.retrying]
          exact guarded
        · intro job isResult
          obtain ⟨same, nothing⟩ := seen.result job isResult
          refine ⟨nothing, ?_, ?_⟩
          · rw [seen.responses, same]
            exact logged current rfl
          · rw [same]
            exact validate_jobOf valid isJob
        · intro key holds
          cases holds
          unfold Alone
          rw [seen.calls]
          exact alone
      · exact unresolved

theorem Sound.reconcileResumed_lands (sound : Sound ingestion (some running)) {frame : Frame}
    {attempt : Nat} {caller : Caller} {result : Option NativeJobResponse} (aborted : Bool)
    (alone : Alone ingestion running frame.segment.retryKey)
    (placed : Placed ingestion running (.reconciled frame attempt caller result)) :
    Lands running (ingestion.reconcileResumed aborted frame caller result) := by
  unfold reconcileResumed
  dsimp only
  cases result with
  | none => exact sound.leaveRetry_ended alone
  | some job =>
      obtain ⟨guarded, known⟩ := placed
      obtain ⟨nothing, shown⟩ := known job rfl
      cases caller with
      | beforeRetry => exact sound.attemptRetry_lands aborted alone guarded nothing shown
      | afterFailure =>
          dsimp only
          split
          · exact sound.leaveRetry_ended alone
          · rename_i alive
            simp only [Bool.or_eq_true, not_or, beq_iff_eq] at alive
            exact sound.leaveRetry_lands alone rfl ⟨shown, alive.2⟩
      | afterAnswer =>
          dsimp only
          split
          · exact sound.leaveRetry_ended alone
          · rename_i alive
            rw [beq_iff_eq] at alive
            exact sound.leaveRetry_lands alone rfl ⟨shown, alive⟩

theorem Sound.retryFailed_lands (sound : Sound ingestion (some running)) {frame : Frame}
    {attempt : Nat} {httpFailure : Bool} (aborted : Bool)
    (alone : Alone ingestion running frame.segment.retryKey)
    (guarded : ingestion.retrying frame.segment.retryKey = true)
    (attempted : AttemptFor ingestion frame.segment.retryKey attempt)
    (only : OnlyPending ingestion frame.segment.retryKey attempt)
    (refused : httpFailure = true → ∀ (place : Nat) post, ingestion.posts[place]? = some post →
      post.attempt = attempt → post.outcome = some .rejected) :
    Lands running (ingestion.retryFailed aborted frame attempt httpFailure) := by
  have marked := sound.markFailure refused
  unfold retryFailed
  dsimp only
  split
  · exact marked.leaveRetry_ended alone
  · refine ⟨marked, ⟨guarded, ?_, only⟩, ?_⟩
    · obtain ⟨old, found, job⟩ := attempted
      refine ⟨{ old with httpFailure := httpFailure }, ?_, job⟩
      change (ingestion.attempts.modify attempt _)[attempt]? = _
      rw [List.getElem?_modify, found, Option.map_eq_map, Option.map_some, if_pos rfl]
    · intro key holds
      cases holds
      exact alone

theorem Sound.retryAnswered_lands (sound : Sound ingestion (some running)) {frame : Frame}
    {attempt : Nat} {outcome : RetryOutcome} (aborted : Bool)
    (alone : Alone ingestion running frame.segment.retryKey)
    (guarded : ingestion.retrying frame.segment.retryKey = true)
    (attempted : AttemptFor ingestion frame.segment.retryKey attempt)
    (only : OnlyPending ingestion frame.segment.retryKey attempt)
    (logged : ∀ job, outcome.reply = some job → (running, job) ∈ ingestion.responses)
    (refused : outcome = .rejected → ∀ (place : Nat) post, ingestion.posts[place]? = some post →
      post.attempt = attempt → post.outcome = some .rejected) :
    Lands running (ingestion.retryAnswered aborted frame attempt outcome) := by
  unfold retryAnswered
  dsimp only
  cases outcome with
  | rejected =>
      exact sound.retryFailed_lands aborted alone guarded attempted only (fun _ => refused rfl)
  | unknown =>
      refine sound.retryFailed_lands aborted alone guarded attempted only ?_
      intro impossible
      cases impossible
  | answered reply =>
      obtain ⟨original, found, isJob⟩ := attempted
      rw [found]
      cases reply with
      | none => exact sound.leaveRetry_ended alone
      | some job =>
          dsimp only
          split
          · exact sound.leaveRetry_ended alone
          · rename_i valid
            rw [Bool.not_eq_true', Bool.not_eq_false] at valid
            split
            · refine ⟨sound, ⟨guarded, ⟨original, found, isJob⟩, only⟩, ?_⟩
              intro key holds
              cases holds
              exact alone
            · have seen := sound.observe alone found only job
              have aloneAfter : Alone (ingestion.observe frame.segment.retryKey job original).1 running
                  frame.segment.retryKey := by
                unfold Alone
                rw [seen.calls]
                exact alone
              cases isResult : (ingestion.observe frame.segment.retryKey job original).2 with
              | none => exact seen.sound.leaveRetry_ended aloneAfter
              | some current =>
                  dsimp only
                  split
                  · exact seen.sound.leaveRetry_ended aloneAfter
                  · rename_i alive
                    rw [beq_iff_eq] at alive
                    have same := (seen.result current isResult).1
                    refine seen.sound.leaveRetry_lands aloneAfter rfl ⟨⟨?_, ?_⟩, alive⟩
                    · rw [seen.responses, same]
                      exact logged job rfl
                    · rw [same]
                      exact validate_jobOf valid isJob

/-! ### The loop over the segments -/

theorem Sound.placed_same (sound : Sound ingestion (some running))
    (calls : after.calls = ingestion.calls)
    (same : ∀ key, Same ingestion after key)
    (responses : ∀ entry ∈ ingestion.responses, entry ∈ after.responses) :
    ∀ place call, after.calls[place]? = some call → some running ≠ some place →
      Placed after place call.point := by
  intro place call found other
  rw [calls] at found
  exact (sound.placed place call found other).mono (fun key _ => same key) responses

theorem Sound.forgetSubmitted (sound : Sound ingestion (some running)) (key : SubmitKey) :
    Sound { ingestion with submitted := Function.update ingestion.submitted key none }
      (some running) :=
  { sound with
    placed := sound.placed_same rfl
      (fun _ => ⟨rfl, Or.inr rfl, fun _ attempted => attempted, fun _ _ posted => posted⟩)
      (fun _ inside => inside)
    submissions := by
      intro other sent isSent
      change Function.update ingestion.submitted key none other = some sent at isSent
      by_cases same : other = key
      · rw [same, Function.update_self] at isSent
        cases isSent
      · rw [Function.update_of_ne same] at isSent
        exact sound.submissions other sent isSent }

theorem Sound.submitLoop_lands {call : SubmitCall} (segments : List NativePlannedSegment) :
    ∀ {ingestion : Ingestion}, Sound ingestion (some running) →
      Lands running (submitLoop call ingestion segments) := by
  induction segments with
  | nil =>
      intro ingestion sound
      exact sound.lands_free trivial rfl
  | cons segment rest ih =>
      intro ingestion sound
      unfold submitLoop
      split
      · exact sound.lands_free trivial rfl
      · split
        · exact sound.lands_free trivial rfl
        · dsimp only
          generalize (if segment.closed = true then call.requestedPriority else 0) = priority
          split
          · exact ih sound
          · split
            · exact sound.lands_free trivial rfl
            · exact (sound.forgetSubmitted segment.key).lands_free trivial rfl

theorem JobStatus.live_of_ne {status : JobStatus} (alive : status ≠ .failed)
    (current : status ≠ .superseded) : status.live = true := by
  cases status with
  | pending => rfl
  | running => rfl
  | succeeded => rfl
  | failed => exact absurd rfl alive
  | superseded => exact absurd rfl current

theorem Sound.record (sound : Sound ingestion (some running)) {segment : NativePlannedSegment}
    {place : Nat} {job : NativeJobResponse} (priority : Nat)
    (ok : RecordingOk ingestion.responses
      { call := place
        segment := segment
        job := job }) :
    Sound { ingestion with
        submitted := Function.update ingestion.submitted segment.key
          (some
            { hash := segment.fingerprint
              priority := priority })
        recorded := ingestion.recorded ++
          [{ call := place
             segment := segment
             job := job }] } (some running) :=
  { sound with
    placed := sound.placed_same rfl
      (fun _ => ⟨rfl, Or.inr rfl, fun _ attempted => attempted, fun _ _ posted => posted⟩)
      (fun _ inside => inside)
    recordings := by
      intro recording inside
      rcases List.mem_append.mp inside with old | new
      · exact sound.recordings recording old
      · rw [List.mem_singleton.mp new]
        exact ok
    submissions := by
      intro other sent isSent
      change Function.update ingestion.submitted segment.key _ other = some sent at isSent
      by_cases same : other = segment.key
      · rw [same, Function.update_self] at isSent
        refine ⟨_, List.mem_append_right _ (List.mem_singleton_self _), same.symm, ?_⟩
        rw [← Option.some.inj isSent]
      · rw [Function.update_of_ne same] at isSent
        obtain ⟨recording, inside, facts⟩ := sound.submissions other sent isSent
        exact ⟨recording, List.mem_append_left _ inside, facts⟩ }

theorem Sound.recordSubmitted_lands (sound : Sound ingestion (some running)) {call : SubmitCall}
    {frame : Frame} {job : NativeJobResponse} (shown : Shown ingestion running frame job)
    (alive : job.status ≠ .failed) :
    Lands running (ingestion.recordSubmitted running call frame job) := by
  unfold recordSubmitted
  split
  · exact sound.lands_free trivial rfl
  · rename_i current
    exact Sound.submitLoop_lands _
      (sound.record _ ⟨shown.1, shown.2, JobStatus.live_of_ne alive current⟩)

theorem jobMatches_jobOf {segment : NativePlannedSegment} {job : NativeJobResponse}
    (isMatch : jobMatches segment job = true) : JobOf segment.retryKey job := by
  unfold jobMatches at isMatch
  simp only [Bool.and_eq_true, beq_iff_eq] at isMatch
  obtain ⟨⟨⟨⟨sameSegment, sameFingerprint⟩, _⟩, _⟩, _⟩ := isMatch
  exact ⟨sameSegment, sameFingerprint⟩

theorem Sound.segmentAnswered_lands (sound : Sound ingestion (some running)) {call : SubmitCall}
    {frame : Frame} {reply : Option NativeJobResponse}
    (logged : ∀ job, reply = some job → (running, job) ∈ ingestion.responses) :
    Lands running (ingestion.segmentAnswered running call frame reply) := by
  unfold segmentAnswered
  cases reply with
  | none => exact sound.lands_free trivial rfl
  | some job =>
      dsimp only
      split
      · exact sound.lands_free trivial rfl
      · rename_i isMatch
        rw [Bool.not_eq_true', Bool.not_eq_false] at isMatch
        have shown : Shown ingestion running frame job := ⟨logged job rfl, jobMatches_jobOf isMatch⟩
        split
        · exact sound.enterRetry_lands call.aborted shown
        · rename_i accepted
          simp only [Bool.or_eq_true, not_or, beq_iff_eq] at accepted
          exact sound.recordSubmitted_lands shown accepted.1

/-! ### Steps and runs -/

theorem Sound.begin (sound : Sound ingestion none) (running : Nat) :
    Sound ingestion (some running) :=
  { sound with
    placed := fun place call found _ => sound.placed place call found (Option.some_ne_none place).symm
    apart := fun one other first second key atFirst atSecond _ _ =>
      sound.apart one other first second key atFirst atSecond (Option.some_ne_none one).symm
        (Option.some_ne_none other).symm }

/-- The running call alone holds the guard of its key. -/
theorem Sound.alone (sound : Sound ingestion none) {call : SubmitCall}
    (found : ingestion.calls[running]? = some call) (holds : call.point.holds = some key) :
    Alone ingestion running key := by
  intro place other at_place different otherHolds
  exact different (sound.apart place running other call key at_place found
    (Option.some_ne_none place).symm (Option.some_ne_none running).symm otherHolds holds)

private theorem settle_found {next : Ingestion × Point} {call : SubmitCall}
    (found : (settle running next).calls[place]? = some call) :
    ∃ before, next.1.calls[place]? = some before ∧
      call.point = if place = running then next.2 else before.point := by
  change (next.1.calls.modify running _)[place]? = some call at found
  rw [List.getElem?_modify] at found
  cases lookup : next.1.calls[place]? with
  | none =>
      rw [lookup] at found
      cases found
  | some before =>
      rw [lookup] at found
      refine ⟨before, rfl, ?_⟩
      rw [← Option.some.inj found]
      by_cases same : running = place
      · simp [same]
      · simp [same, Ne.symm same]

theorem Lands.settle {next : Ingestion × Point} (lands : Lands running next) :
    Sound (settle running next) none := by
  refine { lands.sound with
    placed := ?_
    apart := ?_ }
  · intro place call found _
    obtain ⟨before, at_place, isPoint⟩ := settle_found found
    rw [isPoint]
    by_cases same : place = running
    · rw [if_pos same, same]
      exact lands.placed
    · rw [if_neg same]
      exact lands.sound.placed place before at_place (fun equal => same (Option.some.inj equal).symm)
  · intro one other first second key foundFirst foundSecond _ _ holdsFirst holdsSecond
    obtain ⟨oldFirst, atFirst, pointFirst⟩ := settle_found foundFirst
    obtain ⟨oldSecond, atSecond, pointSecond⟩ := settle_found foundSecond
    rw [pointFirst] at holdsFirst
    rw [pointSecond] at holdsSecond
    by_cases firstRuns : one = running
    · by_cases secondRuns : other = running
      · rw [firstRuns, secondRuns]
      · rw [if_pos firstRuns] at holdsFirst
        rw [if_neg secondRuns] at holdsSecond
        exact absurd holdsSecond (lands.alone key holdsFirst other oldSecond atSecond secondRuns)
    · by_cases secondRuns : other = running
      · rw [if_neg firstRuns] at holdsFirst
        rw [if_pos secondRuns] at holdsSecond
        exact absurd holdsFirst (lands.alone key holdsSecond one oldFirst atFirst firstRuns)
      · rw [if_neg firstRuns] at holdsFirst
        rw [if_neg secondRuns] at holdsSecond
        exact lands.sound.apart one other oldFirst oldSecond key atFirst atSecond
          (fun equal => firstRuns (Option.some.inj equal).symm)
          (fun equal => secondRuns (Option.some.inj equal).symm) holdsFirst holdsSecond

theorem submitLoop_calls {call : SubmitCall} (segments : List NativePlannedSegment) :
    ∀ ingestion : Ingestion, (submitLoop call ingestion segments).1.calls = ingestion.calls := by
  induction segments with
  | nil =>
      intro ingestion
      rfl
  | cons segment rest ih =>
      intro ingestion
      unfold submitLoop
      dsimp only
      generalize (if segment.closed = true then call.requestedPriority else 0) = priority
      split
      · rfl
      · split
        · rfl
        · split
          · exact ih ingestion
          · split <;> rfl

theorem Lands.append {next : Ingestion × Point} {call : SubmitCall} (lands : Lands running next)
    (atEnd : next.1.calls.length = running) :
    Sound { next.1 with calls := next.1.calls ++ [{ call with point := next.2 }] } none := by
  have elsewhere : ∀ {place : Nat} {old : SubmitCall}, next.1.calls[place]? = some old →
      place ≠ running := by
    intro place old found same
    have bound := (List.getElem?_eq_some_iff.mp found).1
    omega
  refine { lands.sound with
    placed := ?_
    apart := ?_ }
  · intro place other found _
    rcases getElem?_snoc_cases found with old | ⟨isEnd, same⟩
    · exact lands.sound.placed place other old
        (fun equal => elsewhere old (Option.some.inj equal).symm)
    · rw [same, isEnd, atEnd]
      exact lands.placed
  · intro one other first second key foundFirst foundSecond _ _ holdsFirst holdsSecond
    rcases getElem?_snoc_cases foundFirst with oldFirst | ⟨firstEnd, isFirst⟩
    · rcases getElem?_snoc_cases foundSecond with oldSecond | ⟨_, isSecond⟩
      · exact lands.sound.apart one other first second key oldFirst oldSecond
          (fun equal => elsewhere oldFirst (Option.some.inj equal).symm)
          (fun equal => elsewhere oldSecond (Option.some.inj equal).symm) holdsFirst holdsSecond
      · rw [isSecond] at holdsSecond
        exact absurd holdsFirst (lands.alone key holdsSecond one first oldFirst (elsewhere oldFirst))
    · rcases getElem?_snoc_cases foundSecond with oldSecond | ⟨secondEnd, _⟩
      · rw [isFirst] at holdsFirst
        exact absurd holdsSecond
          (lands.alone key holdsFirst other second oldSecond (elsewhere oldSecond))
      · rw [firstEnd, secondEnd]

theorem Sound.abort (sound : Sound ingestion none) (place : Nat) :
    Sound (ingestion.step (.abort place)) none := by
  have same : ∀ {other : Nat} {call : SubmitCall},
      (ingestion.step (.abort place)).calls[other]? = some call →
        ∃ before, ingestion.calls[other]? = some before ∧ before.point = call.point := by
    intro other call found
    change (ingestion.calls.modify place _)[other]? = some call at found
    rw [List.getElem?_modify] at found
    cases lookup : ingestion.calls[other]? with
    | none =>
        rw [lookup] at found
        cases found
    | some before =>
        rw [lookup] at found
        refine ⟨before, rfl, ?_⟩
        rw [← Option.some.inj found]
        split <;> rfl
  refine { sound with
    placed := ?_
    apart := ?_ }
  · intro other call found free
    obtain ⟨before, at_place, isPoint⟩ := same found
    rw [← isPoint]
    exact sound.placed other before at_place free
  · intro one other first second key foundFirst foundSecond freeFirst freeSecond holdsFirst holdsSecond
    obtain ⟨oldFirst, atFirst, pointFirst⟩ := same foundFirst
    obtain ⟨oldSecond, atSecond, pointSecond⟩ := same foundSecond
    exact sound.apart one other oldFirst oldSecond key atFirst atSecond freeFirst freeSecond
      (pointFirst ▸ holdsFirst) (pointSecond ▸ holdsSecond)

/-- A clear starts a period in which nothing was sent yet. -/
theorem Sound.clear (sound : Sound ingestion none) (sessionId : JsString) :
    Sound (ingestion.clear sessionId) none := by
  have forgotten : ∀ key, (ingestion.clear sessionId).pendingRetries key =
      if key.sessionId = sessionId then none else ingestion.pendingRetries key := fun _ => rfl
  refine { sound with
    placed := ?_
    pending := ?_
    remembered := ?_
    past := ?_
    submissions := ?_ }
  · intro place call found free
    refine (sound.placed place call found free).mono ?_ (fun _ inside => inside)
    intro key _
    refine ⟨rfl, ?_, fun _ attempted => attempted, fun _ _ posted => posted⟩
    rw [forgotten]
    split
    · exact Or.inl rfl
    · exact Or.inr rfl
  · intro key place isPending
    rw [forgotten] at isPending
    split at isPending
    · cases isPending
    · exact sound.pending key place isPending
  · intro place post found current taken
    have past := sound.past place post found
    change post.period = Function.update ingestion.clears sessionId _ post.key.sessionId at current
    by_cases same : post.key.sessionId = sessionId
    · rw [same, Function.update_self] at current
      rw [same] at past
      omega
    · rw [Function.update_of_ne same] at current
      rcases sound.remembered place post found current taken with known | ⟨isPending, facts⟩
      · exact Or.inl ((if_neg same).trans known)
      · exact Or.inr ⟨(if_neg same).trans isPending, facts⟩
  · intro place post found
    have past := sound.past place post found
    change post.period ≤ Function.update ingestion.clears sessionId _ post.key.sessionId
    by_cases same : post.key.sessionId = sessionId
    · rw [same, Function.update_self]
      rw [same] at past
      omega
    · rw [Function.update_of_ne same]
      exact past
  · intro key sent isSent
    change (if key.sessionId = sessionId then none else ingestion.submitted key) = some sent at isSent
    split at isSent
    · cases isSent
    · exact sound.submissions key sent isSent

private theorem applyPost_found {sent : Nat} {applied : RetryPost}
    (found : (ingestion.applyPost place).posts[sent]? = some applied) :
    ∃ before, ingestion.posts[sent]? = some before ∧ applied.key = before.key ∧
      applied.attempt = before.attempt ∧ applied.period = before.period ∧
      applied.outcome = before.outcome ∧
      (before.outcome = some .rejected → applied.appliedIn = before.appliedIn) := by
  change (ingestion.posts.modify place _)[sent]? = some applied at found
  rw [List.getElem?_modify] at found
  cases lookup : ingestion.posts[sent]? with
  | none =>
      rw [lookup] at found
      cases found
  | some before =>
      rw [lookup] at found
      refine ⟨before, rfl, ?_⟩
      rw [← Option.some.inj found]
      dsimp only
      split
      · split
        · exact ⟨rfl, rfl, rfl, rfl, fun _ => rfl⟩
        · rename_i taken
          exact ⟨rfl, rfl, rfl, rfl, fun isRejected => absurd (Or.inl isRejected) taken⟩
      · exact ⟨rfl, rfl, rfl, rfl, fun _ => rfl⟩

private theorem applyPost_kept {sent : Nat} {before : RetryPost}
    (found : ingestion.posts[sent]? = some before) :
    ∃ applied, (ingestion.applyPost place).posts[sent]? = some applied ∧ applied.key = before.key ∧
      applied.attempt = before.attempt ∧ applied.outcome = before.outcome := by
  cases lookup : (ingestion.applyPost place).posts[sent]? with
  | none =>
      change (ingestion.posts.modify place _)[sent]? = none at lookup
      rw [List.getElem?_modify, found] at lookup
      cases lookup
  | some applied =>
      obtain ⟨old, at_place, isKey, isAttempt, _, isOutcome, _⟩ := applyPost_found lookup
      rw [found] at at_place
      cases at_place
      exact ⟨applied, rfl, isKey, isAttempt, isOutcome⟩

theorem Sound.applyPost (sound : Sound ingestion none) (place : Nat) :
    Sound (ingestion.applyPost place) none := by
  refine { sound with
    placed := ?_
    remembered := ?_
    single := ?_
    past := ?_
    attempted := ?_
    own := ?_
    refused := ?_ }
  · intro other call found free
    refine (sound.placed other call found free).mono ?_ (fun _ inside => inside)
    intro key _
    refine ⟨rfl, Or.inr rfl, fun _ attempted => attempted, ?_⟩
    intro attempt sent posted
    obtain ⟨old, at_place, isKey, isAttempt, unanswered⟩ := posted
    obtain ⟨applied, now, keyKept, attemptKept, outcomeKept⟩ := @applyPost_kept ingestion place _ _ at_place
    exact ⟨applied, now, keyKept.trans isKey, attemptKept.trans isAttempt,
      outcomeKept.trans unanswered⟩
  · intro sent post found current taken
    obtain ⟨before, at_place, isKey, isAttempt, isPeriod, isOutcome, _⟩ := applyPost_found found
    rw [isKey, isPeriod] at current
    rw [isKey, isAttempt]
    exact sound.remembered sent before at_place current (isOutcome ▸ taken)
  · intro one other first second before foundFirst foundSecond keys periods
    obtain ⟨oldFirst, atFirst, keyFirst, _, periodFirst, outcomeFirst, _⟩ := applyPost_found foundFirst
    obtain ⟨oldSecond, atSecond, keySecond, _, periodSecond, _, _⟩ := applyPost_found foundSecond
    rw [outcomeFirst]
    exact sound.single one other oldFirst oldSecond before atFirst atSecond
      (keyFirst ▸ keySecond ▸ keys) (periodFirst ▸ periodSecond ▸ periods)
  · intro sent post found
    obtain ⟨before, at_place, isKey, _, isPeriod, _, _⟩ := applyPost_found found
    rw [isKey, isPeriod]
    exact sound.past sent before at_place
  · intro sent post found
    obtain ⟨before, at_place, _, isAttempt, _, _, _⟩ := applyPost_found found
    rw [isAttempt]
    exact sound.attempted sent before at_place
  · intro one other first second foundFirst foundSecond attempts
    obtain ⟨oldFirst, atFirst, _, attemptFirst, _, _, _⟩ := applyPost_found foundFirst
    obtain ⟨oldSecond, atSecond, _, attemptSecond, _, _, _⟩ := applyPost_found foundSecond
    exact sound.own one other oldFirst oldSecond atFirst atSecond
      (attemptFirst ▸ attemptSecond ▸ attempts)
  · intro sent post found isRejected
    obtain ⟨before, at_place, _, _, _, isOutcome, unapplied⟩ := applyPost_found found
    rw [isOutcome] at isRejected
    rw [unapplied isRejected]
    exact sound.refused sent before at_place isRejected

theorem Sound.step (sound : Sound ingestion none) (event : Event) :
    Sound (ingestion.step event) none := by
  cases event with
  | submit manifest segments requestedPriority =>
      exact Lands.append (Sound.submitLoop_lands segments (sound.begin ingestion.calls.length))
        (by rw [submitLoop_calls])
  | reply place job =>
      unfold Ingestion.step
      dsimp only
      split
      · exact sound
      · rename_i call found
        have received := (sound.begin place).received place job
        have logged : ∀ answer, job = some answer →
            (place, answer) ∈ (ingestion.received place job).responses := by
          intro answer isJob
          rw [isJob]
          exact received_mem answer
        have placed := (sound.placed place call found (Option.some_ne_none place).symm).received place job
        split
        · exact (received.segmentAnswered_lands logged).settle
        · rename_i frame attempt caller atPoint
          rw [atPoint] at placed
          exact (received.reconcileAnswered_lands caller
            (sound.alone found (by rw [atPoint]; rfl)) placed logged).settle
        · exact sound
  | retryEnds place outcome =>
      unfold Ingestion.step
      dsimp only
      split
      · exact sound
      · rename_i call found
        split
        · rename_i frame attempt post atPoint
          split
          · rename_i possible
            have alone : Alone ingestion place frame.segment.retryKey :=
              sound.alone found (by rw [atPoint]; rfl)
            have placed := sound.placed place call found (Option.some_ne_none place).symm
            rw [atPoint] at placed
            obtain ⟨guarded, attempted, only, posted⟩ := placed
            have ended := ((sound.begin place).endPost alone posted possible).received place outcome.reply
            have refused := (sound.begin place).endPost_refused posted possible
            have logged : ∀ job, outcome.reply = some job → (place, job) ∈
                ((ingestion.endPost post outcome).received place outcome.reply).responses := by
              intro job isReply
              rw [isReply]
              exact received_mem job
            refine Lands.settle (ended.retryAnswered_lands call.aborted ?_ ?_ ?_ ?_ logged refused)
            all_goals cases post <;> assumption
          · exact sound
        · exact sound
  | resume place =>
      unfold Ingestion.step
      dsimp only
      split
      · exact sound
      · rename_i call found
        have placed := sound.placed place call found (Option.some_ne_none place).symm
        split
        · rename_i frame attempt caller result atPoint
          rw [atPoint] at placed
          exact ((sound.begin place).reconcileResumed_lands call.aborted
            (sound.alone found (by rw [atPoint]; rfl)) placed).settle
        · rename_i frame job atPoint
          rw [atPoint] at placed
          exact ((sound.begin place).recordSubmitted_lands placed.1 placed.2).settle
        · exact sound
  | abort place => exact sound.abort place
  | clear sessionId => exact sound.clear sessionId
  | apply place => exact sound.applyPost place

theorem sound_initial (sourceId : JsString) : Sound (initial sourceId) none := by
  constructor
  · intro place call impossible
    cases impossible
  · intro one other first second key impossible
    cases impossible
  · intro key place impossible
    cases impossible
  · intro place post impossible
    cases impossible
  · intro one other first second _ impossible
    cases impossible
  · intro place post impossible
    cases impossible
  · intro place post impossible
    cases impossible
  · intro one other first second impossible
    cases impossible
  · intro place post impossible
    cases impossible
  · intro recording impossible
    cases impossible
  · intro key sent impossible
    cases impossible

theorem Sound.run (events : List Event) :
    ∀ {ingestion : Ingestion}, Sound ingestion none → Sound (ingestion.run events) none := by
  induction events with
  | nil =>
      intro ingestion sound
      exact sound
  | cons event rest ih =>
      intro ingestion sound
      exact ih (sound.step event)

/-! ### At most one retry -/

/-- The requests of a key that were sent in one period and applied at any time. -/
def appliedOf (ingestion : Ingestion) (key : RetryKey) (period : Nat) : List RetryPost :=
  ingestion.posts.filter fun post =>
    decide (post.key = key ∧ post.period = period) && post.appliedIn.isSome

theorem Sound.appliedOf_length (sound : Sound ingestion none) (key : RetryKey) (period : Nat) :
    (ingestion.appliedOf key period).length ≤ 1 := by
  have ordered : ingestion.posts.Pairwise fun first second =>
      first.key = second.key → first.period = second.period → first.appliedIn = none := by
    rw [List.pairwise_iff_getElem]
    intro one other inFirst inSecond before keys periods
    have foundFirst : ingestion.posts[one]? = some ingestion.posts[one] :=
      List.getElem?_eq_getElem inFirst
    have foundSecond : ingestion.posts[other]? = some ingestion.posts[other] :=
      List.getElem?_eq_getElem inSecond
    exact sound.refused one _ foundFirst
      (sound.single one other _ _ before foundFirst foundSecond keys periods)
  have selected := ordered.sublist (List.filter_sublist
    (p := fun post => decide (post.key = key ∧ post.period = period) && post.appliedIn.isSome))
  have member : ∀ post ∈ ingestion.appliedOf key period,
      (post.key = key ∧ post.period = period) ∧ post.appliedIn.isSome = true := by
    intro post inside
    have passes := (List.mem_filter.mp inside).2
    rw [Bool.and_eq_true, decide_eq_true_eq] at passes
    exact passes
  change (ingestion.appliedOf key period).Pairwise _ at selected
  cases applied : ingestion.appliedOf key period with
  | nil => exact Nat.zero_le _
  | cons first rest =>
      cases rest with
      | nil => exact le_rfl
      | cons second rest =>
          rw [applied] at selected member
          have inFirst := member first List.mem_cons_self
          have inSecond := member second (List.mem_cons_of_mem _ List.mem_cons_self)
          have unapplied := (List.pairwise_cons.mp selected).1 second List.mem_cons_self
            (inFirst.1.1.trans inSecond.1.1.symm) (inFirst.1.2.trans inSecond.1.2.symm)
          rw [unapplied] at inFirst
          cases inFirst.2

/-- Of the requests sent between two clears at most one is ever applied, none follows one that may
have been taken, and what is recorded as sent was seen alive. -/
theorem retry_at_most_once (sourceId : JsString) (events : List Event) :
    let ingestion := (initial sourceId).run events
    (∀ key period, (ingestion.appliedOf key period).length ≤ 1) ∧
      (∀ (place : Nat) post, ingestion.posts[place]? = some post → post.outcome ≠ some .rejected →
        ∀ (later : Nat) next, place < later → ingestion.posts[later]? = some next →
          next.key = post.key → next.period ≠ post.period) ∧
      (∀ key sent, ingestion.submitted key = some sent →
        ∃ recording ∈ ingestion.recorded, recording.segment.key = key ∧
          recording.segment.fingerprint = sent.hash) ∧
      ∀ recording ∈ ingestion.recorded, RecordingOk ingestion.responses recording := by
  intro ingestion
  have sound : Sound ingestion none := (sound_initial sourceId).run events
  refine ⟨sound.appliedOf_length, ?_, sound.submissions, sound.recordings⟩
  intro place post found taken later next after foundNext sameKey samePeriod
  exact taken (sound.single place later post next after found foundNext sameKey.symm samePeriod.symm)

/-! ### Requests that take effect after a clear -/

/-- The requests of a key that were applied in a period, whenever they were sent. -/
def appliedWithin (ingestion : Ingestion) (key : RetryKey) (period : Nat) : List RetryPost :=
  ingestion.posts.filter fun post => decide (post.key = key ∧ post.appliedIn = some period)

def sampleSegment : NativePlannedSegment :=
  { id := JsString.ofString "segment"
    fingerprint := JsString.ofString "hash"
    closed := true
    sessionId := JsString.ofString "s"
    sourceId := JsString.ofString "native"
    startSourceMessageId := JsString.ofString "msg"
    endSourceMessageId := JsString.ofString "msg" }

def sampleJob (status : JobStatus) : NativeJobResponse :=
  { id := 1
    segmentId := sampleSegment.id
    sourceFingerprint := some sampleSegment.fingerprint
    projectionVersion := 3
    startSourceMessageId := sampleSegment.startSourceMessageId
    endSourceMessageId := sampleSegment.endSourceMessageId
    status := status
    attempts := 1
    startedAt := none
    finishedAt := none }

def sampleSubmit : Event :=
  .submit
    { sessionId := sampleSegment.sessionId
      targets := []
      boundaries := [] }
    [sampleSegment] 50

/-- The first retry times out; after a clear the job is still failed and is retried again. -/
def lateApplication : List Event :=
  [sampleSubmit, .reply 0 (some (sampleJob .failed)), .retryEnds 0 .unknown, .reply 0 none, .resume 0,
    .clear sampleSegment.sessionId, sampleSubmit, .reply 1 (some (sampleJob .failed)),
    .apply 1, .retryEnds 1 (.answered (some (sampleJob .pending))), .apply 0]

/-- A clear forgets the request that timed out, which may take effect beside the next one. -/
theorem applied_twice_after_clear :
    ¬∀ (sourceId : JsString) (events : List Event) (key : RetryKey) (period : Nat),
      (((initial sourceId).run events).appliedWithin key period).length ≤ 1 := by
  intro atMostOnce
  have bound := atMostOnce sampleSegment.sourceId lateApplication sampleSegment.retryKey 1
  have twice : (((initial sampleSegment.sourceId).run lateApplication).appliedWithin
      sampleSegment.retryKey 1).length = 2 := by
    decide +kernel
  omega

end Ingestion

end Reflection.Plugin
