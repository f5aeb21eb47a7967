/-
What the maps of an ingestion know of the retry requests that were sent.

While a call is inside retryJob no other call is inside it for the same key. A retry request that may
have been taken is remembered, as a pending attempt or as a retried key, until the session is cleared,
and nothing is sent for a key that is remembered.
-/

import Mathlib
import Reflection.Foundation.Lists
import Reflection.Plugin.Ingestion

namespace Reflection.Plugin

namespace Ingestion

/-! ### The invariant -/

/-- The key a call holds the guard of. -/
def Point.holds : Point → Option RetryKey
  | .reconciling frame _ _ => some frame.segment.retryKey
  | .reconciled frame _ _ _ => some frame.segment.retryKey
  | .retryPosting frame _ _ => some frame.segment.retryKey
  | _ => none

structure JobOf (key : RetryKey) (job : NativeJobResponse) : Prop where
  segmentId_eq : job.segmentId = key.segmentId
  sourceFingerprint_eq : job.sourceFingerprint = some key.fingerprint

/-- The attempt at this place is one for the key. -/
def AttemptFor (ingestion : Ingestion) (key : RetryKey) (place : Nat) : Prop :=
  ∃ attempt, ingestion.attempts[place]? = some attempt ∧ JobOf key attempt.original

/-- No other attempt than this one is pending. -/
def OnlyPending (ingestion : Ingestion) (key : RetryKey) (place : Nat) : Prop :=
  ingestion.pendingRetries key = none ∨ ingestion.pendingRetries key = some place

/-- The call has seen this job, and it is the one of its segment. -/
def Shown (ingestion : Ingestion) (place : Nat) (frame : Frame) (job : NativeJobResponse) : Prop :=
  (place, job) ∈ ingestion.responses ∧ JobOf frame.segment.retryKey job

/-- The request of the attempt, still without an outcome. -/
def PostOf (ingestion : Ingestion) (key : RetryKey) (attempt place : Nat) : Prop :=
  ∃ post, ingestion.posts[place]? = some post ∧ post.key = key ∧ post.attempt = attempt ∧
    post.outcome = none

/-- What a call may rely on at its await. -/
def Placed (ingestion : Ingestion) (place : Nat) : Point → Prop
  | .posting _ => True
  | .reconciling frame attempt _ =>
      ingestion.retrying frame.segment.retryKey = true ∧
        AttemptFor ingestion frame.segment.retryKey attempt ∧
        OnlyPending ingestion frame.segment.retryKey attempt
  | .reconciled frame _ _ result =>
      ingestion.retrying frame.segment.retryKey = true ∧
        ∀ job, result = some job →
          ingestion.pendingRetries frame.segment.retryKey = none ∧ Shown ingestion place frame job
  | .retryPosting frame attempt post =>
      ingestion.retrying frame.segment.retryKey = true ∧
        AttemptFor ingestion frame.segment.retryKey attempt ∧
        OnlyPending ingestion frame.segment.retryKey attempt ∧
        ∀ sent, post = some sent → PostOf ingestion frame.segment.retryKey attempt sent
  | .retryDone frame job => Shown ingestion place frame job ∧ job.status ≠ .failed
  | .ended => True

/-- The key is retried, or the attempt is pending and its request was not refused. -/
def Remembered (ingestion : Ingestion) (key : RetryKey) (place : Nat) : Prop :=
  ingestion.retried key = true ∨
    (ingestion.pendingRetries key = some place ∧
      ∃ attempt, ingestion.attempts[place]? = some attempt ∧ attempt.httpFailure = false)

/-- A call recorded its segment for a job that it had seen alive. -/
structure RecordingOk (responses : List (Nat × NativeJobResponse)) (recording : Recording) :
    Prop where
  seen : (recording.call, recording.job) ∈ responses
  job : JobOf recording.segment.retryKey recording.job
  live : recording.job.status.live = true

/-- The state apart from the point of the call that is running. -/
structure Sound (ingestion : Ingestion) (running : Option Nat) : Prop where
  placed : ∀ place call, ingestion.calls[place]? = some call → running ≠ some place →
    Placed ingestion place call.point
  apart : ∀ one other first second key, ingestion.calls[one]? = some first →
    ingestion.calls[other]? = some second → running ≠ some one → running ≠ some other →
    first.point.holds = some key → second.point.holds = some key → one = other
  pending : ∀ key place, ingestion.pendingRetries key = some place → AttemptFor ingestion key place
  remembered : ∀ (place : Nat) post, ingestion.posts[place]? = some post →
    post.period = ingestion.clears post.key.sessionId → post.outcome ≠ some .rejected →
    Remembered ingestion post.key post.attempt
  single : ∀ (one other : Nat) first second, one < other → ingestion.posts[one]? = some first →
    ingestion.posts[other]? = some second → first.key = second.key →
    first.period = second.period → first.outcome = some .rejected
  past : ∀ (place : Nat) post, ingestion.posts[place]? = some post →
    post.period ≤ ingestion.clears post.key.sessionId
  attempted : ∀ (place : Nat) post, ingestion.posts[place]? = some post →
    post.attempt < ingestion.attempts.length
  own : ∀ (one other : Nat) first second, ingestion.posts[one]? = some first →
    ingestion.posts[other]? = some second → first.attempt = second.attempt → one = other
  refused : ∀ (place : Nat) post, ingestion.posts[place]? = some post →
    post.outcome = some .rejected → post.appliedIn = none
  recordings : ∀ recording ∈ ingestion.recorded, RecordingOk ingestion.responses recording
  submissions : ∀ key sent, ingestion.submitted key = some sent →
    ∃ recording ∈ ingestion.recorded, recording.segment.key = key ∧
      recording.segment.fingerprint = sent.hash

/-! ### What other calls keep -/

/-- What a holder of the key relies on is still there. -/
structure Same (ingestion after : Ingestion) (key : RetryKey) : Prop where
  retrying : after.retrying key = ingestion.retrying key
  pending : after.pendingRetries key = none ∨
    after.pendingRetries key = ingestion.pendingRetries key
  attempts : ∀ place, AttemptFor ingestion key place → AttemptFor after key place
  posts : ∀ attempt place, PostOf ingestion key attempt place → PostOf after key attempt place

variable {ingestion after : Ingestion} {place : Nat} {point : Point} {key : RetryKey}

theorem OnlyPending.same {attempt : Nat} (only : OnlyPending ingestion key attempt)
    (same : Same ingestion after key) : OnlyPending after key attempt := by
  rcases same.pending with cleared | equal
  · exact Or.inl cleared
  · unfold OnlyPending
    rw [equal]
    exact only

theorem Shown.mono {frame : Frame} {job : NativeJobResponse}
    (shown : Shown ingestion place frame job)
    (responses : ∀ entry ∈ ingestion.responses, entry ∈ after.responses) :
    Shown after place frame job :=
  ⟨responses _ shown.1, shown.2⟩

theorem Placed.mono (placed : Placed ingestion place point)
    (same : ∀ key, point.holds = some key → Same ingestion after key)
    (responses : ∀ entry ∈ ingestion.responses, entry ∈ after.responses) :
    Placed after place point := by
  cases point with
  | posting frame => trivial
  | reconciling frame attempt caller =>
      have kept := same _ rfl
      obtain ⟨guarded, attempted, only⟩ := placed
      exact ⟨kept.retrying.trans guarded, kept.attempts _ attempted, only.same kept⟩
  | reconciled frame attempt caller result =>
      have kept := same _ rfl
      refine ⟨kept.retrying.trans placed.1, ?_⟩
      intro job isResult
      obtain ⟨nothing, shown⟩ := placed.2 job isResult
      refine ⟨?_, shown.mono responses⟩
      rcases kept.pending with cleared | equal
      · exact cleared
      · exact equal.trans nothing
  | retryPosting frame attempt post =>
      have kept := same _ rfl
      obtain ⟨guarded, attempted, only, sent⟩ := placed
      refine ⟨kept.retrying.trans guarded, kept.attempts _ attempted, only.same kept, ?_⟩
      intro place isSent
      exact kept.posts _ _ (sent place isSent)
  | retryDone frame job => exact ⟨placed.1.mono responses, placed.2⟩
  | ended => trivial

theorem Placed.guarded (placed : Placed ingestion place point) (holds : point.holds = some key) :
    ingestion.retrying key = true := by
  cases point with
  | reconciling frame attempt caller => exact Option.some.inj holds ▸ placed.1
  | reconciled frame attempt caller result => exact Option.some.inj holds ▸ placed.1
  | retryPosting frame attempt post => exact Option.some.inj holds ▸ placed.1
  | posting frame => cases holds
  | retryDone frame job => cases holds
  | ended => cases holds

/-! ### Single updates -/

variable {running : Nat}

/-- No other call than the running one is at work on the key. -/
def Alone (ingestion : Ingestion) (running : Nat) (key : RetryKey) : Prop :=
  ∀ place call, ingestion.calls[place]? = some call → place ≠ running → call.point.holds ≠ some key

theorem Sound.alone_of_unguarded (sound : Sound ingestion (some running))
    (unguarded : ingestion.retrying key = false) : Alone ingestion running key := by
  intro place call found other holds
  have placed := sound.placed place call found (fun same => other (Option.some.inj same).symm)
  rw [placed.guarded holds] at unguarded
  cases unguarded

/-- Other calls do not see an update at a key they do not hold. -/
theorem Sound.placed_elsewhere (sound : Sound ingestion (some running))
    (alone : Alone ingestion running key) (calls : after.calls = ingestion.calls)
    (same : ∀ other, other ≠ key → Same ingestion after other)
    (responses : ∀ entry ∈ ingestion.responses, entry ∈ after.responses) :
    ∀ place call, after.calls[place]? = some call → some running ≠ some place →
      Placed after place call.point := by
  intro place call found other
  rw [calls] at found
  refine (sound.placed place call found other).mono ?_ responses
  intro held holds
  apply same
  intro equal
  exact alone place call found (fun equalPlace => other (congrArg some equalPlace.symm))
    (equal ▸ holds)

theorem Sound.setRetrying (sound : Sound ingestion (some running))
    (alone : Alone ingestion running key) (value : Bool) :
    Sound { ingestion with retrying := Function.update ingestion.retrying key value }
      (some running) :=
  { sound with
    placed := sound.placed_elsewhere alone rfl
      (fun _ different =>
        { retrying := Function.update_of_ne different _ _
          pending := Or.inr rfl
          attempts := fun _ attempted => attempted
          posts := fun _ _ posted => posted })
      (fun _ inside => inside) }

/-- A pending attempt is dropped where its key counts as retried or its request was refused. -/
theorem Sound.dropPending (sound : Sound ingestion (some running))
    (alone : Alone ingestion running key) (retried : RetryKey → Bool)
    (elsewhere : ∀ other, other ≠ key → retried other = ingestion.retried other)
    (kept : ingestion.retried key = true → retried key = true)
    (reason : retried key = true ∨ ∀ place, ingestion.pendingRetries key = some place →
      ∀ attempt, ingestion.attempts[place]? = some attempt → attempt.httpFailure = true) :
    Sound { ingestion with
        retried := retried
        pendingRetries := Function.update ingestion.pendingRetries key none } (some running) :=
  { sound with
    placed := sound.placed_elsewhere alone rfl
      (fun _ different =>
        { retrying := rfl
          pending := Or.inr (Function.update_of_ne different _ _)
          attempts := fun _ attempted => attempted
          posts := fun _ _ posted => posted })
      (fun _ inside => inside)
    pending := by
      intro other place isPending
      change Function.update ingestion.pendingRetries key none other = some place at isPending
      by_cases same : other = key
      · rw [same, Function.update_self] at isPending
        cases isPending
      · rw [Function.update_of_ne same] at isPending
        exact sound.pending other place isPending
    remembered := by
      intro place post found current taken
      rcases sound.remembered place post found current taken with known | ⟨isPending, attempt, at_place, unrefused⟩
      · left
        by_cases same : post.key = key
        · exact same ▸ kept (same ▸ known)
        · exact (elsewhere _ same).trans known
      · by_cases same : post.key = key
        · left
          rcases reason with known | refused
          · exact same ▸ known
          · rw [same] at isPending
            rw [refused _ isPending attempt at_place] at unrefused
            cases unrefused
        · exact Or.inr ⟨(Function.update_of_ne same _ _).trans isPending, attempt, at_place, unrefused⟩ }

private theorem attemptFor_append (attempt : Attempt) {other : RetryKey} {place : Nat}
    (attempted : AttemptFor ingestion other place) (attempts : after.attempts =
      ingestion.attempts ++ [attempt]) : AttemptFor after other place := by
  obtain ⟨old, found, job⟩ := attempted
  refine ⟨old, ?_, job⟩
  rw [attempts, List.getElem?_append_left (List.getElem?_eq_some_iff.mp found).1]
  exact found

/-- Where no attempt is pending and the key is not retried, every request so far was refused. -/
theorem Sound.all_refused (sound : Sound ingestion (some running))
    (unretried : ingestion.retried key = false) (nothing : ingestion.pendingRetries key = none)
    {sent : Nat} {post : RetryPost} (found : ingestion.posts[sent]? = some post)
    (same : post.key = key) (current : post.period = ingestion.clears key.sessionId) :
    post.outcome = some .rejected := by
  by_contra taken
  rcases sound.remembered sent post found (same ▸ current) taken with known | ⟨isPending, _⟩
  · rw [same, unretried] at known
    cases known
  · rw [same, nothing] at isPending
    cases isPending

def withAttempt (ingestion : Ingestion) (key : RetryKey) (job : NativeJobResponse) : Ingestion :=
  { ingestion with
    attempts := ingestion.attempts ++
      [{ original := job
         httpFailure := false }]
    pendingRetries := Function.update ingestion.pendingRetries key (some ingestion.attempts.length) }

theorem withAttempt_for {job : NativeJobResponse} (isJob : JobOf key job) :
    AttemptFor (ingestion.withAttempt key job) key ingestion.attempts.length :=
  ⟨_, List.getElem?_concat_length, isJob⟩

theorem Sound.withAttempt (sound : Sound ingestion (some running))
    (alone : Alone ingestion running key) {job : NativeJobResponse} (isJob : JobOf key job)
    (nothing : ingestion.pendingRetries key = none) :
    Sound (ingestion.withAttempt key job) (some running) :=
  { sound with
    placed := sound.placed_elsewhere alone rfl
      (fun _ different =>
        { retrying := rfl
          pending := Or.inr (Function.update_of_ne different _ _)
          attempts := fun _ attempted => attemptFor_append _ attempted rfl
          posts := fun _ _ posted => posted })
      (fun _ inside => inside)
    pending := by
      intro other place isPending
      change Function.update ingestion.pendingRetries key _ other = some place at isPending
      by_cases same : other = key
      · rw [same, Function.update_self] at isPending
        rw [same, ← Option.some.inj isPending]
        exact withAttempt_for isJob
      · rw [Function.update_of_ne same] at isPending
        exact attemptFor_append _ (sound.pending other place isPending) rfl
    remembered := by
      intro place post found current taken
      rcases sound.remembered place post found current taken with known | ⟨isPending, attempt, at_place, unrefused⟩
      · exact Or.inl known
      · have different : post.key ≠ key := by
          intro same
          rw [same, nothing] at isPending
          cases isPending
        refine Or.inr ⟨(Function.update_of_ne different _ _).trans isPending, attempt, ?_, unrefused⟩
        exact (List.getElem?_append_left (List.getElem?_eq_some_iff.mp at_place).1).trans at_place
    attempted := by
      intro place post found
      have bound := sound.attempted place post found
      change post.attempt < (ingestion.attempts ++ _).length
      rw [List.length_append]
      omega }

/-- A request is sent for a pending attempt that has none, when all requests so far were refused. -/
theorem Sound.withPost (sound : Sound ingestion (some running)) {post : RetryPost}
    (isPending : ingestion.pendingRetries post.key = some post.attempt)
    (unrefused : ∃ attempt, ingestion.attempts[post.attempt]? = some attempt ∧
      attempt.httpFailure = false)
    (unsent : ∀ (place : Nat) other, ingestion.posts[place]? = some other →
      other.attempt ≠ post.attempt)
    (current : post.period = ingestion.clears post.key.sessionId) (fresh : post.outcome = none)
    (refused : ∀ (place : Nat) other, ingestion.posts[place]? = some other →
      other.key = post.key → other.period = ingestion.clears post.key.sessionId →
      other.outcome = some .rejected) :
    Sound { ingestion with posts := ingestion.posts ++ [post] } (some running) :=
  { sound with
    placed := by
      intro place call found other
      refine (sound.placed place call found other).mono ?_ (fun _ inside => inside)
      intro key _
      refine ⟨rfl, Or.inr rfl, fun _ attempted => attempted, ?_⟩
      intro attempt sent posted
      obtain ⟨old, at_place, facts⟩ := posted
      exact ⟨old, (List.getElem?_append_left (List.getElem?_eq_some_iff.mp at_place).1).trans at_place,
        facts⟩
    remembered := by
      intro place other found isCurrent taken
      rcases getElem?_snoc_cases found with old | ⟨_, same⟩
      · exact sound.remembered place other old isCurrent taken
      · rw [same]
        exact Or.inr ⟨isPending, unrefused⟩
    single := by
      intro one other first second before foundFirst foundSecond sameKey samePeriod
      rcases getElem?_snoc_cases foundSecond with oldSecond | ⟨atEnd, same⟩
      · rcases getElem?_snoc_cases foundFirst with oldFirst | ⟨late, _⟩
        · exact sound.single one other first second before oldFirst oldSecond sameKey samePeriod
        · have bound := (List.getElem?_eq_some_iff.mp oldSecond).1
          omega
      · rcases getElem?_snoc_cases foundFirst with oldFirst | ⟨late, _⟩
        · rw [same] at sameKey samePeriod
          exact refused one first oldFirst sameKey (samePeriod.trans current)
        · omega
    past := by
      intro place other found
      rcases getElem?_snoc_cases found with old | ⟨_, same⟩
      · exact sound.past place other old
      · rw [same]
        exact current.le
    attempted := by
      intro place other found
      rcases getElem?_snoc_cases found with old | ⟨_, same⟩
      · exact sound.attempted place other old
      · obtain ⟨attempt, at_place, _⟩ := unrefused
        rw [same]
        exact (List.getElem?_eq_some_iff.mp at_place).1
    own := by
      intro one other first second foundFirst foundSecond sameAttempt
      rcases getElem?_snoc_cases foundFirst with oldFirst | ⟨firstEnd, isFirst⟩
      · rcases getElem?_snoc_cases foundSecond with oldSecond | ⟨_, isSecond⟩
        · exact sound.own one other first second oldFirst oldSecond sameAttempt
        · rw [isSecond] at sameAttempt
          exact absurd sameAttempt (unsent one first oldFirst)
      · rcases getElem?_snoc_cases foundSecond with oldSecond | ⟨secondEnd, _⟩
        · rw [isFirst] at sameAttempt
          exact absurd sameAttempt.symm (unsent other second oldSecond)
        · rw [firstEnd, secondEnd]
    refused := by
      intro place other found isRejected
      rcases getElem?_snoc_cases found with old | ⟨_, same⟩
      · exact sound.refused place other old isRejected
      · rw [same, fresh] at isRejected
        cases isRejected }

theorem Sound.received (sound : Sound ingestion (some running)) (place : Nat)
    (reply : Option NativeJobResponse) : Sound (ingestion.received place reply) (some running) :=
  { sound with
    placed := by
      intro other call found isOther
      refine (sound.placed other call found isOther).mono ?_ ?_
      · intro key _
        exact ⟨rfl, Or.inr rfl, fun _ attempted => attempted, fun _ _ posted => posted⟩
      · intro entry inside
        exact List.mem_append_left _ inside
    recordings := by
      intro recording inside
      have ok := sound.recordings recording inside
      exact ⟨List.mem_append_left _ ok.seen, ok.job, ok.live⟩ }

theorem Placed.received (placed : Placed ingestion place point) (other : Nat)
    (reply : Option NativeJobResponse) : Placed (ingestion.received other reply) place point :=
  placed.mono
    (fun _ _ => ⟨rfl, Or.inr rfl, fun _ attempted => attempted, fun _ _ posted => posted⟩)
    (fun _ inside => List.mem_append_left _ inside)

theorem received_mem (job : NativeJobResponse) :
    (place, job) ∈ (ingestion.received place (some job)).responses :=
  List.mem_append_right _ (List.mem_singleton_self _)

/-- Requests keep all but their outcome. -/
theorem endPost_found {post : Nat} {outcome : RetryOutcome} {sent : Nat} {ended : RetryPost}
    (found : (ingestion.endPost (some post) outcome).posts[sent]? = some ended) :
    ∃ before, ingestion.posts[sent]? = some before ∧ ended.key = before.key ∧
      ended.attempt = before.attempt ∧ ended.period = before.period ∧
      ended.appliedIn = before.appliedIn ∧
      ended.outcome = if sent = post then some outcome else before.outcome := by
  change (ingestion.posts.modify post _)[sent]? = some ended at found
  rw [List.getElem?_modify] at found
  cases lookup : ingestion.posts[sent]? with
  | none =>
      rw [lookup] at found
      cases found
  | some before =>
      rw [lookup] at found
      refine ⟨before, rfl, ?_⟩
      rw [← Option.some.inj found]
      by_cases same : post = sent
      · simp [same]
      · simp [same, Ne.symm same]

theorem Sound.endPost (sound : Sound ingestion (some running)) (alone : Alone ingestion running key)
    {attempt : Nat} {post : Option Nat} {outcome : RetryOutcome}
    (posted : ∀ sent, post = some sent → PostOf ingestion key attempt sent)
    (possible : outcome.possible (post.bind fun sent => ingestion.posts[sent]?) = true) :
    Sound (ingestion.endPost post outcome) (some running) := by
  cases post with
  | none => exact sound
  | some sent =>
      obtain ⟨request, lookup, sameKey, sameAttempt, unanswered⟩ := posted sent rfl
      refine { sound with
        placed := ?_
        remembered := ?_
        single := ?_
        past := ?_
        attempted := ?_
        own := ?_
        refused := ?_ }
      · refine sound.placed_elsewhere alone rfl ?_ (fun _ inside => inside)
        intro other different
        refine ⟨rfl, Or.inr rfl, fun _ attempted => attempted, ?_⟩
        intro otherAttempt place known
        obtain ⟨old, at_place, isKey, isAttempt, open_⟩ := known
        have elsewhere : sent ≠ place := by
          intro same
          rw [← same, lookup] at at_place
          rw [← Option.some.inj at_place] at isKey
          exact different (isKey.symm.trans sameKey)
        refine ⟨old, ?_, isKey, isAttempt, open_⟩
        change (ingestion.posts.modify sent _)[place]? = some old
        rw [List.getElem?_modify, at_place, Option.map_eq_map, Option.map_some, if_neg elsewhere]
      · intro place ended found current taken
        obtain ⟨before, at_place, isKey, isAttempt, isPeriod, _, isOutcome⟩ := endPost_found found
        rw [isKey, isPeriod] at current
        rw [isKey, isAttempt]
        refine sound.remembered place before at_place current ?_
        by_cases same : place = sent
        · rw [same, lookup] at at_place
          rw [← Option.some.inj at_place, unanswered]
          intro impossible
          cases impossible
        · rw [if_neg same] at isOutcome
          rw [← isOutcome]
          exact taken
      · intro one other first second before foundFirst foundSecond keys periods
        obtain ⟨oldFirst, atFirst, keyFirst, _, periodFirst, _, outcomeFirst⟩ := endPost_found foundFirst
        obtain ⟨oldSecond, atSecond, keySecond, _, periodSecond, _, _⟩ := endPost_found foundSecond
        have refusedFirst := sound.single one other oldFirst oldSecond before atFirst atSecond
          (keyFirst ▸ keySecond ▸ keys) (periodFirst ▸ periodSecond ▸ periods)
        by_cases same : one = sent
        · rw [same, lookup] at atFirst
          rw [← Option.some.inj atFirst, unanswered] at refusedFirst
          cases refusedFirst
        · rw [outcomeFirst, if_neg same]
          exact refusedFirst
      · intro place ended found
        obtain ⟨before, at_place, isKey, _, isPeriod, _, _⟩ := endPost_found found
        rw [isKey, isPeriod]
        exact sound.past place before at_place
      · intro place ended found
        obtain ⟨before, at_place, _, isAttempt, _, _, _⟩ := endPost_found found
        rw [isAttempt]
        exact sound.attempted place before at_place
      · intro one other first second foundFirst foundSecond attempts
        obtain ⟨oldFirst, atFirst, _, attemptFirst, _, _, _⟩ := endPost_found foundFirst
        obtain ⟨oldSecond, atSecond, _, attemptSecond, _, _, _⟩ := endPost_found foundSecond
        exact sound.own one other oldFirst oldSecond atFirst atSecond
          (attemptFirst ▸ attemptSecond ▸ attempts)
      · intro place ended found isRejected
        obtain ⟨before, at_place, _, _, _, isApplied, isOutcome⟩ := endPost_found found
        rw [isApplied]
        by_cases same : place = sent
        · rw [same, lookup] at at_place
          rw [if_pos same, isRejected] at isOutcome
          have isIt : outcome = .rejected := (Option.some.inj isOutcome).symm
          rw [isIt, Option.bind_some, lookup] at possible
          rw [← Option.some.inj at_place]
          exact Option.isNone_iff_eq_none.mp (by simpa [RetryOutcome.possible] using possible)
        · rw [if_neg same] at isOutcome
          exact sound.refused place before at_place (isOutcome ▸ isRejected)

/-- A refused request leaves no other request of its attempt. -/
theorem Sound.endPost_refused (sound : Sound ingestion (some running)) {attempt : Nat}
    {post : Option Nat} {outcome : RetryOutcome}
    (posted : ∀ sent, post = some sent → PostOf ingestion key attempt sent)
    (possible : outcome.possible (post.bind fun sent => ingestion.posts[sent]?) = true)
    (isRejected : outcome = .rejected) :
    ∀ (place : Nat) other, (ingestion.endPost post outcome).posts[place]? = some other →
      other.attempt = attempt → other.outcome = some .rejected := by
  intro place other found sameAttempt
  cases post with
  | none =>
      rw [isRejected] at possible
      cases possible
  | some sent =>
      obtain ⟨request, lookup, _, isAttempt, _⟩ := posted sent rfl
      obtain ⟨before, at_place, _, attemptKept, _, _, isOutcome⟩ := endPost_found found
      have same : place = sent := sound.own place sent before request at_place lookup
        (attemptKept.symm.trans (sameAttempt.trans isAttempt.symm))
      rw [isOutcome, if_pos same, isRejected]

/-- An attempt's request was refused: only that request relied on the attempt. -/
theorem Sound.markFailure (sound : Sound ingestion (some running)) {attempt : Nat}
    {httpFailure : Bool}
    (refused : httpFailure = true → ∀ (place : Nat) post, ingestion.posts[place]? = some post →
      post.attempt = attempt → post.outcome = some .rejected) :
    Sound { ingestion with
        attempts := ingestion.attempts.modify attempt fun old =>
          { old with httpFailure := httpFailure } } (some running) := by
  have keeps : ∀ key place, AttemptFor ingestion key place → AttemptFor { ingestion with
      attempts := ingestion.attempts.modify attempt fun old =>
        { old with httpFailure := httpFailure } } key place := by
    intro key place attempted
    obtain ⟨old, found, job⟩ := attempted
    refine ⟨if attempt = place then { old with httpFailure := httpFailure } else old, ?_, ?_⟩
    · change (ingestion.attempts.modify attempt _)[place]? = _
      rw [List.getElem?_modify, found]
      split <;> rfl
    · split <;> exact job
  refine { sound with
    placed := ?_
    pending := fun key place isPending => keeps key place (sound.pending key place isPending)
    remembered := ?_
    attempted := ?_ }
  · intro place call found other
    refine (sound.placed place call found other).mono ?_ (fun _ inside => inside)
    intro key _
    exact ⟨rfl, Or.inr rfl, fun place attempted => keeps key place attempted,
      fun _ _ posted => posted⟩
  · intro place post found current taken
    rcases sound.remembered place post found current taken with known | ⟨isPending, old, at_place, unrefused⟩
    · exact Or.inl known
    · refine Or.inr ⟨isPending, if attempt = post.attempt then { old with httpFailure := httpFailure }
        else old, ?_, ?_⟩
      · change (ingestion.attempts.modify attempt _)[post.attempt]? = _
        rw [List.getElem?_modify, at_place]
        split <;> rfl
      · split
        · rename_i same
          cases isFailure : httpFailure with
          | false => rfl
          | true => exact absurd (refused isFailure place post found same.symm) taken
        · exact unrefused
  · intro place post found
    change post.attempt < (ingestion.attempts.modify attempt _).length
    rw [List.length_modify]
    exact sound.attempted place post found

end Ingestion

end Reflection.Plugin
