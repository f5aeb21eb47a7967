/-
The three writers of one native session.

The context hook plans what follows its cursor without a manifest, an idle update
and an inactive sweep plan the whole history with it. One queue per session runs
them one at a time, so a pass sees the state the pass before it left. The server
keeps one target per segment id and turns it into a boundary when it is settled.
-/

import Reflection.Foundation.Runs
import Reflection.Native.Stability

namespace Reflection.Native

/-- One session: its history, the server's entries and the cursor of the hook. -/
structure WriterState where
  records : List NativeCanonicalRecord
  boundaries : List ManifestEntry
  targets : List ManifestEntry
  submittedThrough : Option JsString
deriving DecidableEq

namespace WriterState

def initial : WriterState :=
  { records := []
    boundaries := []
    targets := []
    submittedThrough := none }

/-- What `/v1/sessions/:id/segments` returns. -/
def manifest (state : WriterState) (source : SourceInfo) (sessionId : JsString) :
    NativeSessionSegmentsResponse :=
  { sourceId := source.id
    sessionId := sessionId
    boundaries := state.boundaries
    targets := state.targets }

/-- The entries in force: a target, or a boundary whose id has no target. -/
def effective (state : WriterState) : List ManifestEntry :=
  state.targets ++
    state.boundaries.filter fun boundary => state.targets.all fun target => target.id ≠ boundary.id

/-- The position ranges of the entries in force. -/
def effectiveRanges (state : WriterState) : List (Nat × Nat) :=
  state.effective.filterMap fun entry =>
    match positionOf state.records entry.startSourceMessageId,
      positionOf state.records entry.endSourceMessageId with
    | some start, some stop => some (start, stop)
    | _, _ => none

end WriterState

/-- The server keeps one target per segment id. -/
def postTarget (targets : List ManifestEntry) (entry : ManifestEntry) : List ManifestEntry :=
  targets.filter (fun target => target.id ≠ entry.id) ++ [entry]

/-- Submitting segments one by one. A segment becomes the target of its id, unless exactly
its entry is confirmed already: `Ingestion.submit` then skips it and the server answers a
request for it without a new target. -/
inductive Submits (boundaries : List ManifestEntry) :
    List ManifestEntry → List NativePlannedSegment → List ManifestEntry → Prop
  | done (targets : List ManifestEntry) : Submits boundaries targets [] targets
  | post {targets later : List ManifestEntry} {segment : NativePlannedSegment}
      {rest : List NativePlannedSegment}
      (others : Submits boundaries (postTarget targets (entryOf segment)) rest later) :
      Submits boundaries targets (segment :: rest) later
  | skip {targets later : List ManifestEntry} {segment : NativePlannedSegment}
      {rest : List NativePlannedSegment}
      (confirmed : entryOf segment ∈ targets ∨
        entryOf segment ∈ boundaries ∧ ∀ target ∈ targets, target.id ≠ segment.id)
      (others : Submits boundaries targets rest later) :
      Submits boundaries targets (segment :: rest) later

/-- Where the hook resumes: behind the cursor it kept, or, when it has none in the
history, behind the end of an entry in force or at the start. -/
inductive Resumes (state : WriterState) : Option JsString → Nat → Prop
  | kept {id : JsString} {position : Nat} (cursor : state.submittedThrough = some id)
      (found : positionOf state.records id = some position) :
      Resumes state (some id) (position + 1)
  | summary {entry : ManifestEntry} {position : Nat}
      (lost : ∀ id, state.submittedThrough = some id → positionOf state.records id = none)
      (inForce : entry ∈ state.effective)
      (found : positionOf state.records entry.endSourceMessageId = some position) :
      Resumes state (some entry.endSourceMessageId) (position + 1)
  | restart (lost : ∀ id, state.submittedThrough = some id → positionOf state.records id = none) :
      Resumes state none 0

/-- One pass of a writer, one new record or one settled target. -/
inductive Pass
  | grow (record : NativeCanonicalRecord)
  | hook (start : Nat)
  | update (allowOpenSnapshot : Bool)
  | settle (entry : ManifestEntry)

section Steps

variable (sha256 : JsString → JsString) (source : SourceInfo) (sessionId : JsString)
variable (softLimitChars : Int)

/-- A pass submits some first part of its plan: a request may fail and end it. The hook
moves its cursor over the segments it saw acknowledged. -/
inductive Step : WriterState → Pass → WriterState → Prop
  | grow {state : WriterState} {record : NativeCanonicalRecord}
      (complete : record.complete = true) (matching : record.source.id = record.raw.id)
      (fresh : record.source.id ∉ recordIds state.records) :
      Step state (.grow record) { state with records := state.records ++ [record] }
  | hook {state : WriterState} {cursor : Option JsString} {start posted acknowledged : Nat}
      {segments : List NativePlannedSegment} {targets : List ManifestEntry}
      (resumed : Resumes state cursor start)
      (plan : planNativeSegments sha256 source sessionId (state.records.drop start) none
        softLimitChars false = .ok segments)
      (seen : acknowledged ≤ posted)
      (sent : Submits state.boundaries state.targets ((segments.filter (·.closed)).take posted)
        targets) :
      Step state (.hook start)
        { state with
          targets := targets
          submittedThrough := (((segments.filter (·.closed)).take acknowledged).getLast?.map
            (·.request.endSourceMessageId)).or cursor }
  | update {state : WriterState} {allowOpenSnapshot : Bool} {posted : Nat}
      {segments : List NativePlannedSegment} {targets : List ManifestEntry}
      (plan : planNativeSegments sha256 source sessionId state.records
        (some (state.manifest source sessionId)) softLimitChars allowOpenSnapshot = .ok segments)
      (sent : Submits state.boundaries state.targets (segments.take posted) targets) :
      Step state (.update allowOpenSnapshot) { state with targets := targets }
  | settle {state : WriterState} {entry : ManifestEntry} (desired : entry ∈ state.targets) :
      Step state (.settle entry)
        { state with
          targets := state.targets.filter fun target => target.id ≠ entry.id
          boundaries := (state.boundaries.filter fun boundary => boundary.id ≠ entry.id) ++ [entry] }

/-- Every range in force at or behind `start` that another one follows ends where a packing
started at it would close, unless such a packing closes nothing. -/
def Aligned (state : WriterState) (start : Nat) : Prop :=
  ∀ range ∈ state.effectiveRanges, start ≤ range.1 →
    (∃ later ∈ state.effectiveRanges, range.2 < later.1) →
    (softLimitChars.toNat : ℕ∞) ≤ totalWeight (slice state.records range.1 (range.2 + 1)) ∨
      (softLimitChars.toNat : ℕ∞) < totalWeight (slice state.records range.1 (range.2 + 2)) ∨
      totalWeight (state.records.drop range.1) < softLimitChars.toNat

instance (state : WriterState) (start : Nat) : Decidable (Aligned softLimitChars state start) :=
  inferInstanceAs (Decidable (∀ _ ∈ _, _ → _ → _ ∨ _ ∨ _))

/-- The condition under which a step keeps the ranges of the session apart. -/
def Meets (state : WriterState) : Pass → Prop
  | .grow record => JsString.Trimmed record.source.id
  | .hook start => Aligned softLimitChars state start
  | .update _ | .settle _ => True

instance (state : WriterState) (pass : Pass) : Decidable (Meets softLimitChars state pass) :=
  match pass with
  | .grow record => inferInstanceAs (Decidable (JsString.Trimmed record.source.id))
  | .hook start => inferInstanceAs (Decidable (Aligned softLimitChars state start))
  | .update _ => inferInstanceAs (Decidable True)
  | .settle _ => inferInstanceAs (Decidable True)

/-! ### Executing passes -/

/-- Where the hook resumes when no entry in force helps it. -/
def resumePoint (state : WriterState) : Option JsString × Nat :=
  match state.submittedThrough with
  | none => (none, 0)
  | some id =>
      match positionOf state.records id with
      | none => (none, 0)
      | some position => (some id, position + 1)

theorem resumes_resumePoint (state : WriterState) :
    Resumes state (resumePoint state).1 (resumePoint state).2 := by
  unfold resumePoint
  cases stored : state.submittedThrough with
  | none =>
      apply Resumes.restart
      intro id same
      rw [stored] at same
      cases same
  | some id =>
      dsimp only
      cases found : positionOf state.records id with
      | none =>
          apply Resumes.restart
          intro other same
          rw [stored] at same
          cases same
          exact found
      | some position => exact .kept stored found

def postAll (targets : List ManifestEntry) : List NativePlannedSegment → List ManifestEntry
  | [] => targets
  | segment :: rest => postAll (postTarget targets (entryOf segment)) rest

theorem submits_postAll (boundaries targets : List ManifestEntry)
    (segments : List NativePlannedSegment) :
    Submits boundaries targets segments (postAll targets segments) := by
  induction segments generalizing targets with
  | nil => exact .done targets
  | cons segment rest ih => exact .post (ih _)

/-- One pass whose requests all succeed. -/
def perform (state : WriterState) : Pass → Option WriterState
  | .grow record =>
      if record.complete = true ∧ record.source.id = record.raw.id ∧
          (recordIds state.records).contains record.source.id = false then
        some { state with records := state.records ++ [record] }
      else none
  | .hook start =>
      if start = (resumePoint state).2 then
        match planNativeSegments sha256 source sessionId (state.records.drop start) none
          softLimitChars false with
        | .error _ => none
        | .ok segments =>
            some
              { state with
                targets := postAll state.targets (segments.filter (·.closed))
                submittedThrough := ((segments.filter (·.closed)).getLast?.map
                  (·.request.endSourceMessageId)).or (resumePoint state).1 }
      else none
  | .update allowOpenSnapshot =>
      match planNativeSegments sha256 source sessionId state.records
        (some (state.manifest source sessionId)) softLimitChars allowOpenSnapshot with
      | .error _ => none
      | .ok segments => some { state with targets := postAll state.targets segments }
  | .settle entry =>
      if entry ∈ state.targets then
        some
          { state with
            targets := state.targets.filter fun target => target.id ≠ entry.id
            boundaries := (state.boundaries.filter fun boundary => boundary.id ≠ entry.id) ++
              [entry] }
      else none

theorem perform_step {state later : WriterState} {pass : Pass}
    (performed : perform sha256 source sessionId softLimitChars state pass = some later) :
    Step sha256 source sessionId softLimitChars state pass later := by
  cases pass with
  | grow record =>
      rw [perform] at performed
      split at performed
      · rename_i fine
        cases performed
        exact .grow fine.1 fine.2.1 fun member =>
          Bool.eq_false_iff.mp fine.2.2 (List.contains_iff_mem.mpr member)
      · cases performed
  | hook start =>
      rw [perform] at performed
      split at performed
      · rename_i same
        subst same
        split at performed
        · cases performed
        · rename_i segments plan
          cases performed
          have sent := submits_postAll state.boundaries state.targets
            ((segments.filter (·.closed)).take (segments.filter (·.closed)).length)
          have taken := Step.hook (resumes_resumePoint state) plan (Nat.le_refl _) sent
          rw [List.take_length] at taken
          exact taken
      · cases performed
  | update allowOpenSnapshot =>
      rw [perform] at performed
      split at performed
      · cases performed
      · rename_i segments plan
        cases performed
        have sent := submits_postAll state.boundaries state.targets
          (segments.take segments.length)
        have taken := Step.update plan sent
        rw [List.take_length] at taken
        exact taken
  | settle entry =>
      rw [perform] at performed
      split at performed
      · rename_i desired
        cases performed
        exact .settle desired
      · cases performed

/-- A run of passes, each of them checked first. -/
def performAll (allowed : WriterState → Pass → Bool) (state : WriterState) :
    List Pass → Option WriterState
  | [] => some state
  | pass :: rest =>
      if allowed state pass then
        match perform sha256 source sessionId softLimitChars state pass with
        | none => none
        | some later => performAll allowed later rest
      else none

theorem performAll_reaches {allowed : WriterState → Pass → Bool} {start finish : WriterState}
    {passes : List Pass}
    (performed : performAll sha256 source sessionId softLimitChars allowed start passes =
      some finish) :
    Reaches (Step sha256 source sessionId softLimitChars)
      (fun state pass => allowed state pass = true) start finish := by
  suffices extended : ∀ origin, Reaches (Step sha256 source sessionId softLimitChars)
      (fun state pass => allowed state pass = true) origin start →
      Reaches (Step sha256 source sessionId softLimitChars)
        (fun state pass => allowed state pass = true) origin finish from
    extended start (.refl start)
  intro origin run
  induction passes generalizing start with
  | nil =>
      cases performed
      exact run
  | cons pass rest ih =>
      rw [performAll] at performed
      split at performed
      · rename_i permitted
        split at performed
        · cases performed
        · rename_i later taken
          exact ih performed
            (run.snoc pass (perform_step sha256 source sessionId softLimitChars taken) permitted)
      · cases performed

end Steps

end Reflection.Native
