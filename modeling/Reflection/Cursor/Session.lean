/-
Successive projections of one session.

The history grows by appended messages, and every call receives what the previous one
reported. Summaries, cached block, limits and estimates of a call are its own.
-/

import Reflection.Foundation.Runs
import Reflection.Cursor.Selection

namespace Reflection.Cursor

section Session

variable {N : Type} [Add N] [Sub N] [NatCast N] [LE N] [DecidableLE N] [LT N] [DecidableLT N]

/-- The history and what the last call reported. -/
structure Session (N : Type) where
  messages : List Message
  projectedThrough : Option JsString
  /-- `undefined`, `null` or a message id. -/
  projectedAnchor : Option (Option JsString)
  last : Option (Projection N)

structure Call (N : Type) where
  estimators : Estimators N
  input : ProjectionInput N

/-- A session no call of which is known. Its anchor is `undefined`. -/
def Session.fresh (messages : List Message) (projectedThrough : Option JsString) : Session N :=
  { messages := messages
    projectedThrough := projectedThrough
    projectedAnchor := none
    last := none }

def Session.recorded (messages : List Message) (result : Projection N) : Session N :=
  { messages := messages
    projectedThrough := result.projectedThrough
    projectedAnchor := some result.projectedAnchor
    last := some result }

/-- One call on the grown history. -/
structure Step (before : Session N) (call : Call N) (after : Session N) : Prop where
  grown : ∃ appended, call.input.messages = before.messages ++ appended
  projectedThrough : call.input.projectedThrough = before.projectedThrough
  projectedAnchor : call.input.projectedAnchor = before.projectedAnchor
  returned : ∃ result, selectCursorProjection call.estimators call.input = some result ∧
    after = Session.recorded call.input.messages result

/-- The input of a call on the grown history. -/
def Session.input (session : Session N) (appended : List Message) (input : ProjectionInput N) :
    ProjectionInput N :=
  { input with
    messages := session.messages ++ appended
    projectedThrough := session.projectedThrough
    projectedAnchor := session.projectedAnchor }

def Session.project (session : Session N) (appended : List Message) (call : Call N) :
    Option (Session N) :=
  (selectCursorProjection call.estimators (session.input appended call.input)).map
    (Session.recorded (session.messages ++ appended))

theorem Session.project_step {session after : Session N} {appended : List Message} {call : Call N}
    (projected : session.project appended call = some after) :
    Step session { call with input := session.input appended call.input } after := by
  obtain ⟨result, selected, same⟩ := Option.map_eq_some_iff.mp projected
  exact ⟨⟨appended, rfl⟩, rfl, rfl, result, selected, same.symm⟩

end Session

end Reflection.Cursor
