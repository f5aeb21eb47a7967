/-
The backfill script over the library that cuts sessions.

Boundaries and targets of a manifest are handed to the library as committed boundaries, and what it
returns is planned. A target that nothing keeps out is the span of a segment, so a plan does not miss it.
-/

import Reflection.Scripts.SegmentPlan
import Reflection.Segments.Undisputed

namespace Reflection.Backfill

open JsString Segments

variable (numbers : Numbers)

/-! ### The library -/

variable {numbers} in
def isSafeSegmentSnapshot (segment : Backfill.ReflectionSegment) (messages : List (OpenCodeMessage numbers)) : Bool :=
  if segment.closed || decide (segment.sourceBoundaryVersion = .v1) then true
  else
    match segment.endSourceMessageId with
    | none => false
    | some endSource => (messages.find? fun message => message.id == endSource).any isCompletedAssistantMessage

variable {numbers}

end Reflection.Backfill
