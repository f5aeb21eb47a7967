/-
Records that refer to targets, and targets that are kept only while a record refers to them.

Some records give way to others, targets are opened for the new ones, and of the targets that were
let go of only those stay that a record still refers to.
-/

import Mathlib

namespace Reflection

variable {Record Target : Type}

structure ReferenceGraph (Record Target : Type) where
  records : Set Record
  targets : Set Target

namespace ReferenceGraph

variable {refers : Record → Target → Prop} {graph : ReferenceGraph Record Target}

/-- No reference dangles, and no target is left over. -/
structure Sound (refers : Record → Target → Prop) (graph : ReferenceGraph Record Target) : Prop where
  closed : ∀ record ∈ graph.records, ∀ target, refers record target → target ∈ graph.targets
  needed : ∀ target ∈ graph.targets, ∃ record ∈ graph.records, refers record target

/-- The records that stay when some are dropped and others added. -/
def recordsAfter (graph : ReferenceGraph Record Target) (dropped added : Set Record) : Set Record :=
  (graph.records \ dropped) ∪ added

/-- The targets that stay: of those let go of, the ones a record still refers to. -/
def targetsAfter (refers : Record → Target → Prop) (graph : ReferenceGraph Record Target)
    (dropped added : Set Record) (opened released : Set Target) : Set Target :=
  { target | target ∈ graph.targets ∪ opened ∧
    (target ∈ released → ∃ record ∈ graph.recordsAfter dropped added, refers record target) }

def replace (refers : Record → Target → Prop) (graph : ReferenceGraph Record Target)
    (dropped added : Set Record) (opened released : Set Target) : ReferenceGraph Record Target :=
  { records := graph.recordsAfter dropped added
    targets := graph.targetsAfter refers dropped added opened released }

variable {dropped added : Set Record} {opened released : Set Target}

/-- New records refer to what is there or opened, what is opened is referred to, and whatever a
dropped record referred to is let go of. -/
theorem Sound.replace (sound : graph.Sound refers)
    (known : ∀ record ∈ added, ∀ target, refers record target → target ∈ graph.targets ∪ opened)
    (used : ∀ target ∈ opened, ∃ record ∈ added, refers record target)
    (freed : ∀ record ∈ graph.records, record ∈ dropped → ∀ target, refers record target → target ∈ released) :
    (graph.replace refers dropped added opened released).Sound refers := by
  constructor
  · intro record inside target isReferred
    refine ⟨?_, fun _ => ⟨record, inside, isReferred⟩⟩
    rcases inside with ⟨isOld, _⟩ | isNew
    · exact Or.inl (sound.closed record isOld target isReferred)
    · exact known record isNew target isReferred
  · rintro target ⟨isOld | isOpened, isKept⟩
    · obtain ⟨record, isRecord, isReferred⟩ := sound.needed target isOld
      by_cases isDropped : record ∈ dropped
      · exact isKept (freed record isRecord isDropped target isReferred)
      · exact ⟨record, Or.inl ⟨isRecord, isDropped⟩, isReferred⟩
    · obtain ⟨record, isAdded, isReferred⟩ := used target isOpened
      exact ⟨record, Or.inr isAdded, isReferred⟩

/-- Whatever is not let go of stays. -/
theorem targets_kept {target : Target} (inside : target ∈ graph.targets) (held : target ∉ released) :
    target ∈ (graph.replace refers dropped added opened released).targets :=
  ⟨Or.inl inside, fun freed => absurd freed held⟩

end ReferenceGraph

end Reflection
