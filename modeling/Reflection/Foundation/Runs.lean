/-
Runs of labelled transition systems under a condition on their steps.
-/

import Mathlib

namespace Reflection

variable {State Label : Type}

/-- `Reaches step allowed start finish`: some run of allowed steps leads there. The
condition may look at the state before a step and at its label. -/
def Reaches (step : State → Label → State → Prop) (allowed : State → Label → Prop) :
    State → State → Prop :=
  Relation.ReflTransGen fun before after => ∃ label, step before label after ∧ allowed before label

namespace Reaches

variable {step : State → Label → State → Prop} {allowed : State → Label → Prop}

theorem refl (state : State) : Reaches step allowed state state := Relation.ReflTransGen.refl

theorem snoc {start middle finish : State} (run : Reaches step allowed start middle)
    (label : Label) (next : step middle label finish) (permitted : allowed middle label) :
    Reaches step allowed start finish :=
  Relation.ReflTransGen.tail run ⟨label, next, permitted⟩

/-- A run of steps that a weaker condition allows too. -/
theorem mono {other : State → Label → Prop}
    (weaker : ∀ state label, allowed state label → other state label) {start finish : State}
    (run : Reaches step allowed start finish) : Reaches step other start finish := by
  induction run with
  | refl => exact Relation.ReflTransGen.refl
  | tail _ next ih =>
      rcases next with ⟨label, taken, permitted⟩
      exact Relation.ReflTransGen.tail ih ⟨label, taken, weaker _ _ permitted⟩

/-- What holds at the start and survives every allowed step holds wherever a run leads. -/
theorem invariant {holds : State → Prop}
    (preserved : ∀ before label after, holds before → step before label after →
      allowed before label → holds after)
    {start finish : State} (run : Reaches step allowed start finish) (atStart : holds start) :
    holds finish := by
  induction run with
  | refl => exact atStart
  | tail _ next ih =>
      rcases next with ⟨label, taken, permitted⟩
      exact preserved _ label _ ih taken permitted

end Reaches

end Reflection
