/-
Weakest preconditions of programs with a state and exceptions.

A program ends in a result or an error, and in the state it left: a failure undoes nothing. The
weakest precondition of two postconditions, one for each way to end, is computed along the
program. Facts that every part keeps, whichever way it ends, are relations of the states before
and behind.
-/

import Mathlib

namespace Reflection

variable {ε σ α β : Type}

/-- The program ends in `ok` with its result or in `fail` with its error. -/
def wp (program : EStateM ε σ α) (ok : α → σ → Prop) (fail : ε → σ → Prop) (state : σ) : Prop :=
  match program state with
  | .ok result after => ok result after
  | .error error after => fail error after

section Rules

variable {ok : α → σ → Prop} {fail : ε → σ → Prop} {state : σ}

@[simp] theorem wp_pure (result : α) :
    wp (pure result : EStateM ε σ α) ok fail state ↔ ok result state := Iff.rfl

@[simp] theorem wp_throw (error : ε) :
    wp (throw error : EStateM ε σ α) ok fail state ↔ fail error state := Iff.rfl

theorem wp_bind {program : EStateM ε σ α} {next : α → EStateM ε σ β} {ok : β → σ → Prop} :
    wp (program >>= next) ok fail state ↔
      wp program (fun result => wp (next result) ok fail) fail state := by
  unfold wp
  change (match EStateM.bind program next state with
    | .ok result after => ok result after
    | .error error after => fail error after) ↔ _
  unfold EStateM.bind
  cases program state <;> rfl

/-- What a handler starts from is the state the failure left. -/
theorem wp_tryCatch {program : EStateM ε σ α} {handler : ε → EStateM ε σ α} :
    wp (tryCatch program handler) ok fail state ↔
      wp program ok (fun error => wp (handler error) ok fail) state := by
  unfold wp
  change (match EStateM.tryCatch program handler state with
    | .ok result after => ok result after
    | .error error after => fail error after) ↔ _
  unfold EStateM.tryCatch
  cases program state <;> rfl

theorem wp_get {ok : σ → σ → Prop} :
    wp (get : EStateM ε σ σ) ok fail state ↔ ok state state := Iff.rfl

theorem wp_set {next : σ} {ok : PUnit → σ → Prop} :
    wp (set next : EStateM ε σ PUnit) ok fail state ↔ ok ⟨⟩ next := Iff.rfl

theorem wp_modify {change : σ → σ} {ok : PUnit → σ → Prop} :
    wp (modify change : EStateM ε σ PUnit) ok fail state ↔ ok ⟨⟩ (change state) := Iff.rfl

/-- Weaker postconditions. -/
theorem wp_mono {program : EStateM ε σ α} {ok' : α → σ → Prop} {fail' : ε → σ → Prop}
    (holds : wp program ok fail state) (results : ∀ result after, ok result after → ok' result after)
    (errors : ∀ error after, fail error after → fail' error after) :
    wp program ok' fail' state := by
  unfold wp at holds ⊢
  cases ran : program state with
  | ok result after =>
      rw [ran] at holds
      exact results result after holds
  | error error after =>
      rw [ran] at holds
      exact errors error after holds

theorem wp_and {program : EStateM ε σ α} {ok' : α → σ → Prop} {fail' : ε → σ → Prop}
    (one : wp program ok fail state) (other : wp program ok' fail' state) :
    wp program (fun result after => ok result after ∧ ok' result after)
      (fun error after => fail error after ∧ fail' error after) state := by
  unfold wp at one other ⊢
  cases ran : program state with
  | ok result after =>
      rw [ran] at one other
      exact ⟨one, other⟩
  | error error after =>
      rw [ran] at one other
      exact ⟨one, other⟩

/-- What the weakest precondition says of a program that returned. -/
theorem wp_ok {program : EStateM ε σ α} {result : α} {after : σ} (holds : wp program ok fail state)
    (ran : program state = .ok result after) : ok result after := by
  unfold wp at holds
  rw [ran] at holds
  exact holds

end Rules

/-! ### What every part of a program keeps -/

/-- However the program ends, the state it leaves is related to the one it met. -/
def Keeps (related : σ → σ → Prop) (program : EStateM ε σ α) : Prop :=
  ∀ state, wp program (fun _ after => related state after) (fun _ after => related state after) state

namespace Keeps

variable {related : σ → σ → Prop}

section Refl

variable [Std.Refl related]

theorem pure (result : α) : Keeps (ε := ε) related (pure result : EStateM ε σ α) :=
  fun state => Std.Refl.refl state

theorem throw (error : ε) : Keeps related (throw error : EStateM ε σ α) :=
  fun state => Std.Refl.refl state

theorem get : Keeps related (get : EStateM ε σ σ) := fun state => Std.Refl.refl state

end Refl

section Trans

variable [IsTrans σ related]

theorem bind {program : EStateM ε σ α} {next : α → EStateM ε σ β} (first : Keeps related program)
    (others : ∀ result, Keeps related (next result)) : Keeps related (program >>= next) := by
  intro state
  rw [wp_bind]
  refine wp_mono (first state) (fun result middle reached => ?_) fun _ _ reached => reached
  exact wp_mono (others result middle)
    (fun _ after later => IsTrans.trans state middle after reached later)
    (fun _ after later => IsTrans.trans state middle after reached later)

theorem tryCatch {program : EStateM ε σ α} {handler : ε → EStateM ε σ α} (first : Keeps related program)
    (others : ∀ error, Keeps related (handler error)) : Keeps related (tryCatch program handler) := by
  intro state
  rw [wp_tryCatch]
  refine wp_mono (first state) (fun _ _ reached => reached) fun error middle reached => ?_
  exact wp_mono (others error middle)
    (fun _ after later => IsTrans.trans state middle after reached later)
    (fun _ after later => IsTrans.trans state middle after reached later)

end Trans

theorem modify {change : σ → σ} (each : ∀ state, related state (change state)) :
    Keeps (ε := ε) related (modify change : EStateM ε σ PUnit) := each

theorem ite {condition : Prop} [Decidable condition] {one other : EStateM ε σ α}
    (yes : condition → Keeps related one) (no : ¬ condition → Keeps related other) :
    Keeps related (if condition then one else other) := by
  split
  · rename_i holds
    exact yes holds
  · rename_i fails
    exact no fails

/-- A weaker relation is kept too. -/
theorem mono {weaker : σ → σ → Prop} {program : EStateM ε σ α} (kept : Keeps related program)
    (weaken : ∀ before after, related before after → weaker before after) : Keeps weaker program :=
  fun state => wp_mono (kept state) (fun _ after => weaken state after) fun _ after => weaken state after

end Keeps

end Reflection
