/-
Computations that return a value or throw.
-/

import Reflection.Foundation.Lists

namespace Reflection

/-- A bind that succeeded, taken apart. -/
theorem except_bind_ok {ε α β : Type} {first : Except ε α} {next : α → Except ε β} {result : β}
    (succeeded : (first >>= next) = .ok result) :
    ∃ value, first = .ok value ∧ next value = .ok result := by
  cases first with
  | error error => cases succeeded
  | ok value => exact ⟨value, rfl, succeeded⟩

@[simp] theorem except_ok_bind {ε α β : Type} (value : α) (next : α → Except ε β) :
    ((.ok value : Except ε α) >>= next) = next value := rfl

@[simp] theorem except_error_bind {ε α β : Type} (error : ε) (next : α → Except ε β) :
    ((.error error : Except ε α) >>= next) = .error error := rfl

@[simp] theorem except_pure {ε α : Type} (value : α) :
    (pure value : Except ε α) = .ok value := rfl

/-- A loop of checks passes when each check does. -/
theorem forM_ok {ε α : Type} {check : α → Except ε Unit} {items : List α}
    (each : ∀ item ∈ items, check item = .ok ()) : items.forM check = .ok () := by
  induction items with
  | nil => rfl
  | cons head rest ih =>
      change (check head >>= fun _ => rest.forM check) = .ok ()
      rw [each head List.mem_cons_self, except_ok_bind]
      exact ih fun item member => each item (List.mem_cons_of_mem _ member)

/-- A list of computations returns when each does, and then their values. -/
theorem mapM_ok_iff {ε α β : Type} {f : α → Except ε β} {items : List α} {results : List β} :
    items.mapM f = .ok results ↔ List.Forall₂ (fun item result => f item = .ok result) items results := by
  induction items generalizing results with
  | nil =>
      rw [List.mapM_nil]
      constructor
      · intro same
        cases same
        exact .nil
      · intro none
        cases none
        rfl
  | cons item rest ih =>
      rw [List.mapM_cons]
      constructor
      · intro succeeded
        rcases except_bind_ok succeeded with ⟨first, isFirst, remaining⟩
        rcases except_bind_ok remaining with ⟨others, areOthers, same⟩
        cases same
        exact .cons isFirst (ih.mp areOthers)
      · intro all
        cases all with
        | cons isFirst areOthers =>
            rw [isFirst, except_ok_bind, ih.mpr areOthers]
            rfl

theorem exists_mapM_ok {ε α β : Type} {f : α → Except ε β} {items : List α} :
    (∃ results, items.mapM f = .ok results) ↔ ∀ item ∈ items, ∃ result, f item = .ok result := by
  constructor
  · rintro ⟨results, succeeded⟩ item inside
    rcases exists_right_of_forall₂ (mapM_ok_iff.mp succeeded) inside with ⟨result, _, isResult⟩
    exact ⟨result, isResult⟩
  · intro each
    induction items with
    | nil => exact ⟨[], rfl⟩
    | cons item rest ih =>
        rcases each item List.mem_cons_self with ⟨first, isFirst⟩
        rcases ih fun other inside => each other (List.mem_cons_of_mem _ inside) with ⟨others, areOthers⟩
        exact ⟨first :: others, mapM_ok_iff.mpr (.cons isFirst (mapM_ok_iff.mp areOthers))⟩

/-- A list of computations that throws does so at one of them. -/
theorem mapM_error {ε α β : Type} {f : α → Except ε β} {items : List α} {error : ε}
    (failed : items.mapM f = .error error) : ∃ item ∈ items, f item = .error error := by
  induction items with
  | nil => cases failed
  | cons item rest ih =>
      rw [List.mapM_cons] at failed
      cases first : f item with
      | error other =>
          rw [first, except_error_bind] at failed
          cases failed
          exact ⟨item, List.mem_cons_self, first⟩
      | ok value =>
          rw [first, except_ok_bind] at failed
          cases others : rest.mapM f with
          | error other =>
              rw [others, except_error_bind] at failed
              cases failed
              obtain ⟨thrower, inside, throws⟩ := ih others
              exact ⟨thrower, List.mem_cons_of_mem _ inside, throws⟩
          | ok values =>
              rw [others] at failed
              cases failed

/-- In another order the same computations return the same results, in some order. -/
theorem mapM_perm {ε α β : Type} {f : α → Except ε β} {items others : List α} (perm : items.Perm others)
    {results : List β} (returned : items.mapM f = .ok results) :
    ∃ more, others.mapM f = .ok more ∧ results.Perm more := by
  induction perm generalizing results with
  | nil => exact ⟨results, returned, .refl _⟩
  | cons item _ ih =>
      rw [List.mapM_cons] at returned
      obtain ⟨first, isFirst, returned⟩ := except_bind_ok returned
      obtain ⟨rest, areRest, same⟩ := except_bind_ok returned
      cases same
      obtain ⟨more, areMore, restPerm⟩ := ih areRest
      refine ⟨first :: more, ?_, restPerm.cons first⟩
      rw [List.mapM_cons, isFirst, except_ok_bind, areMore]
      rfl
  | swap one other rest =>
      rw [List.mapM_cons] at returned
      obtain ⟨second, isSecond, returned⟩ := except_bind_ok returned
      obtain ⟨behind, areBehind, same⟩ := except_bind_ok returned
      cases same
      rw [List.mapM_cons] at areBehind
      obtain ⟨first, isFirst, areBehind⟩ := except_bind_ok areBehind
      obtain ⟨last, areLast, same⟩ := except_bind_ok areBehind
      cases same
      refine ⟨first :: second :: last, ?_, .swap first second last⟩
      rw [List.mapM_cons, isFirst, except_ok_bind, List.mapM_cons, isSecond, except_ok_bind, areLast]
      rfl
  | trans _ _ ih more =>
      obtain ⟨between, areBetween, firstPerm⟩ := ih returned
      obtain ⟨last, areLast, secondPerm⟩ := more areBetween
      exact ⟨last, areLast, firstPerm.trans secondPerm⟩

/-- A loop over an accumulator succeeds when each round keeps what holds of the items done so
far and the accumulator. -/
theorem foldlM_ok {ε α β : Type} {step : β → α → Except ε β} {holds : List α → β → Prop}
    {items : List α} {start : β}
    (round : ∀ done item state, item ∈ items → holds done state →
      ∃ next, step state item = .ok next ∧ holds (done ++ [item]) next)
    (atStart : holds [] start) :
    ∃ final, items.foldlM step start = .ok final ∧ holds items final := by
  suffices general : ∀ rest done state, (∀ item ∈ rest, item ∈ items) → holds done state →
      ∃ final, rest.foldlM step state = .ok final ∧ holds (done ++ rest) final by
    have whole := general items [] start (fun _ member => member) atStart
    rw [List.nil_append] at whole
    exact whole
  intro rest
  induction rest with
  | nil =>
      intro done state _ reached
      rw [List.append_nil]
      exact ⟨state, rfl, reached⟩
  | cons item rest ih =>
      intro done state members reached
      rcases round done item state (members item List.mem_cons_self) reached with
        ⟨next, stepped, held⟩
      rcases ih (done ++ [item]) next
        (fun other member => members other (List.mem_cons_of_mem _ member)) held with
        ⟨final, folded, finished⟩
      refine ⟨final, ?_, ?_⟩
      · rw [List.foldlM_cons, stepped, except_ok_bind, folded]
      · rw [List.append_assoc] at finished
        exact finished

/-- What holds at the start of a loop and survives its rounds holds where the loop returns. -/
theorem foldlM_invariant {ε α β : Type} {step : β → α → Except ε β} {holds : List α → β → Prop}
    {items : List α} {start final : β}
    (round : ∀ done item rest state next, items = done ++ item :: rest → holds done state →
      step state item = .ok next → holds (done ++ [item]) next)
    (atStart : holds [] start) (folded : items.foldlM step start = .ok final) : holds items final := by
  suffices general : ∀ rest done state, items = done ++ rest → holds done state →
      rest.foldlM step state = .ok final → holds items final by
    exact general items [] start rfl atStart folded
  intro rest
  induction rest with
  | nil =>
      intro done state whole reached returned
      cases returned
      rw [whole, List.append_nil]
      exact reached
  | cons item rest ih =>
      intro done state whole reached returned
      rw [List.foldlM_cons] at returned
      rcases except_bind_ok returned with ⟨next, stepped, remaining⟩
      apply ih (done ++ [item]) next
      · rw [whole, List.append_assoc]
        rfl
      · exact round done item rest state next whole reached stepped
      · exact remaining

/-- Such a loop returns when no round that it reaches fails. -/
theorem foldlM_returns {ε α β : Type} {step : β → α → Except ε β} {holds : List α → β → Prop}
    {items : List α} {start : β}
    (round : ∀ done item rest state next, items = done ++ item :: rest → holds done state →
      step state item = .ok next → holds (done ++ [item]) next)
    (returns : ∀ done item rest state, items = done ++ item :: rest → holds done state →
      ∃ next, step state item = .ok next)
    (atStart : holds [] start) : ∃ final, items.foldlM step start = .ok final := by
  suffices general : ∀ rest done state, items = done ++ rest → holds done state →
      ∃ final, rest.foldlM step state = .ok final by
    exact general items [] start rfl atStart
  intro rest
  induction rest with
  | nil => exact fun _ state _ _ => ⟨state, rfl⟩
  | cons item rest ih =>
      intro done state whole reached
      rcases returns done item rest state whole reached with ⟨next, stepped⟩
      rw [List.foldlM_cons, stepped, except_ok_bind]
      apply ih (done ++ [item]) next
      · rw [whole, List.append_assoc]
        rfl
      · exact round done item rest state next whole reached stepped

end Reflection
