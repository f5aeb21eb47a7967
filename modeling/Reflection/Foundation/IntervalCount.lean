/-
Counting the intervals over a position with a difference array.

Each interval `(low, high]` adds one behind `low` and takes it back behind `high`. The
running sum at a position is then the number of intervals over it.
-/

import Mathlib

namespace Reflection.IntervalCount

/-- Mark the positions after `low` up to `high`. -/
def mark (marks : List Int) (low high : Nat) : List Int :=
  (marks.modify (low + 1) (· + 1)).modify (high + 1) (· - 1)

/-- The running sums of the marks, tested for zero. -/
def uncovered : Int → List Int → List Bool
  | _, [] => []
  | depth, change :: rest => decide (depth + change = 0) :: uncovered (depth + change) rest

theorem mark_length (marks : List Int) (low high : Nat) :
    (mark marks low high).length = marks.length := by
  simp only [mark, List.length_modify]

private theorem sum_take_modify (marks : List Int) (index count : Nat) (change : Int)
    (inside : index < marks.length) :
    ((marks.modify index (· + change)).take count).sum =
      (marks.take count).sum + if index < count then change else 0 := by
  induction marks generalizing index count with
  | nil => exact absurd inside (Nat.not_lt_zero _)
  | cons head rest ih =>
      cases count with
      | zero => simp
      | succ count =>
          cases index with
          | zero =>
              simp only [List.modify_zero_cons, List.take_succ_cons, List.sum_cons,
                Nat.zero_lt_succ, if_true]
              omega
          | succ index =>
              have found := ih index count (Nat.lt_of_succ_lt_succ inside)
              simp only [List.modify_succ_cons, List.take_succ_cons, List.sum_cons, found,
                Nat.succ_lt_succ_iff]
              omega

/-- Marking raises the running sum exactly over the interval. -/
theorem sum_take_mark (marks : List Int) {low high : Nat} (ordered : low < high)
    (inside : high + 1 < marks.length) (position : Nat) :
    ((mark marks low high).take (position + 1)).sum =
      (marks.take (position + 1)).sum + if low < position ∧ position ≤ high then 1 else 0 := by
  have lowered : ((mark marks low high).take (position + 1)).sum =
      ((marks.modify (low + 1) (· + 1)).take (position + 1)).sum +
        if high + 1 < position + 1 then (-1) else 0 := by
    apply sum_take_modify
    rw [List.length_modify]
    exact inside
  rw [lowered, sum_take_modify marks (low + 1) (position + 1) 1 (by omega)]
  split <;> split <;> split <;> omega

theorem uncovered_length (depth : Int) (marks : List Int) :
    (uncovered depth marks).length = marks.length := by
  induction marks generalizing depth with
  | nil => rfl
  | cons change rest ih => rw [uncovered, List.length_cons, List.length_cons, ih]

theorem uncovered_getElem? (depth : Int) (marks : List Int) (position : Nat)
    (inside : position < marks.length) :
    (uncovered depth marks)[position]? =
      some (decide (depth + (marks.take (position + 1)).sum = 0)) := by
  induction marks generalizing depth position with
  | nil => exact absurd inside (Nat.not_lt_zero _)
  | cons change rest ih =>
      rw [uncovered]
      cases position with
      | zero => simp
      | succ position =>
          rw [List.getElem?_cons_succ, ih (depth + change) position (Nat.lt_of_succ_lt_succ inside),
            List.take_succ_cons, List.sum_cons, Int.add_assoc]

end Reflection.IntervalCount
