/-
Lists by their indices: one item changed, items visited in order, and slices.
-/

import Mathlib

namespace Reflection

/-! ### Sums with one item changed -/

theorem sum_map_modify {α : Type} (cost : α → Nat) {items : List α} {index : Nat} {old : α}
    (found : items[index]? = some old) (change : α → α) :
    ((items.modify index change).map cost).sum + cost old =
      (items.map cost).sum + cost (change old) := by
  induction items generalizing index with
  | nil => cases found
  | cons first rest ih =>
      cases index with
      | zero =>
          cases found
          rw [List.modify_zero_cons, List.map_cons, List.map_cons, List.sum_cons, List.sum_cons]
          omega
      | succ index =>
          have behind := ih found
          rw [List.modify_succ_cons, List.map_cons, List.map_cons, List.sum_cons, List.sum_cons]
          omega

theorem sum_map_set {α : Type} (cost : α → Nat) {items : List α} {index : Nat} {old : α}
    (found : items[index]? = some old) (new : α) :
    ((items.set index new).map cost).sum + cost old = (items.map cost).sum + cost new := by
  rw [List.set_eq_modify]
  exact sum_map_modify cost found fun _ => new

/-- Putting back what is there changes nothing. -/
theorem set_same {α : Type} {items : List α} {index : Nat} {item : α} (found : items[index]? = some item) :
    items.set index item = items := by
  refine List.ext_getElem? fun place => ?_
  rw [List.getElem?_set]
  split
  · rename_i same
    have inside := (List.getElem?_eq_some_iff.mp found).1
    rw [if_pos (same ▸ inside), ← same, found]
  · rfl

/-! ### One item of a visit -/

/-- Where only one index contributes, the visit is what its item contributes. -/
theorem flatMap_zipIdx_single {α β : Type} {items : List α} {index : Nat} {item : α}
    (found : items[index]? = some item) (visit : α × Nat → List β) (start : Nat)
    (others : ∀ other place, place ≠ start + index → visit (other, place) = []) :
    (items.zipIdx start).flatMap visit = visit (item, start + index) := by
  induction items generalizing index start with
  | nil => cases found
  | cons first rest ih =>
      rw [List.zipIdx_cons, List.flatMap_cons]
      cases index with
      | zero =>
          cases found
          have behind : (rest.zipIdx (start + 1)).flatMap visit = [] := by
            rw [List.flatMap_eq_nil_iff]
            intro entry inside
            have later := List.le_snd_of_mem_zipIdx inside
            exact others entry.1 entry.2 (by omega)
          rw [behind, List.append_nil]
          rfl
      | succ index =>
          have here : visit (first, start) = [] := others first start (by omega)
          have place : start + (index + 1) = start + 1 + index := by omega
          rw [here, List.nil_append, place]
          exact ih found (start + 1) fun other later different => others other later (by omega)

/-! ### Slices -/

section Slices

variable {α : Type} {items : List α} {start middle finish : Nat}

theorem extract_append_drop (ordered : start ≤ finish) :
    items.extract start finish ++ items.drop finish = items.drop start := by
  have rest : items.drop finish = (items.drop start).drop (finish - start) := by
    rw [List.drop_drop, Nat.add_sub_cancel' ordered]
  rw [rest, List.extract_eq_take_drop, List.take_append_drop]

theorem extract_append_extract (first : start ≤ middle) (second : middle ≤ finish) :
    items.extract start middle ++ items.extract middle finish = items.extract start finish := by
  have rest : items.drop middle = (items.drop start).drop (middle - start) := by
    rw [List.drop_drop, Nat.add_sub_cancel' first]
  have lengths : finish - start = (middle - start) + (finish - middle) := by omega
  simp only [List.extract_eq_take_drop]
  rw [lengths, List.take_add, ← rest]

/-- A slice with what stands before and behind it. -/
theorem take_append_extract_append_drop (ordered : start ≤ finish) :
    items.take start ++ (items.extract start finish ++ items.drop finish) = items := by
  rw [extract_append_drop ordered, List.take_append_drop]

theorem getElem?_extract (place : Nat) :
    (items.extract start finish)[place]? = if start + place < finish then items[start + place]? else none := by
  rw [List.extract_eq_take_drop, List.getElem?_take, List.getElem?_drop]
  exact if_congr (by omega) rfl rfl

end Slices

end Reflection
