/-
The selection does not depend on the order in which boundaries are handed in.

Candidates are sorted by their range, and the comparison of ids decides between those of one range. The
plans are compared by what they score, so of two candidates of one range the same one is preferred in
either order, or the two cannot be told apart.
-/

import Reflection.Foundation.Reordering
import Reflection.Shared.BoundaryIntervals

namespace Reflection

open IntervalSelection Reordering

/-! ### Comparing scores -/

namespace PlanScore

/-- What makes the left plan stay. -/
def AtLeast (one other : PlanScore) : Prop :=
  other.coverage < one.coverage ∨ one.coverage = other.coverage ∧
    (other.eligible < one.eligible ∨ one.eligible = other.eligible ∧
      (other.version < one.version ∨ one.version = other.version ∧ one.key ≤ other.key))

instance : DecidableRel AtLeast := fun _ _ => inferInstanceAs (Decidable (_ ∨ _ ∧ (_ ∨ _ ∧ (_ ∨ _ ∧ _))))

variable {one other third : PlanScore}

theorem AtLeast.total (one other : PlanScore) : AtLeast one other ∨ AtLeast other one := by
  have keys := List.le_total one.key other.key
  unfold AtLeast
  grind

theorem AtLeast.trans (first : AtLeast one other) (second : AtLeast other third) : AtLeast one third := by
  have keys : one.key ≤ other.key → other.key ≤ third.key → one.key ≤ third.key := List.le_trans
  unfold AtLeast at *
  grind

theorem AtLeast.antisymm (forward : AtLeast one other) (backward : AtLeast other one) : one = other := by
  have keys : one.key ≤ other.key → other.key ≤ one.key → one.key = other.key := List.le_antisymm
  unfold AtLeast at *
  cases one
  cases other
  grind

end PlanScore

section Order

variable {Item : Type} (interval : Item → BoundaryInterval)

theorem betterBoundaryPlan_eq (left right : List Item) : betterBoundaryPlan interval left right =
    if (planScore interval left).AtLeast (planScore interval right) then left else right := by
  unfold betterBoundaryPlan PlanScore.AtLeast
  dsimp only
  grind

/-! ### What a selection is told apart by -/

/-- A boundary with the defaults that the score reads filled in. -/
def BoundaryInterval.settled (interval : BoundaryInterval) : BoundaryInterval :=
  { interval with
    sourceEligible := some (interval.sourceEligible.getD false)
    projectionVersion := some (interval.projectionVersion.getD 0) }

def traits (items : List Item) : List BoundaryInterval :=
  items.map fun item => (interval item).settled

theorem planScore_traits (items : List Item) : planScore interval items = planScore id (traits interval items) := by
  unfold planScore traits
  simp only [List.map_map, List.filter_map, List.length_map]
  rfl

variable {interval}

theorem planScore_eq {items others : List Item} (same : traits interval items = traits interval others) :
    planScore interval items = planScore interval others := by
  rw [planScore_traits, planScore_traits interval others, same]

/-- The choice between plans, as far as it can be told apart. -/
theorem betterBoundaryPlan_traits {left right otherLeft otherRight : List Item}
    (sameLeft : traits interval left = traits interval otherLeft)
    (sameRight : traits interval right = traits interval otherRight) :
    traits interval (betterBoundaryPlan interval left right) =
      traits interval (betterBoundaryPlan interval otherLeft otherRight) := by
  rw [betterBoundaryPlan_eq, betterBoundaryPlan_eq, planScore_eq sameLeft, planScore_eq sameRight]
  split
  · exact sameLeft
  · exact sameRight

theorem intercalate_concat_inj {separator one other : JsString} (kept : List JsString)
    (same : separator.intercalate (kept ++ [one]) = separator.intercalate (kept ++ [other])) : one = other := by
  induction kept with
  | nil =>
      rw [List.nil_append, List.nil_append, List.intercalate_singleton, List.intercalate_singleton] at same
      exact same
  | cons head rest ih =>
      have more : ∀ last : JsString, rest ++ [last] ≠ [] := fun last =>
        List.append_ne_nil_of_right_ne_nil rest (List.cons_ne_nil last [])
      rw [List.cons_append, List.cons_append, List.intercalate_cons_of_ne_nil (more one),
        List.intercalate_cons_of_ne_nil (more other)] at same
      exact ih (List.append_cancel_left same)

/-- Two candidates of one range behind the same plan can be told apart by the score alone. -/
theorem traits_eq_of_planScore {kept : List Item} {one other : Item}
    (start : startOf interval one = startOf interval other) (finish : endOf interval one = endOf interval other)
    (same : planScore interval (kept ++ [one]) = planScore interval (kept ++ [other])) :
    traits interval (kept ++ [one]) = traits interval (kept ++ [other]) := by
  have eligible := congrArg PlanScore.eligible same
  have version := congrArg PlanScore.version same
  have key := congrArg PlanScore.key same
  unfold planScore at eligible version key
  simp only [List.filter_append, List.length_append, List.map_append, List.sum_append, List.map_singleton,
    List.sum_singleton, Nat.add_left_cancel_iff, Int.add_right_inj] at eligible version
  have sameEligible : (interval one).sourceEligible.getD false = (interval other).sourceEligible.getD false := by
    cases first : (interval one).sourceEligible.getD false with
    | false =>
        cases second : (interval other).sourceEligible.getD false with
        | false => rfl
        | true => simp [first, second] at eligible
    | true =>
        cases second : (interval other).sourceEligible.getD false with
        | false => simp [first, second] at eligible
        | true => rfl
  have sameKey : (interval one).key = (interval other).key := by
    dsimp only at key
    rw [List.map_append, List.map_append, List.map_singleton, List.map_singleton] at key
    exact intercalate_concat_inj _ key
  have sameStart : (interval one).startIndex = (interval other).startIndex := start
  have sameEnd : (interval one).endIndex = (interval other).endIndex := finish
  unfold traits BoundaryInterval.settled
  rw [List.map_append, List.map_append, List.map_singleton, List.map_singleton, sameStart, sameEnd, sameKey,
    sameEligible, version]

/-- Which of two candidates of one range comes first does not matter. -/
theorem betterBoundaryPlan_comm {plan kept : List Item} {one other : Item}
    (start : startOf interval one = startOf interval other) (finish : endOf interval one = endOf interval other) :
    traits interval (betterBoundaryPlan interval (betterBoundaryPlan interval plan (kept ++ [one])) (kept ++ [other])) =
      traits interval
        (betterBoundaryPlan interval (betterBoundaryPlan interval plan (kept ++ [other])) (kept ++ [one])) := by
  have total := PlanScore.AtLeast.total (planScore interval (kept ++ [one])) (planScore interval (kept ++ [other]))
  have tied : (planScore interval (kept ++ [one])).AtLeast (planScore interval (kept ++ [other])) →
      (planScore interval (kept ++ [other])).AtLeast (planScore interval (kept ++ [one])) →
        traits interval (kept ++ [one]) = traits interval (kept ++ [other]) := fun forward backward =>
    traits_eq_of_planScore start finish (PlanScore.AtLeast.antisymm forward backward)
  have first : (planScore interval plan).AtLeast (planScore interval (kept ++ [one])) →
      (planScore interval (kept ++ [one])).AtLeast (planScore interval (kept ++ [other])) →
        (planScore interval plan).AtLeast (planScore interval (kept ++ [other])) := PlanScore.AtLeast.trans
  have second : (planScore interval plan).AtLeast (planScore interval (kept ++ [other])) →
      (planScore interval (kept ++ [other])).AtLeast (planScore interval (kept ++ [one])) →
        (planScore interval plan).AtLeast (planScore interval (kept ++ [one])) := PlanScore.AtLeast.trans
  simp only [betterBoundaryPlan_eq]
  grind

/-! ### The plans of all prefixes -/

variable (interval) in
def plansAfter (candidates : List Item) (count : Nat) : List (List Item) :=
  (candidates.take count).zipIdx.foldl (selectionStep interval candidates) [[]]

variable (interval) in
/-- The plan of the first candidates. -/
def planOf (candidates : List Item) (count : Nat) : List Item :=
  (plansAfter interval candidates count).getD count []

variable {candidates : List Item}

theorem plansAfter_succ {count : Nat} {candidate : Item} (next : candidates[count]? = some candidate) :
    plansAfter interval candidates (count + 1) =
      selectionStep interval candidates (plansAfter interval candidates count) (candidate, count) := by
  obtain ⟨within, same⟩ := List.getElem?_eq_some_iff.mp next
  have grown : candidates.take (count + 1) = candidates.take count ++ [candidate] := by
    rw [← List.take_concat_get' candidates count within, same]
  unfold plansAfter
  rw [grown, List.zipIdx_append, List.foldl_append, List.length_take_of_le within.le, Nat.zero_add]
  rfl

theorem plansAfter_length {count : Nat} (within : count ≤ candidates.length) :
    (plansAfter interval candidates count).length = count + 1 := by
  induction count with
  | zero => rfl
  | succ count ih =>
      rw [plansAfter_succ (List.getElem?_eq_getElem within), selectionStep, List.length_append, ih (by omega)]
      rfl

/-- Later candidates leave the plan of a prefix as it is. -/
theorem plansAfter_getD {count place : Nat} (bound : place ≤ count) (within : count ≤ candidates.length) :
    (plansAfter interval candidates count).getD place [] = planOf interval candidates place := by
  induction count, bound using Nat.le_induction with
  | base => rfl
  | succ count bound ih =>
      rw [plansAfter_succ (List.getElem?_eq_getElem within), selectionStep,
        List.getD_append _ _ _ _ (by rw [plansAfter_length (by omega)]; omega)]
      exact ih (by omega)

theorem planOf_succ {count : Nat} {candidate : Item} (next : candidates[count]? = some candidate) :
    planOf interval candidates (count + 1) =
      betterBoundaryPlan interval (planOf interval candidates count)
        (planOf interval candidates
          (compatible (startOf interval) (endOf interval) (candidates.take count) candidate) ++ [candidate]) := by
  have within := (List.getElem?_eq_some_iff.mp next).1
  have bound : compatible (startOf interval) (endOf interval) (candidates.take count) candidate ≤ count :=
    compatible_le.trans (List.length_take_le _ _)
  have length : (plansAfter interval candidates count).length = count + 1 := plansAfter_length within.le
  rw [planOf, plansAfter_succ next, selectionStep, List.getD_append_right _ _ _ _ length.le, length, Nat.sub_self,
    List.getD_cons_zero, previousCandidates_eq candidate within.le, plansAfter_getD bound within.le]
  rfl

theorem selectBoundaryIntervals_planOf
    (sorted : candidates.Pairwise fun one other => endOf interval one ≤ endOf interval other)
    (proper : ∀ candidate ∈ candidates, startOf interval candidate ≤ endOf interval candidate) :
    selectBoundaryIntervals interval candidates = planOf interval candidates candidates.length := by
  have best := best_plan sorted proper
  have last : ((candidates.zipIdx.foldl (selectionStep interval candidates) [[]]).getLast?).getD [] =
      planOf interval candidates candidates.length := by
    have length : (plansAfter interval candidates candidates.length).length = candidates.length + 1 :=
      plansAfter_length le_rfl
    rw [planOf, List.getD_eq_getElem?_getD]
    unfold plansAfter at *
    rw [List.take_length] at *
    rw [List.getLast?_eq_getElem?, length, Nat.add_sub_cancel]
  rw [last] at best
  unfold selectBoundaryIntervals
  dsimp only
  rw [last]
  exact selectBoundaryIntervals_eq best.apart fun candidate inside => proper candidate (best.sublist.subset inside)

/-! ### Exchanging two candidates of one range -/

theorem traits_concat {items others : List Item} (same : traits interval items = traits interval others) (item : Item) :
    traits interval (items ++ [item]) = traits interval (others ++ [item]) := by
  unfold traits at same ⊢
  rw [List.map_append, List.map_append, same]

section Exchanging

variable (interval) in
/-- The plans before a place are told apart by nothing, but for the one between the two. -/
def AgreeBelow (before after : List Item) (one other : Item) (count : Nat) : Prop :=
  ∀ place < count, place ≠ before.length + 1 →
    traits interval (planOf interval (before ++ one :: other :: after) place) =
      traits interval (planOf interval (before ++ other :: one :: after) place)

variable {before after : List Item} {one other : Item} {count : Nat}

theorem AgreeBelow.front (agree : AgreeBelow interval before after one other (count + 1))
    (inFront : count < before.length) :
    traits interval (planOf interval (before ++ one :: other :: after) (count + 1)) =
      traits interval (planOf interval (before ++ other :: one :: after) (count + 1)) := by
  have next : ∀ rest : List Item, (before ++ rest)[count]? = some before[count] := fun rest => by
    rw [List.getElem?_append_left inFront, List.getElem?_eq_getElem inFront]
  have taken : ∀ rest : List Item, (before ++ rest).take count = before.take count := fun rest =>
    List.take_append_of_le_length inFront.le
  have scanned : compatible (startOf interval) (endOf interval) (before.take count) before[count] ≤ count :=
    compatible_le.trans (List.length_take_le _ _)
  rw [planOf_succ (next _), planOf_succ (next _), taken, taken]
  exact betterBoundaryPlan_traits (agree count (by omega) (by omega))
    (traits_concat (agree _ (by omega) (by omega)) _)

variable (start : startOf interval one = startOf interval other) (finish : endOf interval one = endOf interval other)

include start finish in
/-- Behind both of them it does not matter which came first. -/
theorem AgreeBelow.second (agree : AgreeBelow interval before after one other (before.length + 1))
    (proper : startOf interval one ≤ endOf interval one) :
    traits interval (planOf interval (before ++ one :: other :: after) (before.length + 1 + 1)) =
      traits interval (planOf interval (before ++ other :: one :: after) (before.length + 1 + 1)) := by
  have next : ∀ first second : Item, (before ++ first :: second :: after)[before.length]? = some first ∧
      (before ++ first :: second :: after)[before.length + 1]? = some second := by
    intro first second
    rw [List.getElem?_append_right le_rfl, List.getElem?_append_right (by omega)]
    simp
  have takesBefore : ∀ rest : List Item, (before ++ rest).take before.length = before := fun rest => List.take_left
  have takesOne : ∀ first second : Item, (before ++ first :: second :: after).take (before.length + 1) =
      before ++ [first] := by
    intro first second
    rw [List.take_length_add_append]
    rfl
  have scans : ∀ first second : Item, startOf interval second ≤ endOf interval first →
      compatible (startOf interval) (endOf interval) (before ++ [first]) second =
        compatible (startOf interval) (endOf interval) before second := by
    intro first second overlaps
    rw [compatible_snoc, if_pos overlaps]
  have sameScan : compatible (startOf interval) (endOf interval) before other =
      compatible (startOf interval) (endOf interval) before one := compatible_congr start.symm rfl
  have bound : compatible (startOf interval) (endOf interval) before one ≤ before.length := compatible_le
  have samePlan := agree before.length (by omega) (by omega)
  have sameKept := agree (compatible (startOf interval) (endOf interval) before one) (by omega) (by omega)
  rw [planOf_succ (next one other).2, planOf_succ (next other one).2, planOf_succ (next one other).1,
    planOf_succ (next other one).1, takesBefore, takesBefore, takesOne, takesOne,
    scans one other (start ▸ proper), scans other one (finish ▸ proper), sameScan,
    betterBoundaryPlan_comm start finish]
  exact betterBoundaryPlan_traits (betterBoundaryPlan_traits samePlan (traits_concat sameKept other))
    (traits_concat sameKept one)

variable (sorted : (before ++ one :: other :: after).Pairwise fun first second =>
  endOf interval first ≤ endOf interval second)

include finish sorted in
/-- No later candidate looks at the plan between the two, since it meets both or neither. -/
theorem AgreeBelow.behind {place : Nat} (inAfter : place < after.length)
    (agree : AgreeBelow interval before after one other (before.length + 2 + place + 1)) :
    traits interval (planOf interval (before ++ one :: other :: after) (before.length + 2 + place + 1)) =
      traits interval (planOf interval (before ++ other :: one :: after) (before.length + 2 + place + 1)) := by
  have taken : ∀ first second : Item, (before ++ first :: second :: after).take (before.length + 2 + place) =
      before ++ first :: second :: after.take place := by
    intro first second
    rw [Nat.add_assoc, List.take_length_add_append, Nat.add_comm 2]
    rfl
  have next : ∀ first second : Item, (before ++ first :: second :: after)[before.length + 2 + place]? =
      some after[place] := by
    intro first second
    rw [List.getElem?_append_right (by omega), show before.length + 2 + place - before.length = place + 1 + 1 by omega,
      List.getElem?_cons_succ, List.getElem?_cons_succ, List.getElem?_eq_getElem inAfter]
  have ends : (before ++ one :: other :: after.take place).map (endOf interval) =
      (before ++ other :: one :: after.take place).map (endOf interval) := by
    rw [List.map_append, List.map_append, List.map_cons, List.map_cons, List.map_cons, List.map_cons, finish]
  have sortedTaken : (before ++ one :: other :: after.take place).Pairwise fun first second =>
      endOf interval first ≤ endOf interval second := by
    rw [← taken]
    exact sorted.sublist (List.take_sublist _ _)
  have notStopped : compatible (startOf interval) (endOf interval) (before ++ one :: other :: after.take place)
      after[place] ≠ before.length + 1 := by
    have first : (before ++ one :: other :: after.take place)[before.length]? = some one := by
      rw [List.getElem?_append_right le_rfl, Nat.sub_self, List.getElem?_cons_zero]
    have second : (before ++ one :: other :: after.take place)[before.length + 1]? = some other := by
      rw [List.getElem?_append_right (by omega), Nat.add_sub_cancel_left, List.getElem?_cons_succ,
        List.getElem?_cons_zero]
    exact compatible_ne_between sortedTaken first second finish
  have bound : compatible (startOf interval) (endOf interval) (before ++ one :: other :: after.take place)
      after[place] ≤ before.length + 2 + place := by
    rw [← taken]
    exact compatible_le.trans (List.length_take_le _ _)
  rw [planOf_succ (next one other), planOf_succ (next other one), taken, taken, ← compatible_congr rfl ends]
  exact betterBoundaryPlan_traits (agree _ (by omega) (by omega))
    (traits_concat (agree _ (by omega) notStopped) _)

include start finish sorted in
theorem planOf_exchange (proper : startOf interval one ≤ endOf interval one)
    (within : count ≤ (before ++ one :: other :: after).length) (notBetween : count ≠ before.length + 1) :
    traits interval (planOf interval (before ++ one :: other :: after) count) =
      traits interval (planOf interval (before ++ other :: one :: after) count) := by
  induction count using Nat.strong_induction_on with
  | _ count ih =>
      have agree : AgreeBelow interval before after one other count := fun place earlier =>
        ih place earlier (by omega)
      cases count with
      | zero => rfl
      | succ count =>
          rw [List.length_append, List.length_cons, List.length_cons] at within
          rcases Nat.lt_trichotomy count before.length with inFront | same | later
          · exact agree.front inFront
          · exact absurd (congrArg Nat.succ same) notBetween
          · rcases Nat.lt_or_eq_of_le later with behind | same
            · obtain ⟨place, rfl⟩ := Nat.exists_eq_add_of_le behind
              exact agree.behind finish sorted (by omega)
            · subst same
              exact AgreeBelow.second start finish (fun place earlier => agree place (by omega)) proper

end Exchanging

/-! ### The order of the candidates -/

/-- What the candidates are sorted by, but for the comparison of ids. -/
def rangeKey (interval : Item → BoundaryInterval) (item : Item) : Nat ×ₗ Nat :=
  toLex (endOf interval item, startOf interval item)

theorem endOf_le_of_rangeKey {one other : Item} (ordered : rangeKey interval one ≤ rangeKey interval other) :
    endOf interval one ≤ endOf interval other := by
  rcases Prod.Lex.le_iff.mp ordered with less | ⟨same, _⟩
  · exact Nat.le_of_lt less
  · exact same.le

/-- Two sorted orders of the same candidates lead to selections that cannot be told apart. -/
theorem selectBoundaryIntervals_traits {items others : List Item} (perm : items.Perm others)
    (sorted : items.Pairwise fun one other => rangeKey interval one ≤ rangeKey interval other)
    (alsoSorted : others.Pairwise fun one other => rangeKey interval one ≤ rangeKey interval other)
    (proper : ∀ item ∈ items, startOf interval item ≤ endOf interval item) :
    traits interval (selectBoundaryIntervals interval items) =
      traits interval (selectBoundaryIntervals interval others) := by
  refine eq_of_perm_of_sorted (fun candidates => traits interval (selectBoundaryIntervals interval candidates))
    perm sorted alsoSorted fun first second isPerm isSorted exchange => ?_
  have firstProper : ∀ item ∈ first, startOf interval item ≤ endOf interval item := fun item inside =>
    proper item (isPerm.subset inside)
  have firstEnds := isSorted.imp endOf_le_of_rangeKey
  have secondEnds := (exchange.sorted isSorted).imp endOf_le_of_rangeKey
  have secondProper : ∀ item ∈ second, startOf interval item ≤ endOf interval item := fun item inside =>
    firstProper item (exchange.perm.subset inside)
  rw [selectBoundaryIntervals_planOf firstEnds firstProper, selectBoundaryIntervals_planOf secondEnds secondProper]
  cases exchange with
  | swap before after one other same =>
      have both := Prod.mk.injEq .. ▸ toLex_inj.mp same
      have properOne := firstProper one (List.mem_append_right _ List.mem_cons_self)
      have length : (before ++ other :: one :: after).length = (before ++ one :: other :: after).length := by
        simp
      rw [length]
      exact planOf_exchange both.2 both.1 firstEnds properOne le_rfl (by simp)

end Order

end Reflection
