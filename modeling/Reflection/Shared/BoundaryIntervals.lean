/-
Which of the committed boundaries a new segmentation keeps.

Each candidate covers a range of source positions. Of the plans of disjoint candidates the one that
covers most positions wins, then the one with more eligible boundaries, then the one with the higher
projection versions. The key decides only between plans that are equal in all three.
-/

import Mathlib
import Reflection.Foundation.IntervalSelection
import Reflection.Shared.JsString

namespace Reflection

open IntervalSelection

/-- What the selection reads of a committed boundary and of its place in the source. -/
structure BoundaryInterval where
  startIndex : Nat
  endIndex : Nat
  key : JsString
  sourceEligible : Option Bool
  projectionVersion : Option Int
deriving DecidableEq, Repr

structure PlanScore where
  coverage : Int
  eligible : Nat
  version : Int
  key : JsString

section Selection

variable {Item : Type} (interval : Item → BoundaryInterval)

def planScore (items : List Item) : PlanScore :=
  { coverage := (items.map fun item =>
      ((interval item).endIndex : Int) - (interval item).startIndex + 1).sum
    eligible := (items.filter fun item => (interval item).sourceEligible.getD false).length
    version := (items.map fun item => (interval item).projectionVersion.getD 0).sum
    key := JsString.ofString "|" |>.intercalate (items.map fun item => (interval item).key) }

def betterBoundaryPlan (left right : List Item) : List Item :=
  let a := planScore interval left
  let b := planScore interval right
  if a.coverage ≠ b.coverage then
    if b.coverage < a.coverage then left else right
  else if a.eligible ≠ b.eligible then
    if b.eligible < a.eligible then left else right
  else if a.version ≠ b.version then
    if b.version < a.version then left else right
  else if a.key ≤ b.key then left else right

/-- The backward scan from the candidate before, counted from one: zero is the scan that ran out. -/
def previousCandidates (candidates : List Item) (candidate : Item) : Nat → Nat
  | 0 => 0
  | previous + 1 =>
      match candidates[previous]? with
      | none => previous + 1
      | some earlier =>
          if (interval candidate).startIndex ≤ (interval earlier).endIndex then
            previousCandidates candidates candidate previous
          else previous + 1

def selectionStep (candidates : List Item) (plans : List (List Item)) (entry : Item × Nat) :
    List (List Item) :=
  let included :=
    plans.getD (previousCandidates interval candidates entry.1 entry.2) [] ++ [entry.1]
  plans ++ [betterBoundaryPlan interval (plans.getD entry.2 []) included]

def selectBoundaryIntervals (candidates : List Item) : List Item :=
  let plans := candidates.zipIdx.foldl (selectionStep interval candidates) [[]]
  (plans.getLast?.getD []).mergeSort fun left right =>
    decide ((interval left).startIndex ≤ (interval right).startIndex)

/-! ### The score as a sum -/

/-- The triple that the plans compete for, in the lexicographic order. -/
def planTriple (items : List Item) : Int ×ₗ (Nat ×ₗ Int) :=
  toLex ((planScore interval items).coverage,
    toLex ((planScore interval items).eligible, (planScore interval items).version))

def intervalTriple (item : Item) : Int ×ₗ (Nat ×ₗ Int) :=
  toLex (((interval item).endIndex : Int) - (interval item).startIndex + 1,
    toLex (if (interval item).sourceEligible.getD false then 1 else 0,
      (interval item).projectionVersion.getD 0))

theorem planTriple_eq_total (items : List Item) :
    planTriple interval items = total (intervalTriple interval) items := by
  induction items with
  | nil => rfl
  | cons item rest ih =>
      have sum : total (intervalTriple interval) (item :: rest) =
          intervalTriple interval item + planTriple interval rest := by
        rw [ih]
        rfl
      rw [sum]
      unfold planTriple intervalTriple planScore
      rw [← toLex_add, Prod.mk_add_mk, ← toLex_add, Prod.mk_add_mk]
      cases eligible : (interval item).sourceEligible.getD false with
      | false => simp [eligible]
      | true => simp [eligible, Nat.add_comm]

theorem betterBoundaryPlan_either (left right : List Item) :
    betterBoundaryPlan interval left right = left ∨
      betterBoundaryPlan interval left right = right := by
  unfold betterBoundaryPlan
  dsimp only
  split_ifs <;> simp

theorem betterBoundaryPlan_left (left right : List Item) :
    planTriple interval left ≤ planTriple interval (betterBoundaryPlan interval left right) := by
  unfold betterBoundaryPlan
  dsimp only
  split_ifs <;> (simp_all [planTriple, Prod.Lex.le_iff]; try omega)

theorem betterBoundaryPlan_right (left right : List Item) :
    planTriple interval right ≤ planTriple interval (betterBoundaryPlan interval left right) := by
  unfold betterBoundaryPlan
  dsimp only
  split_ifs <;> (simp_all [planTriple, Prod.Lex.le_iff]; try omega)

/-! ### The plans of all prefixes -/

abbrev startOf (item : Item) : Nat := (interval item).startIndex

abbrev endOf (item : Item) : Nat := (interval item).endIndex

variable {interval} {candidates : List Item}

theorem previousCandidates_eq (candidate : Item) {count : Nat} (within : count ≤ candidates.length) :
    previousCandidates interval candidates candidate count =
      compatible (startOf interval) (endOf interval) (candidates.take count) candidate := by
  induction count with
  | zero => rfl
  | succ previous ih =>
      have present : candidates[previous]? = some candidates[previous] :=
        List.getElem?_eq_getElem within
      have grown : candidates.take (previous + 1) = candidates.take previous ++ [candidates[previous]] :=
        (List.take_concat_get' candidates previous within).symm
      have earlierLength : (candidates.take previous).length = previous := by
        rw [List.length_take]
        omega
      rw [grown, compatible_snoc, earlierLength, ← ih (by omega)]
      conv_lhs =>
        unfold previousCandidates
        rw [present]

/-- Every plan so far is the best one of its prefix. -/
structure PlansFor (interval : Item → BoundaryInterval) (candidates : List Item) (count : Nat)
    (plans : List (List Item)) : Prop where
  length_eq : plans.length = count + 1
  best : ∀ place, place ≤ count → Best (startOf interval) (endOf interval) (intervalTriple interval)
    (candidates.take place) (plans.getD place [])

theorem plansFor_initial : PlansFor interval candidates 0 [[]] := by
  refine ⟨rfl, ?_⟩
  intro place within
  rw [Nat.le_zero.mp within]
  exact best_nil

variable (sorted : candidates.Pairwise fun one other => endOf interval one ≤ endOf interval other)
variable (proper : ∀ candidate ∈ candidates, startOf interval candidate ≤ endOf interval candidate)

include sorted proper in
theorem PlansFor.step {plans : List (List Item)} {count : Nat} {candidate : Item}
    (far : PlansFor interval candidates count plans) (next : candidates[count]? = some candidate) :
    PlansFor interval candidates (count + 1)
      (selectionStep interval candidates plans (candidate, count)) := by
  have within : count < candidates.length := (List.getElem?_eq_some_iff.mp next).1
  have grown : candidates.take (count + 1) = candidates.take count ++ [candidate] := by
    rw [← List.take_concat_get' candidates count within]
    rw [(List.getElem?_eq_some_iff.mp next).2]
  refine ⟨?_, ?_⟩
  · unfold selectionStep
    rw [List.length_append, far.length_eq]
    rfl
  · intro place bound
    unfold selectionStep
    rcases Nat.lt_or_eq_of_le bound with before | atEnd
    · rw [List.getD_append _ _ _ _ (by rw [far.length_eq]; exact before)]
      exact far.best place (Nat.le_of_lt_succ before)
    · have compatibleBound := @compatible_le Item Nat _ (startOf interval) (endOf interval)
        (candidates.take count) candidate
      have shorter : (candidates.take count).length = count := by
        rw [List.length_take]
        omega
      have scanned : previousCandidates interval candidates candidate count =
          compatible (startOf interval) (endOf interval) (candidates.take count) candidate :=
        previousCandidates_eq candidate within.le
      have added := far.best _ (compatibleBound.trans shorter.le)
      rw [← scanned] at added compatibleBound
      rw [atEnd, List.getD_append_right _ _ _ _ far.length_eq.le, far.length_eq, Nat.sub_self,
        List.getD_cons_zero, grown]
      rw [shorter] at compatibleBound
      have prefixes : candidates.take (previousCandidates interval candidates candidate count) =
          (candidates.take count).take
            (compatible (startOf interval) (endOf interval) (candidates.take count) candidate) := by
        rw [← scanned, List.take_take, Nat.min_eq_left compatibleBound]
      rw [prefixes] at added
      refine Best.extend ?_ ?_ (far.best count le_rfl) added
        (betterBoundaryPlan_either interval _ _) ?_ ?_
      · rw [← grown]
        exact sorted.sublist (List.take_sublist _ _)
      · rw [← grown]
        intro one inside
        exact proper one (List.mem_of_mem_take inside)
      · rw [← planTriple_eq_total, ← planTriple_eq_total]
        exact betterBoundaryPlan_left interval _ _
      · rw [← planTriple_eq_total, ← planTriple_eq_total]
        exact betterBoundaryPlan_right interval _ _

include sorted proper in
theorem PlansFor.run (rest : List Item) : ∀ {plans : List (List Item)} {count : Nat},
    PlansFor interval candidates count plans → candidates.drop count = rest →
    PlansFor interval candidates (count + rest.length)
      ((rest.zipIdx count).foldl (selectionStep interval candidates) plans) := by
  induction rest with
  | nil =>
      intro plans count far _
      exact far
  | cons candidate rest ih =>
      intro plans count far remaining
      have next : candidates[count]? = some candidate := by
        rw [← List.head?_drop, remaining]
        rfl
      have later : candidates.drop (count + 1) = rest := by
        rw [← List.drop_drop, remaining]
        rfl
      have finished := ih (far.step sorted proper next) later
      rw [List.length_cons, Nat.add_comm rest.length, ← Nat.add_assoc]
      exact finished

include sorted proper in
theorem best_plan : Best (startOf interval) (endOf interval) (intervalTriple interval) candidates
    (((candidates.zipIdx.foldl (selectionStep interval candidates) [[]]).getLast?).getD []) := by
  have finished := plansFor_initial.run sorted proper candidates (List.drop_zero)
  have last := finished.best candidates.length (by omega)
  rw [List.take_length] at last
  have place : (candidates.zipIdx.foldl (selectionStep interval candidates) [[]]).getLast?.getD [] =
      (candidates.zipIdx.foldl (selectionStep interval candidates) [[]]).getD candidates.length [] := by
    rw [List.getLast?_eq_getElem?, finished.length_eq, List.getD_eq_getElem?_getD]
    simp
  rw [place]
  exact last

/-- The final sort finds the plan in order. -/
theorem selectBoundaryIntervals_eq {plan : List Item}
    (inOrder : plan.Pairwise (Before (startOf interval) (endOf interval)))
    (proper : ∀ candidate ∈ plan, startOf interval candidate ≤ endOf interval candidate) :
    plan.mergeSort (fun left right =>
      decide ((interval left).startIndex ≤ (interval right).startIndex)) = plan := by
  apply List.mergeSort_of_pairwise
  refine inOrder.imp_of_mem ?_
  intro one other inside _ before
  apply decide_eq_true
  exact (proper one inside).trans before.le

include sorted proper in
theorem selectBoundaryIntervals_best : Best (startOf interval) (endOf interval) (intervalTriple interval)
    candidates (selectBoundaryIntervals interval candidates) := by
  have best := best_plan sorted proper
  have same : selectBoundaryIntervals interval candidates = _ :=
    selectBoundaryIntervals_eq best.apart fun candidate inside =>
      proper candidate (best.sublist.subset inside)
  rw [same]
  exact best

/-- A boundary that covers anything is worth something. -/
theorem intervalTriple_pos {item : Item} (proper : startOf interval item ≤ endOf interval item) :
    0 < intervalTriple interval item := by
  rw [Prod.Lex.lt_iff]
  left
  change (0 : Int) < ((interval item).endIndex : Int) - (interval item).startIndex + 1
  have ordered : (interval item).startIndex ≤ (interval item).endIndex := proper
  omega

/-- The selection keeps disjoint candidates in source order, and no disjoint candidates score more. -/
theorem selectBoundaryIntervals_optimal
    (sorted : candidates.Pairwise fun one other => (interval one).endIndex ≤ (interval other).endIndex)
    (proper : ∀ candidate ∈ candidates,
      (interval candidate).startIndex ≤ (interval candidate).endIndex) :
    (selectBoundaryIntervals interval candidates).Sublist candidates ∧
      (selectBoundaryIntervals interval candidates).Pairwise
        (fun one other => (interval one).endIndex < (interval other).startIndex) ∧
      ∀ other : List Item, other.Sublist candidates →
        (other.Pairwise fun one another => (interval one).endIndex < (interval another).startIndex ∨
          (interval another).endIndex < (interval one).startIndex) →
        planTriple interval other ≤
          planTriple interval (selectBoundaryIntervals interval candidates) := by
  have best := selectBoundaryIntervals_best sorted proper
  refine ⟨best.sublist, best.apart, ?_⟩
  intro other sublist apart
  rw [planTriple_eq_total, planTriple_eq_total]
  exact best.optimal other sublist apart

end Selection

def sampleInterval (startIndex endIndex : Nat) : BoundaryInterval :=
  { startIndex := startIndex
    endIndex := endIndex
    key := []
    sourceEligible := some true
    projectionVersion := none }

def sampleIntervals : List BoundaryInterval :=
  [sampleInterval 0 1, sampleInterval 1 2, sampleInterval 2 4, sampleInterval 3 4]

theorem selectBoundaryIntervals_optimal_sample :
    (selectBoundaryIntervals id sampleIntervals).Sublist sampleIntervals ∧
      (selectBoundaryIntervals id sampleIntervals).Pairwise
        (fun one other => (id one).endIndex < (id other).startIndex) ∧
      ∀ other : List BoundaryInterval, other.Sublist sampleIntervals →
        (other.Pairwise fun one another => (id one).endIndex < (id another).startIndex ∨
          (id another).endIndex < (id one).startIndex) →
        planTriple id other ≤ planTriple id (selectBoundaryIntervals id sampleIntervals) :=
  selectBoundaryIntervals_optimal (by decide) (by decide)

end Reflection
