/-
Orders of the same items that are sorted by the same key.

Two such lists differ only in the order of items of one key, so that one list becomes the other by
exchanging neighbours of one key. A computation over sorted items does not depend on their order where it
does not depend on one such exchange.
-/

import Mathlib

namespace Reflection.Reordering

section Exchanges

variable {Item Key : Type} (key : Item → Key)

/-- Two neighbours of one key change places. -/
inductive Exchange : List Item → List Item → Prop
  | swap (before after : List Item) (one other : Item) (same : key one = key other) :
      Exchange (before ++ one :: other :: after) (before ++ other :: one :: after)

def Exchanged : List Item → List Item → Prop := Relation.ReflTransGen (Exchange key)

variable {key} {items others : List Item}

theorem Exchange.cons (item : Item) (exchange : Exchange key items others) :
    Exchange key (item :: items) (item :: others) := by
  cases exchange with
  | swap before after one other same => exact .swap (item :: before) after one other same

theorem Exchanged.cons (item : Item) (exchanged : Exchanged key items others) :
    Exchanged key (item :: items) (item :: others) :=
  Relation.ReflTransGen.lift (List.cons item) (fun _ _ => Exchange.cons item) _ _ exchanged

/-- An item moves behind items of its key. -/
theorem exchanged_behind {item : Item} (front back : List Item) (sameKey : ∀ one ∈ front, key one = key item) :
    Exchanged key (item :: (front ++ back)) (front ++ item :: back) := by
  induction front with
  | nil => exact .refl
  | cons one rest ih =>
      have first : Exchange key (item :: one :: (rest ++ back)) (one :: item :: (rest ++ back)) :=
        .swap [] (rest ++ back) item one (sameKey one List.mem_cons_self).symm
      have moved := ih fun other inside => sameKey other (List.mem_cons_of_mem _ inside)
      exact .head first (moved.cons one)

theorem exchanged_of_perm [PartialOrder Key] (perm : items.Perm others)
    (sorted : items.Pairwise fun one other => key one ≤ key other)
    (alsoSorted : others.Pairwise fun one other => key one ≤ key other) : Exchanged key items others := by
  induction items generalizing others with
  | nil =>
      rw [perm.nil_eq]
      exact .refl
  | cons item rest ih =>
      obtain ⟨front, back, split⟩ := List.append_of_mem (perm.subset List.mem_cons_self)
      subst split
      have restPerm : rest.Perm (front ++ back) := (perm.trans List.perm_middle).cons_inv
      rw [List.pairwise_cons] at sorted
      have later : ∀ one ∈ front, key one = key item := by
        intro one inside
        apply le_antisymm
        · exact (List.pairwise_append.mp alsoSorted).2.2 one inside item List.mem_cons_self
        · exact sorted.1 one (restPerm.mem_iff.mpr (List.mem_append_left _ inside))
      have sortedRest : (front ++ back).Pairwise fun one other => key one ≤ key other :=
        alsoSorted.sublist ((List.Sublist.refl front).append (List.sublist_cons_self item back))
      exact Relation.ReflTransGen.trans ((ih restPerm sorted.2 sortedRest).cons item)
        (exchanged_behind front back later)

theorem Exchange.perm (exchange : Exchange key items others) : others.Perm items := by
  cases exchange with
  | swap before after one other same => exact (List.Perm.swap one other after).append_left before

theorem Exchange.sorted [PartialOrder Key] (exchange : Exchange key items others)
    (sorted : items.Pairwise fun one other => key one ≤ key other) :
    others.Pairwise fun one other => key one ≤ key other := by
  cases exchange with
  | swap before after one other same =>
      rw [List.pairwise_append, List.pairwise_cons, List.pairwise_cons] at sorted ⊢
      obtain ⟨front, ⟨oneFirst, otherFirst, back⟩, across⟩ := sorted
      refine ⟨front, ⟨?_, ?_, back⟩, fun early inFront late inBack => ?_⟩
      · intro late inBack
        rcases List.mem_cons.mp inBack with isOne | behind
        · rw [isOne, same]
        · exact otherFirst late behind
      · exact fun late behind => oneFirst late (List.mem_cons_of_mem _ behind)
      · exact across early inFront late ((List.Perm.swap one other after).mem_iff.mp inBack)

/-- What no exchange in a sorted order of the items changes is the same for any two sorted orders. -/
theorem eq_of_perm_of_sorted [PartialOrder Key] {Result : Type} (compute : List Item → Result)
    (perm : items.Perm others) (sorted : items.Pairwise fun one other => key one ≤ key other)
    (alsoSorted : others.Pairwise fun one other => key one ≤ key other)
    (unchanged : ∀ first second, first.Perm items → (first.Pairwise fun one other => key one ≤ key other) →
      Exchange key first second → compute first = compute second) : compute items = compute others := by
  have reached : ∀ last, Exchanged key items last → compute items = compute last ∧ last.Perm items ∧
      last.Pairwise fun one other => key one ≤ key other := by
    intro last exchanged
    induction exchanged with
    | refl => exact ⟨rfl, List.Perm.refl _, sorted⟩
    | tail _ exchange ih =>
        obtain ⟨same, isPerm, isSorted⟩ := ih
        exact ⟨same.trans (unchanged _ _ isPerm isSorted exchange), exchange.perm.trans isPerm,
          exchange.sorted isSorted⟩
  exact (reached others (exchanged_of_perm perm sorted alsoSorted)).1

end Exchanges

end Reflection.Reordering
