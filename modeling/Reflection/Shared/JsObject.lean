/-
Objects as the runtime keeps them: entries in property order.

Array indices come first, in numeric order, and the other keys behind them in the order in
which they were added. Setting a key again keeps its place.
-/

import Reflection.Shared.JsString

namespace Reflection

open JsString

namespace JsObject

def isDigit (unit : UInt16) : Bool := 0x30 ≤ unit && unit ≤ 0x39

/-- `/^(?:0|[1-9]\d*)$/`. -/
def isIndexText : JsString → Bool
  | [] => false
  | first :: rest =>
      (first == 0x30 && rest.isEmpty) || (0x31 ≤ first && first ≤ 0x39 && rest.all isDigit)

def digitsValue (value : JsString) : Nat :=
  value.foldl (fun total unit => total * 10 + (unit.toNat - 0x30)) 0

/-- The keys an object lists first: canonical integers below 2^32 - 1. -/
def isArrayIndex (key : JsString) : Bool := isIndexText key && digitsValue key < 4294967295

section Entries

variable {Value Other : Type}

def propertyOrder (entries : List (JsString × Value)) : List (JsString × Value) :=
  (entries.filter fun entry => isArrayIndex entry.1).insertionSort
      (fun one other => digitsValue one.1 ≤ digitsValue other.1) ++
    entries.filter fun entry => !isArrayIndex entry.1

def setProperty (entries : List (JsString × Value)) (entry : JsString × Value) :
    List (JsString × Value) :=
  if entries.any fun kept => kept.1 == entry.1 then
    entries.map fun kept => if kept.1 == entry.1 then entry else kept
  else entries ++ [entry]

/-- `Object.fromEntries(entries)`. -/
def fromEntries (entries : List (JsString × Value)) : List (JsString × Value) :=
  propertyOrder (entries.foldl setProperty [])

/-- What every object satisfies. -/
def Ordered (entries : List (JsString × Value)) : Prop :=
  (entries.map Prod.fst).Nodup ∧ propertyOrder entries = entries

theorem setProperty_new {entries : List (JsString × Value)} {entry : JsString × Value}
    (new : entry.1 ∉ entries.map Prod.fst) : setProperty entries entry = entries ++ [entry] := by
  have absent : (entries.any fun kept => kept.1 == entry.1) = false := by
    rw [List.any_eq_false]
    intro kept inside same
    exact new (List.mem_map.mpr ⟨kept, inside, eq_of_beq same⟩)
  rw [setProperty, absent]
  rfl

theorem foldl_setProperty {entries before : List (JsString × Value)}
    (distinct : ((before ++ entries).map Prod.fst).Nodup) :
    entries.foldl setProperty before = before ++ entries := by
  induction entries generalizing before with
  | nil => simp
  | cons entry rest ih =>
      have new : entry.1 ∉ before.map Prod.fst := by
        rw [List.map_append, List.map_cons, List.nodup_append] at distinct
        intro inside
        exact distinct.2.2 entry.1 inside entry.1 List.mem_cons_self rfl
      rw [List.foldl_cons, setProperty_new new, ih]
      · simp
      · simpa using distinct

/-- Entries of distinct keys are only put in order. -/
theorem fromEntries_distinct {entries : List (JsString × Value)}
    (distinct : (entries.map Prod.fst).Nodup) : fromEntries entries = propertyOrder entries := by
  have folded : entries.foldl setProperty [] = [] ++ entries :=
    foldl_setProperty (by simpa using distinct)
  rw [fromEntries, folded, List.nil_append]

theorem propertyOrder_perm (entries : List (JsString × Value)) :
    (propertyOrder entries).Perm entries := by
  have sorted := List.perm_insertionSort
    (fun one other : JsString × Value => digitsValue one.1 ≤ digitsValue other.1)
    (entries.filter fun entry => isArrayIndex entry.1)
  exact (sorted.append_right _).trans
    (List.filter_append_perm (fun entry : JsString × Value => isArrayIndex entry.1) entries)

theorem propertyOrder_idem (entries : List (JsString × Value)) :
    propertyOrder (propertyOrder entries) = propertyOrder entries := by
  let le : JsString × Value → JsString × Value → Prop :=
    fun one other => digitsValue one.1 ≤ digitsValue other.1
  let front := (entries.filter fun entry => isArrayIndex entry.1).insertionSort le
  let behind := entries.filter fun entry => !isArrayIndex entry.1
  have indexed : ∀ entry ∈ front, isArrayIndex entry.1 = true := by
    intro entry inside
    have member := (List.mem_insertionSort le).mp inside
    exact (List.mem_filter.mp member).2
  have named : ∀ entry ∈ behind, isArrayIndex entry.1 = false := by
    intro entry inside
    simpa using (List.mem_filter.mp inside).2
  have frontKept : ((front ++ behind).filter fun entry => isArrayIndex entry.1) = front := by
    rw [List.filter_append, List.filter_eq_self.mpr indexed, List.filter_eq_nil_iff.mpr, List.append_nil]
    intro entry inside
    simp [named entry inside]
  have behindKept : ((front ++ behind).filter fun entry => !isArrayIndex entry.1) = behind := by
    rw [List.filter_append, List.filter_eq_nil_iff.mpr, List.filter_eq_self.mpr, List.nil_append]
    · intro entry inside
      simp [named entry inside]
    · intro entry inside
      simp [indexed entry inside]
  have total : Std.Total le := ⟨fun one other => Nat.le_total _ _⟩
  have transitive : IsTrans _ le := ⟨fun _ _ _ first second => Nat.le_trans first second⟩
  have sorted : front.insertionSort le = front := (List.pairwise_insertionSort le _).insertionSort_eq
  change ((front ++ behind).filter fun entry => isArrayIndex entry.1).insertionSort le ++
    ((front ++ behind).filter fun entry => !isArrayIndex entry.1) = front ++ behind
  rw [frontKept, behindKept, sorted]

theorem Ordered.fromEntries {entries : List (JsString × Value)}
    (distinct : (entries.map Prod.fst).Nodup) : Ordered (fromEntries entries) := by
  rw [fromEntries_distinct distinct]
  refine ⟨?_, propertyOrder_idem entries⟩
  exact ((propertyOrder_perm entries).map Prod.fst).nodup_iff.mpr distinct

/-- Making an object of an object's entries gives the object. -/
theorem Ordered.fromEntries_eq {entries : List (JsString × Value)} (ordered : Ordered entries) :
    JsObject.fromEntries entries = entries := by
  rw [fromEntries_distinct ordered.1, ordered.2]

/-- The order is that of the keys. -/
theorem propertyOrder_map {change : Value → Other} (entries : List (JsString × Value)) :
    propertyOrder (entries.map fun entry => (entry.1, change entry.2)) =
      (propertyOrder entries).map fun entry => (entry.1, change entry.2) := by
  have sorted := List.map_insertionSort
    (fun one other : JsString × Value => digitsValue one.1 ≤ digitsValue other.1)
    (fun one other : JsString × Other => digitsValue one.1 ≤ digitsValue other.1)
    (fun entry => (entry.1, change entry.2)) (entries.filter fun entry => isArrayIndex entry.1)
    (fun _ _ _ _ => Iff.rfl)
  rw [propertyOrder, propertyOrder, List.map_append, sorted, List.filter_map, List.filter_map]
  rfl

end Entries

end JsObject

end Reflection
