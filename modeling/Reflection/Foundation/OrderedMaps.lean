/-
Maps that keep their keys in the order in which they were first set.

Setting a key that is there replaces its value where it stands, and a new key goes behind the
others.
-/

import Mathlib

namespace Reflection

/-- `Map`. -/
structure OrderedMap (Key Value : Type) where
  entries : List (Key × Value)
  distinct : (entries.map Prod.fst).Nodup

namespace OrderedMap

variable {Key Value : Type}

def empty : OrderedMap Key Value :=
  { entries := []
    distinct := List.nodup_nil }

def keys (map : OrderedMap Key Value) : List Key := map.entries.map Prod.fst

def values (map : OrderedMap Key Value) : List Value := map.entries.map Prod.snd

variable [DecidableEq Key]

def setEntry (key : Key) (value : Value) : List (Key × Value) → List (Key × Value)
  | [] => [(key, value)]
  | entry :: rest =>
      if entry.1 = key then (key, value) :: rest else entry :: setEntry key value rest

def findEntry (key : Key) : List (Key × Value) → Option Value
  | [] => none
  | entry :: rest => if entry.1 = key then some entry.2 else findEntry key rest

section Entries

variable {entries : List (Key × Value)} {key other : Key} {value : Value}

theorem keys_setEntry : (setEntry key value entries).map Prod.fst =
    if key ∈ entries.map Prod.fst then entries.map Prod.fst else entries.map Prod.fst ++ [key] := by
  induction entries with
  | nil => rfl
  | cons entry rest ih =>
      unfold setEntry
      rw [List.map_cons]
      by_cases same : entry.1 = key
      · rw [if_pos same, if_pos (List.mem_cons.mpr (.inl same.symm)), List.map_cons, same]
      · rw [if_neg same, List.map_cons, ih]
        by_cases later : key ∈ rest.map Prod.fst
        · rw [if_pos later, if_pos (List.mem_cons_of_mem _ later)]
        · rw [if_neg later, if_neg]
          · rfl
          · intro inside
            rcases List.mem_cons.mp inside with isFirst | isLater
            · exact same isFirst.symm
            · exact later isLater

theorem nodup_setEntry (distinct : (entries.map Prod.fst).Nodup) :
    ((setEntry key value entries).map Prod.fst).Nodup := by
  rw [keys_setEntry]
  split
  · exact distinct
  · rename_i absent
    exact List.nodup_append.mpr ⟨distinct, List.nodup_singleton key, fun one inside other isKey same =>
      absent (by rw [← List.mem_singleton.mp isKey, ← same]; exact inside)⟩

theorem findEntry_setEntry_self : findEntry key (setEntry key value entries) = some value := by
  induction entries with
  | nil => exact if_pos rfl
  | cons entry rest ih =>
      unfold setEntry
      by_cases same : entry.1 = key
      · rw [if_pos same]
        exact if_pos rfl
      · rw [if_neg same, findEntry, if_neg same]
        exact ih

theorem findEntry_setEntry_ne (different : other ≠ key) :
    findEntry other (setEntry key value entries) = findEntry other entries := by
  induction entries with
  | nil => exact if_neg different.symm
  | cons entry rest ih =>
      unfold setEntry
      by_cases same : entry.1 = key
      · rw [if_pos same, findEntry, findEntry, if_neg different.symm, same, if_neg different.symm]
      · rw [if_neg same, findEntry, findEntry, ih]

theorem findEntry_mem (found : findEntry key entries = some value) : (key, value) ∈ entries := by
  induction entries with
  | nil => cases found
  | cons entry rest ih =>
      unfold findEntry at found
      split at found
      · rename_i same
        cases found
        rw [← same]
        exact List.mem_cons_self
      · exact List.mem_cons_of_mem _ (ih found)

theorem findEntry_none (absent : findEntry key entries = none) : key ∉ entries.map Prod.fst := by
  induction entries with
  | nil => exact List.not_mem_nil
  | cons entry rest ih =>
      unfold findEntry at absent
      split at absent
      · cases absent
      · rename_i different
        intro inside
        rcases List.mem_cons.mp inside with isFirst | isLater
        · exact different isFirst.symm
        · exact ih absent isLater

theorem findEntry_of_mem (distinct : (entries.map Prod.fst).Nodup) (inside : (key, value) ∈ entries) :
    findEntry key entries = some value := by
  cases found : findEntry key entries with
  | none => exact absurd (List.mem_map_of_mem inside) (findEntry_none found)
  | some other =>
      have same := List.inj_on_of_nodup_map distinct (findEntry_mem found) inside rfl
      cases same
      rfl

end Entries

/-- `map.set(key, value)`. -/
def set (map : OrderedMap Key Value) (key : Key) (value : Value) : OrderedMap Key Value :=
  { entries := setEntry key value map.entries
    distinct := nodup_setEntry map.distinct }

/-- `map.get(key)`. -/
def get? (map : OrderedMap Key Value) (key : Key) : Option Value := findEntry key map.entries

section Maps

variable {map : OrderedMap Key Value} {key other : Key} {value : Value}

@[simp] theorem get?_empty : (empty : OrderedMap Key Value).get? key = none := rfl

@[simp] theorem get?_set_self : (map.set key value).get? key = some value := findEntry_setEntry_self

theorem get?_set_ne (different : other ≠ key) : (map.set key value).get? other = map.get? other :=
  findEntry_setEntry_ne different

theorem get?_iff : map.get? key = some value ↔ (key, value) ∈ map.entries :=
  ⟨findEntry_mem, findEntry_of_mem map.distinct⟩

/-- The values are what the keys give. -/
theorem mem_values : value ∈ map.values ↔ ∃ key, map.get? key = some value := by
  rw [values, List.mem_map]
  constructor
  · rintro ⟨⟨key, stored⟩, inside, same⟩
    cases same
    exact ⟨key, get?_iff.mpr inside⟩
  · rintro ⟨key, found⟩
    exact ⟨(key, value), get?_iff.mp found, rfl⟩

end Maps

/-- The entries that are not deleted. -/
def filter (map : OrderedMap Key Value) (keep : Key → Value → Bool) : OrderedMap Key Value :=
  { entries := map.entries.filter fun entry => keep entry.1 entry.2
    distinct := map.distinct.sublist (List.filter_sublist.map Prod.fst) }

section Filter

variable {map : OrderedMap Key Value} {keep : Key → Value → Bool} {key : Key} {value : Value}

theorem get?_filter : (map.filter keep).get? key = some value ↔
    map.get? key = some value ∧ keep key value = true := by
  rw [get?_iff, get?_iff, filter, List.mem_filter]

end Filter

end OrderedMap

end Reflection
