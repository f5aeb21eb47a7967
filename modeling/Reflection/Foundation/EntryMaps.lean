/-
Maps filled from a list of entries, of which the last with a key wins.
-/

import Mathlib

namespace Reflection

variable {Key Value : Type} [DecidableEq Key]

/-- `new Map(entries)`. -/
def ofEntries (entries : List (Key × Value)) : AList fun _ : Key => Value :=
  entries.foldl (fun map entry => map.insert entry.1 entry.2) ∅

/-- The number of keys. -/
def mapSize (map : AList fun _ : Key => Value) : Nat := map.keys.length

section Entries

variable {entries : List (Key × Value)} {key : Key} {value : Value}

theorem ofEntries_snoc (entries : List (Key × Value)) (entry : Key × Value) :
    ofEntries (entries ++ [entry]) = (ofEntries entries).insert entry.1 entry.2 := by
  rw [ofEntries, List.foldl_append]
  rfl

theorem mem_keys_ofEntries : key ∈ (ofEntries entries).keys ↔ key ∈ entries.map Prod.fst := by
  induction entries using List.reverseRecOn with
  | nil => exact iff_of_false List.not_mem_nil List.not_mem_nil
  | append_singleton entries entry ih =>
      rw [ofEntries_snoc, ← AList.mem_keys, AList.mem_insert, AList.mem_keys, ih, List.map_append,
        List.mem_append, List.map_singleton, List.mem_singleton, or_comm]

theorem lookup_ofEntries_mem (found : (ofEntries entries).lookup key = some value) :
    (key, value) ∈ entries := by
  induction entries using List.reverseRecOn with
  | nil => cases found
  | append_singleton entries entry ih =>
      rw [ofEntries_snoc] at found
      rcases eq_or_ne key entry.1 with same | different
      · rw [same, AList.lookup_insert] at found
        cases found
        rw [same]
        exact List.mem_append_right _ (List.mem_singleton.mpr rfl)
      · rw [AList.lookup_insert_ne different] at found
        exact List.mem_append_left _ (ih found)

theorem lookup_ofEntries_isSome (inside : key ∈ entries.map Prod.fst) :
    ∃ value, (ofEntries entries).lookup key = some value := by
  rw [← mem_keys_ofEntries, ← AList.mem_keys] at inside
  exact Option.isSome_iff_exists.mp (AList.lookup_isSome.mpr inside)

/-- Where the keys differ, every entry is found. -/
theorem lookup_ofEntries (distinct : (entries.map Prod.fst).Nodup) (inside : (key, value) ∈ entries) :
    (ofEntries entries).lookup key = some value := by
  have isKey : key ∈ entries.map Prod.fst := List.mem_map.mpr ⟨(key, value), inside, rfl⟩
  rcases lookup_ofEntries_isSome isKey with ⟨other, found⟩
  have same := List.inj_on_of_nodup_map distinct (lookup_ofEntries_mem found) inside rfl
  have sameValue : other = value := (Prod.ext_iff.mp same).2
  rw [found, sameValue]

theorem lookup_ofEntries_iff (distinct : (entries.map Prod.fst).Nodup) :
    (ofEntries entries).lookup key = some value ↔ (key, value) ∈ entries :=
  ⟨lookup_ofEntries_mem, lookup_ofEntries distinct⟩

/-- No key was overwritten. -/
theorem mapSize_ofEntries_iff :
    mapSize (ofEntries entries) = entries.length ↔ (entries.map Prod.fst).Nodup := by
  have sameKeys : (ofEntries entries).keys.toFinset = (entries.map Prod.fst).toFinset := by
    ext key
    rw [List.mem_toFinset, List.mem_toFinset, mem_keys_ofEntries]
  have size : mapSize (ofEntries entries) = (entries.map Prod.fst).dedup.length := by
    rw [mapSize, ← List.card_toFinset, ← sameKeys, List.card_toFinset,
      (AList.keys_nodup (ofEntries entries)).dedup]
  have lengths : (entries.map Prod.fst).length = entries.length := List.length_map _
  rw [size, ← lengths]
  constructor
  · intro same
    rw [← List.dedup_eq_self]
    exact (List.dedup_sublist _).eq_of_length same
  · intro distinct
    rw [distinct.dedup]

end Entries

omit [DecidableEq Key] in
/-- Two lists of keys, without repetition and of one length, one of them in the other. -/
theorem perm_of_nodup {one other : List Key} (distinct : one.Nodup) (inside : one ⊆ other)
    (length : other.length ≤ one.length) : one.Perm other :=
  (distinct.subperm inside).perm_of_length_le length

end Reflection
