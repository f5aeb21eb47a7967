/-
What sanitizing keeps.

Sanitized values are JSON values again, hold no data URL in a text or a key, and show the same
visible state as the state they were made from.
-/

import Reflection.Shared.Framing
import Reflection.Shared.ToolSource

namespace Reflection

open JsString JsObject

/-! ### Texts without data URLs -/

theorem startsData_append {front : JsString} (rest : JsString) (starts : startsData front = true) :
    startsData (front ++ rest) = true := by
  unfold startsData at starts
  split at starts
  · exact starts
  · cases starts

theorem dataBehind_append {front : JsString} (rest : JsString) (behind : dataBehind front = true) :
    dataBehind (front ++ rest) = true := by
  induction front with
  | nil => cases behind
  | cons unit tail ih =>
      rw [dataBehind, Bool.or_eq_true, Bool.and_eq_true] at behind
      rw [List.cons_append, dataBehind, Bool.or_eq_true, Bool.and_eq_true]
      rcases behind with ⟨other, starts⟩ | later
      · exact .inl ⟨other, startsData_append rest starts⟩
      · exact .inr (ih later)

/-- What starts a text without a data URL has none either. -/
theorem containsDataUrl_take {value : JsString} (plain : containsDataUrl value = false) (count : Nat) :
    containsDataUrl (value.take count) = false := by
  rw [← Bool.not_eq_true] at plain ⊢
  intro found
  apply plain
  rw [← List.take_append_drop count value]
  rw [containsDataUrl, Bool.or_eq_true] at found ⊢
  exact found.imp (startsData_append _) (dataBehind_append _)

theorem startsData_colon {value : JsString} (starts : startsData value = true) : 0x3a ∈ value := by
  unfold startsData at starts
  split at starts
  · simp only [Bool.and_eq_true, beq_iff_eq] at starts
    simp [starts.2]
  · cases starts

theorem dataBehind_colon {value : JsString} (behind : dataBehind value = true) : 0x3a ∈ value := by
  induction value with
  | nil => cases behind
  | cons unit rest ih =>
      rw [dataBehind, Bool.or_eq_true, Bool.and_eq_true] at behind
      rcases behind with ⟨_, starts⟩ | later
      · exact List.mem_cons_of_mem _ (startsData_colon starts)
      · exact List.mem_cons_of_mem _ (ih later)

/-- A data URL has a colon. -/
theorem containsDataUrl_of_no_colon {value : JsString} (absent : 0x3a ∉ value) :
    containsDataUrl value = false := by
  rw [← Bool.not_eq_true, containsDataUrl, Bool.or_eq_true]
  rintro (starts | behind)
  · exact absent (startsData_colon starts)
  · exact absent (dataBehind_colon behind)

theorem omitted_plain : containsDataUrl dataUrlOmitted = false ∧
    containsDataUrl nestedValueOmitted = false ∧ containsDataUrl outputCleared = false ∧
      containsDataUrl SANITIZED_TOOL_OBJECT_KEY = false := by
  decide +kernel

theorem redactedKey_plain (index : Nat) : containsDataUrl (redactedKey index) = false := by
  apply containsDataUrl_of_no_colon
  have front : 0x3a ∉ ofString "[data URL key omitted " := by decide
  have back : 0x3a ∉ ofString "]" := by decide
  have digits : 0x3a ∉ decimal index := by
    intro inside
    have range := decimal_digit inside
    simp at range
  simp only [redactedKey, List.mem_append, not_or]
  exact ⟨⟨front, digits⟩, back⟩

theorem visibleKey_plain (index : Nat) (key : JsString) : containsDataUrl (visibleKey index key) = false := by
  unfold visibleKey
  split
  · exact redactedKey_plain index
  · rename_i plain
    simpa using plain

theorem visibleToolName_plain {Number : Type} (part : ToolPart Number) :
    containsDataUrl (visibleToolName part) = false := by
  unfold visibleToolName
  apply containsDataUrl_take
  split
  · exact omitted_plain.1
  · rename_i plain
    simpa using plain

theorem visibleToolName_length {Number : Type} (part : ToolPart Number) :
    (visibleToolName part).length ≤ 500 := by
  simp [visibleToolName]

/-! ### Sanitized values are JSON values -/

section Values

variable {Number : Type}

/-- Objects have distinct keys, in whatever order they are listed. -/
inductive Json.Distinct : Json Number → Prop
  | null : Distinct .null
  | bool (value : Bool) : Distinct (.bool value)
  | number (value : Number) : Distinct (.number value)
  | string (value : JsString) : Distinct (.string value)
  | array {items : List (Json Number)} (each : ∀ item ∈ items, Distinct item) : Distinct (.array items)
  | object {entries : List (JsString × Json Number)} (keys : (entries.map Prod.fst).Nodup)
      (each : ∀ entry ∈ entries, Distinct entry.2) : Distinct (.object entries)

theorem Json.Valid.distinct {value : Json Number} (valid : value.Valid) : value.Distinct := by
  induction valid with
  | null => exact .null
  | bool value => exact .bool value
  | number value => exact .number value
  | string value => exact .string value
  | array _ ih => exact .array ih
  | object ordered _ ih => exact .object ordered.1 ih

theorem sortedEntries_perm (entries : List (JsString × Json Number)) :
    (sortedEntries entries).Perm entries :=
  List.perm_insertionSort _ entries

theorem ordered_single {Value : Type} (entry : JsString × Value) : Ordered [entry] := by
  refine ⟨List.nodup_singleton _, ?_⟩
  by_cases index : isArrayIndex entry.1 = true
  · simp [propertyOrder, index]
  · simp [propertyOrder, index]

theorem sanitizedKeys (levels : Nat) (entries : List (JsString × Json Number)) :
    ((sortedEntries entries).map fun entry => (entry.1, sanitizeModelValue levels entry.2)).map Prod.fst =
      (sortedEntries entries).map Prod.fst := by
  rw [List.map_map]
  rfl

theorem sortedKeys_nodup {entries : List (JsString × Json Number)} (keys : (entries.map Prod.fst).Nodup) :
    ((sortedEntries entries).map Prod.fst).Nodup :=
  ((sortedEntries_perm entries).map Prod.fst).nodup_iff.mpr keys

/-- An object without data URLs in its keys is made of its sorted entries. -/
theorem sanitizedEntries_eq {entries : List (JsString × Json Number)} (keys : (entries.map Prod.fst).Nodup)
    (levels : Nat) :
    fromEntries ((sortedEntries entries).map fun entry => (entry.1, sanitizeModelValue levels entry.2)) =
      (propertyOrder (sortedEntries entries)).map fun entry => (entry.1, sanitizeModelValue levels entry.2) := by
  rw [fromEntries_distinct, propertyOrder_map]
  rw [sanitizedKeys]
  exact sortedKeys_nodup keys

theorem sanitizedOrder_perm (entries : List (JsString × Json Number)) :
    (propertyOrder (sortedEntries entries)).Perm entries :=
  (propertyOrder_perm _).trans (sortedEntries_perm entries)

theorem sanitizeModelValue_valid (levels : Nat) {value : Json Number} (distinct : value.Distinct) :
    (sanitizeModelValue levels value).Valid := by
  induction levels generalizing value with
  | zero => exact .string _
  | succ levels ih =>
      cases distinct with
      | null => exact .null
      | bool value => exact .bool value
      | number value => exact .number value
      | string value => exact .string _
      | array each =>
          apply Json.Valid.array
          intro item inside
          obtain ⟨source, isSource, same⟩ := List.mem_map.mp inside
          exact same ▸ ih (each source isSource)
      | @object entries keys each =>
          rw [sanitizeModelValue]
          split
          · apply Json.Valid.object (ordered_single _)
            simp only [List.forall_mem_singleton]
            apply Json.Valid.array
            intro item inside
            obtain ⟨⟨source, index⟩, isSource, same⟩ := List.mem_map.mp inside
            have member := (sortedEntries_perm entries).mem_iff.mp (List.fst_mem_of_mem_zipIdx isSource)
            rw [← same]
            apply Json.Valid.array
            intro part isPart
            simp only [List.mem_cons, List.not_mem_nil, or_false] at isPart
            rcases isPart with rfl | rfl
            · exact .string _
            · exact ih (each source member)
          · apply Json.Valid.object
            · apply Ordered.fromEntries
              rw [sanitizedKeys]
              exact sortedKeys_nodup keys
            · rw [sanitizedEntries_eq keys]
              intro entry inside
              obtain ⟨source, isSource, same⟩ := List.mem_map.mp inside
              rw [← same]
              exact ih (each source ((sanitizedOrder_perm entries).mem_iff.mp isSource))

/-! ### The visible state is kept -/

theorem property_eq_some_iff {entries : List (JsString × Json Number)} (keys : (entries.map Prod.fst).Nodup)
    {key : JsString} {value : Json Number} :
    property key entries = some value ↔ (key, value) ∈ entries := by
  induction entries with
  | nil => simp [property]
  | cons entry rest ih =>
      obtain ⟨first, item⟩ := entry
      rw [List.map_cons, List.nodup_cons] at keys
      have later := ih keys.2
      by_cases same : first = key
      · have absent : (key, value) ∉ rest := by
          intro inside
          exact keys.1 (List.mem_map.mpr ⟨(key, value), inside, same.symm⟩)
        simp [property, same, absent, eq_comm]
      · have other : (key, value) ≠ (first, item) := fun equal => same (congrArg Prod.fst equal).symm
        rw [List.mem_cons, or_iff_right other, ← later]
        simp [property, same]

theorem setProperty_keys {entries : List (JsString × Json Number)} (keys : (entries.map Prod.fst).Nodup)
    (key : JsString) (value : Json Number) :
    ((setProperty entries (key, value)).map Prod.fst).Nodup := by
  unfold setProperty
  split
  · have same : (entries.map fun kept => if kept.1 == key then (key, value) else kept).map Prod.fst =
        entries.map Prod.fst := by
      rw [List.map_map]
      apply List.map_congr_left
      intro kept _
      simp only [Function.comp_apply]
      split
      · rename_i isKey
        exact (eq_of_beq isKey).symm
      · rfl
    rw [same]
    exact keys
  · rename_i absent
    simp only [List.any_eq_true, not_exists, not_and] at absent
    simp only [List.map_append, List.map_cons, List.map_nil]
    rw [List.nodup_append]
    refine ⟨keys, List.nodup_singleton _, ?_⟩
    intro one inside other isOther
    obtain ⟨kept, isKept, same⟩ := List.mem_map.mp inside
    rw [List.mem_singleton.mp isOther, ← same]
    intro equal
    exact absent kept isKept (beq_iff_eq.mpr equal)

theorem modelVisibleToolStateValue_distinct {value : Json Number} (distinct : value.Distinct) :
    (modelVisibleToolStateValue value).Distinct := by
  cases distinct with
  | null => exact .null
  | bool value => exact .bool value
  | number value => exact .number value
  | string value => exact .string value
  | array each => exact .array each
  | @object entries keys each =>
      rw [modelVisibleToolStateValue]
      split
      · apply Json.Distinct.object (setProperty_keys keys _ _)
        intro entry inside
        unfold setProperty at inside
        split at inside
        · obtain ⟨kept, isKept, same⟩ := List.mem_map.mp inside
          rw [← same]
          split
          · exact .string _
          · exact each kept isKept
        · rcases List.mem_append.mp inside with old | new
          · exact each entry old
          · rw [List.mem_singleton.mp new]
            exact .string _
      · exact .object keys each

/-- Looking a key up in a sanitized object. -/
theorem property_sanitized {entries : List (JsString × Json Number)} (keys : (entries.map Prod.fst).Nodup)
    (levels : Nat) (key : JsString) :
    property key ((propertyOrder (sortedEntries entries)).map fun entry =>
        (entry.1, sanitizeModelValue levels entry.2)) =
      (property key entries).map (sanitizeModelValue levels) := by
  have orderedKeys : ((propertyOrder (sortedEntries entries)).map Prod.fst).Nodup :=
    ((sanitizedOrder_perm entries).map Prod.fst).nodup_iff.mpr keys
  have found : property key (propertyOrder (sortedEntries entries)) = property key entries := by
    apply Option.ext
    intro value
    rw [property_eq_some_iff orderedKeys, property_eq_some_iff keys, (sanitizedOrder_perm entries).mem_iff]
  rw [← found, property, property, List.find?_map, Option.map_map, Option.map_map]
  rfl

/-- Setting a property to the value it has changes nothing. -/
theorem setProperty_same {entries : List (JsString × Json Number)} (keys : (entries.map Prod.fst).Nodup)
    {key : JsString} {value : Json Number} (found : property key entries = some value) :
    setProperty entries (key, value) = entries := by
  have inside := (property_eq_some_iff keys).mp found
  have present : (entries.any fun kept => kept.1 == key) = true :=
    List.any_eq_true.mpr ⟨(key, value), inside, beq_self_eq_true key⟩
  rw [setProperty, if_pos present]
  have kept : ∀ entry ∈ entries, (if entry.1 == key then (key, value) else entry) = entry := by
    intro entry isEntry
    split
    · rename_i isKey
      have same : entry.1 = key := eq_of_beq isKey
      have again := (property_eq_some_iff keys).mpr (show (key, entry.2) ∈ entries from same ▸ isEntry)
      rw [found, Option.some.injEq] at again
      rw [again, ← same]
    · rfl
  exact (List.map_congr_left kept).trans (List.map_id entries)

theorem mem_setProperty (entries : List (JsString × Json Number)) (key : JsString) (value : Json Number) :
    (key, value) ∈ setProperty entries (key, value) := by
  unfold setProperty
  split
  · rename_i present
    obtain ⟨kept, isKept, isKey⟩ := List.any_eq_true.mp present
    exact List.mem_map.mpr ⟨kept, isKept, if_pos isKey⟩
  · exact List.mem_append_right _ List.mem_cons_self

/-- A compacted state shows the cleared output. -/
theorem modelVisibleToolStateValue_output {value : Json Number} (distinct : value.Distinct)
    {entries : List (JsString × Json Number)} (isObject : modelVisibleToolStateValue value = .object entries)
    (compacted : isCompacted entries = true) :
    property (ofString "output") entries = some (.string outputCleared) := by
  cases distinct with
  | null => cases isObject
  | bool value => cases isObject
  | number value => cases isObject
  | string value => cases isObject
  | array each => cases isObject
  | @object source keys each =>
      rw [modelVisibleToolStateValue] at isObject
      split at isObject
      · cases isObject
        exact (property_eq_some_iff (setProperty_keys keys _ _)).mpr (mem_setProperty _ _ _)
      · rename_i open'
        cases isObject
        exact absurd compacted open'

theorem sanitizeModelValue_number {levels : Nat} {value : Json Number} {number : Number}
    (same : sanitizeModelValue (levels + 1) value = .number number) : value = .number number := by
  cases value with
  | null => cases same
  | bool value => cases same
  | number value => exact same
  | string value => cases same
  | array items => cases same
  | object entries =>
      rw [sanitizeModelValue] at same
      split at same <;> cases same

/-- Encoded entries hide every property but one. -/
theorem property_encoded {key : JsString} (other : SANITIZED_TOOL_OBJECT_KEY ≠ key) (value : Json Number) :
    property key [(SANITIZED_TOOL_OBJECT_KEY, value)] = none := by
  simp [property, other]

/-- Only an object without data URLs in its keys shows other properties when it is rendered. -/
theorem property_rendered {levels : Nat} {value : Json Number} (distinct : value.Distinct)
    {rendered : List (JsString × Json Number)} {key : JsString} (other : SANITIZED_TOOL_OBJECT_KEY ≠ key)
    {found : Json Number} (isObject : sanitizeModelValue (levels + 1) value = .object rendered)
    (shown : property key rendered = some found) :
    ∃ entries source, value = .object entries ∧
      rendered = (propertyOrder (sortedEntries entries)).map (fun entry =>
        (entry.1, sanitizeModelValue levels entry.2)) ∧
      property key entries = some source ∧ sanitizeModelValue levels source = found := by
  cases distinct with
  | null => cases isObject
  | bool value => cases isObject
  | number value => cases isObject
  | string value => cases isObject
  | array each => cases isObject
  | @object entries keys each =>
      rw [sanitizeModelValue] at isObject
      split at isObject
      · cases isObject
        rw [property_encoded other] at shown
        cases shown
      · cases isObject
        rw [sanitizedEntries_eq keys] at shown ⊢
        rw [property_sanitized keys, Option.map_eq_some_iff] at shown
        obtain ⟨source, isSource, same⟩ := shown
        exact ⟨entries, source, rfl, rfl, isSource, same⟩

/-- The visible state of a rendered state is the rendered state. -/
theorem modelVisibleToolStateValue_rendered {value : Json Number} (valid : value.Valid) :
    modelVisibleToolStateValue (modelVisibleToolState value) = modelVisibleToolState value := by
  have distinct := modelVisibleToolStateValue_distinct valid.distinct
  have renderedValid := sanitizeModelValue_valid modelLevels distinct
  have notTime : SANITIZED_TOOL_OBJECT_KEY ≠ ofString "time" := by decide
  have notCompacted : SANITIZED_TOOL_OBJECT_KEY ≠ ofString "compacted" := by decide
  unfold modelVisibleToolState modelLevels at *
  generalize isVisible : modelVisibleToolStateValue value = visible at distinct renderedValid ⊢
  generalize isRendered : sanitizeModelValue 9 visible = rendered at renderedValid ⊢
  cases rendered with
  | object shown =>
      rw [modelVisibleToolStateValue]
      split
      · rename_i compacted
        have marked := compacted
        unfold isCompacted at marked
        split at marked
        · rename_i time isTime
          split at marked
          · rename_i number isNumber
            obtain ⟨entries, source, isObject, listed, isSource, sameTime⟩ :=
              property_rendered distinct notTime isRendered isTime
            rw [isObject] at distinct isVisible
            cases distinct with
            | object keys each =>
                have timeDistinct : source.Distinct := each _ ((property_eq_some_iff keys).mp isSource)
                obtain ⟨timeEntries, stamp, isTimeObject, _, isStamp, sameStamp⟩ :=
                  property_rendered timeDistinct notCompacted sameTime isNumber
                have isCompact : isCompacted entries = true := by
                  rw [isCompacted, isSource, isTimeObject]
                  dsimp only
                  rw [isStamp, sanitizeModelValue_number sameStamp]
                have output := modelVisibleToolStateValue_output valid.distinct isVisible isCompact
                have kept : property (ofString "output") shown = some (.string outputCleared) := by
                  rw [listed, property_sanitized keys, output, Option.map_some, sanitizeModelValue,
                    omitted_plain.2.2.1]
                  rfl
                cases renderedValid with
                | object ordered _ => rw [setProperty_same ordered.1 kept]
          · cases marked
        · cases marked
      · rfl
  | null => rfl
  | bool value => rfl
  | number value => rfl
  | string value => rfl
  | array items => rfl

end Values

end Reflection
