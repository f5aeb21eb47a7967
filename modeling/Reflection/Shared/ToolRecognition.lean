/-
Which rendered states are recognised.

The current recogniser reads an object whose only key is the key of sanitized objects as a list of
entries, also where the object was rendered as it is. An element that is no entry ends the check.
The legacy recogniser accepts such objects, but counts the levels of encoded entries, so it gives
up on a deep state. A frame is lost when both happen in one state.
-/

import Reflection.Shared.ToolFrames
import Reflection.Shared.ToolSanitizing

namespace Reflection

open JsString JsObject

/-! ### The recognisers on rendered values -/

section Values

variable {Number : Type}

theorem sortedEntries_sorted (entries : List (JsString × Json Number)) :
    ((sortedEntries entries).map Prod.fst).Pairwise fun one other => one ≤ other := by
  let before : JsString × Json Number → JsString × Json Number → Prop := fun one other => one.1 ≤ other.1
  have total : Std.Total before := ⟨fun one other => List.le_total one.1 other.1⟩
  have transitive : IsTrans _ before := ⟨fun _ _ _ first second => List.le_trans first second⟩
  rw [List.pairwise_map]
  exact List.pairwise_insertionSort before entries

/-- Keys of a rendered object are in the order of an object made from the sorted keys. -/
theorem hasCanonicalObjectKeyOrder_rendered {entries : List (JsString × Json Number)}
    (keys : (entries.map Prod.fst).Nodup) :
    hasCanonicalObjectKeyOrder ((propertyOrder (sortedEntries entries)).map Prod.fst) = true := by
  have sorted : sortKeys ((propertyOrder (sortedEntries entries)).map Prod.fst) =
      (sortedEntries entries).map Prod.fst := by
    refine List.Perm.eq_of_pairwise ?_ (List.pairwise_insertionSort _ _) (sortedEntries_sorted entries) ?_
    · intro first second _ _ le ge
      exact List.le_antisymm le ge
    · exact (List.perm_insertionSort _ _).trans ((propertyOrder_perm _).map Prod.fst)
  have named : (((sortedEntries entries).map Prod.fst).map fun key => (key, ())) =
      (sortedEntries entries).map fun entry => (entry.1, ()) := by
    rw [List.map_map]
    rfl
  have distinct : (((sortedEntries entries).map fun entry => (entry.1, ())).map Prod.fst).Nodup := by
    rw [List.map_map]
    exact sortedKeys_nodup keys
  have mapped := @propertyOrder_map _ _ (fun _ => ()) (sortedEntries entries)
  unfold hasCanonicalObjectKeyOrder
  rw [sorted, named, fromEntries_distinct distinct, mapped, List.map_map, List.all_eq_true]
  intro place inside
  rw [beq_iff_eq]
  exact List.mem_zipIdx_iff_getElem?.mp inside

/-- An element of an array that is rendered as a string and a value. -/
def entryShaped : Nat → Json Number → Bool
  | _ + 1, .array [.string _, _] => true
  | levels + 1, .array [_, _] => levels == 0
  | _, _ => false

/-- An object rendered as it is, though it looks like encoded entries with an element that is none. -/
def looksEncoded : Nat → List (JsString × Json Number) → Bool
  | levels + 1, [(key, .array items)] =>
      key == SANITIZED_TOOL_OBJECT_KEY && items.any fun item => !entryShaped levels item
  | _, _ => false

/-- The value holds such an object above the cut. -/
def hasMisreadObject : Nat → Json Number → Bool
  | levels + 1, .array items => items.any (hasMisreadObject levels)
  | levels + 1, .object entries =>
      looksEncoded levels entries || entries.any fun entry => hasMisreadObject levels entry.2
  | _, _ => false

/-- The value is rendered deeper than the legacy recogniser counts: it has the second number of levels
left, and spends two more on every object that is rendered as entries. -/
def outgrowsLegacyLevels : Nat → Nat → Json Number → Bool
  | 0, _, _ => false
  | _ + 1, 0, value => !isNestedValueOmitted value
  | levels + 1, left + 1, .array items => items.any (outgrowsLegacyLevels levels left)
  | levels + 1, left + 1, .object entries =>
      if entries.any fun entry => containsDataUrl entry.1 then
        left < 3 || entries.any fun entry => outgrowsLegacyLevels levels (left - 2) entry.2
      else entries.any fun entry => outgrowsLegacyLevels levels left entry.2
  | _ + 1, _ + 1, _ => false

theorem sanitize_string_plain (levels : Nat) (value : JsString) :
    ∃ shown, sanitizeModelValue levels (.string value : Json Number) = .string shown ∧
      containsDataUrl shown = false := by
  cases levels with
  | zero => exact ⟨_, rfl, omitted_plain.2.1⟩
  | succ levels =>
      refine ⟨_, rfl, ?_⟩
      split
      · exact omitted_plain.1
      · rename_i plain
        simpa using plain

/-- An element of the right shape is rendered as an entry. -/
theorem encodedEntry_shaped {levels : Nat} {item : Json Number} (shaped : entryShaped levels item = true) :
    ∃ less first second key, levels = less + 1 ∧ item = .array [first, second] ∧
      encodedEntry (sanitizeModelValue levels item) = some (key, sanitizeModelValue less second) ∧
        containsDataUrl key = false ∧ hasMisreadObject levels item = hasMisreadObject less second := by
  unfold entryShaped at shaped
  split at shaped
  · rename_i less value second
    obtain ⟨shown, same, plain⟩ : ∃ shown, sanitizeModelValue less (.string value : Json Number) =
        .string shown ∧ containsDataUrl shown = false := sanitize_string_plain less value
    refine ⟨less, .string value, second, shown, rfl, rfl, ?_, plain, ?_⟩
    · simp [sanitizeModelValue, same, encodedEntry]
    · cases less <;> simp [hasMisreadObject]
  · rename_i less first second _
    have none : less = 0 := by simpa using shaped
    subst none
    refine ⟨0, first, second, nestedValueOmitted, rfl, rfl, rfl, omitted_plain.2.1, ?_⟩
    simp [hasMisreadObject]
  · cases shaped

theorem encodedEntry_eq_some {value item : Json Number} {key : JsString}
    (found : encodedEntry value = some (key, item)) : value = .array [.string key, item] := by
  unfold encodedEntry at found
  split at found
  · cases found
    rfl
  · cases found

/-- Above the cut only a string is rendered as a string. -/
theorem string_of_sanitized {levels : Nat} {value : Json Number} {shown : JsString}
    (same : sanitizeModelValue (levels + 1) value = .string shown) : ∃ text, value = .string text := by
  cases value with
  | null => cases same
  | bool value => cases same
  | number value => cases same
  | string value => exact ⟨value, rfl⟩
  | array items => cases same
  | object entries =>
      rw [sanitizeModelValue] at same
      split at same <;> cases same

/-- Above the cut only an array is rendered as an array. -/
theorem array_of_sanitized {levels : Nat} {value : Json Number} {shown : List (Json Number)}
    (same : sanitizeModelValue levels value = .array shown) :
    ∃ less items, levels = less + 1 ∧ value = .array items ∧
      shown = items.map (sanitizeModelValue less) := by
  cases levels with
  | zero => cases same
  | succ levels =>
      cases value with
      | null => cases same
      | bool value => cases same
      | number value => cases same
      | string value => cases same
      | array items =>
          cases same
          exact ⟨levels, items, rfl, rfl, rfl⟩
      | object entries =>
          rw [sanitizeModelValue] at same
          split at same <;> cases same

theorem encodedEntry_unshaped {levels : Nat} {item : Json Number} (unshaped : entryShaped levels item = false) :
    encodedEntry (sanitizeModelValue levels item) = none := by
  cases found : encodedEntry (sanitizeModelValue levels item) with
  | none => rfl
  | some entry =>
      obtain ⟨key, value⟩ := entry
      obtain ⟨less, items, rfl, rfl, shown⟩ := array_of_sanitized (encodedEntry_eq_some found)
      obtain ⟨first, more, rfl, isKey, rest⟩ := List.map_eq_cons_iff.mp shown.symm
      obtain ⟨second, tail, rfl, _, nothing⟩ := List.map_eq_cons_iff.mp rest
      rw [List.map_eq_nil_iff] at nothing
      subst nothing
      cases less with
      | zero =>
          have shaped : entryShaped 1 (.array [first, second]) = true := by
            cases first <;> rfl
          rw [shaped] at unshaped
          cases unshaped
      | succ less =>
          obtain ⟨text, rfl⟩ := string_of_sanitized isKey
          cases unshaped

/-- The check of an object whose only key is the key of sanitized objects. -/
theorem isCurrentCanonicalModelValue_encoded (left : Nat) (items : List (Json Number)) :
    isCurrentCanonicalModelValue (left + 1) (.object [(SANITIZED_TOOL_OBJECT_KEY, .array items)]) =
      ((items.all fun item => (encodedEntry item).any fun entry =>
          !containsDataUrl entry.1 && isCurrentCanonicalModelValue left entry.2) &&
        ((items.zipIdx.any fun place =>
            (encodedEntry place.1).any fun entry => entry.1 == redactedKey place.2) ||
          isCurrentCanonicalModelValue left (.array items))) := by
  have canonical : hasCanonicalObjectKeyOrder [SANITIZED_TOOL_OBJECT_KEY] = true := by decide +kernel
  rw [isCurrentCanonicalModelValue]
  simp only [List.any_cons, List.any_nil, omitted_plain.2.2.2, Bool.or_false, Bool.false_eq_true, if_false,
    encodedEntries, if_true, List.map_cons, List.map_nil, canonical, Bool.true_and, List.all_cons,
    List.all_nil, Bool.and_true]
  split
  · rename_i all
    rw [all, Bool.true_and]
  · rename_i some'
    rw [Bool.not_eq_true] at some'
    rw [some', Bool.false_and]

theorem any_perm {Item : Type} {one other : List Item} (perm : one.Perm other) (holds : Item → Bool) :
    one.any holds = other.any holds := by
  rw [Bool.eq_iff_iff, List.any_eq_true, List.any_eq_true]
  simp only [perm.mem_iff]

theorem all_not {Item : Type} {items : List Item} {check refused : Item → Bool}
    (each : ∀ item ∈ items, check item = !refused item) : items.all check = !items.any refused := by
  induction items with
  | nil => rfl
  | cons item rest ih =>
      rw [List.all_cons, List.any_cons, each item List.mem_cons_self,
        ih fun item inside => each item (List.mem_cons_of_mem _ inside), Bool.not_or]

theorem sanitizeModelValue_single {key : JsString} (plain : containsDataUrl key = false) (levels : Nat)
    (value : Json Number) :
    sanitizeModelValue (levels + 1) (.object [(key, value)]) =
      .object [(key, sanitizeModelValue levels value)] := by
  have sorted : sortedEntries [(key, value)] = [(key, value)] := rfl
  rw [sanitizeModelValue, sorted]
  simp only [List.any_cons, List.any_nil, plain, Bool.or_false, Bool.false_eq_true, if_false,
    List.map_cons, List.map_nil]
  rw [(ordered_single (key, sanitizeModelValue levels value)).fromEntries_eq]

/-- An object is rendered as what could be encoded entries only if it is one key over an array. -/
theorem encodedEntries_rendered {levels : Nat} {entries : List (JsString × Json Number)}
    {items : List (Json Number)}
    (found : encodedEntries ((propertyOrder (sortedEntries entries)).map fun entry =>
      (entry.1, sanitizeModelValue levels entry.2)) = some items) :
    ∃ source, entries = [(SANITIZED_TOOL_OBJECT_KEY, .array source)] ∧ 0 < levels := by
  unfold encodedEntries at found
  split at found
  · rename_i key shown single
    split at found
    · rename_i isKey
      obtain ⟨entry, more, listed, same, nothing⟩ := List.map_eq_cons_iff.mp single
      rw [List.map_eq_nil_iff] at nothing
      rw [nothing] at listed
      obtain ⟨name, value⟩ := entry
      have perm := sanitizedOrder_perm entries
      rw [listed] at perm
      obtain ⟨sameKey, sameValue⟩ := Prod.mk.inj same
      obtain ⟨less, source, levelsSame, isArray, _⟩ := array_of_sanitized sameValue
      refine ⟨source, ?_, by omega⟩
      have isValue : value = .array source := isArray
      have isName : name = key := sameKey
      have whole : entries = [(name, value)] := (List.singleton_perm.mp perm).symm
      rw [whole, isName, isKey, isValue]
    · cases found
  · cases found

/-- Encoded entries are refused for the values in them. -/
theorem isCurrentCanonicalModelValue_redacted {levels left : Nat} {sorted : List (JsString × Json Number)}
    (redacted : (sorted.any fun entry => containsDataUrl entry.1) = true)
    (each : ∀ entry ∈ sorted, isCurrentCanonicalModelValue left (sanitizeModelValue levels entry.2) =
      !hasMisreadObject levels entry.2) :
    isCurrentCanonicalModelValue (left + 1)
        (.object [(SANITIZED_TOOL_OBJECT_KEY, .array (sorted.zipIdx.map fun place =>
          .array [.string (visibleKey place.2 place.1.1), sanitizeModelValue levels place.1.2]))]) =
      !sorted.any fun entry => hasMisreadObject levels entry.2 := by
  let encoded := sorted.zipIdx.map fun place : (JsString × Json Number) × Nat =>
    Json.array [.string (visibleKey place.2 place.1.1), sanitizeModelValue levels place.1.2]
  have checked : (encoded.all fun item => (encodedEntry item).any fun entry =>
      !containsDataUrl entry.1 && isCurrentCanonicalModelValue left entry.2) =
        !sorted.any fun entry => hasMisreadObject levels entry.2 := by
    have places := @all_not _ sorted.zipIdx
      (fun place => isCurrentCanonicalModelValue left (sanitizeModelValue levels place.1.2))
      (fun place => hasMisreadObject levels place.1.2)
      fun place inside => each place.1 (List.fst_mem_of_mem_zipIdx inside)
    have entries : (sorted.zipIdx.any fun place => hasMisreadObject levels place.1.2) =
        sorted.any fun entry => hasMisreadObject levels entry.2 := by
      have first : ((sorted.zipIdx.map Prod.fst).any fun entry => hasMisreadObject levels entry.2) =
          sorted.zipIdx.any fun place => hasMisreadObject levels place.1.2 := List.any_map
      rw [← first, List.zipIdx_map_fst]
    rw [List.all_map, ← entries, ← places]
    congr 1
    funext place
    simp [encodedEntry, visibleKey_plain]
  have shown : (encoded.zipIdx.any fun place =>
      (encodedEntry place.1).any fun entry => entry.1 == redactedKey place.2) = true := by
    obtain ⟨entry, inside, found⟩ := List.any_eq_true.mp redacted
    obtain ⟨index, at'⟩ := List.mem_iff_getElem?.mp inside
    have placed : encoded[index]? =
        some (.array [.string (redactedKey index), sanitizeModelValue levels entry.2]) := by
      simp [encoded, at', visibleKey, found]
    rw [List.any_eq_true]
    refine ⟨(_, index), List.mem_zipIdx_iff_getElem?.mpr placed, ?_⟩
    simp [encodedEntry]
  rw [isCurrentCanonicalModelValue_encoded]
  change ((encoded.all _) && ((encoded.zipIdx.any _) || _)) = _
  rw [checked, shown, Bool.true_or, Bool.and_true]

/-- A literal object that looks encoded is refused, one whose elements are entries is not. -/
theorem isCurrentCanonicalModelValue_literal {levels left : Nat} {items : List (Json Number)}
    (whole : isCurrentCanonicalModelValue left (.array (items.map (sanitizeModelValue levels))) =
      !items.any (hasMisreadObject levels))
    (below : ∀ item ∈ items, ∀ less second, levels = less + 1 →
      hasMisreadObject levels item = hasMisreadObject less second →
        (∃ first, item = .array [first, second]) →
          isCurrentCanonicalModelValue left (sanitizeModelValue less second) = !hasMisreadObject less second) :
    isCurrentCanonicalModelValue (left + 1)
        (.object [(SANITIZED_TOOL_OBJECT_KEY, .array (items.map (sanitizeModelValue levels)))]) =
      !((items.any fun item => !entryShaped levels item) || items.any (hasMisreadObject levels)) := by
  have checked : ∀ item ∈ items, ((encodedEntry (sanitizeModelValue levels item)).any fun entry =>
      !containsDataUrl entry.1 && isCurrentCanonicalModelValue left entry.2) =
        !(!entryShaped levels item || hasMisreadObject levels item) := by
    intro item inside
    cases shaped : entryShaped levels item with
    | false =>
        rw [encodedEntry_unshaped shaped]
        rfl
    | true =>
        obtain ⟨less, first, second, key, isLess, isItem, entry, plain, same⟩ := encodedEntry_shaped shaped
        rw [entry, same, Option.any_some, plain, below item inside less second isLess same ⟨first, isItem⟩]
        simp
  have all := all_not checked
  have joined : (items.any fun item => !entryShaped levels item || hasMisreadObject levels item) =
      ((items.any fun item => !entryShaped levels item) || items.any (hasMisreadObject levels)) := by
    rw [Bool.eq_iff_iff]
    simp only [Bool.or_eq_true, List.any_eq_true]
    constructor
    · rintro ⟨item, inside, unshaped | misread⟩
      · exact .inl ⟨item, inside, unshaped⟩
      · exact .inr ⟨item, inside, misread⟩
    · rintro (⟨item, inside, unshaped⟩ | ⟨item, inside, misread⟩)
      · exact ⟨item, inside, .inl unshaped⟩
      · exact ⟨item, inside, .inr misread⟩
  rw [isCurrentCanonicalModelValue_encoded, List.all_map]
  change ((items.all fun item => (encodedEntry (sanitizeModelValue levels item)).any _) && _) = _
  rw [all, whole, joined]
  cases items.any (hasMisreadObject levels) <;> simp

theorem looksEncoded_single {levels : Nat} (items : List (Json Number)) :
    looksEncoded (levels + 1) [(SANITIZED_TOOL_OBJECT_KEY, .array items)] =
      items.any fun item => !entryShaped levels item := by
  simp [looksEncoded]

theorem looksEncoded_eq_true {levels : Nat} {entries : List (JsString × Json Number)}
    (looks : looksEncoded levels entries = true) :
    ∃ source, entries = [(SANITIZED_TOOL_OBJECT_KEY, .array source)] ∧ 0 < levels := by
  unfold looksEncoded at looks
  split at looks
  · rename_i less key items
    rw [Bool.and_eq_true, beq_iff_eq] at looks
    exact ⟨items, by rw [looks.1], Nat.succ_pos _⟩
  · cases looks

/-- An object rendered as it is, when no reading of it as encoded entries comes up. -/
theorem isCurrentCanonicalModelValue_plain {levels left : Nat} {entries : List (JsString × Json Number)}
    (keys : (entries.map Prod.fst).Nodup)
    (visible : (entries.any fun entry => containsDataUrl entry.1) = false)
    (other : ∀ source, entries = [(SANITIZED_TOOL_OBJECT_KEY, .array source)] → levels = 0)
    (each : ∀ entry ∈ entries, isCurrentCanonicalModelValue left (sanitizeModelValue levels entry.2) =
      !hasMisreadObject levels entry.2) :
    isCurrentCanonicalModelValue (left + 1)
        (.object ((propertyOrder (sortedEntries entries)).map fun entry =>
          (entry.1, sanitizeModelValue levels entry.2))) =
      !entries.any fun entry => hasMisreadObject levels entry.2 := by
  have perm := sanitizedOrder_perm entries
  have names : ((propertyOrder (sortedEntries entries)).map fun entry =>
      (entry.1, sanitizeModelValue levels entry.2)).map Prod.fst =
        (propertyOrder (sortedEntries entries)).map Prod.fst := by
    rw [List.map_map]
    rfl
  have unread : encodedEntries ((propertyOrder (sortedEntries entries)).map fun entry =>
      (entry.1, sanitizeModelValue levels entry.2)) = none := by
    cases found : encodedEntries ((propertyOrder (sortedEntries entries)).map fun entry =>
        (entry.1, sanitizeModelValue levels entry.2)) with
    | none => rfl
    | some items =>
        obtain ⟨source, single, positive⟩ := encodedEntries_rendered found
        have zero := other source single
        omega
  have shownKeys : (((propertyOrder (sortedEntries entries)).map fun entry =>
      (entry.1, sanitizeModelValue levels entry.2)).any fun entry => containsDataUrl entry.1) = false := by
    rw [List.any_map, ← visible]
    exact any_perm perm _
  have children : (((propertyOrder (sortedEntries entries)).map fun entry =>
      (entry.1, sanitizeModelValue levels entry.2)).all fun entry =>
        isCurrentCanonicalModelValue left entry.2) =
          !entries.any fun entry => hasMisreadObject levels entry.2 := by
    rw [List.all_map, ← any_perm perm]
    exact all_not fun entry inside => each entry (perm.mem_iff.mp inside)
  rw [isCurrentCanonicalModelValue, shownKeys, unread, names, hasCanonicalObjectKeyOrder_rendered keys,
    children]
  rfl

/-- The current recogniser, counting at least the levels that were left, refuses a rendered value exactly
for an object that looks encoded. -/
theorem isCurrentCanonicalModelValue_sanitized {levels left : Nat} (enough : levels ≤ left)
    {value : Json Number} (distinct : value.Distinct) :
    isCurrentCanonicalModelValue left (sanitizeModelValue levels value) = !hasMisreadObject levels value := by
  induction levels using Nat.strong_induction_on generalizing left value with
  | _ levels ih =>
      cases levels with
      | zero =>
          have shown : isCurrentCanonicalModelValue left (.string nestedValueOmitted : Json Number) = true := by
            cases left with
            | zero => exact beq_self_eq_true _
            | succ left => simp [isCurrentCanonicalModelValue, omitted_plain.2.1]
          rw [sanitizeModelValue, shown]
          cases value <;> rfl
      | succ levels =>
          obtain ⟨left, rfl⟩ : ∃ less, left = less + 1 := ⟨left - 1, by omega⟩
          have less : levels ≤ left := by omega
          have below : ∀ item : Json Number, item.Distinct →
              isCurrentCanonicalModelValue left (sanitizeModelValue levels item) =
                !hasMisreadObject levels item :=
            fun item itemDistinct => ih levels (Nat.lt_succ_self _) less itemDistinct
          cases distinct with
          | null => rfl
          | bool value => rfl
          | number value => rfl
          | string value =>
              obtain ⟨shown, same, plain⟩ := sanitize_string_plain (levels + 1) value
              rw [same, isCurrentCanonicalModelValue, plain]
              rfl
          | array each =>
              rw [sanitizeModelValue, isCurrentCanonicalModelValue, hasMisreadObject, List.all_map]
              exact all_not fun item inside => below item (each item inside)
          | @object entries keys each =>
              rw [hasMisreadObject]
              cases redacted : entries.any fun entry => containsDataUrl entry.1 with
              | true =>
                  have sortedRedacted : ((sortedEntries entries).any fun entry => containsDataUrl entry.1) =
                      true := by
                    rw [any_perm (sortedEntries_perm entries), redacted]
                  have notSingle : looksEncoded levels entries = false := by
                    rw [← Bool.not_eq_true]
                    intro looks
                    obtain ⟨source, single, _⟩ := looksEncoded_eq_true looks
                    rw [single] at redacted
                    simp [omitted_plain.2.2.2] at redacted
                  rw [sanitizeModelValue, if_pos sortedRedacted, notSingle, Bool.false_or,
                    isCurrentCanonicalModelValue_redacted sortedRedacted,
                    any_perm (sortedEntries_perm entries)]
                  intro entry inside
                  exact below _ (each entry ((sortedEntries_perm entries).mem_iff.mp inside))
              | false =>
                  by_cases literal : ∃ source, entries = [(SANITIZED_TOOL_OBJECT_KEY, .array source)] ∧
                      0 < levels
                  · obtain ⟨source, rfl, positive⟩ := literal
                    obtain ⟨levels, rfl⟩ : ∃ fewer, levels = fewer + 1 := ⟨levels - 1, by omega⟩
                    have isArray := each _ List.mem_cons_self
                    have whole := below _ isArray
                    rw [sanitizeModelValue_single omitted_plain.2.2.2, looksEncoded_single]
                    rw [sanitizeModelValue] at whole ⊢
                    rw [isCurrentCanonicalModelValue_literal whole]
                    · simp [hasMisreadObject]
                    · rintro item inside fewer second rfl _ ⟨first, rfl⟩
                      cases isArray with
                      | array items =>
                          cases items _ inside with
                          | array parts =>
                              exact ih fewer (by omega) (by omega) (parts second (by simp))
                  · have notSingle : looksEncoded levels entries = false := by
                      rw [← Bool.not_eq_true]
                      intro looks
                      exact literal (looksEncoded_eq_true looks)
                    have sortedVisible : ((sortedEntries entries).any fun entry => containsDataUrl entry.1) =
                        false := by
                      rw [any_perm (sortedEntries_perm entries), redacted]
                    rw [sanitizeModelValue, sortedVisible, notSingle, Bool.false_or,
                      sanitizedEntries_eq keys]
                    apply isCurrentCanonicalModelValue_plain keys redacted
                    · intro source single
                      by_contra positive
                      exact literal ⟨source, single, Nat.pos_of_ne_zero positive⟩
                    · exact fun entry inside => below _ (each entry inside)

theorem redactedKey_ne (index : Nat) : redactedKey index ≠ nestedValueOmitted := by
  intro same
  have second := congrArg (fun text => text[1]?) same
  have letter : (redactedKey index)[1]? = some 0x64 := rfl
  have other : nestedValueOmitted[1]? = some 0x6e := rfl
  rw [letter, other] at second
  exact absurd second (by decide)

theorem isNestedValueOmitted_sanitized (levels : Nat) (value : Json Number) :
    isNestedValueOmitted (sanitizeModelValue (levels + 1) value) = isNestedValueOmitted value := by
  cases value with
  | null => rfl
  | bool value => rfl
  | number value => rfl
  | array items => rfl
  | object entries =>
      rw [sanitizeModelValue]
      split <;> rfl
  | string value =>
      rw [sanitizeModelValue, isNestedValueOmitted, isNestedValueOmitted]
      split
      · rename_i hidden
        have shown : (dataUrlOmitted == nestedValueOmitted) = false := by decide
        have other : (value == nestedValueOmitted) = false := by
          rw [beq_eq_false_iff_ne]
          rintro rfl
          rw [omitted_plain.2.1] at hidden
          cases hidden
        rw [shown, other]
      · rfl

/-- Read as a plain object, encoded entries take two levels more. -/
theorem isLegacyCanonicalModelValue_redacted {levels left : Nat} {sorted : List (JsString × Json Number)}
    (redacted : (sorted.any fun entry => containsDataUrl entry.1) = true)
    (each : 3 ≤ left → ∀ entry ∈ sorted,
      isLegacyCanonicalModelValue (left - 2) (sanitizeModelValue levels entry.2) =
        !outgrowsLegacyLevels levels (left - 2) entry.2) :
    isLegacyCanonicalModelValue (left + 1)
        (.object [(SANITIZED_TOOL_OBJECT_KEY, .array (sorted.zipIdx.map fun place =>
          .array [.string (visibleKey place.2 place.1.1), sanitizeModelValue levels place.1.2]))]) =
      !(decide (left < 3) || sorted.any fun entry => outgrowsLegacyLevels levels (left - 2) entry.2) := by
  let encoded := sorted.zipIdx.map fun place : (JsString × Json Number) × Nat =>
    Json.array [.string (visibleKey place.2 place.1.1), sanitizeModelValue levels place.1.2]
  have canonical : hasCanonicalObjectKeyOrder [SANITIZED_TOOL_OBJECT_KEY] = true := by decide +kernel
  have outer : isLegacyCanonicalModelValue (left + 1) (.object [(SANITIZED_TOOL_OBJECT_KEY, .array encoded)]) =
      isLegacyCanonicalModelValue left (.array encoded) := by
    rw [isLegacyCanonicalModelValue]
    simp [omitted_plain.2.2.2, canonical]
  obtain ⟨entry, inside, found⟩ := List.any_eq_true.mp redacted
  obtain ⟨index, at'⟩ := List.mem_iff_getElem?.mp inside
  have placed : Json.array [.string (redactedKey index), sanitizeModelValue levels entry.2] ∈ encoded := by
    apply List.mem_of_getElem? (i := index)
    simp [encoded, at', visibleKey, found]
  change isLegacyCanonicalModelValue (left + 1) (.object [(SANITIZED_TOOL_OBJECT_KEY, .array encoded)]) = _
  rw [outer]
  match left with
  | 0 => rfl
  | 1 =>
      rw [isLegacyCanonicalModelValue]
      have refused : encoded.all (isLegacyCanonicalModelValue 0) = false := by
        rw [List.all_eq_false]
        exact ⟨_, placed, by simp [isLegacyCanonicalModelValue, isNestedValueOmitted]⟩
      rw [refused]
      rfl
  | 2 =>
      rw [isLegacyCanonicalModelValue]
      have refused : encoded.all (isLegacyCanonicalModelValue 1) = false := by
        rw [List.all_eq_false]
        refine ⟨_, placed, ?_⟩
        simp [isLegacyCanonicalModelValue, isNestedValueOmitted, redactedKey_ne]
      rw [refused]
      rfl
  | left + 3 =>
      have deep : ¬ left + 3 < 3 := by omega
      have below := each (by omega)
      rw [isLegacyCanonicalModelValue, decide_eq_false deep, Bool.false_or]
      change encoded.all (isLegacyCanonicalModelValue (left + 2)) =
        !sorted.any fun entry => outgrowsLegacyLevels levels (left + 1) entry.2
      have places := @all_not _ sorted.zipIdx
        (fun place => isLegacyCanonicalModelValue (left + 1) (sanitizeModelValue levels place.1.2))
        (fun place => outgrowsLegacyLevels levels (left + 1) place.1.2)
        fun place isPlace => below place.1 (List.fst_mem_of_mem_zipIdx isPlace)
      have first : ((sorted.zipIdx.map Prod.fst).any fun entry =>
          outgrowsLegacyLevels levels (left + 1) entry.2) =
            sorted.zipIdx.any fun place => outgrowsLegacyLevels levels (left + 1) place.1.2 := List.any_map
      rw [List.zipIdx_map_fst] at first
      rw [first, ← places, List.all_map]
      congr 1
      funext place
      simp [isLegacyCanonicalModelValue, visibleKey_plain]

/-- The legacy recogniser, counting at most the levels that were left, refuses a rendered value exactly
where it runs out of levels. -/
theorem isLegacyCanonicalModelValue_sanitized {levels left : Nat} (few : left ≤ levels)
    {value : Json Number} (distinct : value.Distinct) :
    isLegacyCanonicalModelValue left (sanitizeModelValue levels value) =
      !outgrowsLegacyLevels levels left value := by
  induction levels generalizing left value with
  | zero =>
      obtain rfl : left = 0 := by omega
      exact beq_self_eq_true _
  | succ levels ih =>
      cases left with
      | zero =>
          rw [isLegacyCanonicalModelValue, isNestedValueOmitted_sanitized, outgrowsLegacyLevels, Bool.not_not]
      | succ left =>
          have fewer : left ≤ levels := by omega
          cases distinct with
          | null => rfl
          | bool value => rfl
          | number value => rfl
          | string value =>
              obtain ⟨shown, same, plain⟩ := sanitize_string_plain (levels + 1) value
              rw [same, isLegacyCanonicalModelValue, plain]
              rfl
          | array each =>
              rw [sanitizeModelValue, isLegacyCanonicalModelValue, outgrowsLegacyLevels, List.all_map]
              exact all_not fun item inside => ih fewer (each item inside)
          | @object entries keys each =>
              have sortedPerm := sortedEntries_perm entries
              rw [outgrowsLegacyLevels]
              cases redacted : entries.any fun entry => containsDataUrl entry.1 with
              | true =>
                  have sortedRedacted : ((sortedEntries entries).any fun entry => containsDataUrl entry.1) =
                      true := by
                    rw [any_perm sortedPerm, redacted]
                  rw [sanitizeModelValue, if_pos sortedRedacted, if_pos rfl,
                    isLegacyCanonicalModelValue_redacted sortedRedacted, any_perm sortedPerm]
                  intro _ entry inside
                  exact ih (by omega) (each entry (sortedPerm.mem_iff.mp inside))
              | false =>
                  have perm := sanitizedOrder_perm entries
                  have sortedVisible : ((sortedEntries entries).any fun entry => containsDataUrl entry.1) =
                      false := by
                    rw [any_perm sortedPerm, redacted]
                  have names : ((propertyOrder (sortedEntries entries)).map fun entry =>
                      (entry.1, sanitizeModelValue levels entry.2)).map Prod.fst =
                        (propertyOrder (sortedEntries entries)).map Prod.fst := by
                    rw [List.map_map]
                    rfl
                  have children : (((propertyOrder (sortedEntries entries)).map fun entry =>
                      (entry.1, sanitizeModelValue levels entry.2)).any fun entry =>
                        containsDataUrl entry.1 || !isLegacyCanonicalModelValue left entry.2) =
                          entries.any fun entry => outgrowsLegacyLevels levels left entry.2 := by
                    rw [List.any_map, any_perm perm, Bool.eq_iff_iff, List.any_eq_true, List.any_eq_true]
                    apply exists_congr
                    intro entry
                    apply and_congr_right
                    intro inside
                    have visible := List.any_eq_false.mp redacted entry inside
                    simp [ih fewer (each entry inside), visible]
                  rw [sanitizeModelValue, sortedVisible, sanitizedEntries_eq keys]
                  simp only [Bool.false_eq_true, if_false]
                  rw [isLegacyCanonicalModelValue, children, names, hasCanonicalObjectKeyOrder_rendered keys,
                    Bool.true_or, Bool.and_true]

end Values

/-! ### Frames of rendered parts -/

section Rendered

variable {numbers : Numbers}

/-- Both recognisers refuse the state the part is rendered with. -/
def isLost (part : ToolPart numbers.Number) : Bool :=
  let visibleState := modelVisibleToolStateValue part.state
  hasMisreadObject modelLevels visibleState && outgrowsLegacyLevels modelLevels modelLevels visibleState

theorem modelVisibleToolState_valid (part : ToolPart numbers.Number) :
    (modelVisibleToolState part.state).Valid :=
  sanitizeModelValue_valid _ (modelVisibleToolStateValue_distinct part.valid.distinct)

theorem recognised_rendered (part : ToolPart numbers.Number) :
    (isCurrentCanonicalToolState numbers (modelVisibleToolState part.state) ||
      isLegacyCanonicalToolState numbers (modelVisibleToolState part.state)) = !isLost part := by
  have distinct := modelVisibleToolStateValue_distinct part.valid.distinct
  have current := isCurrentCanonicalModelValue_sanitized (Nat.le_refl modelLevels) distinct
  have legacy := isLegacyCanonicalModelValue_sanitized (Nat.le_refl modelLevels) distinct
  rw [isCurrentCanonicalToolState, isLegacyCanonicalToolState,
    modelVisibleToolStateValue_rendered part.valid, beq_self_eq_true, Bool.true_and, Bool.true_and,
    modelVisibleToolState, current, legacy, isLost, Bool.not_and]

variable (numbers) in
/-- The block a part stands in, behind that many units of text. -/
def renderedBlock (start : Nat) (part : ToolPart numbers.Number) :
    CanonicalToolFallbackBlock numbers.Number :=
  { start := start
    stop := start + (toolSourceText numbers part).length
    name := visibleToolName part
    state := modelVisibleToolState part.state }

variable (numbers) in
/-- One block for each part, each starting where the one before it stops. -/
def renderedBlocks : Nat → List (ToolPart numbers.Number) → List (CanonicalToolFallbackBlock numbers.Number)
  | _, [] => []
  | start, part :: rest =>
      renderedBlock numbers start part ::
        renderedBlocks (start + (toolSourceText numbers part).length) rest

theorem canonicalBlock_rendered (start : Nat) (part : ToolPart numbers.Number) :
    canonicalBlock numbers (start,
      { encodedName := jsonString (visibleToolName part)
        encodedState := stringify numbers (modelVisibleToolState part.state)
        length := (toolSourceText numbers part).length }) =
      if isLost part then none else some (renderedBlock numbers start part) := by
  have name : parseJson numbers (jsonString (visibleToolName part)) =
      some (.string (visibleToolName part)) := parseJson_stringify (.string _)
  have state := parseJson_stringify (modelVisibleToolState_valid part)
  rw [canonicalBlock, name, state]
  simp only [beq_self_eq_true, visibleToolName_length, decide_true, visibleToolName_plain, Bool.not_false,
    Bool.true_and, recognised_rendered]
  cases isLost part <;> rfl

/-- The frames found in the text of some parts, behind a text of known length. -/
theorem frames_rendered (parts : List (ToolPart numbers.Number)) (start : Nat) :
    (matchAllToolBlocks 0 start (parts.flatMap (toolSourceText numbers))).filterMap (canonicalBlock numbers) =
      ((parts.zip (renderedBlocks numbers start parts)).filter fun place => !isLost place.1).map Prod.snd := by
  induction parts generalizing start with
  | nil => rfl
  | cons part rest ih =>
      have first := matchAllToolBlocks_frame part (modelVisibleToolState part.state) start
        (rest.flatMap (toolSourceText numbers))
      rw [← toolSourceText] at first
      rw [List.flatMap_cons, first, List.filterMap_cons, canonicalBlock_rendered, renderedBlocks,
        List.zip_cons_cons]
      have behind := ih (start + (toolSourceText numbers part).length)
      cases lost : isLost part with
      | true => simp [lost, behind]
      | false => simp [lost, behind]

theorem renderedBlocks_length (parts : List (ToolPart numbers.Number)) (start : Nat) :
    (renderedBlocks numbers start parts).length = parts.length := by
  induction parts generalizing start with
  | nil => rfl
  | cons part rest ih => simp [renderedBlocks, ih]

/-- Recognition returns one frame for each part, side by side over the whole text, exactly when no part
is lost. -/
theorem canonicalToolFallbackFrames_rendered (parts : List (ToolPart numbers.Number)) :
    canonicalToolFallbackFrames numbers (parts.flatMap (toolSourceText numbers)) =
        renderedBlocks numbers 0 parts ↔
      ∀ part ∈ parts, isLost part = false := by
  have found := frames_rendered parts 0
  rw [canonicalToolFallbackFrames, found]
  have paired : (parts.zip (renderedBlocks numbers 0 parts)).map Prod.fst = parts :=
    List.map_fst_zip (by rw [renderedBlocks_length])
  have blocks : (parts.zip (renderedBlocks numbers 0 parts)).map Prod.snd = renderedBlocks numbers 0 parts :=
    List.map_snd_zip (by rw [renderedBlocks_length])
  constructor
  · intro same part inside
    have lengths := congrArg List.length same
    have size := congrArg List.length blocks
    rw [List.length_map] at size
    rw [List.length_map, ← size, List.length_filter_eq_length_iff] at lengths
    have isPart : part ∈ (parts.zip (renderedBlocks numbers 0 parts)).map Prod.fst := paired.symm ▸ inside
    obtain ⟨place, isPlace, samePart⟩ := List.mem_map.mp isPart
    have kept := lengths place isPlace
    rw [samePart] at kept
    simpa using kept
  · intro kept
    rw [List.filter_eq_self.mpr, blocks]
    intro place isPlace
    have inside : place.1 ∈ parts := paired ▸ List.mem_map_of_mem isPlace
    simp [kept place.1 inside]

end Rendered

/-- The numbers from 0 to 9. -/
def digitNumbers : Numbers :=
  { Number := Fin 10
    text := fun number => [UInt16.ofNat (0x30 + number.val)]
    read := fun token => Fin.ofNat 10 ((token.headD 0x30).toNat - 0x30)
    literal := by decide
    read_text := by decide }

/-- A data URL for a key, that many objects deep. -/
def deepRedaction : Nat → Json digitNumbers.Number
  | 0 => .object [(ofString "data:", .null)]
  | depth + 1 => .object [(ofString "a", deepRedaction depth)]

theorem deepRedaction_valid (depth : Nat) : (deepRedaction depth).Valid := by
  induction depth with
  | zero => exact .object (ordered_single _) (by simpa using .null)
  | succ depth ih => exact .object (ordered_single _) (by simpa using ih)

def lostPart : ToolPart digitNumbers.Number :=
  { tool := some (ofString "read")
    state := .object [(ofString "x", .object [(SANITIZED_TOOL_OBJECT_KEY, .array [.null])]),
      (ofString "y", deepRedaction 5)]
    valid := by
      have literal : (Json.object [(SANITIZED_TOOL_OBJECT_KEY, .array [.null])] :
          Json digitNumbers.Number).Valid :=
        .object (ordered_single _) (by simpa using .array (by simpa using .null))
      refine .object ⟨by decide, rfl⟩ ?_
      simpa using ⟨literal, deepRedaction_valid 5⟩ }

theorem canonicalToolFallbackFrames_lost :
    ¬ ∀ (numbers : Numbers) (parts : List (ToolPart numbers.Number)),
      canonicalToolFallbackFrames numbers (parts.flatMap (toolSourceText numbers)) =
        renderedBlocks numbers 0 parts := by
  intro all
  have lengths := congrArg List.length (all digitNumbers [lostPart])
  have none : (canonicalToolFallbackFrames digitNumbers
      ([lostPart].flatMap (toolSourceText digitNumbers))).length = 0 := by
    decide +kernel
  rw [none] at lengths
  cases lengths

end Reflection
