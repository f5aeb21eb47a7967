/-
JSON in ASCII.

Every unit above 0x7f of a JSON text is written as its `\u` escape. Such units stand in strings
only, so a reader that got through the text gets through the escaped one with the same value.
-/

import Reflection.Shared.JsonDelimiters

namespace Reflection

open JsString JsObject

/-- The loop of `compactAsciiJson`. -/
def asciiText (json : JsString) : JsString :=
  json.flatMap fun codeUnit => if 0x7f < codeUnit then unicodeEscape codeUnit else [codeUnit]

section Compact

variable (numbers : Numbers)

def compactAsciiJson (value : Json numbers.Number) : JsString := asciiText (stringify numbers value)

end Compact

/-! ### Escaping a text -/

def AsciiUnits (text : JsString) : Prop := ∀ unit ∈ text, unit ≤ 0x7f

theorem asciiText_nil : asciiText [] = [] := rfl

theorem asciiText_cons_low {unit : UInt16} (low : unit ≤ 0x7f) (rest : JsString) :
    asciiText (unit :: rest) = unit :: asciiText rest := by
  rw [asciiText, List.flatMap_cons, if_neg (UInt16.not_lt.mpr low)]
  rfl

theorem asciiText_cons_high {unit : UInt16} (high : 0x7f < unit) (rest : JsString) :
    asciiText (unit :: rest) = unicodeEscape unit ++ asciiText rest := by
  rw [asciiText, List.flatMap_cons, if_pos high]
  rfl

theorem asciiText_append (one other : JsString) :
    asciiText (one ++ other) = asciiText one ++ asciiText other := List.flatMap_append

theorem asciiText_of_ascii {text : JsString} (ascii : AsciiUnits text) : asciiText text = text := by
  induction text with
  | nil => rfl
  | cons unit rest ih =>
      rw [asciiText_cons_low (ascii unit List.mem_cons_self),
        ih fun other inside => ascii other (List.mem_cons_of_mem _ inside)]

theorem hexDigit_ascii : ∀ value < 16, hexDigit value ≤ 0x7f := by decide

theorem unicodeEscape_ascii (unit : UInt16) : AsciiUnits (unicodeEscape unit) := by
  have small := unit.toNat_lt
  simp only [AsciiUnits, unicodeEscape, List.forall_mem_cons, List.not_mem_nil, false_implies,
    implies_true, and_true]
  refine ⟨by decide, by decide, ?_, ?_, ?_, ?_⟩
  all_goals exact hexDigit_ascii _ (by omega)

theorem asciiText_ascii (text : JsString) : AsciiUnits (asciiText text) := by
  intro unit inside
  obtain ⟨codeUnit, _, written⟩ := List.mem_flatMap.mp inside
  split at written
  · exact unicodeEscape_ascii codeUnit unit written
  · rename_i low
    rw [List.mem_singleton.mp written]
    exact UInt16.not_lt.mp low

theorem length_le_asciiText (text : JsString) : text.length ≤ (asciiText text).length := by
  induction text with
  | nil => exact Nat.le_refl 0
  | cons unit rest ih =>
      rcases UInt16.lt_or_le 0x7f unit with high | low
      · rw [asciiText_cons_high high, List.length_append, List.length_cons, unicodeEscape]
        simp only [List.length_cons, List.length_nil]
        omega
      · rw [asciiText_cons_low low, List.length_cons, List.length_cons]
        omega

/-- An escaped text starts with an ASCII unit other than a reverse solidus only where the text does. -/
theorem asciiText_head (first : UInt16) (behind : JsString) :
    ∃ shown after, asciiText (first :: behind) = shown :: after ∧
      ∀ unit : UInt16, unit ≤ 0x7f → unit ≠ 0x5c → first ≠ unit → shown ≠ unit := by
  rcases UInt16.lt_or_le 0x7f first with high | low
  · exact ⟨0x5c, _, asciiText_cons_high high behind, fun _ _ different _ => different.symm⟩
  · exact ⟨first, _, asciiText_cons_low low behind, fun _ _ _ different => different⟩

/-! ### Reading the escaped text -/

/-- What one reader reads, the other reads from the escaped text. -/
def Follows {Item : Type} (reader asciiReader : JsString → Option (Item × JsString)) : Prop :=
  ∀ text item rest, reader text = some (item, rest) →
    asciiReader (asciiText text) = some (item, asciiText rest)

section Runs

variable {holds : UInt16 → Bool} (low : ∀ unit, holds unit = true → unit ≤ 0x7f)
  (stops : holds 0x5c = false)

include low stops

/-- A run of ASCII units without a reverse solidus ends where it did. -/
theorem takeWhile_asciiText (text : JsString) :
    (asciiText text).takeWhile holds = text.takeWhile holds ∧
      (asciiText text).dropWhile holds = asciiText (text.dropWhile holds) := by
  induction text with
  | nil => exact ⟨rfl, rfl⟩
  | cons unit rest ih =>
      rcases UInt16.lt_or_le 0x7f unit with high | isLow
      · have outside : holds unit = false := by
          rw [← Bool.not_eq_true]
          exact fun inside => absurd (low unit inside) (UInt16.not_le.mpr high)
        have escaped : asciiText (unit :: rest) = 0x5c :: ((unicodeEscape unit).tail ++ asciiText rest) :=
          asciiText_cons_high high rest
        rw [List.takeWhile_cons, List.dropWhile_cons, outside, escaped, List.takeWhile_cons,
          List.dropWhile_cons, stops, ← escaped]
        exact ⟨rfl, rfl⟩
      · rw [asciiText_cons_low isLow, List.takeWhile_cons, List.dropWhile_cons, List.takeWhile_cons,
          List.dropWhile_cons]
        cases inside : holds unit with
        | true => exact ⟨congrArg (List.cons unit) ih.1, ih.2⟩
        | false => exact ⟨rfl, (asciiText_cons_low isLow rest).symm⟩

end Runs

theorem isJsonSpace_low (unit : UInt16) (space : isJsonSpace unit = true) : unit ≤ 0x7f := by
  simp only [isJsonSpace, List.contains_iff_mem, List.mem_cons, List.not_mem_nil, or_false] at space
  rcases space with rfl | rfl | rfl | rfl <;> decide

theorem isNumberUnit_low (unit : UInt16) (number : isNumberUnit unit = true) : unit ≤ 0x7f := by
  simp only [isNumberUnit, isDigit, Bool.or_eq_true, Bool.and_eq_true, decide_eq_true_eq,
    List.contains_iff_mem, List.mem_cons, List.not_mem_nil, or_false] at number
  rcases number with digit | rfl | rfl | rfl | rfl | rfl
  · exact UInt16.le_trans digit.2 (by decide)
  all_goals decide

theorem skipSpace_asciiText (text : JsString) : skipSpace (asciiText text) = asciiText (skipSpace text) :=
  (takeWhile_asciiText isJsonSpace_low rfl text).2

/-- The first unit that is not white space, where it is ASCII. -/
theorem skipSpace_asciiText_cons {text rest : JsString} {first : UInt16} (low : first ≤ 0x7f)
    (shown : skipSpace text = first :: rest) : skipSpace (asciiText text) = first :: asciiText rest := by
  rw [skipSpace_asciiText, shown, asciiText_cons_low low]

theorem hexValue_low {unit : UInt16} {value : Nat} (digit : hexValue unit = some value) :
    unit ≤ 0x7f := by
  have reduced : unit.toNat ≤ 0x7f := by
    by_contra large
    unfold hexValue at digit
    dsimp only at digit
    rw [if_neg (by omega), if_neg (by omega), if_neg (by omega)] at digit
    cases digit
  rw [UInt16.le_iff_toNat_le]
  exact reduced

theorem readEscape_low {escaped unit : UInt16} (known : readEscape escaped = some unit) :
    escaped ≤ 0x7f := by
  unfold readEscape at known
  split at known
  · rename_i special
    rcases special with rfl | rfl | rfl <;> decide
  · split at known
    · rename_i same
      rw [same]
      decide
    · split at known
      · rename_i same
        rw [same]
        decide
      · split at known
        · rename_i same
          rw [same]
          decide
        · split at known
          · rename_i same
            rw [same]
            decide
          · split at known
            · rename_i same
              rw [same]
              decide
            · cases known

theorem readString_follows : Follows readString readString := by
  intro text
  fun_induction readString text with
  | case1 =>
      intro value rest read
      cases read
  | case2 behind =>
      intro value rest read
      cases read
      rw [asciiText_cons_low (by decide), readString.eq_def]
      rfl
  | case3 =>
      intro value rest read
      cases read
  | case4 a b c d more _ ih =>
      intro value rest read
      obtain ⟨unit, hex, later⟩ := Option.bind_eq_some_iff.mp read
      obtain ⟨⟨tail, behind⟩, found, same⟩ := Option.bind_eq_some_iff.mp later
      cases same
      obtain ⟨⟨_, first⟩, ⟨_, second⟩, ⟨_, third⟩, ⟨_, fourth⟩⟩ := readHex_digits hex
      rw [asciiText_cons_low (by decide), asciiText_cons_low (by decide),
        asciiText_cons_low (hexValue_low first), asciiText_cons_low (hexValue_low second),
        asciiText_cons_low (hexValue_low third), asciiText_cons_low (hexValue_low fourth),
        readString.eq_def]
      dsimp only
      rw [if_neg (by decide), if_pos rfl, if_pos rfl, hex, ih _ _ found]
      rfl
  | case5 =>
      intro value rest read
      cases read
  | case6 escaped after notUnicode _ ih =>
      intro value rest read
      obtain ⟨unit, known, later⟩ := Option.bind_eq_some_iff.mp read
      obtain ⟨⟨tail, behind⟩, found, same⟩ := Option.bind_eq_some_iff.mp later
      cases same
      rw [asciiText_cons_low (by decide), asciiText_cons_low (readEscape_low known),
        readString_escape _ known, ih _ _ found]
      rfl
  | case7 =>
      intro value rest read
      cases read
  | case8 first behind notQuote notBackslash visible ih =>
      intro value rest read
      obtain ⟨⟨tail, later⟩, found, same⟩ := Option.bind_eq_some_iff.mp read
      cases same
      rcases UInt16.lt_or_le 0x7f first with high | low
      · rw [asciiText_cons_high high, readString_unicode, ih _ _ found]
        rfl
      · rw [asciiText_cons_low low, readString_plain _ notQuote notBackslash visible, ih _ _ found]
        rfl

section Lists

variable {Item : Type} {readItem asciiReadItem : JsString → Option (Item × JsString)}

theorem readList_follows (each : Follows readItem asciiReadItem) {close : UInt16} (low : close ≤ 0x7f)
    {steps asciiSteps : Nat} (enough : steps ≤ asciiSteps) :
    Follows (readList close readItem steps) (readList close asciiReadItem asciiSteps) := by
  induction steps generalizing asciiSteps with
  | zero =>
      intro text items rest read
      cases read
  | succ steps ih =>
      intro text items rest read
      obtain ⟨asciiLess, rfl⟩ : ∃ less, asciiSteps = less + 1 := ⟨asciiSteps - 1, by omega⟩
      obtain ⟨⟨item, behind⟩, found, later⟩ := Option.bind_eq_some_iff.mp read
      rw [readList, each _ _ _ found, Option.bind_eq_bind, Option.bind_some]
      dsimp only at later ⊢
      cases shown : skipSpace behind with
      | nil =>
          rw [shown] at later
          cases later
      | cons first after =>
          rw [shown] at later
          dsimp only at later
          split at later
          · rename_i isClose
            cases later
            rw [skipSpace_asciiText_cons (isClose ▸ low) shown]
            exact if_pos isClose
          · rename_i notClose
            split at later
            · rename_i isComma
              obtain ⟨⟨tail, last⟩, more, same⟩ := Option.bind_eq_some_iff.mp later
              cases same
              rw [skipSpace_asciiText_cons (isComma ▸ by decide) shown]
              dsimp only
              rw [if_neg notClose, if_pos isComma, ih (Nat.le_of_succ_le_succ enough) _ _ _ more]
              rfl
            · cases later

theorem readItems_follows (each : Follows readItem asciiReadItem) {close : UInt16} (low : close ≤ 0x7f)
    (plain : close ≠ 0x5c) : Follows (readItems close readItem) (readItems close asciiReadItem) := by
  intro text items rest read
  unfold readItems at read ⊢
  cases shown : skipSpace text with
  | nil =>
      rw [shown] at read
      cases read
  | cons first behind =>
      rw [shown] at read
      dsimp only at read
      split at read
      · rename_i isClose
        cases read
        rw [skipSpace_asciiText_cons (isClose ▸ low) shown]
        exact if_pos isClose
      · rename_i notClose
        have list := readList_follows each low (length_le_asciiText text) _ _ _ read
        rw [skipSpace_asciiText, shown]
        obtain ⟨other, after, isHead, different⟩ := asciiText_head first behind
        rw [isHead]
        dsimp only
        rw [if_neg (different close low plain notClose)]
        exact list

theorem readMember_follows (each : Follows readItem asciiReadItem) :
    Follows (readMember readItem) (readMember asciiReadItem) := by
  intro text member rest read
  unfold readMember at read ⊢
  cases shown : skipSpace text with
  | nil =>
      rw [shown] at read
      cases read
  | cons first behind =>
      rw [shown] at read
      dsimp only at read
      split at read
      · rename_i isQuote
        obtain ⟨⟨key, afterKey⟩, isKey, later⟩ := Option.bind_eq_some_iff.mp read
        dsimp only at later
        rw [skipSpace_asciiText_cons (isQuote ▸ by decide) shown]
        dsimp only
        rw [if_pos isQuote, readString_follows _ _ _ isKey, Option.bind_eq_bind, Option.bind_some]
        dsimp only
        cases colonShown : skipSpace afterKey with
        | nil =>
            rw [colonShown] at later
            cases later
        | cons colon after =>
            rw [colonShown] at later
            dsimp only at later
            split at later
            · rename_i isColon
              obtain ⟨⟨item, last⟩, found, same⟩ := Option.bind_eq_some_iff.mp later
              cases same
              rw [skipSpace_asciiText_cons (isColon ▸ by decide) colonShown]
              dsimp only
              rw [if_pos isColon, each _ _ _ found]
              rfl
            · cases later
      · cases read

end Lists

section Values

variable (numbers : Numbers)

/-- An ASCII word stands in front of the escaped text where it stood in front of the text. -/
theorem isPrefixOf_asciiText {word : JsString} (ascii : AsciiUnits word) (stops : 0x5c ∉ word)
    (text : JsString) : word.isPrefixOf (asciiText text) = word.isPrefixOf text := by
  induction word generalizing text with
  | nil => rfl
  | cons unit rest ih =>
      have low := ascii unit List.mem_cons_self
      have different : unit ≠ 0x5c := fun same => stops (same ▸ List.mem_cons_self)
      cases text with
      | nil => rfl
      | cons first behind =>
          rcases UInt16.lt_or_le 0x7f first with high | isLow
          · have escaped : asciiText (first :: behind) =
                0x5c :: ((unicodeEscape first).tail ++ asciiText behind) :=
              asciiText_cons_high high behind
            have other : unit ≠ first := by
              rintro rfl
              exact absurd low (UInt16.not_le.mpr high)
            rw [escaped, List.isPrefixOf, List.isPrefixOf, beq_false_of_ne different,
              beq_false_of_ne other]
            rfl
          · rw [asciiText_cons_low isLow, List.isPrefixOf, List.isPrefixOf,
              ih (fun other inside => ascii other (List.mem_cons_of_mem _ inside))
                (fun inside => stops (List.mem_cons_of_mem _ inside))]

theorem drop_asciiText {word text : JsString} (ascii : AsciiUnits word)
    (isPrefix : word.isPrefixOf text = true) :
    (asciiText text).drop word.length = asciiText (text.drop word.length) := by
  obtain ⟨rest, rfl⟩ := List.isPrefixOf_iff_prefix.mp isPrefix
  rw [asciiText_append, asciiText_of_ascii ascii, List.drop_left, List.drop_left]

theorem readNumber_follows : Follows (readNumber numbers) (readNumber numbers) := by
  intro text value rest read
  obtain ⟨token, behind⟩ := takeWhile_asciiText isNumberUnit_low rfl text
  unfold readNumber at read ⊢
  dsimp only at read ⊢
  rw [token, behind]
  split at read
  · rename_i literal
    cases read
    exact if_pos literal
  · cases read

theorem readWord_follows : Follows (readWord numbers) (readWord numbers) := by
  intro text value rest read
  have null : AsciiUnits (ofString "null") ∧ 0x5c ∉ ofString "null" := by
    rw [ofString_null]
    simp [AsciiUnits]
  have isTrue : AsciiUnits (ofString "true") ∧ 0x5c ∉ ofString "true" := by
    rw [ofString_true]
    simp [AsciiUnits]
  have isFalse : AsciiUnits (ofString "false") ∧ 0x5c ∉ ofString "false" := by
    rw [ofString_false]
    simp [AsciiUnits]
  unfold readWord at read ⊢
  rw [isPrefixOf_asciiText null.1 null.2, isPrefixOf_asciiText isTrue.1 isTrue.2,
    isPrefixOf_asciiText isFalse.1 isFalse.2]
  split at read
  · rename_i isPrefix
    cases read
    rw [if_pos isPrefix]
    exact congrArg (fun behind => some (Json.null, behind)) (drop_asciiText null.1 isPrefix)
  · rename_i notNull
    rw [if_neg notNull]
    split at read
    · rename_i isPrefix
      cases read
      rw [if_pos isPrefix]
      exact congrArg (fun behind => some (Json.bool true, behind)) (drop_asciiText isTrue.1 isPrefix)
    · rename_i notTrue
      rw [if_neg notTrue]
      split at read
      · rename_i isPrefix
        cases read
        rw [if_pos isPrefix]
        exact congrArg (fun behind => some (Json.bool false, behind)) (drop_asciiText isFalse.1 isPrefix)
      · rename_i notFalse
        rw [if_neg notFalse]
        exact readNumber_follows numbers _ _ _ read

theorem readValue_follows {depth asciiDepth : Nat} (enough : depth ≤ asciiDepth) :
    Follows (readValue numbers depth) (readValue numbers asciiDepth) := by
  induction depth generalizing asciiDepth with
  | zero =>
      intro text value rest read
      cases read
  | succ depth ih =>
      intro text value rest read
      obtain ⟨asciiLess, rfl⟩ : ∃ less, asciiDepth = less + 1 := ⟨asciiDepth - 1, by omega⟩
      have nested : Follows (readValue numbers depth) (readValue numbers asciiLess) :=
        ih (Nat.le_of_succ_le_succ enough)
      unfold readValue at read ⊢
      cases shown : skipSpace text with
      | nil =>
          rw [shown] at read
          cases read
      | cons first behind =>
          rw [shown] at read
          dsimp only at read
          split at read
          · rename_i isQuote
            obtain ⟨⟨found, after⟩, isString, same⟩ := Option.bind_eq_some_iff.mp read
            cases same
            rw [skipSpace_asciiText_cons (isQuote ▸ by decide) shown]
            dsimp only
            rw [if_pos isQuote, readString_follows _ _ _ isString]
            rfl
          · rename_i notQuote
            split at read
            · rename_i isBracket
              obtain ⟨⟨items, after⟩, found, same⟩ := Option.bind_eq_some_iff.mp read
              cases same
              rw [skipSpace_asciiText_cons (isBracket ▸ by decide) shown]
              dsimp only
              rw [if_neg notQuote, if_pos isBracket, readItems_follows nested (by decide) (by decide) _ _ _ found]
              rfl
            · rename_i notBracket
              split at read
              · rename_i isBrace
                obtain ⟨⟨members, after⟩, found, same⟩ := Option.bind_eq_some_iff.mp read
                cases same
                rw [skipSpace_asciiText_cons (isBrace ▸ by decide) shown]
                dsimp only
                rw [if_neg notQuote, if_neg notBracket, if_pos isBrace,
                  readItems_follows (readMember_follows nested) (by decide) (by decide) _ _ _ found]
                rfl
              · rename_i notBrace
                have word := readWord_follows numbers _ _ _ read
                obtain ⟨other, after, isHead, different⟩ := asciiText_head first behind
                rw [isHead] at word
                rw [skipSpace_asciiText, shown, isHead]
                dsimp only
                rw [if_neg (different _ (by decide) (by decide) notQuote),
                  if_neg (different _ (by decide) (by decide) notBracket),
                  if_neg (different _ (by decide) (by decide) notBrace)]
                exact word

/-- The compact text of a value is read to its end. -/
theorem readValue_compactAsciiJson {value : Json numbers.Number} (valid : value.Valid) :
    readValue numbers ((compactAsciiJson numbers value).length + 1) (compactAsciiJson numbers value) =
      some (value, []) := by
  have stops : Stops [] := by simp [Stops]
  have read := readValue_stringify valid (Nat.le_add_right _ 1) stops
  rw [List.append_nil] at read
  have enough : (stringify numbers value).length + 1 ≤ (compactAsciiJson numbers value).length + 1 :=
    Nat.succ_le_succ (length_le_asciiText _)
  exact readValue_follows numbers enough _ _ _ read

theorem parseJson_compactAsciiJson {value : Json numbers.Number} (valid : value.Valid) :
    parseJson numbers (compactAsciiJson numbers value) = some value := by
  rw [parseJson, readValue_compactAsciiJson numbers valid]
  rfl

end Values

end Reflection
