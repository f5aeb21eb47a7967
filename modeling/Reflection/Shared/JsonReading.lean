/-
What is written reads back.

Strings are read unit by unit, lists item by item. A value's text bounds how deep it is nested,
so the bound of the reader is never met.
-/

import Reflection.Foundation.Results
import Reflection.Shared.JsonText

namespace Reflection

open JsString JsObject

/-! ### Strings -/

section Strings

/-- A unit in front of a string that was read. -/
def withUnit (unit : UInt16) (found : JsString × JsString) : JsString × JsString :=
  (unit :: found.1, found.2)

theorem readString_plain {unit : UInt16} (rest : JsString) (notQuote : unit ≠ 0x22)
    (notBackslash : unit ≠ 0x5c) (visible : ¬ unit < 0x20) :
    readString (unit :: rest) = (readString rest).map (withUnit unit) := by
  rw [readString.eq_def]
  dsimp only
  rw [if_neg notQuote, if_neg notBackslash, if_neg visible]
  cases readString rest with
  | none => rfl
  | some found => rfl

theorem readString_escape {escaped unit : UInt16} (rest : JsString) (known : readEscape escaped = some unit) :
    readString (0x5c :: escaped :: rest) = (readString rest).map (withUnit unit) := by
  have notUnicode : escaped ≠ 0x75 := by
    rintro rfl
    cases known
  rw [readString.eq_def]
  dsimp only
  rw [if_neg (by decide), if_pos rfl, if_neg notUnicode, known]
  cases readString rest with
  | none => rfl
  | some found => rfl

theorem hexValue_hexDigit : ∀ value < 16, hexValue (hexDigit value) = some value := by
  decide

theorem readString_unicode (unit : UInt16) (rest : JsString) :
    readString (unicodeEscape unit ++ rest) = (readString rest).map (withUnit unit) := by
  have small := unit.toNat_lt
  have hex : readHex (hexDigit (unit.toNat / 4096)) (hexDigit (unit.toNat / 256 % 16))
      (hexDigit (unit.toNat / 16 % 16)) (hexDigit (unit.toNat % 16)) = some unit := by
    rw [readHex, hexValue_hexDigit _ (by omega), hexValue_hexDigit _ (by omega),
      hexValue_hexDigit _ (by omega), hexValue_hexDigit _ (by omega)]
    have whole : unit.toNat / 4096 * 4096 + unit.toNat / 256 % 16 * 256 + unit.toNat / 16 % 16 * 16 +
        unit.toNat % 16 = unit.toNat := by omega
    simp only [Option.bind_eq_bind, Option.bind_some, whole, UInt16.ofNat_toNat]
  rw [unicodeEscape, readString.eq_def]
  simp only [List.cons_append, List.nil_append]
  rw [if_neg (by decide), if_pos trivial, if_pos trivial, hex]
  cases readString rest with
  | none => rfl
  | some found => rfl

/-- A string and a way to escape it: units as they are, short escapes and `\u` escapes. -/
inductive EscapedAs : JsString → JsString → Prop
  | nil : EscapedAs [] []
  | plain {unit : UInt16} {rest text : JsString} (notQuote : unit ≠ 0x22) (notBackslash : unit ≠ 0x5c)
      (visible : ¬ unit < 0x20) (behind : EscapedAs rest text) : EscapedAs (unit :: rest) (unit :: text)
  | short {unit escaped : UInt16} {rest text : JsString} (known : readEscape escaped = some unit)
      (behind : EscapedAs rest text) : EscapedAs (unit :: rest) (0x5c :: escaped :: text)
  | unicode {unit : UInt16} {rest text : JsString} (behind : EscapedAs rest text) :
      EscapedAs (unit :: rest) (unicodeEscape unit ++ text)

theorem jsonEscape_escapedAs (value : JsString) : EscapedAs value (jsonEscape value) := by
  fun_induction jsonEscape value with
  | case1 => exact .nil
  | case2 first rest special ih =>
      apply EscapedAs.short _ ih
      rw [readEscape, if_pos (special.imp_right .inl)]
  | case3 rest _ ih => exact .short (by decide) ih
  | case4 rest _ _ ih => exact .short (by decide) ih
  | case5 rest _ _ _ ih => exact .short (by decide) ih
  | case6 rest _ _ _ _ ih => exact .short (by decide) ih
  | case7 rest _ _ _ _ _ ih => exact .short (by decide) ih
  | case8 first rest _ _ _ _ _ _ _ ih => exact .unicode ih
  | case9 first notSpecial _ _ _ _ _ shown _ second after low ih =>
      rw [not_or] at notSpecial
      simp only [Bool.or_eq_true, decide_eq_true_eq, not_or] at shown
      have range : 0xdc00 ≤ second := by
        simp only [isLowSurrogate, Bool.and_eq_true, decide_eq_true_eq] at low
        exact low.1
      simp only [UInt16.le_iff_toNat_le, UInt16.reduceToNat] at range
      apply EscapedAs.plain notSpecial.1 notSpecial.2 shown.1
      apply EscapedAs.plain _ _ _ ih
      · rintro rfl
        simp at range
      · rintro rfl
        simp at range
      · simp only [UInt16.lt_iff_toNat_lt, UInt16.reduceToNat]
        omega
  | case10 first _ _ _ _ _ _ _ _ second after _ ih => exact .unicode ih
  | case11 first =>
      have single : EscapedAs [first] (unicodeEscape first ++ []) := .unicode .nil
      simpa using single
  | case12 first rest notSpecial _ _ _ _ _ shown _ ih =>
      rw [not_or] at notSpecial
      simp only [Bool.or_eq_true, decide_eq_true_eq, not_or] at shown
      exact .plain notSpecial.1 notSpecial.2 shown.1 ih

theorem EscapedAs.readString {value text : JsString} (escaped : EscapedAs value text) (rest : JsString) :
    Reflection.readString (text ++ 0x22 :: rest) = some (value, rest) := by
  induction escaped with
  | nil =>
      rw [List.nil_append, readString.eq_def]
      rfl
  | plain notQuote notBackslash visible behind ih =>
      rw [List.cons_append, readString_plain _ notQuote notBackslash visible, ih]
      rfl
  | short known behind ih =>
      rw [List.cons_append, List.cons_append, readString_escape _ known, ih]
      rfl
  | unicode behind ih =>
      rw [List.append_assoc, readString_unicode, ih]
      rfl

/-- Units that end a line. -/
def isLineBreak (unit : UInt16) : Bool := unit == 0x0a || unit == 0x0d

def OneLine (text : JsString) : Prop := ∀ unit ∈ text, isLineBreak unit = false

theorem isLineBreak_of_visible {unit : UInt16} (visible : ¬ unit < 0x20) : isLineBreak unit = false := by
  simp only [isLineBreak, Bool.or_eq_false_iff, beq_eq_false_iff_ne]
  constructor
  · rintro rfl
    exact visible (by decide)
  · rintro rfl
    exact visible (by decide)

theorem hexDigit_visible : ∀ value < 16, ¬ hexDigit value < 0x20 := by
  decide

theorem EscapedAs.oneLine {value text : JsString} (escaped : EscapedAs value text) : OneLine text := by
  induction escaped with
  | nil => simp [OneLine]
  | plain notQuote notBackslash visible behind ih =>
      simp only [OneLine, List.forall_mem_cons]
      exact ⟨isLineBreak_of_visible visible, ih⟩
  | @short unit escaped rest text known behind ih =>
      simp only [OneLine, List.forall_mem_cons]
      refine ⟨by decide, ?_, ih⟩
      rw [← Bool.not_eq_true]
      intro breaks
      simp only [isLineBreak, Bool.or_eq_true, beq_iff_eq] at breaks
      rcases breaks with rfl | rfl
      · cases known
      · cases known
  | @unicode unit rest text behind ih =>
      have small := unit.toNat_lt
      simp only [OneLine, unicodeEscape, List.cons_append, List.nil_append, List.forall_mem_cons]
      refine ⟨by decide, by decide, ?_, ?_, ?_, ?_, ih⟩
      all_goals exact isLineBreak_of_visible (hexDigit_visible _ (by omega))

end Strings

/-! ### Lists -/

/-- What stands behind a value does not continue a number. -/
def Stops (rest : JsString) : Prop := ∀ unit, rest.head? = some unit → isNumberUnit unit = false

theorem Stops.cons {unit : UInt16} {rest : JsString} (stop : isNumberUnit unit = false) :
    Stops (unit :: rest) := by
  intro first isFirst
  cases isFirst
  exact stop

theorem skipSpace_cons {first : UInt16} (rest : JsString) (shown : isJsonSpace first = false) :
    skipSpace (first :: rest) = first :: rest := by
  rw [skipSpace, List.dropWhile_cons, shown]
  rfl

/-- How the text of a value or a member starts: neither with a space nor with a closing unit. -/
def Starts (text : JsString) : Prop :=
  ∃ first rest, text = first :: rest ∧ isJsonSpace first = false ∧ first ≠ 0x5d ∧ first ≠ 0x7d

theorem ofString_comma : ofString "," = [0x2c] := rfl

section Lists

variable {Item : Type} {write : Item → JsString} {readItem : JsString → Option (Item × JsString)}

theorem length_le_commaSeparated {texts : List JsString} {text : JsString} (inside : text ∈ texts) :
    text.length ≤ (commaSeparated texts).length := by
  induction texts with
  | nil => cases inside
  | cons first rest ih =>
      cases rest with
      | nil =>
          rw [List.mem_singleton.mp inside, commaSeparated]
      | cons second rest =>
          simp only [commaSeparated, List.length_append]
          rcases List.mem_cons.mp inside with same | later
          · rw [same]
            omega
          · have bound := ih later
            omega

theorem count_le_commaSeparated {texts : List JsString} (shown : ∀ text ∈ texts, Starts text) :
    texts.length ≤ (commaSeparated texts).length := by
  induction texts with
  | nil => exact Nat.zero_le _
  | cons first rest ih =>
      obtain ⟨unit, tail, isText, _⟩ := shown first List.mem_cons_self
      have bound := ih fun text inside => shown text (List.mem_cons_of_mem _ inside)
      cases rest with
      | nil => simp [commaSeparated, isText]
      | cons second rest =>
          simp only [commaSeparated, List.length_append, List.length_cons, isText] at bound ⊢
          omega

theorem readList_commaSeparated {close : UInt16} (closes : isJsonSpace close = false)
    (notComma : close ≠ 0x2c) (stop : isNumberUnit close = false) {items : List Item} (present : items ≠ [])
    (each : ∀ item ∈ items, ∀ after, Stops after → readItem (write item ++ after) = some (item, after))
    (rest : JsString) {steps : Nat} (enough : items.length ≤ steps) :
    readList close readItem steps (commaSeparated (items.map write) ++ close :: rest) =
      some (items, rest) := by
  induction items generalizing steps with
  | nil => exact absurd rfl present
  | cons item tail ih =>
      cases steps with
      | zero => simp at enough
      | succ steps =>
          have first := each item List.mem_cons_self
          cases tail with
          | nil =>
              rw [readList, List.map_singleton, commaSeparated, first _ (.cons stop)]
              simp [skipSpace_cons rest closes]
          | cons second tail =>
              have behind := ih (List.cons_ne_nil _ _)
                (fun item inside => each item (List.mem_cons_of_mem _ inside))
                (by simpa using enough)
              have separates : isNumberUnit 0x2c = false := by decide
              rw [List.map_cons] at behind
              rw [readList, List.map_cons, List.map_cons, commaSeparated, ofString_comma, List.append_assoc,
                List.append_assoc, List.singleton_append, first _ (.cons separates)]
              simp only [Option.bind_eq_bind, Option.bind_some]
              rw [skipSpace_cons _ (by decide)]
              simp only [if_neg notComma.symm, if_true, behind, Option.bind_some]

theorem readItems_commaSeparated {close : UInt16} (isClose : close = 0x5d ∨ close = 0x7d)
    {items : List Item} (starts : ∀ item ∈ items, Starts (write item))
    (each : ∀ item ∈ items, ∀ after, Stops after → readItem (write item ++ after) = some (item, after))
    (rest : JsString) :
    readItems close readItem (commaSeparated (items.map write) ++ close :: rest) =
      some (items, rest) := by
  have closes : isJsonSpace close = false ∧ close ≠ 0x2c ∧ isNumberUnit close = false := by
    rcases isClose with rfl | rfl <;> decide
  cases items with
  | nil =>
      rw [readItems, List.map_nil, commaSeparated, List.nil_append, skipSpace_cons rest closes.1]
      exact if_pos rfl
  | cons item tail =>
      have shown : ∀ text ∈ (item :: tail).map write, Starts text := by
        intro text inside
        obtain ⟨item, isItem, same⟩ := List.mem_map.mp inside
        exact same ▸ starts item isItem
      have count := count_le_commaSeparated shown
      have enough : (item :: tail).length ≤
          (commaSeparated ((item :: tail).map write) ++ close :: rest).length := by
        rw [List.length_append]
        rw [List.length_map] at count
        omega
      have read := readList_commaSeparated closes.1 closes.2.1 closes.2.2 (List.cons_ne_nil item tail) each
        rest enough
      obtain ⟨first, behind, isText, shown, notBracket, notBrace⟩ := starts item List.mem_cons_self
      obtain ⟨more, whole⟩ : ∃ more, commaSeparated ((item :: tail).map write) = first :: more := by
        cases tail with
        | nil => exact ⟨behind, isText⟩
        | cons second tail =>
            rw [List.map_cons, List.map_cons, commaSeparated, isText]
            exact ⟨_, rfl⟩
      have other : first ≠ close := by
        rcases isClose with rfl | rfl
        · exact notBracket
        · exact notBrace
      rw [whole] at read ⊢
      rw [readItems, List.cons_append, skipSpace_cons _ shown]
      dsimp only
      rw [if_neg other]
      exact read

end Lists

/-! ### Values -/

section Values

variable {numbers : Numbers}

theorem ofString_null : ofString "null" = [0x6e, 0x75, 0x6c, 0x6c] := rfl

theorem ofString_true : ofString "true" = [0x74, 0x72, 0x75, 0x65] := rfl

theorem ofString_false : ofString "false" = [0x66, 0x61, 0x6c, 0x73, 0x65] := rfl

theorem ofString_colon : ofString ":" = [0x3a] := rfl

theorem stringify_array (items : List (Json numbers.Number)) :
    stringify numbers (.array items) =
      0x5b :: commaSeparated (items.map (stringify numbers)) ++ [0x5d] := by
  have opening : ofString "[" = [0x5b] := rfl
  have closing : ofString "]" = [0x5d] := rfl
  rw [stringify, stringifyItems_eq, opening, closing]
  rfl

theorem stringify_object (entries : List (JsString × Json numbers.Number)) :
    stringify numbers (.object entries) =
      0x7b :: commaSeparated (entries.map (entryText numbers)) ++ [0x7d] := by
  have opening : ofString "\x7b" = [0x7b] := rfl
  have closing : ofString "\x7d" = [0x7d] := rfl
  rw [stringify, stringifyEntries_eq, opening, closing]
  rfl

/-- A literal is a nonempty run of the units of numbers. -/
theorem isNumberLiteral_units {token : JsString} (literal : isNumberLiteral token = true) :
    ∃ first rest, token = first :: rest ∧ ∀ unit ∈ token, isNumberUnit unit = true := by
  simp only [isNumberLiteral, Bool.and_eq_true] at literal
  have units := List.all_eq_true.mp literal.1.1
  cases token with
  | nil => cases literal.1.2
  | cons first rest => exact ⟨first, rest, rfl, units⟩

theorem ne_of_isNumberUnit {unit other : UInt16} (number : isNumberUnit unit = true)
    (outside : isNumberUnit other = false) : unit ≠ other := by
  rintro rfl
  rw [number] at outside
  cases outside

theorem isJsonSpace_of_isNumberUnit {unit : UInt16} (number : isNumberUnit unit = true) :
    isJsonSpace unit = false := by
  rw [← Bool.not_eq_true]
  intro space
  simp only [isJsonSpace, List.contains_iff_mem, List.mem_cons, List.not_mem_nil, or_false] at space
  rcases space with rfl | rfl | rfl | rfl <;> simp [isNumberUnit, isDigit] at number

theorem stringify_starts (value : Json numbers.Number) : Starts (stringify numbers value) := by
  cases value with
  | null => exact ⟨0x6e, _, ofString_null, by decide, by decide, by decide⟩
  | bool value =>
      cases value with
      | false => exact ⟨0x66, _, ofString_false, by decide, by decide, by decide⟩
      | true => exact ⟨0x74, _, ofString_true, by decide, by decide, by decide⟩
  | number value =>
      obtain ⟨first, rest, isText, units⟩ := isNumberLiteral_units (numbers.literal value)
      have number := units first (isText ▸ List.mem_cons_self)
      exact ⟨first, rest, isText, isJsonSpace_of_isNumberUnit number,
        ne_of_isNumberUnit number (by decide), ne_of_isNumberUnit number (by decide)⟩
  | string value => exact ⟨0x22, _, rfl, by decide, by decide, by decide⟩
  | array items => exact ⟨0x5b, _, stringify_array items, by decide, by decide, by decide⟩
  | object entries => exact ⟨0x7b, _, stringify_object entries, by decide, by decide, by decide⟩

theorem entryText_starts (entry : JsString × Json numbers.Number) : Starts (entryText numbers entry) :=
  ⟨0x22, _, rfl, by decide, by decide, by decide⟩

theorem takeWhile_number {token rest : JsString} (units : ∀ unit ∈ token, isNumberUnit unit = true)
    (stops : Stops rest) :
    (token ++ rest).takeWhile isNumberUnit = token ∧ (token ++ rest).dropWhile isNumberUnit = rest := by
  rw [List.takeWhile_append_of_pos units, List.dropWhile_append_of_pos units]
  cases rest with
  | nil => simp
  | cons first behind =>
      have stop := stops first rfl
      simp [stop]

theorem readNumber_text (value : numbers.Number) {rest : JsString} (stops : Stops rest) :
    readNumber numbers (numbers.text value ++ rest) = some (.number value, rest) := by
  obtain ⟨first, tail, _, units⟩ := isNumberLiteral_units (numbers.literal value)
  obtain ⟨token, behind⟩ := takeWhile_number units stops
  rw [readNumber, token, behind, if_pos (numbers.literal value), numbers.read_text]

theorem readWord_number (value : numbers.Number) {rest : JsString} (stops : Stops rest) :
    readWord numbers (numbers.text value ++ rest) = some (.number value, rest) := by
  obtain ⟨first, tail, isText, units⟩ := isNumberLiteral_units (numbers.literal value)
  have number := units first (isText ▸ List.mem_cons_self)
  have apart {word : JsString} {other : UInt16} (outside : isNumberUnit other = false) :
      (other :: word).isPrefixOf (numbers.text value ++ rest) = false := by
    rw [isText, List.cons_append, List.isPrefixOf]
    simp [(ne_of_isNumberUnit number outside).symm]
  rw [readWord, ofString_null, ofString_true, ofString_false, apart (by decide), apart (by decide),
    apart (by decide)]
  simpa using readNumber_text value stops

/-- A member is read where its value is. -/
theorem readMember_entryText {readItem : JsString → Option (Json numbers.Number × JsString)}
    {entry : JsString × Json numbers.Number} {after : JsString}
    (value : readItem (stringify numbers entry.2 ++ after) = some (entry.2, after)) :
    readMember readItem (entryText numbers entry ++ after) = some (entry, after) := by
  obtain ⟨key, item⟩ := entry
  have escaped := (jsonEscape_escapedAs key).readString (0x3a :: (stringify numbers item ++ after))
  have text : entryText numbers (key, item) ++ after =
      0x22 :: (jsonEscape key ++ 0x22 :: 0x3a :: (stringify numbers item ++ after)) := by
    simp [entryText, jsonString, ofString_colon]
  have quote : isJsonSpace 0x22 = false := by decide
  have colon : isJsonSpace 0x3a = false := by decide
  rw [text, readMember, skipSpace_cons _ quote]
  simp only [if_true, escaped, Option.bind_eq_bind, Option.bind_some, skipSpace_cons _ colon, value]

/-- The reader skips to the first unit of a value's text. -/
theorem skipSpace_stringify (value : Json numbers.Number) (rest : JsString) :
    skipSpace (stringify numbers value ++ rest) = stringify numbers value ++ rest := by
  obtain ⟨first, tail, isText, shown, _⟩ := stringify_starts value
  rw [isText, List.cons_append, skipSpace_cons _ shown]

theorem length_le_array {items : List (Json numbers.Number)} {item : Json numbers.Number}
    (inside : item ∈ items) :
    (stringify numbers item).length < (stringify numbers (.array items)).length := by
  have bound := length_le_commaSeparated (List.mem_map_of_mem (f := stringify numbers) inside)
  rw [stringify_array, List.cons_append, List.length_cons, List.length_append]
  omega

theorem length_le_object {entries : List (JsString × Json numbers.Number)}
    {entry : JsString × Json numbers.Number} (inside : entry ∈ entries) :
    (stringify numbers entry.2).length < (stringify numbers (.object entries)).length := by
  have bound := length_le_commaSeparated (List.mem_map_of_mem (f := entryText numbers) inside)
  rw [entryText, List.length_append] at bound
  rw [stringify_object, List.cons_append, List.length_cons, List.length_append]
  omega

/-- `null`, the booleans and numbers are read as words. -/
theorem readValue_word {value : Json numbers.Number} {rest : JsString} (depth : Nat)
    (word : readWord numbers (stringify numbers value ++ rest) = some (value, rest))
    (plain : ∀ first, (stringify numbers value).head? = some first →
      first ≠ 0x22 ∧ first ≠ 0x5b ∧ first ≠ 0x7b) :
    readValue numbers (depth + 1) (stringify numbers value ++ rest) = some (value, rest) := by
  have skipped := skipSpace_stringify value rest
  obtain ⟨first, tail, isText, _⟩ := stringify_starts value
  have other := plain first (by rw [isText, List.head?_cons])
  rw [isText, List.cons_append] at word skipped ⊢
  rw [readValue, skipped]
  dsimp only
  rw [if_neg other.1, if_neg other.2.1, if_neg other.2.2, word]

theorem readValue_string (value rest : JsString) (depth : Nat) :
    readValue numbers (depth + 1) (jsonString value ++ rest) = some (.string value, rest) := by
  have quote : isJsonSpace 0x22 = false := by decide
  have text : jsonString value ++ rest = 0x22 :: (jsonEscape value ++ 0x22 :: rest) := by
    simp [jsonString]
  rw [text, readValue, skipSpace_cons _ quote]
  simp [(jsonEscape_escapedAs value).readString rest]

theorem readValue_array {items : List (Json numbers.Number)} {depth : Nat}
    (each : ∀ item ∈ items, ∀ after, Stops after →
      readValue numbers depth (stringify numbers item ++ after) = some (item, after)) (rest : JsString) :
    readValue numbers (depth + 1) (stringify numbers (.array items) ++ rest) =
      some (.array items, rest) := by
  have bracket : isJsonSpace 0x5b = false := by decide
  have read := readItems_commaSeparated (.inl rfl) (fun item _ => stringify_starts item) each rest
  have text : stringify numbers (.array items) ++ rest =
      0x5b :: (commaSeparated (items.map (stringify numbers)) ++ 0x5d :: rest) := by
    simp [stringify_array]
  rw [text, readValue, skipSpace_cons _ bracket]
  simp [read]

theorem readValue_object {entries : List (JsString × Json numbers.Number)} {depth : Nat}
    (ordered : Ordered entries)
    (each : ∀ entry ∈ entries, ∀ after, Stops after →
      readValue numbers depth (stringify numbers entry.2 ++ after) = some (entry.2, after))
    (rest : JsString) :
    readValue numbers (depth + 1) (stringify numbers (.object entries) ++ rest) =
      some (.object entries, rest) := by
  have brace : isJsonSpace 0x7b = false := by decide
  have read := readItems_commaSeparated (.inr rfl) (fun entry _ => entryText_starts entry)
    (fun entry inside after stops => readMember_entryText (each entry inside after stops)) rest
  have text : stringify numbers (.object entries) ++ rest =
      0x7b :: (commaSeparated (entries.map (entryText numbers)) ++ 0x7d :: rest) := by
    simp [stringify_object]
  rw [text, readValue, skipSpace_cons _ brace]
  simp [read, ordered.fromEntries_eq]

/-- Reading in front of anything that does not continue a number returns what was written. -/
theorem readValue_stringify {value : Json numbers.Number} (valid : value.Valid) {depth : Nat}
    (deep : (stringify numbers value).length ≤ depth) {rest : JsString} (stops : Stops rest) :
    readValue numbers depth (stringify numbers value ++ rest) = some (value, rest) := by
  have positive (value : Json numbers.Number) {depth : Nat}
      (deep : (stringify numbers value).length ≤ depth) : ∃ less, depth = less + 1 := by
    obtain ⟨first, tail, isText, _⟩ := stringify_starts value
    rw [isText, List.length_cons] at deep
    exact ⟨depth - 1, by omega⟩
  induction value using Json.tree_induction generalizing depth rest with
  | null =>
      obtain ⟨less, rfl⟩ := positive _ deep
      apply readValue_word
      · simp [stringify, readWord, ofString_null]
      · simp [stringify, ofString_null]
  | bool value =>
      obtain ⟨less, rfl⟩ := positive _ deep
      apply readValue_word
      · cases value <;> simp [stringify, readWord, ofString_null, ofString_true, ofString_false]
      · cases value <;> simp [stringify, ofString_true, ofString_false]
  | number value =>
      obtain ⟨less, rfl⟩ := positive _ deep
      apply readValue_word
      · exact readWord_number value stops
      · obtain ⟨head, behind, isNumber, units⟩ := isNumberLiteral_units (numbers.literal value)
        have number := units head (isNumber ▸ List.mem_cons_self)
        intro other isOther
        rw [stringify, isNumber, List.head?_cons, Option.some.injEq] at isOther
        rw [← isOther]
        exact ⟨ne_of_isNumberUnit number (by decide), ne_of_isNumberUnit number (by decide),
          ne_of_isNumberUnit number (by decide)⟩
  | string value =>
      obtain ⟨less, rfl⟩ := positive _ deep
      exact readValue_string value rest less
  | array items ih =>
      obtain ⟨less, rfl⟩ := positive _ deep
      cases valid with
      | array each =>
          apply readValue_array
          intro item inside after stops
          have small := length_le_array inside
          exact ih item inside (each item inside) (by omega) stops
  | object entries ih =>
      obtain ⟨less, rfl⟩ := positive _ deep
      cases valid with
      | object ordered each =>
          apply readValue_object ordered
          intro entry inside after stops
          have small := length_le_object inside
          exact ih entry inside (each entry inside) (by omega) stops

/-- `JSON.parse(JSON.stringify(value))`. -/
theorem parseJson_stringify {value : Json numbers.Number} (valid : value.Valid) :
    parseJson numbers (stringify numbers value) = some value := by
  have stops : Stops [] := by simp [Stops]
  have read := readValue_stringify valid (Nat.le_add_right _ 1) stops
  rw [List.append_nil] at read
  rw [parseJson, read, Option.bind_eq_bind, Option.bind_some]
  exact if_pos rfl

/-! ### Lines -/

theorem OneLine.append {one other : JsString} (first : OneLine one) (second : OneLine other) :
    OneLine (one ++ other) := by
  intro unit inside
  rcases List.mem_append.mp inside with front | behind
  · exact first unit front
  · exact second unit behind

theorem OneLine.cons {unit : UInt16} {rest : JsString} (plain : isLineBreak unit = false)
    (behind : OneLine rest) : OneLine (unit :: rest) :=
  List.forall_mem_cons.mpr ⟨plain, behind⟩

theorem jsonString_oneLine (value : JsString) : OneLine (jsonString value) := by
  have escaped := (jsonEscape_escapedAs value).oneLine
  intro unit inside
  simp only [jsonString, List.cons_append, List.mem_cons, List.mem_append, List.not_mem_nil,
    or_false] at inside
  rcases inside with rfl | inside | rfl
  · decide
  · exact escaped unit inside
  · decide

theorem commaSeparated_oneLine {texts : List JsString} (each : ∀ text ∈ texts, OneLine text) :
    OneLine (commaSeparated texts) := by
  induction texts with
  | nil => simp [OneLine, commaSeparated]
  | cons first rest ih =>
      have front := each first List.mem_cons_self
      have behind := ih fun text inside => each text (List.mem_cons_of_mem _ inside)
      cases rest with
      | nil => exact front
      | cons second rest =>
          have comma : OneLine (ofString ",") := by simp [ofString_comma, OneLine, isLineBreak]
          exact (front.append comma).append behind

/-- The text of a value has no line break. -/
theorem stringify_oneLine (value : Json numbers.Number) : OneLine (stringify numbers value) := by
  induction value using Json.tree_induction with
  | null => simp [OneLine, stringify, ofString_null, isLineBreak]
  | bool value =>
      cases value with
      | false => simp [OneLine, stringify, ofString_false, isLineBreak]
      | true => simp [OneLine, stringify, ofString_true, isLineBreak]
  | number value =>
      obtain ⟨head, behind, _, units⟩ := isNumberLiteral_units (numbers.literal value)
      intro unit inside
      have number := units unit inside
      simp only [isLineBreak, Bool.or_eq_false_iff, beq_eq_false_iff_ne]
      exact ⟨ne_of_isNumberUnit number (by decide), ne_of_isNumberUnit number (by decide)⟩
  | string value => exact jsonString_oneLine value
  | array items ih =>
      have each : ∀ text ∈ items.map (stringify numbers), OneLine text := by
        intro text inside
        obtain ⟨item, isItem, same⟩ := List.mem_map.mp inside
        exact same ▸ ih item isItem
      rw [stringify_array]
      apply OneLine.append (.cons _ (commaSeparated_oneLine each))
      · simp [OneLine, isLineBreak]
      · decide
  | object entries ih =>
      have each : ∀ text ∈ entries.map (entryText numbers), OneLine text := by
        intro text inside
        obtain ⟨entry, isEntry, same⟩ := List.mem_map.mp inside
        have colon : OneLine (ofString ":") := by simp [ofString_colon, OneLine, isLineBreak]
        exact same ▸ ((jsonString_oneLine entry.1).append colon).append (ih entry isEntry)
      rw [stringify_object]
      apply OneLine.append (.cons _ (commaSeparated_oneLine each))
      · simp [OneLine, isLineBreak]
      · decide

end Values

end Reflection
