/-
What the reader of JSON consumes is balanced.

Outside strings every opening delimiter meets the closing one of its kind, and a string ends at
its first quote that is not escaped. Both are said of the text alone, so that whoever only counts
delimiters finds the end of a value where the reader does.
-/

import Reflection.Shared.JsonReading

namespace Reflection

open JsString

/-- The text between the quotes of a string: a reverse solidus takes the unit behind it along. -/
inductive Unquoted : JsString → Prop
  | nil : Unquoted []
  | plain {unit : UInt16} {rest : JsString} (notQuote : unit ≠ 0x22) (notBackslash : unit ≠ 0x5c)
      (behind : Unquoted rest) : Unquoted (unit :: rest)
  | escape {unit : UInt16} {rest : JsString} (behind : Unquoted rest) : Unquoted (0x5c :: unit :: rest)

/-- Neither a quote nor a delimiter. -/
def isPlain (unit : UInt16) : Bool :=
  !([0x22, 0x5b, 0x5d, 0x7b, 0x7d] : List UInt16).contains unit

inductive Matching : UInt16 → UInt16 → Prop
  | bracket : Matching 0x5b 0x5d
  | brace : Matching 0x7b 0x7d

inductive Balanced : JsString → Prop
  | nil : Balanced []
  | plain {unit : UInt16} {rest : JsString} (isPlain : isPlain unit = true) (behind : Balanced rest) :
      Balanced (unit :: rest)
  | quoted {body rest : JsString} (inside : Unquoted body) (behind : Balanced rest) :
      Balanced (0x22 :: (body ++ 0x22 :: rest))
  | nested {opening closing : UInt16} {inner rest : JsString} (isPair : Matching opening closing)
      (inside : Balanced inner) (behind : Balanced rest) :
      Balanced (opening :: (inner ++ closing :: rest))

namespace Balanced

theorem of_plain {text : JsString} (each : ∀ unit ∈ text, isPlain unit = true) : Balanced text := by
  induction text with
  | nil => exact .nil
  | cons unit rest ih =>
      have behind := ih fun other inside => each other (List.mem_cons_of_mem _ inside)
      exact .plain (each unit List.mem_cons_self) behind

theorem append {one other : JsString} (first : Balanced one) (second : Balanced other) :
    Balanced (one ++ other) := by
  induction first with
  | nil => exact second
  | plain isPlain behind ih => exact .plain isPlain ih
  | quoted inside behind ih =>
      rw [List.cons_append, List.append_assoc, List.cons_append]
      exact .quoted inside ih
  | nested isPair inside behind _ ih =>
      rw [List.cons_append, List.append_assoc, List.cons_append]
      exact .nested isPair inside ih

end Balanced

/-! ### Readers -/

/-- What is read off the front of a text is balanced. -/
def Consumes {Item : Type} (reader : JsString → Option (Item × JsString)) : Prop :=
  ∀ text item rest, reader text = some (item, rest) →
    ∃ consumed, text = consumed ++ rest ∧ Balanced consumed

theorem isPlain_of_isJsonSpace {unit : UInt16} (space : isJsonSpace unit = true) :
    isPlain unit = true := by
  simp only [isJsonSpace, List.contains_iff_mem, List.mem_cons, List.not_mem_nil, or_false] at space
  rcases space with rfl | rfl | rfl | rfl <;> rfl

theorem isPlain_of_isNumberUnit {unit : UInt16} (number : isNumberUnit unit = true) :
    isPlain unit = true := by
  rw [isPlain, Bool.not_eq_true', ← Bool.not_eq_true]
  intro special
  simp only [List.contains_iff_mem, List.mem_cons, List.not_mem_nil, or_false] at special
  rcases special with rfl | rfl | rfl | rfl | rfl <;> cases number

/-- White space is skipped as a balanced text. -/
theorem skipSpace_consumes (text : JsString) :
    ∃ spaces, text = spaces ++ skipSpace text ∧ Balanced spaces := by
  refine ⟨text.takeWhile isJsonSpace, (List.takeWhile_append_dropWhile).symm, ?_⟩
  exact .of_plain fun unit inside => isPlain_of_isJsonSpace (List.mem_takeWhile_imp inside)

/-- White space, one unit and what follows it. -/
theorem skipSpace_cons_consumes {text rest : JsString} {first : UInt16}
    (shown : skipSpace text = first :: rest) :
    ∃ spaces, text = spaces ++ first :: rest ∧ Balanced spaces := by
  obtain ⟨spaces, split, balanced⟩ := skipSpace_consumes text
  rw [shown] at split
  exact ⟨spaces, split, balanced⟩

theorem hexValue_plain {unit : UInt16} {value : Nat} (digit : hexValue unit = some value) :
    unit ≠ 0x22 ∧ unit ≠ 0x5c := by
  constructor
  · rintro rfl
    cases digit
  · rintro rfl
    cases digit

theorem readHex_digits {a b c d unit : UInt16} (read : readHex a b c d = some unit) :
    (∃ value, hexValue a = some value) ∧ (∃ value, hexValue b = some value) ∧
      (∃ value, hexValue c = some value) ∧ ∃ value, hexValue d = some value := by
  obtain ⟨first, isFirst, afterFirst⟩ := Option.bind_eq_some_iff.mp read
  obtain ⟨second, isSecond, afterSecond⟩ := Option.bind_eq_some_iff.mp afterFirst
  obtain ⟨third, isThird, afterThird⟩ := Option.bind_eq_some_iff.mp afterSecond
  obtain ⟨fourth, isFourth, _⟩ := Option.bind_eq_some_iff.mp afterThird
  exact ⟨⟨first, isFirst⟩, ⟨second, isSecond⟩, ⟨third, isThird⟩, ⟨fourth, isFourth⟩⟩

theorem readString_consumes {text value rest : JsString} (read : readString text = some (value, rest)) :
    ∃ body, text = body ++ 0x22 :: rest ∧ Unquoted body := by
  fun_induction readString text generalizing value rest with
  | case1 => cases read
  | case2 behind =>
      cases read
      exact ⟨[], rfl, .nil⟩
  | case3 => cases read
  | case4 a b c d more _ ih =>
      obtain ⟨unit, hex, later⟩ := Option.bind_eq_some_iff.mp read
      obtain ⟨⟨tail, behind⟩, found, same⟩ := Option.bind_eq_some_iff.mp later
      cases same
      obtain ⟨body, split, unquoted⟩ := ih found
      obtain ⟨⟨_, first⟩, ⟨_, second⟩, ⟨_, third⟩, ⟨_, fourth⟩⟩ := readHex_digits hex
      have digit {unit : UInt16} {value : Nat} {rest : JsString} (isDigit : hexValue unit = some value)
          (behind : Unquoted rest) : Unquoted (unit :: rest) :=
        .plain (hexValue_plain isDigit).1 (hexValue_plain isDigit).2 behind
      refine ⟨0x5c :: 0x75 :: a :: b :: c :: d :: body, by rw [split]; rfl, .escape ?_⟩
      exact digit first (digit second (digit third (digit fourth unquoted)))
  | case5 => cases read
  | case6 escaped after notUnicode _ ih =>
      obtain ⟨unit, _, later⟩ := Option.bind_eq_some_iff.mp read
      obtain ⟨⟨tail, behind⟩, found, same⟩ := Option.bind_eq_some_iff.mp later
      cases same
      obtain ⟨body, split, unquoted⟩ := ih found
      exact ⟨0x5c :: escaped :: body, by rw [split]; rfl, .escape unquoted⟩
  | case7 => cases read
  | case8 first behind notQuote notBackslash visible ih =>
      obtain ⟨⟨tail, later⟩, found, same⟩ := Option.bind_eq_some_iff.mp read
      cases same
      obtain ⟨body, split, unquoted⟩ := ih found
      exact ⟨first :: body, by rw [split]; rfl, .plain notQuote notBackslash unquoted⟩

section Lists

variable {Item : Type} {readItem : JsString → Option (Item × JsString)}

theorem readList_consumes (each : Consumes readItem) {close : UInt16} {steps : Nat}
    {text rest : JsString} {items : List Item}
    (read : readList close readItem steps text = some (items, rest)) :
    ∃ inner, text = inner ++ close :: rest ∧ Balanced inner := by
  induction steps generalizing text rest items with
  | zero => cases read
  | succ steps ih =>
      obtain ⟨⟨item, behind⟩, found, later⟩ := Option.bind_eq_some_iff.mp read
      obtain ⟨consumed, split, balanced⟩ := each _ _ _ found
      dsimp only at later
      cases shown : skipSpace behind with
      | nil =>
          rw [shown] at later
          cases later
      | cons first after =>
          rw [shown] at later
          obtain ⟨spaces, spaced, empty⟩ := skipSpace_cons_consumes shown
          dsimp only at later
          split at later
          · rename_i isClose
            cases later
            refine ⟨consumed ++ spaces, ?_, balanced.append empty⟩
            rw [split, spaced, isClose, List.append_assoc]
          · split at later
            · rename_i isComma
              obtain ⟨⟨tail, last⟩, more, same⟩ := Option.bind_eq_some_iff.mp later
              cases same
              obtain ⟨inner, splitMore, balancedMore⟩ := ih more
              refine ⟨consumed ++ (spaces ++ 0x2c :: inner), ?_,
                balanced.append (empty.append (.plain rfl balancedMore))⟩
              rw [split, spaced, isComma, splitMore]
              simp only [List.append_assoc, List.cons_append]
            · cases later

theorem readItems_consumes (each : Consumes readItem) {close : UInt16} {text rest : JsString}
    {items : List Item} (read : readItems close readItem text = some (items, rest)) :
    ∃ inner, text = inner ++ close :: rest ∧ Balanced inner := by
  unfold readItems at read
  cases shown : skipSpace text with
  | nil =>
      rw [shown] at read
      cases read
  | cons first behind =>
      rw [shown] at read
      dsimp only at read
      split at read
      · rename_i isClose
        cases read
        rw [isClose] at shown
        exact skipSpace_cons_consumes shown
      · exact readList_consumes each read

theorem readMember_consumes (each : Consumes readItem) : Consumes (readMember readItem) := by
  intro text member rest read
  unfold readMember at read
  cases shown : skipSpace text with
  | nil =>
      rw [shown] at read
      cases read
  | cons first behind =>
      rw [shown] at read
      dsimp only at read
      split at read
      · rename_i isQuote
        obtain ⟨⟨key, afterKey⟩, isKey, later⟩ := Option.bind_eq_some_iff.mp read
        dsimp only at later
        cases colonShown : skipSpace afterKey with
        | nil =>
            rw [colonShown] at later
            cases later
        | cons colon after =>
            rw [colonShown] at later
            dsimp only at later
            split at later
            · rename_i isColon
              obtain ⟨⟨item, last⟩, found, same⟩ := Option.bind_eq_some_iff.mp later
              cases same
              obtain ⟨spaces, spaced, empty⟩ := skipSpace_cons_consumes shown
              obtain ⟨body, quoted, unquoted⟩ := readString_consumes isKey
              obtain ⟨between, spacedColon, emptyColon⟩ := skipSpace_cons_consumes colonShown
              obtain ⟨consumed, split, balanced⟩ := each _ _ _ found
              refine ⟨spaces ++ 0x22 :: (body ++ 0x22 :: (between ++ 0x3a :: consumed)), ?_,
                empty.append (.quoted unquoted (emptyColon.append (.plain rfl balanced)))⟩
              rw [spaced, isQuote, quoted, spacedColon, isColon, split]
              simp only [List.append_assoc, List.cons_append]
            · cases later
      · cases read

end Lists

/-! ### Values -/

/-- The text of one value without white space around it. -/
inductive ValueText : JsString → Prop
  | quoted {body : JsString} (inside : Unquoted body) : ValueText (0x22 :: (body ++ [0x22]))
  | nested {opening closing : UInt16} {inner : JsString} (isPair : Matching opening closing)
      (inside : Balanced inner) : ValueText (opening :: (inner ++ [closing]))
  | word {text : JsString} (each : ∀ unit ∈ text, isPlain unit = true) : ValueText text

theorem ValueText.balanced {text : JsString} (value : ValueText text) : Balanced text := by
  cases value with
  | quoted inside => exact .quoted inside .nil
  | nested isPair inside => exact .nested isPair inside .nil
  | word each => exact .of_plain each

section Values

variable (numbers : Numbers)

theorem readWord_consumes {text rest : JsString} {value : Json numbers.Number}
    (read : readWord numbers text = some (value, rest)) :
    ∃ consumed, text = consumed ++ rest ∧ ∀ unit ∈ consumed, isPlain unit = true := by
  have word : ∀ {name : JsString}, name.isPrefixOf text = true →
      name.all isPlain = true → ∃ consumed, text = consumed ++ text.drop name.length ∧
        ∀ unit ∈ consumed, isPlain unit = true := by
    intro name isPrefix each
    obtain ⟨rest, rfl⟩ := List.isPrefixOf_iff_prefix.mp isPrefix
    exact ⟨name, by rw [List.drop_left], List.all_eq_true.mp each⟩
  unfold readWord at read
  rw [ofString_null, ofString_true, ofString_false] at read
  split at read
  · rename_i isNull
    cases read
    exact word isNull rfl
  · split at read
    · rename_i isTrue
      cases read
      exact word isTrue rfl
    · split at read
      · rename_i isFalse
        cases read
        exact word isFalse rfl
      · unfold readNumber at read
        dsimp only at read
        split at read
        · cases read
          refine ⟨text.takeWhile isNumberUnit, (List.takeWhile_append_dropWhile).symm, ?_⟩
          exact fun unit inside => isPlain_of_isNumberUnit (List.mem_takeWhile_imp inside)
        · cases read

/-- A value behind white space, from the readers of what is nested in it. -/
theorem readValue_text {depth : Nat} (each : Consumes (readValue numbers depth)) {text rest : JsString}
    {value : Json numbers.Number} (read : readValue numbers (depth + 1) text = some (value, rest)) :
    ∃ consumed, skipSpace text = consumed ++ rest ∧ ValueText consumed := by
  unfold readValue at read
  cases shown : skipSpace text with
  | nil =>
      rw [shown] at read
      cases read
  | cons first behind =>
      rw [shown] at read
      dsimp only at read
      split at read
      · rename_i isQuote
        obtain ⟨⟨text, after⟩, found, same⟩ := Option.bind_eq_some_iff.mp read
        cases same
        obtain ⟨body, quoted, unquoted⟩ := readString_consumes found
        refine ⟨0x22 :: (body ++ [0x22]), ?_, .quoted unquoted⟩
        rw [isQuote, quoted, List.cons_append, List.append_assoc, List.singleton_append]
      · split at read
        · rename_i isBracket
          obtain ⟨⟨items, after⟩, found, same⟩ := Option.bind_eq_some_iff.mp read
          cases same
          obtain ⟨inner, split, balanced⟩ := readItems_consumes each found
          refine ⟨0x5b :: (inner ++ [0x5d]), ?_, .nested .bracket balanced⟩
          rw [isBracket, split, List.cons_append, List.append_assoc, List.singleton_append]
        · split at read
          · rename_i isBrace
            obtain ⟨⟨members, after⟩, found, same⟩ := Option.bind_eq_some_iff.mp read
            cases same
            obtain ⟨inner, split, balanced⟩ := readItems_consumes (readMember_consumes each) found
            refine ⟨0x7b :: (inner ++ [0x7d]), ?_, .nested .brace balanced⟩
            rw [isBrace, split, List.cons_append, List.append_assoc, List.singleton_append]
          · obtain ⟨consumed, split, plain⟩ := readWord_consumes numbers read
            exact ⟨consumed, split, .word plain⟩

theorem readValue_consumes (depth : Nat) : Consumes (readValue numbers depth) := by
  induction depth with
  | zero =>
      intro text value rest read
      cases read
  | succ depth ih =>
      intro text value rest read
      obtain ⟨consumed, split, isText⟩ := readValue_text numbers ih read
      obtain ⟨spaces, spaced, empty⟩ := skipSpace_consumes text
      refine ⟨spaces ++ consumed, ?_, empty.append isText.balanced⟩
      rw [List.append_assoc, ← split]
      exact spaced

/-- A text that is read as a whole: white space around the text of one value. -/
theorem parseJson_text {text : JsString} {value : Json numbers.Number}
    (parsed : parseJson numbers text = some value) :
    ∃ consumed behind, skipSpace text = consumed ++ behind ∧ ValueText consumed ∧
      skipSpace behind = [] := by
  obtain ⟨⟨found, behind⟩, read, whole⟩ := Option.bind_eq_some_iff.mp parsed
  dsimp only at whole
  split at whole
  · rename_i isEnd
    obtain ⟨consumed, split, isText⟩ := readValue_text numbers (readValue_consumes numbers _) read
    exact ⟨consumed, behind, split, isText, List.isEmpty_iff.mp isEnd⟩
  · cases whole

end Values

end Reflection
