/-
The first JSON value of a model response.

The end of an object, an array or a string is found by counting delimiters, the end of a word or a
number by a pattern; only what lies before it is parsed. Counting over a balanced text leaves the
count as it was, and what the reader consumes is balanced, so both ends are the same.
-/

import Reflection.Server.AsciiJson
import Reflection.Server.NumberPattern

namespace Reflection

open JsString JsObject

/-- The message of a SyntaxError; none is the runtime's own, of `JSON.parse`. -/
structure SyntaxError where
  message : Option String
deriving DecidableEq

/-! ### Delimiters -/

def isOpening (unit : UInt16) : Bool := unit == 0x7b || unit == 0x5b

def isClosing (unit : UInt16) : Bool := unit == 0x7d || unit == 0x5d

/-- The loop over an object or an array: the stack of what is open, whether it is inside a string
and behind a reverse solidus, and the index of the next unit. -/
def scanNested : List UInt16 → Bool → Bool → Nat → JsString → Except SyntaxError Nat
  | _, _, _, _, [] => .error ⟨some "unterminated JSON value"⟩
  | stack, inString, escaped, index, character :: rest =>
      if inString then
        if escaped then scanNested stack inString false (index + 1) rest
        else if character = 0x5c then scanNested stack inString true (index + 1) rest
        else if character = 0x22 then scanNested stack false escaped (index + 1) rest
        else scanNested stack inString escaped (index + 1) rest
      else if character = 0x22 then scanNested stack true escaped (index + 1) rest
      else if isOpening character then
        scanNested (character :: stack) inString escaped (index + 1) rest
      else if isClosing character then
        match stack with
        | [] => .error ⟨some "mismatched JSON delimiter"⟩
        | opening :: outer =>
            if (opening = 0x7b ∧ character ≠ 0x7d) ∨ (opening = 0x5b ∧ character ≠ 0x5d) then
              .error ⟨some "mismatched JSON delimiter"⟩
            else if outer.isEmpty then .ok (index + 1)
            else scanNested outer inString escaped (index + 1) rest
      else scanNested stack inString escaped (index + 1) rest

/-- The loop over a string. -/
def scanString : Bool → Nat → JsString → Except SyntaxError Nat
  | _, _, [] => .error ⟨some "unterminated JSON string"⟩
  | escaped, index, character :: rest =>
      if escaped then scanString false (index + 1) rest
      else if character = 0x5c then scanString true (index + 1) rest
      else if character = 0x22 then .ok (index + 1)
      else scanString escaped (index + 1) rest

/-! ### The parser -/

section Parser

variable (numbers : Numbers)

structure ParsedJsonValue where
  value : Json numbers.Number
  endIndex : Nat

/-- Where the value ends that starts at an index with the given text behind it. -/
def valueEnd (startIndex : Nat) : JsString → Except SyntaxError Nat
  | [] => .error ⟨some "model response contains no JSON value"⟩
  | first :: rest =>
      if isOpening first then scanNested [first] false false (startIndex + 1) rest
      else if first = 0x22 then scanString false (startIndex + 1) rest
      else
        match matchPrimitive (first :: rest) with
        | none => .error ⟨some "invalid JSON value"⟩
        | some primitive => .ok (startIndex + primitive.length)

def parseFirstJsonValue (content : JsString) : Except SyntaxError (ParsedJsonValue numbers) := do
  -- `content.search(/\S/u)`; where nothing is found nothing is left behind the white space
  let startIndex := (content.takeWhile isWhiteSpace).length
  let endIndex ← valueEnd startIndex (content.drop startIndex)
  match parseJson numbers ((content.take endIndex).drop startIndex) with
  | none => .error ⟨none⟩
  | some value =>
      .ok
        { value := value
          endIndex := endIndex }

end Parser

/-! ### Counting over a balanced text -/

theorem isPlain_iff {unit : UInt16} : isPlain unit = true ↔
    unit ≠ 0x22 ∧ isOpening unit = false ∧ isClosing unit = false := by
  simp only [isPlain, isOpening, isClosing, Bool.not_eq_true', ← Bool.not_eq_true,
    List.contains_iff_mem, List.mem_cons, List.not_mem_nil, or_false, not_or, Bool.or_eq_true,
    beq_iff_eq]
  tauto

section Scan

variable (stack : List UInt16) (index : Nat) (rest : JsString)

theorem scanNested_unquoted {body : JsString} (unquoted : Unquoted body) :
    scanNested stack true false index (body ++ rest) =
      scanNested stack true false (index + body.length) rest := by
  induction unquoted generalizing index with
  | nil => rfl
  | @plain unit body notQuote notBackslash behind ih =>
      have step : scanNested stack true false index (unit :: (body ++ rest)) =
          scanNested stack true false (index + 1) (body ++ rest) := by
        rw [scanNested.eq_def]
        dsimp only
        rw [if_pos rfl, if_neg (by decide), if_neg notBackslash, if_neg notQuote]
      rw [List.cons_append, step, ih, List.length_cons, Nat.add_assoc, Nat.add_comm 1]
  | @escape unit body behind ih =>
      have step : scanNested stack true false index (0x5c :: unit :: (body ++ rest)) =
          scanNested stack true false (index + 1 + 1) (body ++ rest) := rfl
      rw [List.cons_append, List.cons_append, step, ih, List.length_cons, List.length_cons]
      congr 1
      omega

theorem scanString_unquoted {body : JsString} (unquoted : Unquoted body) :
    scanString false index (body ++ rest) = scanString false (index + body.length) rest := by
  induction unquoted generalizing index with
  | nil => rfl
  | plain notQuote notBackslash behind ih =>
      rw [List.cons_append, scanString, if_neg (by decide), if_neg notBackslash, if_neg notQuote, ih,
        List.length_cons, Nat.add_assoc, Nat.add_comm 1]
  | @escape unit body behind ih =>
      have step : scanString false index (0x5c :: unit :: (body ++ rest)) =
          scanString false (index + 1 + 1) (body ++ rest) := rfl
      rw [List.cons_append, List.cons_append, step, ih, List.length_cons, List.length_cons]
      congr 1
      omega

/-- A closing delimiter of the last opening one. -/
theorem scanNested_close {opening closing : UInt16} (isPair : Matching opening closing) :
    scanNested (opening :: stack) false false index (closing :: rest) =
      if stack.isEmpty then .ok (index + 1) else scanNested stack false false (index + 1) rest := by
  cases isPair with
  | bracket => rfl
  | brace => rfl

theorem scanNested_balanced {text : JsString} (balanced : Balanced text) (opened : stack ≠ []) :
    scanNested stack false false index (text ++ rest) =
      scanNested stack false false (index + text.length) rest := by
  induction balanced generalizing stack index rest with
  | nil => rfl
  | @plain unit behind isPlain _ ih =>
      obtain ⟨notQuote, notOpening, notClosing⟩ := isPlain_iff.mp isPlain
      have step : scanNested stack false false index (unit :: (behind ++ rest)) =
          scanNested stack false false (index + 1) (behind ++ rest) := by
        rw [scanNested.eq_def]
        dsimp only
        rw [if_neg (by decide), if_neg notQuote, notOpening, notClosing, if_neg (by decide),
          if_neg (by decide)]
      rw [List.cons_append, step, ih _ _ _ opened, List.length_cons, Nat.add_assoc, Nat.add_comm 1]
  | @quoted body behind inside _ ih =>
      have entered : scanNested stack false false index (0x22 :: (body ++ 0x22 :: behind) ++ rest) =
          scanNested stack true false (index + 1) (body ++ 0x22 :: (behind ++ rest)) := by
        rw [List.cons_append, List.append_assoc, List.cons_append]
        rfl
      have left : scanNested stack true false (index + 1 + body.length) (0x22 :: (behind ++ rest)) =
          scanNested stack false false (index + 1 + body.length + 1) (behind ++ rest) := rfl
      rw [entered, scanNested_unquoted _ _ _ inside, left, ih _ _ _ opened]
      congr 1
      simp only [List.length_cons, List.length_append]
      omega
  | @nested opening closing inner behind isPair _ _ innerIh ih =>
      have entered : scanNested stack false false index (opening :: (inner ++ closing :: behind) ++ rest) =
          scanNested (opening :: stack) false false (index + 1)
            (inner ++ closing :: (behind ++ rest)) := by
        rw [List.cons_append, List.append_assoc, List.cons_append]
        cases isPair with
        | bracket => rfl
        | brace => rfl
      have isOpen : ¬stack.isEmpty = true := fun empty => opened (List.isEmpty_iff.mp empty)
      rw [entered, innerIh _ _ _ (List.cons_ne_nil _ _), scanNested_close _ _ _ isPair, if_neg isOpen,
        ih _ _ _ opened]
      congr 1
      simp only [List.length_cons, List.length_append]
      omega

end Scan

/-! ### The end of a value -/

/-- The units an object, an array or a string starts with. -/
def startsContainer (unit : UInt16) : Bool := isOpening unit || unit == 0x22

/-- The end of a value that starts with one of them is where its text ends. -/
theorem valueEnd_container {text : JsString} (isText : ValueText text) {first : UInt16}
    (isFirst : text.head? = some first) (starts : startsContainer first = true) (index : Nat)
    (rest : JsString) : valueEnd index (text ++ rest) = .ok (index + text.length) := by
  cases isText with
  | @quoted body inside =>
      have entered : valueEnd index (0x22 :: (body ++ [0x22]) ++ rest) =
          scanString false (index + 1) (body ++ 0x22 :: rest) := by
        rw [List.cons_append, List.append_assoc, List.singleton_append]
        rfl
      have left : scanString false (index + 1 + body.length) (0x22 :: rest) =
          .ok (index + 1 + body.length + 1) := rfl
      rw [entered, scanString_unquoted _ _ inside, left]
      congr 1
      simp only [List.length_cons, List.length_append, List.length_nil]
      omega
  | @nested opening closing inner isPair inside =>
      have entered : valueEnd index (opening :: (inner ++ [closing]) ++ rest) =
          scanNested [opening] false false (index + 1) (inner ++ closing :: rest) := by
        rw [List.cons_append, List.append_assoc, List.singleton_append]
        cases isPair with
        | bracket => rfl
        | brace => rfl
      rw [entered, scanNested_balanced _ _ _ inside (List.cons_ne_nil _ _), scanNested_close _ _ _ isPair,
        List.isEmpty_nil, if_pos rfl]
      congr 1
      simp only [List.length_cons, List.length_append, List.length_nil]
      omega
  | word each =>
      have plain := isPlain_iff.mp (each first (List.mem_of_mem_head? isFirst))
      simp only [startsContainer, plain.2.1, Bool.false_or, beq_iff_eq] at starts
      exact absurd starts plain.1

/-! ### The parser on a container -/

/-- An object, an array or a string. -/
def Json.isContainer {Number : Type} : Json Number → Bool
  | .string _ => true
  | .array _ => true
  | .object _ => true
  | _ => false

section Containers

variable {numbers : Numbers}

theorem readWord_not_container {text rest : JsString} {value : Json numbers.Number}
    (read : readWord numbers text = some (value, rest)) : value.isContainer = false := by
  unfold readWord at read
  split at read
  · cases read
    rfl
  · split at read
    · cases read
      rfl
    · split at read
      · cases read
        rfl
      · unfold readNumber at read
        dsimp only at read
        split at read
        · cases read
          rfl
        · cases read

/-- The first unit of a text says which values it can be the text of. -/
theorem parseJson_container {first : UInt16} {rest : JsString} {value : Json numbers.Number}
    (shown : isJsonSpace first = false) (parsed : parseJson numbers (first :: rest) = some value) :
    value.isContainer = startsContainer first := by
  obtain ⟨⟨found, behind⟩, read, whole⟩ := Option.bind_eq_some_iff.mp parsed
  dsimp only at whole
  split at whole
  · cases whole
    rw [readValue, skipSpace_cons rest shown] at read
    dsimp only at read
    split at read
    · rename_i isQuote
      obtain ⟨_, _, same⟩ := Option.bind_eq_some_iff.mp read
      cases same
      rw [isQuote]
      rfl
    · rename_i notQuote
      split at read
      · rename_i isBracket
        obtain ⟨_, _, same⟩ := Option.bind_eq_some_iff.mp read
        cases same
        rw [isBracket]
        rfl
      · rename_i notBracket
        split at read
        · rename_i isBrace
          obtain ⟨_, _, same⟩ := Option.bind_eq_some_iff.mp read
          cases same
          rw [isBrace]
          rfl
        · rename_i notBrace
          rw [readWord_not_container read, startsContainer, isOpening, beq_false_of_ne notQuote,
            beq_false_of_ne notBracket, beq_false_of_ne notBrace]
          rfl
  · cases whole

theorem startsContainer_shown {unit : UInt16} (starts : startsContainer unit = true) :
    isWhiteSpace unit = false ∧ isJsonSpace unit = false := by
  simp only [startsContainer, isOpening, Bool.or_eq_true, beq_iff_eq] at starts
  rcases starts with (rfl | rfl) | rfl <;> decide

theorem takeWhile_whiteSpace {space rest : JsString} (each : ∀ unit ∈ space, isWhiteSpace unit = true)
    {first : UInt16} (isFirst : rest.head? = some first) (shown : isWhiteSpace first = false) :
    (space ++ rest).takeWhile isWhiteSpace = space := by
  rw [List.takeWhile_append_of_pos each]
  cases rest with
  | nil => cases isFirst
  | cons head behind =>
      cases isFirst
      rw [List.takeWhile_cons, shown]
      exact List.append_nil space

/-- The text of a container behind white space is all that is parsed. -/
theorem parseFirstJsonValue_container {space text : JsString} {value : Json numbers.Number}
    (each : ∀ unit ∈ space, isWhiteSpace unit = true) (isText : ValueText text) {first : UInt16}
    (isFirst : text.head? = some first) (starts : startsContainer first = true)
    (parsed : parseJson numbers text = some value) (rest : JsString) :
    parseFirstJsonValue numbers (space ++ (text ++ rest)) =
      .ok
        { value := value
          endIndex := space.length + text.length } := by
  have isHead : (text ++ rest).head? = some first := by
    rw [List.head?_append, isFirst]
    rfl
  have ended : valueEnd space.length (text ++ rest) = .ok (space.length + text.length) :=
    valueEnd_container isText isFirst starts space.length rest
  have slice : ((space ++ (text ++ rest)).take (space.length + text.length)).drop space.length = text := by
    rw [List.take_length_add_append, List.drop_left, List.take_left]
  rw [parseFirstJsonValue, takeWhile_whiteSpace each isHead (startsContainer_shown starts).1,
    List.drop_left, ended, except_ok_bind, slice, parsed]

/-- No white space around a text. -/
structure Unpadded (text : JsString) : Prop where
  front : ∀ unit, text.head? = some unit → isJsonSpace unit = false
  behind : ∀ unit, text.getLast? = some unit → isJsonSpace unit = false

/-- An unpadded text that parses is the text of a value alone. -/
theorem Unpadded.valueText {text : JsString} (unpadded : Unpadded text) {value : Json numbers.Number}
    (parsed : parseJson numbers text = some value) : ValueText text := by
  obtain ⟨consumed, behind, split, isText, empty⟩ := parseJson_text numbers parsed
  have noSpace : skipSpace text = text := by
    cases text with
    | nil => rfl
    | cons head rest => exact skipSpace_cons rest (unpadded.front head rfl)
  rw [noSpace] at split
  have nothing : behind = [] := by
    cases last : behind.getLast? with
    | none => exact List.getLast?_eq_none_iff.mp last
    | some unit =>
        have isSpace := List.dropWhile_eq_nil_iff.mp empty unit (List.mem_of_getLast? last)
        have isLast : text.getLast? = some unit := by
          rw [split, List.getLast?_append, last]
          rfl
        rw [unpadded.behind unit isLast] at isSpace
        cases isSpace
  rw [nothing, List.append_nil] at split
  rw [split]
  exact isText

/-- An unpadded text of a container starts like one. -/
theorem Unpadded.starts {text : JsString} (unpadded : Unpadded text) {value : Json numbers.Number}
    (parsed : parseJson numbers text = some value) (container : value.isContainer = true) :
    ∃ first, text.head? = some first ∧ startsContainer first = true := by
  cases text with
  | nil => cases parsed
  | cons first rest =>
      refine ⟨first, rfl, ?_⟩
      rw [← parseJson_container (unpadded.front first rfl) parsed]
      exact container

/-- The compact text of a container is unpadded. -/
theorem compactAsciiJson_unpadded {value : Json numbers.Number} (container : value.isContainer = true) :
    Unpadded (compactAsciiJson numbers value) := by
  have wrapped : ∃ first inner last, stringify numbers value = first :: (inner ++ [last]) ∧
      first ≤ 0x7f ∧ last ≤ 0x7f ∧ isJsonSpace first = false ∧ isJsonSpace last = false := by
    cases value with
    | string value => exact ⟨0x22, _, 0x22, rfl, by decide, by decide, rfl, rfl⟩
    | array items => exact ⟨0x5b, _, 0x5d, stringify_array items, by decide, by decide, rfl, rfl⟩
    | object entries => exact ⟨0x7b, _, 0x7d, stringify_object entries, by decide, by decide, rfl, rfl⟩
    | _ => cases container
  obtain ⟨first, inner, last, isText, lowFirst, lowLast, shownFirst, shownLast⟩ := wrapped
  have compact : compactAsciiJson numbers value = first :: (asciiText inner ++ [last]) := by
    rw [compactAsciiJson, isText, asciiText_cons_low lowFirst, asciiText_append,
      asciiText_cons_low lowLast, asciiText_nil]
  rw [compact]
  constructor
  · intro unit isHead
    cases isHead
    exact shownFirst
  · intro unit isLast
    rw [List.getLast?_cons, List.getLast?_append] at isLast
    cases isLast
    exact shownLast

end Containers

/-! ### What a result says -/

theorem scanNested_bounds {stack : List UInt16} {inString escaped : Bool} {index endIndex : Nat}
    {text : JsString} (found : scanNested stack inString escaped index text = .ok endIndex) :
    index < endIndex ∧ endIndex ≤ index + text.length := by
  induction text generalizing stack inString escaped index with
  | nil => cases found
  | cons character rest ih =>
      have step : ∀ {stack : List UInt16} {inString escaped : Bool},
          scanNested stack inString escaped (index + 1) rest = .ok endIndex →
            index < endIndex ∧ endIndex ≤ index + (character :: rest).length := by
        intro stack inString escaped later
        have bounds := ih later
        rw [List.length_cons]
        omega
      rw [scanNested.eq_def] at found
      dsimp only at found
      split at found
      · split at found
        · exact step found
        · split at found
          · exact step found
          · split at found
            · exact step found
            · exact step found
      · split at found
        · exact step found
        · split at found
          · exact step found
          · split at found
            · split at found
              · cases found
              · split at found
                · cases found
                · split at found
                  · cases found
                    rw [List.length_cons]
                    omega
                  · exact step found
            · exact step found

theorem scanString_bounds {escaped : Bool} {index endIndex : Nat} {text : JsString}
    (found : scanString escaped index text = .ok endIndex) :
    index < endIndex ∧ endIndex ≤ index + text.length := by
  induction text generalizing escaped index with
  | nil => cases found
  | cons character rest ih =>
      have step : ∀ {escaped : Bool}, scanString escaped (index + 1) rest = .ok endIndex →
          index < endIndex ∧ endIndex ≤ index + (character :: rest).length := by
        intro escaped later
        have bounds := ih later
        rw [List.length_cons]
        omega
      rw [scanString] at found
      split at found
      · exact step found
      · split at found
        · exact step found
        · split at found
          · cases found
            rw [List.length_cons]
            omega
          · exact step found

/-- What is matched starts the text, and is a word or the longest literal. -/
theorem matchPrimitive_sound {text primitive : JsString} (matched : matchPrimitive text = some primitive) :
    primitive <+: text ∧ (primitive = ofString "true" ∨ primitive = ofString "false" ∨
      primitive = ofString "null" ∨ (isNumberLiteral primitive = true ∧ ∀ token : JsString,
        token <+: text → isNumberLiteral token = true → token.length ≤ primitive.length)) := by
  unfold matchPrimitive at matched
  split at matched
  · rename_i isPrefix
    cases matched
    exact ⟨List.isPrefixOf_iff_prefix.mp isPrefix, .inl rfl⟩
  · split at matched
    · rename_i isPrefix
      cases matched
      exact ⟨List.isPrefixOf_iff_prefix.mp isPrefix, .inr (.inl rfl)⟩
    · split at matched
      · rename_i isPrefix
        cases matched
        exact ⟨List.isPrefixOf_iff_prefix.mp isPrefix, .inr (.inr (.inl rfl))⟩
      · obtain ⟨literal, isPrefix⟩ := matchNumber_literal matched
        refine ⟨isPrefix, .inr (.inr (.inr ⟨literal, fun token starts isToken => ?_⟩))⟩
        obtain ⟨rest, rfl⟩ := starts
        obtain ⟨other, same, longest⟩ := matchNumber_longest isToken rest
        rw [matched] at same
        cases same
        exact longest

/-- The end of a value: a container ends behind its first unit, and what is no container is matched. -/
theorem valueEnd_sound {index endIndex : Nat} {text : JsString}
    (found : valueEnd index text = .ok endIndex) :
    ∃ first rest, text = first :: rest ∧ endIndex ≤ index + text.length ∧
      ((startsContainer first = true ∧ index < endIndex) ∨
        ∃ primitive, matchPrimitive text = some primitive ∧ endIndex = index + primitive.length) := by
  cases text with
  | nil => cases found
  | cons first rest =>
      refine ⟨first, rest, rfl, ?_⟩
      rw [List.length_cons]
      rw [valueEnd] at found
      split at found
      · rename_i opening
        have bounds := scanNested_bounds found
        refine ⟨by omega, .inl ⟨?_, by omega⟩⟩
        rw [startsContainer, opening]
        rfl
      · split at found
        · rename_i isQuote
          have bounds := scanString_bounds found
          refine ⟨by omega, .inl ⟨?_, by omega⟩⟩
          rw [isQuote]
          rfl
        · split at found
          · cases found
          · rename_i primitive matched
            cases found
            have isPrefix := (matchPrimitive_sound matched).1.length_le
            rw [List.length_cons] at isPrefix
            exact ⟨by omega, .inr ⟨primitive, matched, rfl⟩⟩

section Results

variable {numbers : Numbers}

/-- A word is not read as a number. -/
theorem parseJson_word_not_number {word : JsString}
    (isWord : word = ofString "true" ∨ word = ofString "false" ∨ word = ofString "null")
    {number : numbers.Number} : parseJson numbers word ≠ some (.number number) := by
  rcases isWord with rfl | rfl | rfl
  · have isTrue : parseJson numbers (ofString "true") = some (.bool true) :=
      parseJson_stringify (.bool true)
    rw [isTrue]
    exact nofun
  · have isFalse : parseJson numbers (ofString "false") = some (.bool false) :=
      parseJson_stringify (.bool false)
    rw [isFalse]
    exact nofun
  · have isNull : parseJson numbers (ofString "null") = some .null := parseJson_stringify .null
    rw [isNull]
    exact nofun

/-- The consumed slice is a text of the value, and the longest literal where that is a number. -/
theorem parseFirstJsonValue_sound {content : JsString} {result : ParsedJsonValue numbers}
    (parsed : parseFirstJsonValue numbers content = .ok result) :
    ∃ space slice rest, content = space ++ (slice ++ rest) ∧
      (∀ unit ∈ space, isWhiteSpace unit = true) ∧
      result.endIndex = space.length + slice.length ∧
      parseJson numbers slice = some result.value ∧
      ∀ number, result.value = .number number → isNumberLiteral slice = true ∧
        ∀ token : JsString, token <+: slice ++ rest → isNumberLiteral token = true →
          token.length ≤ slice.length := by
  obtain ⟨endIndex, isEnd, later⟩ := except_bind_ok parsed
  let space := content.takeWhile isWhiteSpace
  let text := content.drop space.length
  have whole : content = space ++ text :=
    (List.prefix_iff_eq_append.mp (List.takeWhile_prefix isWhiteSpace)).symm
  have atEnd : valueEnd space.length text = .ok endIndex := isEnd
  obtain ⟨first, rest, isText, bound, kind⟩ := valueEnd_sound atEnd
  have slice : (content.take endIndex).drop space.length = text.take (endIndex - space.length) :=
    List.drop_take
  have start : space.length ≤ endIndex := by
    rcases kind with ⟨_, after⟩ | ⟨primitive, _, isLength⟩
    · exact Nat.le_of_lt after
    · rw [isLength]
      exact Nat.le_add_right _ _
  split at later
  · cases later
  · rename_i value isValue
    cases later
    have isSlice : parseJson numbers (text.take (endIndex - space.length)) = some value := slice ▸ isValue
    refine ⟨space, text.take (endIndex - space.length), text.drop (endIndex - space.length), ?_,
      fun unit inside => List.mem_takeWhile_imp inside, ?_, isSlice, fun number isNumber => ?_⟩
    · rw [List.take_append_drop]
      exact whole
    · rw [List.length_take]
      change endIndex = _
      omega
    · rw [List.take_append_drop]
      change value = .number number at isNumber
      rw [isNumber] at isSlice
      rcases kind with ⟨starts, after⟩ | ⟨primitive, matched, isLength⟩
      · obtain ⟨length, isLength⟩ : ∃ length, endIndex - space.length = length + 1 :=
          ⟨endIndex - space.length - 1, by omega⟩
        rw [isLength, isText, List.take_succ_cons] at isSlice
        have container := parseJson_container (startsContainer_shown starts).2 isSlice
        rw [starts] at container
        cases container
      · obtain ⟨isPrefix, kinds⟩ := matchPrimitive_sound matched
        have isPrimitive : text.take (endIndex - space.length) = primitive := by
          rw [isLength, Nat.add_sub_cancel_left]
          exact (List.prefix_iff_eq_take.mp isPrefix).symm
        rw [isPrimitive] at isSlice ⊢
        rcases kinds with isTrue | isFalse | isNull | longest
        · exact absurd isSlice (parseJson_word_not_number (.inl isTrue))
        · exact absurd isSlice (parseJson_word_not_number (.inr (.inl isFalse)))
        · exact absurd isSlice (parseJson_word_not_number (.inr (.inr isNull)))
        · exact longest

end Results

/-- The parser returns exactly the first value: the text of a container behind white space and in
front of anything, a text of its value whenever it returns, and the compact text of a container. -/
theorem parseFirstJsonValue_exact (numbers : Numbers) :
    (∀ (space text rest : JsString) (value : Json numbers.Number),
      (∀ unit ∈ space, isWhiteSpace unit = true) → Unpadded text → parseJson numbers text = some value →
        value.isContainer = true →
          parseFirstJsonValue numbers (space ++ (text ++ rest)) =
            .ok
              { value := value
                endIndex := space.length + text.length }) ∧
    (∀ (content : JsString) (result : ParsedJsonValue numbers),
      parseFirstJsonValue numbers content = .ok result →
        ∃ space slice rest, content = space ++ (slice ++ rest) ∧
          (∀ unit ∈ space, isWhiteSpace unit = true) ∧
          result.endIndex = space.length + slice.length ∧
          parseJson numbers slice = some result.value ∧
          ∀ number, result.value = .number number → isNumberLiteral slice = true ∧
            ∀ token : JsString, token <+: slice ++ rest → isNumberLiteral token = true →
              token.length ≤ slice.length) ∧
    ∀ (value : Json numbers.Number) (rest : JsString), value.Valid →
      AsciiUnits (compactAsciiJson numbers value) ∧
      parseJson numbers (compactAsciiJson numbers value) = some value ∧
      (value.isContainer = true →
        parseFirstJsonValue numbers (compactAsciiJson numbers value ++ rest) =
          .ok
            { value := value
              endIndex := (compactAsciiJson numbers value).length }) := by
  refine ⟨?_, fun content result parsed => parseFirstJsonValue_sound parsed, ?_⟩
  · intro space text rest value each unpadded parsed container
    obtain ⟨first, isFirst, starts⟩ := unpadded.starts parsed container
    exact parseFirstJsonValue_container each (unpadded.valueText parsed) isFirst starts parsed rest
  · intro value rest valid
    have parsed := parseJson_compactAsciiJson numbers valid
    refine ⟨asciiText_ascii _, parsed, fun container => ?_⟩
    have unpadded := compactAsciiJson_unpadded container
    obtain ⟨first, isFirst, starts⟩ := unpadded.starts parsed container
    have noSpace : ∀ unit ∈ ([] : JsString), isWhiteSpace unit = true := fun _ inside => (nomatch inside)
    have found := parseFirstJsonValue_container noSpace (unpadded.valueText parsed) isFirst starts parsed rest
    rw [List.length_nil, Nat.zero_add, List.nil_append] at found
    exact found

end Reflection
