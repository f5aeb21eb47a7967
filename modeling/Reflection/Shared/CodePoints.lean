/-
Strings as the database sees them: sequences of code points.

A string without lone surrogates and its sequence of code points are the same text. Both sides
count its code points alike and write it in the same bytes.
-/

import Reflection.Shared.Framing

namespace Reflection

open JsString

/-- TEXT in a UTF-8 database. -/
abbrev PgText := List Char

namespace PgText

def ofString (text : String) : PgText := text.toList

/-- The UTF-16 encoding of a text. -/
def js (text : PgText) : JsString := text.flatMap fun point => encodePoint point.toNat

/-- `convert_to(text, 'UTF8')`. -/
def convertTo (text : PgText) : List UInt8 := text.flatMap String.utf8EncodeChar

/-- `octet_length(text)`. -/
def octetLength (text : PgText) : Nat := text.convertTo.length

/-- `value::TEXT` of a number that is not negative. -/
def ofNat (value : Nat) : PgText := ofString (toString value)

end PgText

/-- The text the database keeps of a string. There is none for a lone surrogate. -/
def JsString.points : JsString → PgText
  | [] => []
  | first :: rest =>
      match rest with
      | second :: after =>
          if isHighSurrogate first && isLowSurrogate second then
            Char.ofNat (pairPoint first second) :: points after
          else Char.ofNat first.toNat :: points (second :: after)
      | [] => [Char.ofNat first.toNat]

/-! ### One code point -/

/-- A code point is below U+10000 and no surrogate, or is written as a pair. -/
theorem encodePoint_char (point : Char) :
    (∃ unit, encodePoint point.toNat = [unit] ∧ unit.toNat = point.toNat ∧
        isHighSurrogate unit = false ∧ isLowSurrogate unit = false) ∨
      ∃ first second, encodePoint point.toNat = [first, second] ∧ isHighSurrogate first = true ∧
        isLowSurrogate second = true ∧ pairPoint first second = point.toNat ∧ 0x10000 ≤ point.toNat := by
  have valid : point.toNat < 0xd800 ∨ 0xdfff < point.toNat ∧ point.toNat < 0x110000 := point.valid
  by_cases small : point.toNat < 0x10000
  · left
    have kept : (UInt16.ofNat point.toNat).toNat = point.toNat := by
      rw [UInt16.toNat_ofNat']
      omega
    refine ⟨UInt16.ofNat point.toNat, if_pos small, kept, ?_, ?_⟩
    · rw [← Bool.not_eq_true, isHighSurrogate_iff, kept]
      omega
    · rw [← Bool.not_eq_true, isLowSurrogate_iff, kept]
      omega
  · right
    have front : (UInt16.ofNat (0xd800 + (point.toNat - 0x10000) / 0x400)).toNat =
        0xd800 + (point.toNat - 0x10000) / 0x400 := by
      rw [UInt16.toNat_ofNat']
      omega
    have back : (UInt16.ofNat (0xdc00 + (point.toNat - 0x10000) % 0x400)).toNat =
        0xdc00 + (point.toNat - 0x10000) % 0x400 := by
      rw [UInt16.toNat_ofNat']
      omega
    refine ⟨_, _, if_neg small, ?_, ?_, ?_, by omega⟩
    · rw [isHighSurrogate_iff, front]
      omega
    · rw [isLowSurrogate_iff, back]
      omega
    · unfold pairPoint
      rw [front, back]
      omega

private theorem ofNat_toNat {value : Nat} (small : value < 0x110000)
    (plain : value < 0xd800 ∨ 0xdfff < value) : (Char.ofNat value).toNat = value := by
  have valid : value.isValidChar := by
    unfold Nat.isValidChar
    omega
  rw [Char.toNat_ofNat, if_pos valid]

/-- The code point of a unit that is no surrogate is written as that unit. -/
theorem encodePoint_unit {unit : UInt16} (notHigh : isHighSurrogate unit = false)
    (notLow : isLowSurrogate unit = false) :
    encodePoint (Char.ofNat unit.toNat).toNat = [unit] := by
  have size : unit.toNat < 0x10000 := unit.toNat_lt
  rw [← Bool.not_eq_true, isHighSurrogate_iff] at notHigh
  rw [← Bool.not_eq_true, isLowSurrogate_iff] at notLow
  rw [ofNat_toNat (by omega) (by omega), encodePoint, if_pos size, UInt16.ofNat_toNat]

theorem encodePoint_pair {first second : UInt16} (high : isHighSurrogate first = true)
    (low : isLowSurrogate second = true) :
    encodePoint (Char.ofNat (pairPoint first second)).toNat = [first, second] := by
  have firstRange := isHighSurrogate_iff.mp high
  have secondRange := isLowSurrogate_iff.mp low
  have value : pairPoint first second =
      0x10000 + (first.toNat - 0xd800) * 0x400 + (second.toNat - 0xdc00) := rfl
  have front : 0xd800 + (pairPoint first second - 0x10000) / 0x400 = first.toNat := by omega
  have back : 0xdc00 + (pairPoint first second - 0x10000) % 0x400 = second.toNat := by omega
  rw [ofNat_toNat (by omega) (by omega), encodePoint, if_neg (by omega), front, back,
    UInt16.ofNat_toNat, UInt16.ofNat_toNat]

/-- Both encoders write a code point in the same bytes. -/
theorem utf8_encodePoint (point : Char) :
    utf8 (encodePoint point.toNat) = String.utf8EncodeChar point := by
  have value : point.val.toNat = point.toNat := rfl
  unfold String.utf8EncodeChar
  rw [value]
  rcases encodePoint_char point with ⟨unit, written, kept, notHigh, notLow⟩ |
    ⟨first, second, written, high, low, paired, large⟩
  · have small : point.toNat ≤ 0xffff := Nat.le_of_lt_succ (kept ▸ unit.toNat_lt)
    have inOne : unit < 0x80 ↔ point.toNat ≤ 0x7f := by
      rw [UInt16.lt_iff_toNat_lt, kept]
      exact Nat.lt_succ_iff
    have inTwo : unit < 0x800 ↔ point.toNat ≤ 0x7ff := by
      rw [UInt16.lt_iff_toNat_lt, kept]
      exact Nat.lt_succ_iff
    rw [written, utf8_plain _ notHigh notLow, unitBytes, kept]
    by_cases one : point.toNat ≤ 0x7f
    · rw [if_pos (inOne.mpr one), if_pos one]
      rfl
    rw [if_neg (mt inOne.mp one), if_neg one]
    by_cases two : point.toNat ≤ 0x7ff
    · have lead : 0xc0 + point.toNat / 64 = point.toNat / 64 % 0x20 + 0xc0 := by omega
      rw [if_pos (inTwo.mpr two), if_pos two, twoBytes, lead, continuation, Nat.add_comm 0x80]
      rfl
    · have lead : 0xe0 + point.toNat / 4096 = point.toNat / 4096 % 0x10 + 0xe0 := by omega
      rw [if_neg (mt inTwo.mp two), if_neg two, if_pos small, threeBytes, lead, continuation, continuation,
        Nat.add_comm 0x80, Nat.add_comm 0x80]
      rfl
  · have valid : point.toNat < 0xd800 ∨ 0xdfff < point.toNat ∧ point.toNat < 0x110000 := point.valid
    have lead : 0xf0 + point.toNat / 262144 = point.toNat / 262144 % 0x08 + 0xf0 := by omega
    rw [written, utf8_pair _ high low, paired, if_neg (by omega), if_neg (by omega), if_neg (by omega),
      fourBytes, lead, continuation, continuation, continuation, Nat.add_comm 0x80, Nat.add_comm 0x80,
      Nat.add_comm 0x80]
    rfl

/-! ### Texts -/

namespace PgText

@[simp] theorem js_nil : js [] = [] := rfl

@[simp] theorem js_cons (point : Char) (rest : PgText) :
    js (point :: rest) = encodePoint point.toNat ++ js rest := rfl

@[simp] theorem js_append (text rest : PgText) : js (text ++ rest) = js text ++ js rest :=
  List.flatMap_append

@[simp] theorem js_ofString (text : String) : js (ofString text) = JsString.ofString text := rfl

@[simp] theorem js_ofNat (value : Nat) : js (ofNat value) = decimal value := rfl

@[simp] theorem js_flatten (parts : List PgText) : js parts.flatten = parts.flatMap js := by
  induction parts with
  | nil => rfl
  | cons part rest ih => rw [List.flatten_cons, js_append, ih, List.flatMap_cons]

theorem encodePoint_wellFormed (point : Char) : isWellFormed (encodePoint point.toNat) = true := by
  rcases encodePoint_char point with ⟨unit, written, _, notHigh, notLow⟩ |
    ⟨first, second, written, high, low, _, _⟩
  · rw [written]
    exact isWellFormed_plain notHigh notLow rfl
  · rw [written]
    exact isWellFormed_pair high low rfl

theorem js_wellFormed (text : PgText) : isWellFormed (js text) = true := by
  induction text with
  | nil => rfl
  | cons point rest ih => exact isWellFormed_append (encodePoint_wellFormed point) ih

/-- The bytes the database hashes are those the server hashes. -/
theorem utf8_js (text : PgText) : utf8 (js text) = text.convertTo := by
  induction text with
  | nil => rfl
  | cons point rest ih =>
      rw [js_cons, utf8_append (encodePoint_wellFormed point), ih, utf8_encodePoint]
      rfl

/-- `octet_length` is `Buffer.byteLength`. -/
theorem octetLength_eq (text : PgText) : text.octetLength = utf8ByteLength (js text) := by
  rw [octetLength, ← utf8_js, utf8_length (js_wellFormed text)]

/-- `char_length` is the server's `codePointLength`. -/
theorem codePointLength_js (text : PgText) : codePointLength (js text) = text.length := by
  induction text with
  | nil => rfl
  | cons point rest ih =>
      rw [js_cons, List.length_cons, ← ih]
      rcases encodePoint_char point with ⟨unit, written, _, notHigh, _⟩ |
        ⟨first, second, written, high, low, _, _⟩
      · rw [written, List.singleton_append]
        cases behind : js rest with
        | nil => rfl
        | cons next after => rw [codePointLength, notHigh, Bool.false_and, if_neg Bool.false_ne_true]
      · rw [written, List.cons_append, List.singleton_append, codePointLength, high, low]
        rfl

end PgText

namespace JsString

theorem points_plain {first : UInt16} (rest : JsString) (notHigh : isHighSurrogate first = false) :
    points (first :: rest) = Char.ofNat first.toNat :: points rest := by
  rw [points.eq_def]
  cases rest with
  | nil => rfl
  | cons second after =>
      dsimp only
      rw [notHigh, Bool.false_and, if_neg Bool.false_ne_true]

theorem points_pair {first second : UInt16} (after : JsString) (high : isHighSurrogate first = true)
    (low : isLowSurrogate second = true) :
    points (first :: second :: after) = Char.ofNat (pairPoint first second) :: points after := by
  rw [points.eq_def]
  dsimp only
  rw [high, low]
  rfl

/-- A string without lone surrogates is the text the database keeps of it. -/
theorem js_points {value : JsString} (wellFormed : isWellFormed value = true) :
    value.points.js = value := by
  induction value, wellFormed using wellFormed_induction with
  | nil => rfl
  | plain first rest notHigh notLow _ ih =>
      rw [points_plain rest notHigh, PgText.js_cons, encodePoint_unit notHigh notLow, ih]
      rfl
  | pair first second after high low _ ih =>
      rw [points_pair after high low, PgText.js_cons, encodePoint_pair high low, ih]
      rfl

theorem points_length {value : JsString} (wellFormed : isWellFormed value = true) :
    value.points.length = codePointLength value := by
  rw [← PgText.codePointLength_js, js_points wellFormed]

theorem points_octetLength {value : JsString} (wellFormed : isWellFormed value = true) :
    value.points.octetLength = utf8ByteLength value := by
  rw [PgText.octetLength_eq, js_points wellFormed]

theorem points_injective {one other : JsString} (oneWell : isWellFormed one = true)
    (otherWell : isWellFormed other = true) (same : one.points = other.points) : one = other := by
  rw [← js_points oneWell, same, js_points otherWell]

theorem codePointLength_le (value : JsString) : codePointLength value ≤ value.length := by
  fun_induction codePointLength value with
  | case1 => exact Nat.le_refl 0
  | case2 => exact Nat.le_refl 1
  | case3 first second rest paired ih =>
      rw [List.length_cons, List.length_cons]
      omega
  | case4 first second rest unpaired ih =>
      rw [List.length_cons]
      omega

theorem length_le_codePointLength (value : JsString) : value.length ≤ 2 * codePointLength value := by
  fun_induction codePointLength value with
  | case1 => exact Nat.le_refl 0
  | case2 => exact Nat.le_succ 1
  | case3 first second rest paired ih =>
      rw [List.length_cons, List.length_cons]
      omega
  | case4 first second rest unpaired ih =>
      rw [List.length_cons]
      omega

theorem codePointLength_cons_le (unit : UInt16) (value : JsString) :
    codePointLength value ≤ codePointLength (unit :: value) ∧
      codePointLength (unit :: value) ≤ codePointLength value + 1 := by
  induction value using codePointLength.induct generalizing unit with
  | case1 => simp [codePointLength]
  | case2 only =>
      simp only [codePointLength]
      split <;> omega
  | case3 first second rest paired ih =>
      have behind := ih second
      rw [codePointLength, if_pos paired, codePointLength]
      have whole : codePointLength (first :: second :: rest) = codePointLength rest + 1 := by
        rw [codePointLength, if_pos paired]
      split <;> omega
  | case4 first second rest unpaired ih =>
      have whole : codePointLength (first :: second :: rest) = codePointLength (second :: rest) + 1 := by
        rw [codePointLength, if_neg unpaired]
      rw [whole, codePointLength]
      split <;> omega

/-- Joining texts joins no more than one surrogate pair. -/
theorem codePointLength_append_le (value other : JsString) :
    codePointLength (value ++ other) ≤ codePointLength value + codePointLength other := by
  fun_induction codePointLength value with
  | case1 => rw [List.nil_append, Nat.zero_add]
  | case2 only =>
      rw [List.singleton_append, Nat.add_comm]
      exact (codePointLength_cons_le only other).2
  | case3 first second rest paired ih =>
      rw [List.cons_append, List.cons_append, codePointLength, if_pos paired]
      omega
  | case4 first second rest unpaired ih =>
      rw [List.cons_append, List.cons_append, codePointLength, if_neg unpaired]
      rw [List.cons_append] at ih
      omega

theorem codePointLength_replicate (count : Nat) {unit : UInt16} (plain : isHighSurrogate unit = false) :
    codePointLength (List.replicate count unit) = count := by
  induction count with
  | zero => rfl
  | succ count ih =>
      cases count with
      | zero => rfl
      | succ count =>
          rw [List.replicate_succ, List.replicate_succ, codePointLength, plain]
          rw [List.replicate_succ] at ih
          rw [if_neg (by simp), ih]

theorem trim_length_le (value : JsString) : (trim value).length ≤ value.length := by
  unfold trim
  exact ((List.rdropWhile_prefix _ _).length_le).trans (List.dropWhile_suffix _).length_le

end JsString

end Reflection
