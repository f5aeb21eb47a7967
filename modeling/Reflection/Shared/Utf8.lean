/-
UTF-8 encoding of strings.

A string without lone surrogates is read back from its bytes, so its bytes determine it. A
lone surrogate is written as U+FFFD, which is where that fails.
-/

import Reflection.Shared.JsString

namespace Reflection

namespace JsString

def continuation (value : Nat) : UInt8 := UInt8.ofNat (0x80 + value % 64)

/-- Two, three and four bytes. -/
def twoBytes (point : Nat) : List UInt8 := [UInt8.ofNat (0xc0 + point / 64), continuation point]

def threeBytes (point : Nat) : List UInt8 :=
  [UInt8.ofNat (0xe0 + point / 4096), continuation (point / 64), continuation point]

def fourBytes (point : Nat) : List UInt8 :=
  [UInt8.ofNat (0xf0 + point / 262144), continuation (point / 4096), continuation (point / 64),
    continuation point]

/-- The code point of a surrogate pair. -/
def pairPoint (first second : UInt16) : Nat :=
  0x10000 + (first.toNat - 0xd800) * 0x400 + (second.toNat - 0xdc00)

/-- `Buffer.from(value, "utf8")`. -/
def utf8 : JsString → List UInt8
  | [] => []
  | first :: rest =>
      if first < 0x80 then UInt8.ofNat first.toNat :: utf8 rest
      else if first < 0x800 then twoBytes first.toNat ++ utf8 rest
      else
        match rest with
        | second :: after =>
            if isHighSurrogate first && isLowSurrogate second then
              fourBytes (pairPoint first second) ++ utf8 after
            else
              threeBytes (if isHighSurrogate first || isLowSurrogate first then 0xfffd
                else first.toNat) ++ utf8 (second :: after)
        | [] =>
            threeBytes (if isHighSurrogate first || isLowSurrogate first then 0xfffd
              else first.toNat)

/-- No lone surrogate. -/
def isWellFormed : JsString → Bool
  | [] => true
  | first :: rest =>
      if isHighSurrogate first then
        match rest with
        | second :: after => isLowSurrogate second && isWellFormed after
        | [] => false
      else !isLowSurrogate first && isWellFormed rest

/-- The decoder that reads the bytes of a string without lone surrogates. -/
def decodeUtf8 : List UInt8 → JsString
  | [] => []
  | first :: rest =>
      if first < 0x80 then UInt16.ofNat first.toNat :: decodeUtf8 rest
      else if first < 0xe0 then
        match rest with
        | second :: rest =>
            UInt16.ofNat ((first.toNat - 0xc0) * 64 + (second.toNat - 0x80)) :: decodeUtf8 rest
        | [] => []
      else if first < 0xf0 then
        match rest with
        | second :: third :: rest =>
            UInt16.ofNat ((first.toNat - 0xe0) * 4096 + (second.toNat - 0x80) * 64 +
              (third.toNat - 0x80)) :: decodeUtf8 rest
        | _ => []
      else
        match rest with
        | second :: third :: fourth :: rest =>
            let point := (first.toNat - 0xf0) * 262144 + (second.toNat - 0x80) * 4096 +
              (third.toNat - 0x80) * 64 + (fourth.toNat - 0x80)
            UInt16.ofNat (0xd800 + (point - 0x10000) / 0x400) ::
              UInt16.ofNat (0xdc00 + (point - 0x10000) % 0x400) :: decodeUtf8 rest
        | _ => []

/-! ### Reading back -/

private theorem byte_toNat {value : Nat} (small : value < 256) : (UInt8.ofNat value).toNat = value := by
  simp only [UInt8.toNat_ofNat']
  omega

private theorem continuation_toNat (value : Nat) : (continuation value).toNat = 0x80 + value % 64 :=
  byte_toNat (by omega)

private theorem byte_lt (bound : Nat) {value : Nat} (small : value < 256) {limit : UInt8}
    (isLimit : limit.toNat = bound) : UInt8.ofNat value < limit ↔ value < bound := by
  rw [UInt8.lt_iff_toNat_lt, byte_toNat small, isLimit]

theorem decodeUtf8_one {value : Nat} (small : value < 0x80) (rest : List UInt8) :
    decodeUtf8 (UInt8.ofNat value :: rest) = UInt16.ofNat value :: decodeUtf8 rest := by
  have lead : value < 256 := by omega
  have inOne : UInt8.ofNat value < 0x80 := (byte_lt 0x80 lead rfl).mpr small
  rw [decodeUtf8.eq_def]
  refine (if_pos inOne).trans ?_
  rw [byte_toNat lead]

theorem decodeUtf8_two {value : Nat} (least : 0x80 ≤ value) (small : value < 0x800) (rest : List UInt8) :
    decodeUtf8 (twoBytes value ++ rest) = UInt16.ofNat value :: decodeUtf8 rest := by
  have lead : 0xc0 + value / 64 < 256 := by omega
  have notOne : ¬ UInt8.ofNat (0xc0 + value / 64) < 0x80 := by
    rw [byte_lt 0x80 lead rfl]
    omega
  have inTwo : UInt8.ofNat (0xc0 + value / 64) < 0xe0 := by
    rw [byte_lt 0xe0 lead rfl]
    omega
  have point : ((UInt8.ofNat (0xc0 + value / 64)).toNat - 0xc0) * 64 +
      ((continuation value).toNat - 0x80) = value := by
    rw [byte_toNat lead, continuation_toNat]
    omega
  rw [decodeUtf8.eq_def]
  refine ((if_neg notOne).trans (if_pos inTwo)).trans ?_
  change UInt16.ofNat _ :: decodeUtf8 rest = _
  rw [point]

theorem decodeUtf8_three {value : Nat} (least : 0x800 ≤ value) (small : value < 0x10000)
    (rest : List UInt8) :
    decodeUtf8 (threeBytes value ++ rest) = UInt16.ofNat value :: decodeUtf8 rest := by
  have lead : 0xe0 + value / 4096 < 256 := by omega
  have notOne : ¬ UInt8.ofNat (0xe0 + value / 4096) < 0x80 := by
    rw [byte_lt 0x80 lead rfl]
    omega
  have notTwo : ¬ UInt8.ofNat (0xe0 + value / 4096) < 0xe0 := by
    rw [byte_lt 0xe0 lead rfl]
    omega
  have inThree : UInt8.ofNat (0xe0 + value / 4096) < 0xf0 := by
    rw [byte_lt 0xf0 lead rfl]
    omega
  have point : ((UInt8.ofNat (0xe0 + value / 4096)).toNat - 0xe0) * 4096 +
      ((continuation (value / 64)).toNat - 0x80) * 64 + ((continuation value).toNat - 0x80) = value := by
    rw [byte_toNat lead, continuation_toNat, continuation_toNat]
    omega
  rw [decodeUtf8.eq_def]
  refine ((if_neg notOne).trans ((if_neg notTwo).trans (if_pos inThree))).trans ?_
  change UInt16.ofNat _ :: decodeUtf8 rest = _
  rw [point]

theorem decodeUtf8_four {value : Nat} (least : 0x10000 ≤ value) (small : value < 0x110000)
    (rest : List UInt8) :
    decodeUtf8 (fourBytes value ++ rest) =
      UInt16.ofNat (0xd800 + (value - 0x10000) / 0x400) ::
        UInt16.ofNat (0xdc00 + (value - 0x10000) % 0x400) :: decodeUtf8 rest := by
  have lead : 0xf0 + value / 262144 < 256 := by omega
  have notOne : ¬ UInt8.ofNat (0xf0 + value / 262144) < 0x80 := by
    rw [byte_lt 0x80 lead rfl]
    omega
  have notTwo : ¬ UInt8.ofNat (0xf0 + value / 262144) < 0xe0 := by
    rw [byte_lt 0xe0 lead rfl]
    omega
  have notThree : ¬ UInt8.ofNat (0xf0 + value / 262144) < 0xf0 := by
    rw [byte_lt 0xf0 lead rfl]
    omega
  have point : ((UInt8.ofNat (0xf0 + value / 262144)).toNat - 0xf0) * 262144 +
      ((continuation (value / 4096)).toNat - 0x80) * 4096 +
        ((continuation (value / 64)).toNat - 0x80) * 64 + ((continuation value).toNat - 0x80) = value := by
    rw [byte_toNat lead, continuation_toNat, continuation_toNat, continuation_toNat]
    omega
  rw [decodeUtf8.eq_def]
  refine ((if_neg notOne).trans ((if_neg notTwo).trans (if_neg notThree))).trans ?_
  change UInt16.ofNat (0xd800 + (_ - 0x10000) / 0x400) ::
    UInt16.ofNat (0xdc00 + (_ - 0x10000) % 0x400) :: decodeUtf8 rest = _
  rw [point]

private theorem unit_lt (unit : UInt16) : unit.toNat < 0x10000 := unit.toNat_lt

private theorem unit_lt_iff {unit limit : UInt16} {bound : Nat} (isLimit : limit.toNat = bound) :
    unit < limit ↔ unit.toNat < bound := by
  rw [UInt16.lt_iff_toNat_lt, isLimit]

theorem isHighSurrogate_iff {unit : UInt16} :
    isHighSurrogate unit = true ↔ 0xd800 ≤ unit.toNat ∧ unit.toNat < 0xdc00 := by
  rw [isHighSurrogate, Bool.and_eq_true, decide_eq_true_iff, decide_eq_true_iff, UInt16.le_iff_toNat_le,
    UInt16.lt_iff_toNat_lt]
  exact Iff.rfl

theorem isLowSurrogate_iff {unit : UInt16} :
    isLowSurrogate unit = true ↔ 0xdc00 ≤ unit.toNat ∧ unit.toNat < 0xe000 := by
  rw [isLowSurrogate, Bool.and_eq_true, decide_eq_true_iff, decide_eq_true_iff, UInt16.le_iff_toNat_le,
    UInt16.lt_iff_toNat_lt]
  exact Iff.rfl

/-- What a string without lone surrogates starts with. -/
theorem isWellFormed_cons {first : UInt16} {rest : JsString}
    (wellFormed : isWellFormed (first :: rest) = true) :
    (isHighSurrogate first = true ∧ ∃ second after, rest = second :: after ∧
        isLowSurrogate second = true ∧ isWellFormed after = true) ∨
      (isHighSurrogate first = false ∧ isLowSurrogate first = false ∧ isWellFormed rest = true) := by
  rw [isWellFormed.eq_def] at wellFormed
  dsimp only at wellFormed
  cases high : isHighSurrogate first with
  | true =>
      rw [if_pos high] at wellFormed
      cases rest with
      | nil => cases wellFormed
      | cons second after =>
          exact Or.inl ⟨rfl, second, after, rfl, (Bool.and_eq_true _ _ ▸ wellFormed).1,
            (Bool.and_eq_true _ _ ▸ wellFormed).2⟩
  | false =>
      rw [if_neg (by rw [high]; exact Bool.false_ne_true), Bool.and_eq_true] at wellFormed
      exact Or.inr ⟨rfl, by simpa using wellFormed.1, wellFormed.2⟩

theorem isWellFormed_plain {first : UInt16} {rest : JsString} (notHigh : isHighSurrogate first = false)
    (notLow : isLowSurrogate first = false) (behind : isWellFormed rest = true) :
    isWellFormed (first :: rest) = true := by
  rw [isWellFormed.eq_def]
  dsimp only
  rw [notHigh, notLow]
  exact behind

theorem isWellFormed_pair {first second : UInt16} {after : JsString}
    (high : isHighSurrogate first = true) (low : isLowSurrogate second = true)
    (behind : isWellFormed after = true) : isWellFormed (first :: second :: after) = true := by
  rw [isWellFormed.eq_def]
  dsimp only
  rw [high, low]
  exact behind

/-- A string without lone surrogates is a sequence of plain units and surrogate pairs. -/
@[elab_as_elim]
theorem wellFormed_induction {motive : (value : JsString) → isWellFormed value = true → Prop}
    (nil : motive [] rfl)
    (plain : ∀ first rest (notHigh : isHighSurrogate first = false)
      (notLow : isLowSurrogate first = false) (behind : isWellFormed rest = true),
      motive rest behind → motive (first :: rest) (isWellFormed_plain notHigh notLow behind))
    (pair : ∀ first second after (high : isHighSurrogate first = true)
      (low : isLowSurrogate second = true) (behind : isWellFormed after = true),
      motive after behind → motive (first :: second :: after) (isWellFormed_pair high low behind))
    (value : JsString) (wellFormed : isWellFormed value = true) : motive value wellFormed := by
  induction size : value.length using Nat.strong_induction_on generalizing value with
  | _ size ih =>
      cases value with
      | nil => exact nil
      | cons first rest =>
          rw [List.length_cons] at size
          rcases isWellFormed_cons wellFormed with
            ⟨high, second, after, same, low, behind⟩ | ⟨notHigh, notLow, behind⟩
          · subst same
            rw [List.length_cons] at size
            exact pair first second after high low behind (ih after.length (by omega) after behind rfl)
          · exact plain first rest notHigh notLow behind (ih rest.length (by omega) rest behind rfl)

/-- The bytes of a unit that is no surrogate. -/
def unitBytes (unit : UInt16) : List UInt8 :=
  if unit < 0x80 then [UInt8.ofNat unit.toNat]
  else if unit < 0x800 then twoBytes unit.toNat
  else threeBytes unit.toNat

theorem utf8_plain {first : UInt16} (rest : JsString) (notHigh : isHighSurrogate first = false)
    (notLow : isLowSurrogate first = false) : utf8 (first :: rest) = unitBytes first ++ utf8 rest := by
  rw [utf8.eq_def, unitBytes]
  dsimp only
  by_cases one : first < 0x80
  · rw [if_pos one, if_pos one]
    rfl
  · rw [if_neg one, if_neg one]
    by_cases two : first < 0x800
    · rw [if_pos two, if_pos two]
    · rw [if_neg two, if_neg two, notHigh, notLow]
      cases rest with
      | nil => rfl
      | cons second after => rfl

theorem utf8_pair {first second : UInt16} (after : JsString) (high : isHighSurrogate first = true)
    (low : isLowSurrogate second = true) :
    utf8 (first :: second :: after) = fourBytes (pairPoint first second) ++ utf8 after := by
  have range := isHighSurrogate_iff.mp high
  have notOne : ¬ first < 0x80 := by
    rw [UInt16.lt_iff_toNat_lt]
    change ¬ first.toNat < 0x80
    omega
  have notTwo : ¬ first < 0x800 := by
    rw [UInt16.lt_iff_toNat_lt]
    change ¬ first.toNat < 0x800
    omega
  rw [utf8.eq_def]
  dsimp only
  rw [if_neg notOne, if_neg notTwo, high, low]
  rfl

theorem decodeUtf8_unit {unit : UInt16} (rest : List UInt8) :
    decodeUtf8 (unitBytes unit ++ rest) = unit :: decodeUtf8 rest := by
  have size : unit.toNat < 0x10000 := unit.toNat_lt
  have back : UInt16.ofNat unit.toNat = unit := UInt16.ofNat_toNat
  unfold unitBytes
  by_cases one : unit < 0x80
  · rw [if_pos one, List.singleton_append, decodeUtf8_one (UInt16.lt_iff_toNat_lt.mp one), back]
  · rw [if_neg one]
    have notOne : ¬ unit.toNat < 0x80 := fun small => one (UInt16.lt_iff_toNat_lt.mpr small)
    by_cases two : unit < 0x800
    · rw [if_pos two, decodeUtf8_two (by omega) (UInt16.lt_iff_toNat_lt.mp two), back]
    · have notTwo : ¬ unit.toNat < 0x800 := fun small => two (UInt16.lt_iff_toNat_lt.mpr small)
      rw [if_neg two, decodeUtf8_three (by omega) size, back]

theorem decodeUtf8_pair {first second : UInt16} (rest : List UInt8)
    (high : isHighSurrogate first = true) (low : isLowSurrogate second = true) :
    decodeUtf8 (fourBytes (pairPoint first second) ++ rest) = first :: second :: decodeUtf8 rest := by
  have firstRange := isHighSurrogate_iff.mp high
  have secondRange := isLowSurrogate_iff.mp low
  have least : 0x10000 ≤ pairPoint first second := by
    unfold pairPoint
    omega
  have most : pairPoint first second < 0x110000 := by
    unfold pairPoint
    omega
  have front : 0xd800 + (pairPoint first second - 0x10000) / 0x400 = first.toNat := by
    unfold pairPoint
    omega
  have back : 0xdc00 + (pairPoint first second - 0x10000) % 0x400 = second.toNat := by
    unfold pairPoint
    omega
  rw [decodeUtf8_four least most, front, back, UInt16.ofNat_toNat, UInt16.ofNat_toNat]

/-- A string without lone surrogates is read back from its bytes. -/
theorem decodeUtf8_utf8 {value : JsString} (wellFormed : isWellFormed value = true) :
    decodeUtf8 (utf8 value) = value := by
  induction value, wellFormed using wellFormed_induction with
  | nil => rfl
  | plain first rest notHigh notLow _ ih =>
      rw [utf8_plain rest notHigh notLow, decodeUtf8_unit, ih]
  | pair first second after high low _ ih =>
      rw [utf8_pair after high low, decodeUtf8_pair _ high low, ih]

theorem utf8_injective {one other : JsString} (oneWell : isWellFormed one = true)
    (otherWell : isWellFormed other = true) (same : utf8 one = utf8 other) : one = other := by
  rw [← decodeUtf8_utf8 oneWell, same, decodeUtf8_utf8 otherWell]

theorem utf8_append {value : JsString} (wellFormed : isWellFormed value = true) (rest : JsString) :
    utf8 (value ++ rest) = utf8 value ++ utf8 rest := by
  induction value, wellFormed using wellFormed_induction with
  | nil => rfl
  | plain first behind notHigh notLow _ ih =>
      rw [List.cons_append, utf8_plain _ notHigh notLow, utf8_plain _ notHigh notLow, ih,
        List.append_assoc]
  | pair first second after high low _ ih =>
      rw [List.cons_append, List.cons_append, utf8_pair _ high low, utf8_pair _ high low, ih,
        List.append_assoc]

theorem utf8ByteLength_plain {first : UInt16} (rest : JsString) (notHigh : isHighSurrogate first = false) :
    utf8ByteLength (first :: rest) = (unitBytes first).length + utf8ByteLength rest := by
  rw [utf8ByteLength.eq_def, unitBytes]
  dsimp only
  by_cases one : first < 0x80
  · rw [if_pos one, if_pos one, List.length_singleton, Nat.add_comm]
  · rw [if_neg one, if_neg one]
    by_cases two : first < 0x800
    · rw [if_pos two, if_pos two, Nat.add_comm]
      rfl
    · rw [if_neg two, if_neg two, notHigh]
      cases rest with
      | nil => rfl
      | cons second after => exact Nat.add_comm _ 3

/-- `Buffer.byteLength` counts the bytes. -/
theorem utf8_length {value : JsString} (wellFormed : isWellFormed value = true) :
    (utf8 value).length = utf8ByteLength value := by
  induction value, wellFormed using wellFormed_induction with
  | nil => rfl
  | plain first rest notHigh notLow _ ih =>
      rw [utf8_plain rest notHigh notLow, List.length_append, ih, utf8ByteLength_plain rest notHigh]
  | pair first second after high low _ ih =>
      have range := isHighSurrogate_iff.mp high
      have notOne : ¬ first < 0x80 := by
        rw [UInt16.lt_iff_toNat_lt]
        change ¬ first.toNat < 0x80
        omega
      have notTwo : ¬ first < 0x800 := by
        rw [UInt16.lt_iff_toNat_lt]
        change ¬ first.toNat < 0x800
        omega
      rw [utf8_pair after high low, List.length_append, ih, utf8ByteLength.eq_def (first :: _)]
      dsimp only
      rw [if_neg notOne, if_neg notTwo, high, low]
      exact Nat.add_comm 4 _

theorem isWellFormed_append {value rest : JsString} (wellFormed : isWellFormed value = true)
    (behind : isWellFormed rest = true) : isWellFormed (value ++ rest) = true := by
  induction value, wellFormed using wellFormed_induction with
  | nil => exact behind
  | plain first after notHigh notLow _ ih => exact isWellFormed_plain notHigh notLow ih
  | pair first second after high low _ ih => exact isWellFormed_pair high low ih

end JsString

end Reflection
