/-
Strings as the runtime sees them: sequences of UTF-16 code units.

Lengths and slices count code units, comparison is by code unit, and lone
surrogates are ordinary values. Every identifier and every text of the model is
such a string.
-/

import Mathlib

namespace Reflection

abbrev JsString := List UInt16

namespace JsString

/-- The UTF-16 encoding of one code point. -/
def encodePoint (point : Nat) : JsString :=
  if point < 0x10000 then [UInt16.ofNat point]
  else
    [UInt16.ofNat (0xd800 + (point - 0x10000) / 0x400),
      UInt16.ofNat (0xdc00 + (point - 0x10000) % 0x400)]

def ofString (text : String) : JsString :=
  text.toList.flatMap fun point => encodePoint point.toNat

def decimal (value : Nat) : JsString := ofString (toString value)

/-- ECMAScript WhiteSpace and LineTerminator. All of them are single units. -/
def isWhiteSpace (unit : UInt16) : Bool :=
  unit ∈ ([0x09, 0x0a, 0x0b, 0x0c, 0x0d, 0x20, 0xa0, 0x1680, 0x2000, 0x2001, 0x2002, 0x2003,
    0x2004, 0x2005, 0x2006, 0x2007, 0x2008, 0x2009, 0x200a, 0x2028, 0x2029, 0x202f, 0x205f,
    0x3000, 0xfeff] : List UInt16)

def trim (value : JsString) : JsString :=
  (value.dropWhile isWhiteSpace).rdropWhile isWhiteSpace

/-- `value.trim() === value`: no white space at either end. -/
def Trimmed (value : JsString) : Prop := trim value = value

instance (value : JsString) : Decidable (Trimmed value) :=
  inferInstanceAs (Decidable (trim value = value))

/-- `value.trim().length === 0`. -/
def isBlank (value : JsString) : Bool := (trim value).isEmpty

def isHighSurrogate (unit : UInt16) : Bool := 0xd800 ≤ unit && unit < 0xdc00

def isLowSurrogate (unit : UInt16) : Bool := 0xdc00 ≤ unit && unit < 0xe000

def codePointLength : JsString → Nat
  | [] => 0
  | [_] => 1
  | first :: second :: rest =>
      if isHighSurrogate first && isLowSurrogate second then codePointLength rest + 1
      else codePointLength (second :: rest) + 1

/-- `Buffer.byteLength(value, "utf8")`; a lone surrogate is written as U+FFFD. -/
def utf8ByteLength : JsString → Nat
  | [] => 0
  | first :: rest =>
      if first < 0x80 then utf8ByteLength rest + 1
      else if first < 0x800 then utf8ByteLength rest + 2
      else
        match rest with
        | second :: after =>
            if isHighSurrogate first && isLowSurrogate second then utf8ByteLength after + 4
            else utf8ByteLength (second :: after) + 3
        | [] => 3

/-- `${Buffer.byteLength(value, "utf8")}:${value}`. -/
def utf8Frame (value : JsString) : JsString :=
  decimal (utf8ByteLength value) ++ ofString ":" ++ value

private theorem dropWhile_rdropWhile_dropWhile (value : JsString) :
    ((value.dropWhile isWhiteSpace).rdropWhile isWhiteSpace).dropWhile isWhiteSpace =
      (value.dropWhile isWhiteSpace).rdropWhile isWhiteSpace := by
  cases kept : (value.dropWhile isWhiteSpace).rdropWhile isWhiteSpace with
  | nil => rfl
  | cons head tail =>
      -- What remains starts where the left trim stopped, at a unit that is not white space.
      obtain ⟨suffix, same⟩ := List.rdropWhile_prefix isWhiteSpace (value.dropWhile isWhiteSpace)
      rw [kept, List.cons_append] at same
      have stopped : isWhiteSpace head = false := by
        have headAt : (value.dropWhile isWhiteSpace).head? = some head := by
          rw [← same]
          rfl
        have found := List.head?_dropWhile_not isWhiteSpace value
        rw [headAt] at found
        exact found
      rw [List.dropWhile_cons, stopped]
      rfl

@[simp] theorem trim_trim (value : JsString) : trim (trim value) = trim value := by
  unfold trim
  rw [dropWhile_rdropWhile_dropWhile, List.rdropWhile_idempotent]

theorem trimmed_trim (value : JsString) : Trimmed (trim value) := trim_trim value

end JsString

end Reflection
