/-
JSON values, their text and its reading.

Numbers are a parameter: the runtime's number type with the text it writes and the reading of
a literal. The sign of zero, which the text does not show, is not kept. Reading follows the
grammar, white space and escapes included, and a repeated key keeps its last value.
-/

import Reflection.Shared.Json
import Reflection.Shared.JsObject

namespace Reflection

open JsString JsObject

/-! ### Numbers -/

/-- The units a number literal is made of. -/
def isNumberUnit (unit : UInt16) : Bool :=
  isDigit unit || ([0x2b, 0x2d, 0x2e, 0x45, 0x65] : List UInt16).contains unit

def withoutSign (signs : List UInt16) : JsString → JsString
  | [] => []
  | first :: rest => if signs.contains first then rest else first :: rest

def isExponent : JsString → Bool
  | [] => true
  | first :: rest =>
      let digits := withoutSign [0x2b, 0x2d] rest
      (first == 0x45 || first == 0x65) && !digits.isEmpty && digits.all isDigit

def isFraction : JsString → Bool
  | [] => true
  | first :: rest =>
      if first = 0x2e then !(rest.takeWhile isDigit).isEmpty && isExponent (rest.dropWhile isDigit)
      else isExponent (first :: rest)

/-- `-?(0|[1-9]\d*)(\.\d+)?([eE][+-]?\d+)?`. -/
def isNumberLiteral (token : JsString) : Bool :=
  let unsigned := withoutSign [0x2d] token
  token.all isNumberUnit && isIndexText (unsigned.takeWhile isDigit) &&
    isFraction (unsigned.dropWhile isDigit)

/-- The finite numbers of the runtime: what is written is a literal and reads back. -/
structure Numbers where
  Number : Type
  text : Number → JsString
  read : JsString → Number
  literal : ∀ number, isNumberLiteral (text number) = true
  read_text : ∀ number, read (text number) = number

/-! ### Values -/

inductive Json (Number : Type)
  | null
  | bool (value : Bool)
  | number (value : Number)
  | string (value : JsString)
  | array (items : List (Json Number))
  | object (entries : List (JsString × Json Number))

namespace Json

variable {Number : Type}

/-- Induction with the hypothesis for every item and every entry. -/
theorem tree_induction {motive : Json Number → Prop} (null : motive .null)
    (bool : ∀ value, motive (.bool value)) (number : ∀ value, motive (.number value))
    (string : ∀ value, motive (.string value))
    (array : ∀ items, (∀ item ∈ items, motive item) → motive (.array items))
    (object : ∀ entries, (∀ entry ∈ entries, motive entry.2) → motive (.object entries)) :
    ∀ value, motive value
  | .null => null
  | .bool value => bool value
  | .number value => number value
  | .string value => string value
  | .array items => array items fun item _inside =>
      tree_induction null bool number string array object item
  | .object entries => object entries fun entry _inside =>
      tree_induction null bool number string array object entry.2
termination_by value => sizeOf value
decreasing_by
  · have smaller := List.sizeOf_lt_of_mem _inside
    simp only [Json.array.sizeOf_spec]
    omega
  · have smaller := List.sizeOf_lt_of_mem _inside
    obtain ⟨key, value⟩ := entry
    simp only [Json.object.sizeOf_spec, Prod.mk.sizeOf_spec] at smaller ⊢
    omega

/-- An object has distinct keys in property order, and so have the objects in it. -/
inductive Valid : Json Number → Prop
  | null : Valid .null
  | bool (value : Bool) : Valid (.bool value)
  | number (value : Number) : Valid (.number value)
  | string (value : JsString) : Valid (.string value)
  | array {items : List (Json Number)} (each : ∀ item ∈ items, Valid item) : Valid (.array items)
  | object {entries : List (JsString × Json Number)} (ordered : Ordered entries)
      (each : ∀ entry ∈ entries, Valid entry.2) : Valid (.object entries)

end Json

/-! ### Writing -/

def commaSeparated : List JsString → JsString
  | [] => []
  | [text] => text
  | text :: other :: rest => text ++ ofString "," ++ commaSeparated (other :: rest)

section Text

variable (numbers : Numbers)

mutual

/-- `JSON.stringify(value)`. -/
def stringify : Json numbers.Number → JsString
  | .null => ofString "null"
  | .bool value => if value then ofString "true" else ofString "false"
  | .number value => numbers.text value
  | .string value => jsonString value
  | .array items => ofString "[" ++ commaSeparated (stringifyItems items) ++ ofString "]"
  | .object entries => ofString "\x7b" ++ commaSeparated (stringifyEntries entries) ++ ofString "\x7d"

def stringifyItems : List (Json numbers.Number) → List JsString
  | [] => []
  | item :: rest => stringify item :: stringifyItems rest

def stringifyEntries : List (JsString × Json numbers.Number) → List JsString
  | [] => []
  | (key, item) :: rest => (jsonString key ++ ofString ":" ++ stringify item) :: stringifyEntries rest

end

theorem stringifyItems_eq (items : List (Json numbers.Number)) :
    stringifyItems numbers items = items.map (stringify numbers) := by
  induction items with
  | nil => rfl
  | cons item rest ih => rw [stringifyItems, ih, List.map_cons]

def entryText (entry : JsString × Json numbers.Number) : JsString :=
  jsonString entry.1 ++ ofString ":" ++ stringify numbers entry.2

theorem stringifyEntries_eq (entries : List (JsString × Json numbers.Number)) :
    stringifyEntries numbers entries = entries.map (entryText numbers) := by
  induction entries with
  | nil => rfl
  | cons entry rest ih =>
      obtain ⟨key, item⟩ := entry
      rw [stringifyEntries, ih, List.map_cons]
      rfl

end Text

/-! ### Reading -/

def isJsonSpace (unit : UInt16) : Bool := ([0x20, 0x09, 0x0a, 0x0d] : List UInt16).contains unit

def skipSpace (text : JsString) : JsString := text.dropWhile isJsonSpace

def hexValue (unit : UInt16) : Option Nat :=
  let value := unit.toNat
  if 0x30 ≤ value ∧ value ≤ 0x39 then some (value - 0x30)
  else if 0x61 ≤ value ∧ value ≤ 0x66 then some (value - 0x61 + 10)
  else if 0x41 ≤ value ∧ value ≤ 0x46 then some (value - 0x41 + 10)
  else none

def readHex (first second third fourth : UInt16) : Option UInt16 := do
  let a ← hexValue first
  let b ← hexValue second
  let c ← hexValue third
  let d ← hexValue fourth
  some (UInt16.ofNat (a * 4096 + b * 256 + c * 16 + d))

/-- The escapes of one unit: quotes, solidi and `\b`, `\f`, `\n`, `\r`, `\t`. -/
def readEscape (unit : UInt16) : Option UInt16 :=
  if unit = 0x22 ∨ unit = 0x5c ∨ unit = 0x2f then some unit
  else if unit = 0x62 then some 0x08
  else if unit = 0x66 then some 0x0c
  else if unit = 0x6e then some 0x0a
  else if unit = 0x72 then some 0x0d
  else if unit = 0x74 then some 0x09
  else none

/-- A string from behind its opening quote, and what follows the closing one. -/
def readString : JsString → Option (JsString × JsString)
  | [] => none
  | first :: rest =>
      if first = 0x22 then some ([], rest)
      else if first = 0x5c then
        match rest with
        | [] => none
        | escaped :: after =>
            if escaped = 0x75 then
              match after with
              | a :: b :: c :: d :: more => do
                  let unit ← readHex a b c d
                  let (value, behind) ← readString more
                  some (unit :: value, behind)
              | _ => none
            else do
              let unit ← readEscape escaped
              let (value, behind) ← readString after
              some (unit :: value, behind)
      else if first < 0x20 then none
      else do
        let (value, behind) ← readString rest
        some (first :: value, behind)

/-- Items behind each other, separated by commas, up to the closing unit. -/
def readList {Item : Type} (close : UInt16) (readItem : JsString → Option (Item × JsString)) :
    Nat → JsString → Option (List Item × JsString)
  | 0, _ => none
  | steps + 1, text => do
      let (item, rest) ← readItem text
      match skipSpace rest with
      | [] => none
      | first :: behind =>
          if first = close then some ([item], behind)
          else if first = 0x2c then do
            let (items, after) ← readList close readItem steps behind
            some (item :: items, after)
          else none

/-- A list that may be empty. Each item takes a unit, so the text bounds their number. -/
def readItems {Item : Type} (close : UInt16) (readItem : JsString → Option (Item × JsString))
    (text : JsString) : Option (List Item × JsString) :=
  match skipSpace text with
  | [] => none
  | first :: behind =>
      if first = close then some ([], behind) else readList close readItem text.length text

def readMember {Value : Type} (readItem : JsString → Option (Value × JsString)) (text : JsString) :
    Option ((JsString × Value) × JsString) :=
  match skipSpace text with
  | [] => none
  | first :: rest =>
      if first = 0x22 then do
        let (key, behind) ← readString rest
        match skipSpace behind with
        | [] => none
        | colon :: after =>
            if colon = 0x3a then do
              let (item, last) ← readItem after
              some ((key, item), last)
            else none
      else none

section Reading

variable (numbers : Numbers)

def readNumber (text : JsString) : Option (Json numbers.Number × JsString) :=
  let token := text.takeWhile isNumberUnit
  if isNumberLiteral token then some (.number (numbers.read token), text.dropWhile isNumberUnit)
  else none

/-- `null`, `true`, `false` or a number. -/
def readWord (text : JsString) : Option (Json numbers.Number × JsString) :=
  if (ofString "null").isPrefixOf text then some (.null, text.drop 4)
  else if (ofString "true").isPrefixOf text then some (.bool true, text.drop 4)
  else if (ofString "false").isPrefixOf text then some (.bool false, text.drop 5)
  else readNumber numbers text

/-- One value, nested as deep as the bound allows, and what follows it. -/
def readValue : Nat → JsString → Option (Json numbers.Number × JsString)
  | 0, _ => none
  | depth + 1, text =>
      match skipSpace text with
      | [] => none
      | first :: rest =>
          if first = 0x22 then do
            let (value, behind) ← readString rest
            some (.string value, behind)
          else if first = 0x5b then do
            let (items, behind) ← readItems 0x5d (readValue depth) rest
            some (.array items, behind)
          else if first = 0x7b then do
            let (members, behind) ← readItems 0x7d (readMember (readValue depth)) rest
            some (.object (fromEntries members), behind)
          else readWord numbers (first :: rest)

/-- `JSON.parse(text)`; a text is never nested deeper than it is long. -/
def parseJson (text : JsString) : Option (Json numbers.Number) := do
  let (value, behind) ← readValue numbers (text.length + 1) text
  if (skipSpace behind).isEmpty then some value else none

end Reading

end Reflection
