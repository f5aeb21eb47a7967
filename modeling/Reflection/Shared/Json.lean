/-
`JSON.stringify` on strings.
-/

import Reflection.Shared.JsString

namespace Reflection

namespace JsString

def hexDigit (value : Nat) : UInt16 :=
  UInt16.ofNat (if value < 10 then 0x30 + value else 0x61 + (value - 10))

/-- `\uXXXX` with lower-case digits. -/
def unicodeEscape (unit : UInt16) : JsString :=
  let value := unit.toNat
  [0x5c, 0x75, hexDigit (value / 4096), hexDigit (value / 256 % 16), hexDigit (value / 16 % 16),
    hexDigit (value % 16)]

/-- QuoteJSONString without its quotes: a surrogate pair stays, a lone surrogate is escaped. -/
def jsonEscape : JsString → JsString
  | [] => []
  | first :: rest =>
      if first = 0x22 ∨ first = 0x5c then 0x5c :: first :: jsonEscape rest
      else if first = 0x08 then 0x5c :: 0x62 :: jsonEscape rest
      else if first = 0x0c then 0x5c :: 0x66 :: jsonEscape rest
      else if first = 0x0a then 0x5c :: 0x6e :: jsonEscape rest
      else if first = 0x0d then 0x5c :: 0x72 :: jsonEscape rest
      else if first = 0x09 then 0x5c :: 0x74 :: jsonEscape rest
      else if first < 0x20 || isLowSurrogate first then unicodeEscape first ++ jsonEscape rest
      else if isHighSurrogate first then
        match rest with
        | second :: after =>
            if isLowSurrogate second then first :: second :: jsonEscape after
            else unicodeEscape first ++ jsonEscape (second :: after)
        | [] => unicodeEscape first
      else first :: jsonEscape rest

def jsonString (value : JsString) : JsString := 0x22 :: jsonEscape value ++ [0x22]

end JsString

end Reflection
