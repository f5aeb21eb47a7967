/-
Tool activity as text, and how such text is recognised again.

A tool part is written as one frame around its sanitized state. Sanitizing cuts off below a
depth, sorts keys and replaces data URLs; an object with a data URL among its keys becomes a
list of entries. The depth counts down here: nine levels are left at the root.
-/

import Reflection.Shared.JsonText

namespace Reflection

open JsString JsObject

def SANITIZED_TOOL_OBJECT_KEY : JsString := ofString "[Sanitized tool object]"

def nestedValueOmitted : JsString := ofString "[nested value omitted]"

def dataUrlOmitted : JsString := ofString "[data URL omitted]"

def outputCleared : JsString := ofString "[Old tool result content cleared]"

/-- Levels a value may be nested: depths 0 to 8. -/
def modelLevels : Nat := 9

/-! ### Data URLs -/

/-- `[a-z0-9+.-]` without regard to case; two letters outside ASCII fold into the range. -/
def isSchemeUnit (unit : UInt16) : Bool :=
  (0x61 ≤ unit && unit ≤ 0x7a) || (0x41 ≤ unit && unit ≤ 0x5a) || isDigit unit ||
    ([0x2b, 0x2e, 0x2d, 0x17f, 0x212a] : List UInt16).contains unit

/-- `data:` at the front, without regard to case. -/
def startsData : JsString → Bool
  | d :: a :: t :: last :: colon :: _ =>
      (d == 0x64 || d == 0x44) && (a == 0x61 || a == 0x41) && (t == 0x74 || t == 0x54) &&
        (last == 0x61 || last == 0x41) && colon == 0x3a
  | _ => false

/-- `data:` behind a unit that is not part of a scheme. -/
def dataBehind : JsString → Bool
  | [] => false
  | unit :: rest => (!isSchemeUnit unit && startsData rest) || dataBehind rest

/-- `/(?:^|[^a-z0-9+.-])data:/iu.test(value)`. -/
def containsDataUrl (value : JsString) : Bool := startsData value || dataBehind value

/-! ### Rendering -/

def redactedKey (index : Nat) : JsString :=
  ofString "[data URL key omitted " ++ decimal index ++ ofString "]"

section Values

variable {Number : Type}

def sortedEntries (entries : List (JsString × Json Number)) : List (JsString × Json Number) :=
  entries.insertionSort fun one other => one.1 ≤ other.1

/-- A key as an encoded entry shows it. -/
def visibleKey (index : Nat) (key : JsString) : JsString :=
  if containsDataUrl key then redactedKey index else key

def sanitizeModelValue : Nat → Json Number → Json Number
  | 0, _ => .string nestedValueOmitted
  | _ + 1, .string value => .string (if containsDataUrl value then dataUrlOmitted else value)
  | levels + 1, .array items => .array (items.map (sanitizeModelValue levels))
  | levels + 1, .object entries =>
      let sorted := sortedEntries entries
      if sorted.any fun entry => containsDataUrl entry.1 then
        .object [(SANITIZED_TOOL_OBJECT_KEY, .array (sorted.zipIdx.map fun place =>
          .array [.string (visibleKey place.2 place.1.1), sanitizeModelValue levels place.1.2]))]
      else
        .object (fromEntries (sorted.map fun entry => (entry.1, sanitizeModelValue levels entry.2)))
  | _ + 1, value => value

def property (key : JsString) (entries : List (JsString × Json Number)) : Option (Json Number) :=
  (entries.find? fun entry => entry.1 == key).map Prod.snd

/-- `typeof state.time.compacted === "number"`. -/
def isCompacted (entries : List (JsString × Json Number)) : Bool :=
  match property (ofString "time") entries with
  | some (.object time) =>
      match property (ofString "compacted") time with
      | some (.number _) => true
      | _ => false
  | _ => false

def modelVisibleToolStateValue : Json Number → Json Number
  | .object entries =>
      if isCompacted entries then .object (setProperty entries (ofString "output", .string outputCleared))
      else .object entries
  | value => value

def modelVisibleToolState (value : Json Number) : Json Number :=
  sanitizeModelValue modelLevels (modelVisibleToolStateValue value)

end Values

/-- A tool part of a message: its name, where that is a string, and a state of JSON values. -/
structure ToolPart (Number : Type) where
  tool : Option JsString
  state : Json Number
  valid : state.Valid

/-- The name as a frame shows it: no data URL, at most 500 units. -/
def visibleToolName {Number : Type} (part : ToolPart Number) : JsString :=
  let rawName := part.tool.getD (ofString "unknown")
  let sanitizedName := if containsDataUrl rawName then dataUrlOmitted else rawName
  sanitizedName.take 500

def toolOpening : JsString := ofString "\n[Tool "

def toolStateOpening : JsString := ofString "]\n"

def toolClosing : JsString := ofString "\n[/Tool]\n"

section Frames

variable (numbers : Numbers)

def toolSourceFrame (part : ToolPart numbers.Number) (visibleState : Json numbers.Number) : JsString :=
  toolOpening ++ jsonString (visibleToolName part) ++ toolStateOpening ++
    stringify numbers visibleState ++ toolClosing

def toolSourceText (part : ToolPart numbers.Number) : JsString :=
  toolSourceFrame numbers part (modelVisibleToolState part.state)

end Frames

/-! ### Recognition of values -/

def sortKeys (keys : List JsString) : List JsString := keys.insertionSort fun one other => one ≤ other

/-- The keys are listed as an object made from the sorted keys lists them. -/
def hasCanonicalObjectKeyOrder (keys : List JsString) : Bool :=
  let canonicalKeys := (fromEntries ((sortKeys keys).map fun key => (key, ()))).map Prod.fst
  keys.zipIdx.all fun place => canonicalKeys[place.2]? == some place.1

/-- The index of a key that reads `[data URL key omitted N]`. -/
def placeholderIndex (key : JsString) : Option Nat :=
  let opening := ofString "[data URL key omitted "
  let digits := (key.drop opening.length).dropLast
  if opening.isPrefixOf key && (key.drop opening.length).getLast? == some 0x5d && isIndexText digits then
    some (digitsValue digits)
  else none

def isPlaceholder (key : JsString) : Bool := (placeholderIndex key).isSome

def legacyDataUrlKeyWitness (lower upper : Option JsString) : Option JsString :=
  let endings := [ofString "\x00data:", ofString " data:"]
  let candidates := endings ++ [ofString "data:"] ++
    match lower with
    | none => []
    | some key => endings.map fun ending => key ++ ending
  let placed := candidates.filter fun candidate =>
    containsDataUrl candidate && lower.all (fun key => decide (key < candidate)) &&
      upper.all fun key => decide (candidate < key)
  (sortKeys placed).head?

/-- For every key the ordinary key before it. -/
def keysBefore : Option JsString → List JsString → List (Option JsString)
  | _, [] => []
  | last, key :: rest => last :: keysBefore (if isPlaceholder key then last else some key) rest

/-- How many of the sorted keys come before the witness: bisection between two bounds. -/
def keysBeforeWitness (keys : List JsString) (witness : JsString) : Nat → Nat → Nat → Nat
  | 0, low, _ => low
  | steps + 1, low, high =>
      if low < high then
        let middle := (low + high) / 2
        if (keys[middle]?).any fun key => decide (key < witness) then
          keysBeforeWitness keys witness steps (middle + 1) high
        else keysBeforeWitness keys witness steps low middle
      else low

/-- Where a placeholder may stand: as a literal key, or for a key that was a data URL. -/
def legacyPlacement (keys ordinarySourceKeys : List JsString) (placeholderCount : Nat)
    (key : JsString) (claimedIndex : Nat) (lower upper : Option JsString) : Bool × Bool :=
  let literalPlacement := lower.all (fun other => decide (other < key)) &&
    upper.all fun other => decide (key < other)
  let redactedPlacement :=
    match legacyDataUrlKeyWitness lower upper with
    | none => false
    | some witness =>
        decide (claimedIndex < keys.length + placeholderCount) &&
          decide (keysBeforeWitness ordinarySourceKeys witness ordinarySourceKeys.length 0
            ordinarySourceKeys.length ≤ claimedIndex)
  (literalPlacement, redactedPlacement)

/-- Keys an older renderer may have left out of order: it sorted before it replaced. -/
def legacyKeyOrder (keys : List JsString) : Bool :=
  let nonIndexKeys := keys.filter fun key => !isIndexText key
  let ordinaryKeys := nonIndexKeys.filter fun key => !isPlaceholder key
  let ordinarySourceKeys := sortKeys (keys.filter fun key => !isPlaceholder key)
  let placeholderCount := nonIndexKeys.length - ordinaryKeys.length
  let lowerKeys := keysBefore none nonIndexKeys
  let upperKeys := (keysBefore none nonIndexKeys.reverse).reverse
  let placements := (nonIndexKeys.zip (lowerKeys.zip upperKeys)).filterMap fun place =>
    (placeholderIndex place.1).map fun claimedIndex =>
      legacyPlacement keys ordinarySourceKeys placeholderCount place.1 claimedIndex
        place.2.1 place.2.2
  ((ordinaryKeys.zip (ordinaryKeys.drop 1)).all fun pair => decide (pair.1 < pair.2)) &&
    (placements.all fun placement => placement.1 || placement.2) &&
    placements.any fun placement => placement.2

section Values

variable {Number : Type}

def isNestedValueOmitted : Json Number → Bool
  | .string value => value == nestedValueOmitted
  | _ => false

def isLegacyCanonicalModelValue : Nat → Json Number → Bool
  | 0, value => isNestedValueOmitted value
  | _ + 1, .string value => !containsDataUrl value
  | levels + 1, .array items => items.all (isLegacyCanonicalModelValue levels)
  | levels + 1, .object entries =>
      !(entries.any fun entry => containsDataUrl entry.1 || !isLegacyCanonicalModelValue levels entry.2) &&
        (hasCanonicalObjectKeyOrder (entries.map Prod.fst) || legacyKeyOrder (entries.map Prod.fst))
  | _ + 1, _ => true

/-- The array of an object whose only key is the key of sanitized objects. -/
def encodedEntries : List (JsString × Json Number) → Option (List (Json Number))
  | [(key, .array items)] => if key = SANITIZED_TOOL_OBJECT_KEY then some items else none
  | _ => none

/-- An entry that is an array of a key and a value. -/
def encodedEntry : Json Number → Option (JsString × Json Number)
  | .array [.string key, item] => some (key, item)
  | _ => none

def isCurrentCanonicalModelValue : Nat → Json Number → Bool
  | 0, value => isNestedValueOmitted value
  | _ + 1, .string value => !containsDataUrl value
  | levels + 1, .array items => items.all (isCurrentCanonicalModelValue levels)
  | levels + 1, .object entries =>
      let plain := hasCanonicalObjectKeyOrder (entries.map Prod.fst) &&
        entries.all fun entry => isCurrentCanonicalModelValue levels entry.2
      if entries.any fun entry => containsDataUrl entry.1 then false
      else
        match encodedEntries entries with
        | none => plain
        | some items =>
            -- One entry of another shape ends the check, even where no key was redacted.
            if items.all fun item => (encodedEntry item).any fun entry =>
              !containsDataUrl entry.1 && isCurrentCanonicalModelValue levels entry.2
            then
              (items.zipIdx.any fun place =>
                (encodedEntry place.1).any fun entry => entry.1 == redactedKey place.2) || plain
            else false
  | _ + 1, _ => true

end Values

section States

variable (numbers : Numbers)

def isLegacyCanonicalToolState (state : Json numbers.Number) : Bool :=
  let visibleState := modelVisibleToolStateValue state
  stringify numbers visibleState == stringify numbers state &&
    isLegacyCanonicalModelValue modelLevels visibleState

def isCurrentCanonicalToolState (state : Json numbers.Number) : Bool :=
  let visibleState := modelVisibleToolStateValue state
  stringify numbers visibleState == stringify numbers state &&
    isCurrentCanonicalModelValue modelLevels visibleState

end States

/-! ### Recognition of frames -/

/-- What `.` does not match. -/
def isLineTerminator (unit : UInt16) : Bool :=
  ([0x0a, 0x0d, 0x2028, 0x2029] : List UInt16).contains unit

/-- `(?:[^"\\\r\n]|\\.)*"` behind the opening quote, and what follows. -/
def nameBody : JsString → Option (JsString × JsString)
  | [] => none
  | first :: rest =>
      if first = 0x22 then some ([first], rest)
      else if first = 0x5c then
        match rest with
        | [] => none
        | escaped :: after =>
            if isLineTerminator escaped then none
            else (nameBody after).map fun found => (first :: escaped :: found.1, found.2)
      else if first = 0x0a ∨ first = 0x0d then none
      else (nameBody rest).map fun found => (first :: found.1, found.2)

/-- What follows a prefix of a text. -/
def behindPrefix (front text : JsString) : Option JsString :=
  if front.isPrefixOf text then some (text.drop front.length) else none

/-- A match of the block pattern at the front of a text. -/
structure ToolMatch where
  encodedName : JsString
  encodedState : JsString
  length : Nat
deriving DecidableEq

def matchToolBlock (text : JsString) : Option ToolMatch := do
  let quoted ← behindPrefix (toolOpening ++ [0x22]) text
  let (body, behindName) ← nameBody quoted
  let behindOpening ← behindPrefix toolStateOpening behindName
  let encodedState := behindOpening.takeWhile fun unit => !(unit == 0x0a || unit == 0x0d)
  let behind ← behindPrefix toolClosing (behindOpening.drop encodedState.length)
  some
    { encodedName := 0x22 :: body
      encodedState := encodedState
      length := text.length - behind.length }

/-- `text.matchAll(pattern)`: the matches from the front, each behind the one before. The first
number counts the units still covered by the last match, the second the units passed. -/
def matchAllToolBlocks : Nat → Nat → JsString → List (Nat × ToolMatch)
  | _, _, [] => []
  | covered + 1, passed, _ :: rest => matchAllToolBlocks covered (passed + 1) rest
  | 0, passed, first :: rest =>
      match matchToolBlock (first :: rest) with
      | none => matchAllToolBlocks 0 (passed + 1) rest
      | some found => (passed, found) :: matchAllToolBlocks (found.length - 1) (passed + 1) rest

structure CanonicalToolFallbackBlock (Number : Type) where
  start : Nat
  stop : Nat
  name : JsString
  state : Json Number

section Recognition

variable (numbers : Numbers)

/-- The block of a match, when name and state are what the renderer would have written. -/
def canonicalBlock (place : Nat × ToolMatch) : Option (CanonicalToolFallbackBlock numbers.Number) :=
  match parseJson numbers place.2.encodedName, parseJson numbers place.2.encodedState with
  | some (.string name), some state =>
      if jsonString name == place.2.encodedName && decide (name.length ≤ 500) && !containsDataUrl name &&
          stringify numbers state == place.2.encodedState &&
          (isCurrentCanonicalToolState numbers state || isLegacyCanonicalToolState numbers state) then
        some
          { start := place.1
            stop := place.1 + place.2.length
            name := name
            state := state }
      else none
  | _, _ => none

def canonicalToolFallbackFrames (text : JsString) : List (CanonicalToolFallbackBlock numbers.Number) :=
  (matchAllToolBlocks 0 0 text).filterMap (canonicalBlock numbers)

end Recognition

end Reflection
