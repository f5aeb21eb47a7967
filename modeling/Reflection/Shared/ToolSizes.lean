/-
How large a tool part is for a model.

The state of a part is measured as its text without the data of its URLs, which count as
media tokens instead. Media of an unknown size is heavier than every limit.
-/

import Reflection.Shared.ToolSource

namespace Reflection

open JsString JsObject

def MEDIA_TOKEN_RESERVE : Nat := 8000

def MEDIA_BYTES_PER_TOKEN : Nat := 2

def TOOL_SOURCE_CHAR_LIMIT : Nat := 20000

def TOOL_SOURCE_TRUNCATION : JsString := ofString "\n[Tool activity truncated]"

def TOOL_STATE_OMITTED : JsString := ofString "[Tool state omitted: exceeds fallback budget]"

def MAX_COMPLETE_TOOL_SOURCE_CHARS : Nat := TOOL_SOURCE_CHAR_LIMIT - TOOL_SOURCE_TRUNCATION.length

/-- The first part of a data URL. -/
def dataScheme : JsString := ofString "data:"

/-! ### Frames of a name and a state -/

section Frames

variable (numbers : Numbers)

/-- A frame shows nothing of a part but its name. -/
def namedPart (name : JsString) : ToolPart numbers.Number :=
  { tool := some name
    state := .null
    valid := .null }

/-- `toolSourceText({ tool: name, state })`. -/
def namedToolText (name : JsString) (state : Json numbers.Number) : JsString :=
  toolSourceFrame numbers (namedPart numbers name) (modelVisibleToolState state)

theorem toolSourceText_named (part : ToolPart numbers.Number) {name : JsString}
    (named : part.tool = some name) :
    toolSourceText numbers part = namedToolText numbers name part.state := by
  unfold toolSourceText namedToolText toolSourceFrame visibleToolName
  rw [named]
  rfl

/-- The frame without its state, where that fits, and the mark behind it. -/
def truncatedToolSourceText (name : JsString) (remainingChars : Nat) : JsString :=
  let omitted := toolSourceFrame numbers (namedPart numbers name) (.string TOOL_STATE_OMITTED)
  (if omitted.length ≤ remainingChars then omitted else []) ++ TOOL_SOURCE_TRUNCATION

theorem truncatedToolSourceText_length_le (name : JsString) (remainingChars : Nat) :
    (truncatedToolSourceText numbers name remainingChars).length ≤
      remainingChars + TOOL_SOURCE_TRUNCATION.length := by
  unfold truncatedToolSourceText
  simp only [List.length_append]
  split
  · rename_i fits
    exact Nat.add_le_add_right fits _
  · exact Nat.add_le_add_right (Nat.zero_le _) _

end Frames

/-! ### Media -/

/-- The bytes a data URL carries; none where the text is not one. -/
def dataUrlBytes (url : JsString) : Option Nat :=
  if dataScheme.isPrefixOf url then
    let metadata := url.takeWhile fun unit => unit != 0x2c
    match url.drop metadata.length with
    | [] => none
    | _ :: payload =>
        some (if (ofString ";base64").isSuffixOf metadata then (payload.length * 3 + 3) / 4
          else utf8ByteLength payload)
  else none

/-- The tokens of so many bytes, at least the reserve. -/
def mediaTokens : Option Nat → ℕ∞
  | none => ⊤
  | some bytes => (max MEDIA_TOKEN_RESERVE ((bytes + 1) / MEDIA_BYTES_PER_TOKEN) : Nat)

section Values

variable {Number : Type}

/-- A property that is a string, or the empty one. -/
def stringProperty (key : JsString) (entries : List (JsString × Json Number)) : JsString :=
  match property key entries with
  | some (.string value) => value
  | _ => []

def modelVisibleMediaTokens (media : List (JsString × Json Number)) : ℕ∞ :=
  if (ofString "image/").isPrefixOf (stringProperty (ofString "mime") media) then MEDIA_TOKEN_RESERVE
  else
    match property (ofString "url") media with
    | some (.string url) => mediaTokens (dataUrlBytes url)
    | _ => ⊤

/-- The tokens of one attachment: a data URL, or an image or a document of the host. -/
def attachmentTokens : Json Number → ℕ∞
  | .object item =>
      let mime := stringProperty (ofString "mime") item
      let url := stringProperty (ofString "url") item
      let validDataUrl := dataScheme.isPrefixOf url && url.contains 0x2c
      let hostMedia := (ofString "image/").isPrefixOf mime || mime == ofString "application/pdf"
      if validDataUrl || (hostMedia && decide (0 < url.length)) then modelVisibleMediaTokens item
      else 0
  | _ => 0

def modelVisibleToolAttachmentTokens : Json Number → ℕ∞
  | .object state =>
      match property (ofString "attachments") state with
      | some (.array attachments) =>
          if stringProperty (ofString "status") state = ofString "completed" ∧
              isCompacted state = false then
            (attachments.map attachmentTokens).sum
          else 0
      | _ => 0
  | _ => 0

mutual

/-- The tokens of every data URL in a value. -/
def inlineDataUrlTokens : Json Number → ℕ∞
  | .string value => if dataScheme.isPrefixOf value then mediaTokens (dataUrlBytes value) else 0
  | .array items => inlineItemsTokens items
  | .object entries => inlineEntriesTokens entries
  | _ => 0

def inlineItemsTokens : List (Json Number) → ℕ∞
  | [] => 0
  | item :: rest => inlineDataUrlTokens item + inlineItemsTokens rest

def inlineEntriesTokens : List (JsString × Json Number) → ℕ∞
  | [] => 0
  | (_, item) :: rest => inlineDataUrlTokens item + inlineEntriesTokens rest

end

/-- Attachments of the state itself are measured apart. -/
def modelVisibleToolInlineDataTokens (value : Json Number) : ℕ∞ :=
  match modelVisibleToolStateValue value with
  | .object entries =>
      inlineEntriesTokens (entries.filter fun entry => entry.1 != ofString "attachments")
  | other => inlineDataUrlTokens other

/-! ### Size of a state -/

mutual

/-- The value with the data of its URLs left out. -/
def withoutData : Json Number → Json Number
  | .string value => .string (if dataScheme.isPrefixOf value then dataUrlOmitted else value)
  | .array items => .array (withoutDataItems items)
  | .object entries => .object (withoutDataEntries entries)
  | value => value

def withoutDataItems : List (Json Number) → List (Json Number)
  | [] => []
  | item :: rest => withoutData item :: withoutDataItems rest

def withoutDataEntries : List (JsString × Json Number) → List (JsString × Json Number)
  | [] => []
  | (key, item) :: rest => (key, withoutData item) :: withoutDataEntries rest

end

/-- Keys of a state that never reach the provider. -/
def UNSENT_TOOL_STATE_KEYS : List JsString := [ofString "attachments", ofString "metadata"]

end Values

/-- The `chars` of the size of a state. -/
def modelVisibleToolStateSize (numbers : Numbers) (value : Json numbers.Number) : Nat :=
  match modelVisibleToolStateValue value with
  | .object entries =>
      (stringify numbers (.object (withoutDataEntries
        (entries.filter fun entry => !UNSENT_TOOL_STATE_KEYS.contains entry.1)))).length
  | other => (stringify numbers (withoutData other)).length

end Reflection
