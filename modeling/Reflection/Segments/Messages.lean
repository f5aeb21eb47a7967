/-
Messages of a session and what a model sees of them.

A message is hidden when it failed, and some of its parts are never shown. Its source text leaves
out tool activity, which is rendered only where a span would otherwise be blank. Its weight counts
everything that is shown.
-/

import Reflection.Shared.Contracts
import Reflection.Shared.ToolSizes

namespace Reflection.Segments

open JsString JsObject

def PROJECTION_LOSS_WARNING : JsString :=
  ofString "Reflection compacted older context with omissions. Some archived details are unavailable in this prompt; use memory_search and memory_read_segment when exact history matters."

def ESTIMATED_CHARS_PER_TOKEN : Nat := 4

section Data

variable (numbers : Numbers)

/-- A part by its type, with the fields that are read of it. A file is read as a record. -/
inductive PartBody
  | text (text : Option JsString)
  | reasoning (text : Option JsString)
  | tool (part : ToolPart numbers.Number)
  | file (fields : List (JsString × Json numbers.Number))
  | compaction
  | stepStart
  | other

structure OpenCodePart where
  body : PartBody numbers
  synthetic : Option Bool
  ignored : Option Bool
  metadata : Option (Json numbers.Number)

structure OpenCodeMessage where
  id : JsString
  role : MessageRole
  parentID : Option JsString
  error : Option (Json numbers.Number)
  time : Option (Json numbers.Number)
  parts : List (OpenCodePart numbers)

end Data

variable {numbers : Numbers}

/-! ### Kinds of messages -/

/-- Equality with the number one, which is the only one written `1`. -/
def isOne : Json numbers.Number → Bool
  | .number number => numbers.text number == ofString "1"
  | _ => false

def hasExactWarningMetadata : Option (Json numbers.Number) → Bool
  | some (.object [(key, .object marker)]) =>
      key == ofString "reflection" && marker.length == 2 &&
        stringProperty (ofString "type") marker == ofString "projection-loss-warning" &&
          (property (ofString "version") marker).any isOne
  | _ => false

def isProjectionLossWarningMessage (message : OpenCodeMessage numbers) : Bool :=
  match message.role, message.parts with
  | .user, [part] =>
      match part.body with
      | .text text =>
          text == some PROJECTION_LOSS_WARNING && part.synthetic == some false &&
            part.ignored == some false && hasExactWarningMetadata part.metadata
      | _ => false
  | _, _ => false

def isCompaction (part : OpenCodePart numbers) : Bool :=
  match part.body with
  | .compaction => true
  | _ => false

def isNormalUserMessage (message : OpenCodeMessage numbers) : Bool :=
  message.role == .user && !isProjectionLossWarningMessage message && !message.parts.any isCompaction

/-- A value that counts as no error. Zero is the number written `0`. -/
def isFalsy : Json numbers.Number → Bool
  | .null => true
  | .bool value => !value
  | .number number => numbers.text number == ofString "0"
  | .string value => value.isEmpty
  | _ => false

def errorName : Json numbers.Number → Option JsString
  | .object fields =>
      match property (ofString "name") fields with
      | some (.string name) => some name
      | _ => none
  | _ => none

/-- Neither the start of a step nor reasoning. -/
def isOutput (part : OpenCodePart numbers) : Bool :=
  match part.body with
  | .stepStart | .reasoning _ => false
  | _ => true

def isModelVisibleMessage (message : OpenCodeMessage numbers) : Bool :=
  match message.role, message.error with
  | .user, _ => true
  | .assistant, none => true
  | .assistant, some error =>
      isFalsy error ||
        (errorName error == some (ofString "MessageAbortedError") && message.parts.any isOutput)

/-- A user's file whose content is shown as text of its own. -/
def isTextFile (part : OpenCodePart numbers) : Bool :=
  match part.body with
  | .file fields =>
      let mime := stringProperty (ofString "mime") fields
      mime == ofString "text/plain" || mime == ofString "application/x-directory"
  | _ => false

def isModelVisiblePart (message : OpenCodeMessage numbers) (part : OpenCodePart numbers) : Bool :=
  isModelVisibleMessage message && (message.role == .assistant || part.ignored != some true) &&
    !(message.role == .user && isTextFile part)

def isCompletedAssistantMessage (message : OpenCodeMessage numbers) : Bool :=
  message.role == .assistant &&
    match message.time with
    | some (.object time) =>
        match property (ofString "completed") time with
        | some (.number _) => true
        | _ => false
    | _ => false

/-! ### Texts -/

/-- `[Attachment name (mime)]`. -/
def attachmentText (fields : List (JsString × Json numbers.Number)) : JsString :=
  let filename := stringProperty (ofString "filename") fields
  let mime := stringProperty (ofString "mime") fields
  ofString "[Attachment" ++ (if filename.isEmpty then [] else ofString " " ++ filename.take 500) ++
    (if mime.isEmpty then [] else ofString " (" ++ mime.take 200 ++ ofString ")") ++ ofString "]"

def textOf (message : OpenCodeMessage numbers) : JsString :=
  if isProjectionLossWarningMessage message || !isModelVisibleMessage message then []
  else
    message.parts.flatMap fun part =>
      if isModelVisiblePart message part then
        match part.body with
        | .text text => text.getD []
        | .file fields => attachmentText fields
        | _ => []
      else []

structure ToolSourceBudget where
  remainingChars : Nat
  truncated : Bool

/-- What a part renders to, and the budget it leaves. -/
def reflectionPart (message : OpenCodeMessage numbers) (budget : ToolSourceBudget)
    (part : OpenCodePart numbers) : JsString × ToolSourceBudget :=
  if !isModelVisiblePart message part then ([], budget)
  else
    match part.body with
    | .file fields => (attachmentText fields, budget)
    | .tool tool =>
        if budget.truncated then ([], budget)
        else
          let rendered := toolSourceText numbers tool
          if rendered.length ≤ budget.remainingChars then
            (rendered, { budget with remainingChars := budget.remainingChars - rendered.length })
          else
            (truncatedToolSourceText numbers (tool.tool.getD (ofString "unknown")) budget.remainingChars,
              { remainingChars := 0
                truncated := true })
    | _ => ([], budget)

def reflectionParts (message : OpenCodeMessage numbers) :
    ToolSourceBudget → List (OpenCodePart numbers) → JsString × ToolSourceBudget
  | budget, [] => ([], budget)
  | budget, part :: rest =>
      let (text, left) := reflectionPart message budget part
      let (others, final) := reflectionParts message left rest
      (text ++ others, final)

def reflectionTextOf (message : OpenCodeMessage numbers) (budget : ToolSourceBudget) :
    JsString × ToolSourceBudget :=
  if isProjectionLossWarningMessage message || !isModelVisibleMessage message then ([], budget)
  else reflectionParts message budget message.parts

/-- One budget runs through the messages. -/
def reflectionTexts : ToolSourceBudget → List (OpenCodeMessage numbers) → List SourceMessage
  | _, [] => []
  | budget, message :: rest =>
      let (text, left) := reflectionTextOf message budget
      { role := message.role
        text := text } :: reflectionTexts left rest

def isSubmitted (message : SourceMessage) : Bool := !isBlank message.text

/-- The texts of some messages in order, and whether tool activity had to be rendered. -/
def sourceTexts (messages : List (OpenCodeMessage numbers)) : List SourceMessage × Bool :=
  let textMessages := messages.map fun message =>
    { role := message.role
      text := textOf message }
  if textMessages.any isSubmitted then (textMessages, false)
  else
    let rendered := reflectionTexts
      { remainingChars := MAX_COMPLETE_TOOL_SOURCE_CHARS
        truncated := false } messages
    (rendered, rendered.any isSubmitted)

/-! ### Weights -/

def partWeight (part : OpenCodePart numbers) : ℕ∞ :=
  match part.body with
  | .text text | .reasoning text => (text.getD []).length
  | .tool tool =>
      (max ((tool.tool.getD []).length + modelVisibleToolStateSize numbers tool.state)
          (toolSourceText numbers tool).length : Nat) +
        modelVisibleToolAttachmentTokens tool.state * ESTIMATED_CHARS_PER_TOKEN +
          modelVisibleToolInlineDataTokens tool.state * ESTIMATED_CHARS_PER_TOKEN
  | .file fields => modelVisibleMediaTokens fields * ESTIMATED_CHARS_PER_TOKEN
  | _ => 0

def modelVisibleCharWeightOf (message : OpenCodeMessage numbers) : ℕ∞ :=
  if isModelVisibleMessage message then
    ((message.parts.filter (isModelVisiblePart message)).map partWeight).sum
  else 0

end Reflection.Segments
