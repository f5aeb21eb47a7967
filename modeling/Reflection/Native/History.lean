/-
Canonical records of a native history.

A history arrives as JSON values. Each is validated into a message whose body holds what the
checks established, rendered as source text and weighed by what a model sees of it. URLs are
redacted by the runtime. The omissions a record reports are left out: no planner reads them.
-/

import Reflection.Shared.ToolSizes
import Reflection.Native.Planning

namespace Reflection.Native.History

open JsString JsObject

inductive HistoryError
  /-- invalid native history message -/
  | invalid (message : JsString)
  /-- native source message exceeds the message text limit -/
  | oversize (messageId : JsString)
deriving DecidableEq

def invalid {α : Type} (message : String) : Except HistoryError α :=
  .error (.invalid (ofString message))

section Reading

variable {Number : Type}

abbrev Fields (Number : Type) := List (JsString × Json Number)

def field (entries : Fields Number) (key : String) : Option (Json Number) :=
  property (ofString key) entries

def record : Option (Json Number) → Option (Fields Number)
  | some (.object entries) => some entries
  | _ => none

def string : Option (Json Number) → Option JsString
  | some (.string value) => some value
  | _ => none

/-- Every JSON number is finite. -/
def finiteNumber : Option (Json Number) → Option Number
  | some (.number value) => some value
  | _ => none

/-- `entries.key === text`. -/
def isText (value : Option (Json Number)) (text : String) : Bool :=
  string value == some (ofString text)

def knownType (value : JsString) : Option NativeMessageType :=
  ([.user, .assistant, .synthetic, .shell, .skill, .system, .compaction, .idle, .agentSwitched,
    .modelSwitched, .locationSwitched] : List NativeMessageType).find? fun type => type.name == value

/-- `error(value)`: the type and the message of a failure. -/
def error (value : Option (Json Number)) : Option (JsString × JsString) := do
  let item ← record value
  let type ← string (field item "type")
  let message ← string (field item "message")
  some (type, message)

structure Model where
  providerID : JsString
  id : JsString
  variant : Option JsString

def model (value : Option (Json Number)) : Option Model := do
  let item ← record value
  let providerID ← string (field item "providerID")
  let id ← string (field item "id")
  some
    { providerID := providerID
      id := id
      variant := string (field item "variant") }

/-! ### Files -/

inductive FileSource
  | inline
  | uri (uri : JsString)

structure NativeFile where
  mime : JsString
  data : JsString
  source : FileSource
  name : Option JsString
  description : Option JsString

/-- A property that is absent or a string. -/
def optionalString : Option (Json Number) → Except Unit (Option JsString)
  | none => .ok none
  | some (.string value) => .ok (some value)
  | some _ => .error ()

def fileSource (value : Option (Json Number)) : Option FileSource := do
  let origin ← record value
  if isText (field origin "type") "inline" then some .inline
  else if isText (field origin "type") "uri" then (string (field origin "uri")).map .uri
  else none

def validMention (value : Json Number) : Bool :=
  match record (some value) with
  | none => false
  | some mention =>
      (finiteNumber (field mention "start")).isSome && (finiteNumber (field mention "end")).isSome &&
        (string (field mention "text")).isSome

def fileOf (value : Json Number) : Except HistoryError NativeFile :=
  match record (some value) with
  | none => invalid "file body"
  | some file =>
      match string (field file "mime"), string (field file "data"),
        optionalString (field file "name"), optionalString (field file "description") with
      | some mime, some data, .ok name, .ok description =>
          match fileSource (field file "source") with
          | none => invalid "file source"
          | some source =>
              if (field file "mention").all validMention then
                .ok
                  { mime := mime
                    data := data
                    source := source
                    name := name
                    description := description }
              else invalid "file mention"
      | _, _, _, _ => invalid "file body"

def filesOf (message : Fields Number) : Except HistoryError (List NativeFile) :=
  match field message "files" with
  | none => .ok []
  | some (.array files) => files.mapM fileOf
  | some _ => invalid "files must be an array"

/-! ### Assistant parts -/

def validToolPart (value : Json Number) : Bool :=
  match record (some value) with
  | none => false
  | some item =>
      (isText (field item "type") "text" && (string (field item "text")).isSome) ||
        (isText (field item "type") "file" && (string (field item "uri")).isSome &&
          (string (field item "mime")).isSome)

def toolContent : Option (Json Number) → Bool
  | some (.array parts) => !parts.isEmpty && parts.all validToolPart
  | _ => false

def toolState (value : Option (Json Number)) : Except HistoryError (Fields Number) :=
  match record value with
  | none => invalid "assistant tool state"
  | some state =>
      let status := field state "status"
      let input := field state "input"
      if isText status "streaming" then
        if (string input).isNone then invalid "streaming tool state" else .ok state
      else if isText status "running" then
        if (record input).isNone || (record (field state "metadata")).isNone then
          invalid "running tool state"
        else .ok state
      else if isText status "completed" then
        if (record input).isNone || !toolContent (field state "content") then
          invalid "completed tool state"
        else .ok state
      else if isText status "error" then
        if (record input).isNone || (error (field state "error")).isNone ||
            ((field state "content").isSome && !toolContent (field state "content")) then
          invalid "errored tool state"
        else .ok state
      else invalid "unknown assistant tool state"

inductive PartBody (Number : Type)
  | text (text : JsString)
  | reasoning (text : JsString)
  | tool (name : JsString) (state : Fields Number)

/-- A content part; the raw one is read again for the state it may carry. -/
structure AssistantPart (Number : Type) where
  raw : Fields Number
  body : PartBody Number

def assistantPart (value : Json Number) : Except HistoryError (AssistantPart Number) :=
  match record (some value) with
  | none => invalid "assistant content part"
  | some part =>
      if isText (field part "type") "text" then
        match string (field part "text") with
        | none => invalid "assistant text part"
        | some text => .ok { raw := part, body := .text text }
      else if isText (field part "type") "reasoning" then
        match string (field part "text") with
        | none => invalid "assistant text part"
        | some text => .ok { raw := part, body := .reasoning text }
      else if isText (field part "type") "tool" then
        match string (field part "id"), string (field part "name"), record (field part "time") with
        | some _, some name, some time =>
            if (finiteNumber (field time "created")).isNone then invalid "assistant tool part"
            else do
              let state ← toolState (field part "state")
              .ok { raw := part, body := .tool name state }
        | _, _, _ => invalid "assistant tool part"
      else invalid "assistant tool part"

/-! ### Messages -/

/-- A failure of a shell, its text alone or a type and a message. -/
inductive ShellError
  | text (value : JsString)
  | failure (type message : JsString)

structure Shell (Number : Type) where
  command : JsString
  output : JsString
  truncated : Bool
  status : JsString
  exit : Option Number
  failure : Option ShellError

inductive CompactionResult
  | failed (type message : JsString)
  | summary (summary recent : JsString)

/-- What validation establishes for each type of message. -/
inductive Body (Number : Type)
  | text (text : JsString)
  | assistant (content : List (AssistantPart Number))
  | shell (shell : Shell Number)
  | idle
  | agentSwitched (agent : JsString)
  | modelSwitched (model : Model)
  | locationSwitched (directory : JsString)
  | compaction (status : JsString) (result : CompactionResult)

structure ValidMessage (Number : Type) where
  id : JsString
  type : NativeMessageType
  raw : Fields Number
  body : Body Number

end Reading

section Validation

variable (numbers : Numbers)

mutual

/-- `String(value)`. -/
def stringOf : Json numbers.Number → JsString
  | .null => ofString "null"
  | .bool value => if value then ofString "true" else ofString "false"
  | .number value => numbers.text value
  | .string value => value
  | .array items => commaSeparated (stringsOf items)
  | .object _ => ofString "[object Object]"

/-- The items as `join` shows them: `null` is empty. -/
def stringsOf : List (Json numbers.Number) → List JsString
  | [] => []
  | .null :: rest => [] :: stringsOf rest
  | item :: rest => stringOf item :: stringsOf rest

end

def shellStatus (value : Option (Json numbers.Number)) : Option JsString :=
  let status := (value.map (stringOf numbers)).getD (ofString "undefined")
  if ([ofString "running", ofString "exited", ofString "timeout", ofString "killed"] :
      List JsString).contains status then some status
  else none

/-- The output of a shell and whether the source cut it off. -/
def shellOutput : Option (Json numbers.Number) → Option (JsString × Bool)
  | none => some ([], false)
  | some (.string value) => some (value, false)
  | some value => do
      let output ← record (some value)
      let text ← string (field output "output")
      let truncated :=
        match field output "truncated" with
        | some (.bool true) => true
        | _ => false
      some (text, truncated)

def shellExit : Option (Json numbers.Number) → Option (Option numbers.Number)
  | none => some none
  | some .null => some none
  | some (.number value) => some (some value)
  | some _ => none

def shellError : Option (Json numbers.Number) → Option (Option ShellError)
  | none => some none
  | some (.string value) => some (some (.text value))
  | some value => (error (some value)).map fun failure => some (.failure failure.1 failure.2)

def shellBody (item : Fields numbers.Number) : Except HistoryError (Body numbers.Number) :=
  match string (field item "shellID"), string (field item "command"),
    shellStatus numbers (field item "status") with
  | some _, some command, some status =>
      match shellOutput numbers (field item "output") with
      | none => invalid "shell output"
      | some output =>
          match shellExit numbers (field item "exit") with
          | none => invalid "shell exit"
          | some exit =>
              match shellError numbers (field item "error") with
              | none => invalid "shell error"
              | some failure =>
                  .ok (.shell
                    { command := command
                      output := output.1
                      truncated := output.2
                      status := status
                      exit := exit
                      failure := failure })
  | _, _, _ => invalid "shell body"

def compactionBody (item : Fields numbers.Number) : Except HistoryError (Body numbers.Number) :=
  let status := field item "status"
  let reason := field item "reason"
  if isText reason "auto" || isText reason "manual" then
    if isText status "failed" then
      match error (field item "error") with
      | some failure => .ok (.compaction (ofString "failed") (.failed failure.1 failure.2))
      | none => invalid "compaction body"
    else if isText status "running" || isText status "completed" then
      match string (field item "summary"), string (field item "recent") with
      | some summary, some recent =>
          .ok (.compaction ((string status).getD []) (.summary summary recent))
      | _, _ => invalid "compaction body"
    else invalid "compaction body"
  else invalid "compaction body"

/-- The checks of each type. -/
def bodyOf (type : NativeMessageType) (item : Fields numbers.Number) :
    Except HistoryError (Body numbers.Number) :=
  match type with
  | .user | .synthetic | .system =>
      match string (field item "text") with
      | none => .error (.invalid (type.name ++ ofString " text"))
      | some text => do
          let _ ← filesOf item
          .ok (.text text)
  | .skill =>
      match string (field item "text"), string (field item "skill"), string (field item "name") with
      | some text, some _, some _ => .ok (.text text)
      | _, _, _ => invalid "skill body"
  | .assistant =>
      match string (field item "agent"), model (field item "model"), field item "content" with
      | some _, some _, some (.array content) => do
          let parts ← content.mapM assistantPart
          .ok (.assistant parts)
      | _, _, _ => invalid "assistant body"
  | .shell => shellBody numbers item
  | .idle =>
      if isText (field item "outcome") "succeeded" || isText (field item "outcome") "failed" ||
          isText (field item "outcome") "interrupted" then .ok .idle
      else invalid "idle body"
  | .agentSwitched =>
      match string (field item "agent") with
      | some agent => .ok (.agentSwitched agent)
      | none => invalid "agent switch"
  | .modelSwitched =>
      match model (field item "model") with
      | some selected => .ok (.modelSwitched selected)
      | none => invalid "model switch"
  | .locationSwitched =>
      match (record (field item "location")).bind fun location => string (field location "directory")
        with
      | some directory => .ok (.locationSwitched directory)
      | none => invalid "location switch"
  | .compaction => compactionBody numbers item

def validateNativeHistoryMessage (value : Json numbers.Number) :
    Except HistoryError (ValidMessage numbers.Number) :=
  match record (some value) with
  | none => invalid "id, type, or time"
  | some item =>
      match string (field item "id"), (string (field item "type")).bind knownType,
        (record (field item "time")).bind fun time => finiteNumber (field time "created") with
      | some id, some type, some _ =>
          if id.length = 0 ∨ id.length > 500 then invalid "id, type, or time"
          else do
            let body ← bodyOf numbers type item
            .ok
              { id := id
                type := type
                raw := item
                body := body }
      | _, _, _ => invalid "id, type, or time"

end Validation

/-! ### Descriptors -/

/-- `\w` without regard to case; two letters outside ASCII fold into it. -/
def isWordUnit (unit : UInt16) : Bool :=
  (0x61 ≤ unit && unit ≤ 0x7a) || (0x41 ≤ unit && unit ≤ 0x5a) || isDigit unit ||
    ([0x5f, 0x17f, 0x212a] : List UInt16).contains unit

/-- `data:` at a word boundary, behind a unit that is part of a word or not. -/
def dataAtBoundary : Bool → JsString → Bool
  | _, [] => false
  | word, unit :: rest =>
      (!word && startsData (unit :: rest)) || dataAtBoundary (isWordUnit unit) rest

/-- `/^[a-z][a-z0-9+.-]*:\/\//iu.test(value)`. -/
def hasUrlScheme : JsString → Bool
  | [] => false
  | first :: rest =>
      isSchemeUnit first && !isDigit first && !([0x2b, 0x2d, 0x2e] : List UInt16).contains first &&
        (ofString "://").isPrefixOf (rest.dropWhile isSchemeUnit)

section Rendering

variable (numbers : Numbers) (redactUrl : JsString → Option JsString)

/-- The value without data and without the secrets of a URL; none where it does not parse. -/
def descriptor (bounded : Bool) (value : Option JsString) : JsString :=
  match value with
  | none => []
  | some value =>
      let safe :=
        if dataAtBoundary false value then ofString "[data URL omitted]"
        else if hasUrlScheme value then
          (redactUrl value).getD (ofString "[invalid URI omitted]")
        else value
      if bounded && decide (safe.length > 500) then
        safe.take 480 ++ ofString "[descriptor truncated]"
      else safe

def fileDescriptor (file : NativeFile) : JsString :=
  let shown (value : Option JsString) : Json numbers.Number :=
    .string (descriptor redactUrl true value)
  let origin : Fields numbers.Number :=
    match file.source with
    | .inline => [(ofString "source", .string (ofString "inline"))]
    | .uri uri => [(ofString "source", .string (ofString "uri")), (ofString "uri", shown (some uri))]
  ofString "\n[Attachment " ++
    stringify numbers (.object ([(ofString "name", shown file.name),
      (ofString "description", shown file.description), (ofString "mime", shown (some file.mime))] ++
        origin)) ++
    ofString "; binary content omitted]"

/-! ### Tools -/

/-- Status, input, content, error and the mark of a compacted result. -/
def projectedToolState (state : Fields numbers.Number) : Fields numbers.Number :=
  let kept := ["status", "input", "content", "error"].filterMap fun key =>
    (field state key).map fun value => (ofString key, value)
  let compacted := (record (field state "time")).bind fun time => finiteNumber (field time "compacted")
  kept ++ (compacted.map fun value =>
    (ofString "time", .object [(ofString "compacted", .number value)])).toList

def toolFrame (name : JsString) (state : Fields numbers.Number) : JsString :=
  namedToolText numbers name (.object (projectedToolState numbers state))

/-- The frames of the tools, behind those already written. -/
def toolFrames (result : JsString) : List (AssistantPart numbers.Number) → JsString
  | [] => result
  | part :: rest =>
      match part.body with
      | .tool name state =>
          let frame := toolFrame numbers name state
          if result.length + frame.length ≤ MAX_COMPLETE_TOOL_SOURCE_CHARS then
            toolFrames (result ++ frame) rest
          else
            result ++ truncatedToolSourceText numbers name
              (MAX_COMPLETE_TOOL_SOURCE_CHARS - result.length)
      | _ => toolFrames result rest

def partText (part : AssistantPart numbers.Number) : JsString :=
  match part.body with
  | .text text => text
  | _ => []

def assistantSourceText (content : List (AssistantPart numbers.Number)) : JsString :=
  let text := content.flatMap (partText numbers)
  if 0 < text.length then text else toolFrames numbers [] content

/-- The media tokens of one part of a content. -/
def partTokens (part : Json numbers.Number) : ℕ∞ :=
  match record (some part) with
  | none => 0
  | some file =>
      if isText (field file "type") "file" then
        modelVisibleMediaTokens
          (((field file "mime").map fun mime => (ofString "mime", mime)).toList ++
            ((field file "uri").map fun uri => (ofString "url", uri)).toList)
      else 0

def contentTokens : Option (Json numbers.Number) → ℕ∞
  | some (.array parts) => (parts.map (partTokens numbers)).sum
  | _ => 0

def ESTIMATED_CHARS_PER_TOKEN : ℕ∞ := 4

def toolPressure (name : JsString) (state : Fields numbers.Number) : ℕ∞ :=
  let projected := projectedToolState numbers state
  let shown := max (name.length + modelVisibleToolStateSize numbers (.object projected))
    (toolFrame numbers name state).length
  shown + modelVisibleToolAttachmentTokens (.object projected) * ESTIMATED_CHARS_PER_TOKEN +
    modelVisibleToolInlineDataTokens (.object projected) * ESTIMATED_CHARS_PER_TOKEN +
    contentTokens numbers (field projected "content") * ESTIMATED_CHARS_PER_TOKEN

/-! ### Records -/

/-- Images count the reserve, other media three eighths of their encoded length. -/
def fileTokens (file : NativeFile) : Nat :=
  if (ofString "image/").isPrefixOf file.mime then MEDIA_TOKEN_RESERVE
  else max MEDIA_TOKEN_RESERVE ((file.data.length * 3 + 7) / 8)

def partWeight (part : AssistantPart numbers.Number) : ℕ∞ :=
  match part.body with
  | .text text | .reasoning text => codePointLength text
  | .tool name state => toolPressure numbers name state

def weightedCharsFor (message : ValidMessage numbers.Number) (sourceText : JsString) :
    Except HistoryError ℕ∞ :=
  match message.body with
  | .assistant content => .ok (content.map (partWeight numbers)).sum
  | _ => do
      let files ← filesOf message.raw
      .ok (codePointLength sourceText +
        (files.map fun file => fileTokens file * ESTIMATED_CHARS_PER_TOKEN).sum)

def shellText (shell : Shell numbers.Number) : JsString :=
  let exit :=
    match shell.exit with
    | none => []
    | some value => ofString "; exit: " ++ numbers.text value
  let failure :=
    match shell.failure with
    | none => []
    | some (.text value) => ofString "\n[Shell error]\n" ++ value
    | some (.failure type message) =>
        ofString "\n[Shell error]\n" ++ type ++ ofString ": " ++ message
  ofString "[Shell command]\n" ++ shell.command ++ ofString "\n[Shell output]\n" ++ shell.output ++
    ofString "\n[Shell status: " ++ shell.status ++ exit ++ ofString "]" ++ failure ++
    if shell.truncated then ofString "\n[Shell output already truncated by source]" else []

def compactionText (status : JsString) (result : CompactionResult) : JsString :=
  ofString "[Machine-generated historical summary; not user-authored; " ++ status ++ ofString "]\n" ++
    match result with
    | .failed type message => type ++ ofString ": " ++ message
    | .summary summary recent =>
        ofString "[Summary]\n" ++ summary ++ ofString "\n[Recent historical context]\n" ++ recent

def modelFields (selected : Model) : Fields numbers.Number :=
  [(ofString "providerID", .string selected.providerID), (ofString "id", .string selected.id)] ++
    (selected.variant.map fun variant => (ofString "variant", .string variant)).toList

def sourceText (message : ValidMessage numbers.Number) : Except HistoryError JsString :=
  match message.body with
  | .text text => do
      let files ← filesOf message.raw
      .ok (text ++ files.flatMap (fileDescriptor numbers redactUrl))
  | .assistant content => .ok (assistantSourceText numbers content)
  | .shell shell => .ok (shellText numbers shell)
  | .idle => .ok []
  | .agentSwitched agent =>
      .ok (ofString "[Agent switched] " ++ stringify numbers
        (modelVisibleToolState (.object [(ofString "agent", .string agent)])))
  | .modelSwitched selected =>
      .ok (ofString "[Model switched] " ++ stringify numbers
        (modelVisibleToolState (.object (modelFields numbers selected))))
  | .locationSwitched directory =>
      .ok (ofString "[Location switched] " ++ stringify numbers
        (.object [(ofString "directory", .string (descriptor redactUrl false (some directory)))]))
  | .compaction status result => .ok (compactionText status result)

def sourceFor (message : ValidMessage numbers.Number) : Except HistoryError NativeSourceMessage := do
  let text ← sourceText numbers redactUrl message
  .ok
    { id := message.id
      type := message.type
      text := text }

/-- A tool of the part is still at work, whatever the type of the part. -/
def unfinished (part : AssistantPart numbers.Number) : Bool :=
  match record (field part.raw "state") with
  | none => false
  | some state => isText (field state "status") "running" || isText (field state "status") "streaming"

def complete (message : ValidMessage numbers.Number) : Bool :=
  match message.body with
  | .assistant content =>
      ((record (field message.raw "time")).bind fun time => finiteNumber (field time "completed")).isSome &&
        !content.any (unfinished numbers)
  | .shell shell =>
      ([ofString "exited", ofString "timeout", ofString "killed"] : List JsString).contains shell.status
  | .compaction status _ => status == ofString "completed" || status == ofString "failed"
  | _ => true

/-- One record behind those with the given ids. -/
def canonicalRecord (ids : List JsString) (value : Json numbers.Number) :
    Except HistoryError NativeCanonicalRecord := do
  let message ← validateNativeHistoryMessage numbers value
  if ids.contains message.id then .error (.invalid (ofString "duplicate id " ++ message.id))
  else do
    let source ← sourceFor numbers redactUrl message
    if codePointLength source.text > maxMessageTextChars then .error (.oversize message.id)
    else do
      let weightedChars ← weightedCharsFor numbers message source.text
      .ok
        { raw := { id := message.id }
          source := source
          complete := complete numbers message
          weightedChars := weightedChars }

def canonicalizeFrom : List JsString → List (Json numbers.Number) →
    Except HistoryError (List NativeCanonicalRecord)
  | _, [] => .ok []
  | ids, value :: rest => do
      let record ← canonicalRecord numbers redactUrl ids value
      let records ← canonicalizeFrom (record.raw.id :: ids) rest
      .ok (record :: records)

def canonicalizeNativeHistory (history : List (Json numbers.Number)) :
    Except HistoryError (List NativeCanonicalRecord) :=
  canonicalizeFrom numbers redactUrl [] history

end Rendering

end Reflection.Native.History
