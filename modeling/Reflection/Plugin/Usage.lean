/-
Sizes of requests derived from the usage a provider reported.

The tracker keeps digests of the last request of a session and of its configuration. From
the usage of the latest assistant it measures a continued request exactly, and otherwise
bounds it by adding every message the remembered request did not contain. Digest, token
estimates and `JSON.parse` are parameters.
-/

import Reflection.Cursor.Projection
import Reflection.Shared.Identity

namespace Reflection.Plugin

open JsString
open Reflection.Cursor (Role)

/-! ### Values from outside -/

/-- A value of unknown type. Numbers that are not finite are of one kind. -/
inductive Payload (N : Type)
  | undefined
  | null
  | boolean (value : Bool)
  | number (value : N)
  | nonFinite
  | string (value : JsString)
  | bytes (kind : JsString) (value : List UInt8)
  | array (items : List (Payload N))
  | object (fields : List (JsString × Payload N))

abbrev Fields (N : Type) := List (JsString × Payload N)

structure Model where
  id : JsString
  providerID : JsString
  variant : Option JsString
deriving DecidableEq

structure Message (N : Type) where
  id : Option JsString
  role : Role
  content : List (Payload N)
  metadata : Payload N
  providerMetadata : Payload N
  native : Payload N

/-- A record of the history. `rest` holds the fields whose types nothing has checked. -/
structure NativeHistoryMessage (N : Type) where
  id : JsString
  type : NativeMessageType
  rest : Fields N

structure NativeCanonicalRecord (N : Type) where
  raw : NativeHistoryMessage N
  complete : Bool

/-- The copy of a message that is estimated. -/
structure EstimationMessage (N : Type) where
  role : Role
  content : Payload N

/-- Functions from outside the model. A value that cannot be hashed has no fingerprint, and
a payload that cannot be bounded has no estimate. -/
structure Platform (N Digest : Type) where
  fingerprint : Payload N → Option Digest
  noAssistant : Digest
  /-- `JSON.parse`. -/
  parse : JsString → Option (Payload N)
  estimationValue : Payload N → Option (Payload N)
  /-- `estimateNativeTokens` of role and content. -/
  estimateNativeTokens : EstimationMessage N → Option N
  isSafeInteger : N → Bool

section Values

variable {N : Type}

def lookup (fields : Fields N) (name : String) : Payload N :=
  ((fields.find? fun field => field.1 = ofString name).map (·.2)).getD .undefined

/-- `fields(value)`. -/
def Payload.fields : Payload N → Option (Fields N)
  | .object fields => some fields
  | _ => none

/-- `fields(value)?.name`. -/
def Payload.get (value : Payload N) (name : String) : Payload N :=
  match value.fields with
  | some fields => lookup fields name
  | none => .undefined

def Payload.isUndefined : Payload N → Bool
  | .undefined => true
  | _ => false

/-- `value == null`. -/
def Payload.isNullish : Payload N → Bool
  | .undefined => true
  | .null => true
  | _ => false

def Payload.text : Payload N → Option JsString
  | .string value => some value
  | _ => none

def Payload.isTrue : Payload N → Bool
  | .boolean value => value
  | _ => false

def object (fields : List (String × Payload N)) : Payload N :=
  .object (fields.map fun field => (ofString field.1, field.2))

def optional : Option JsString → Payload N
  | some value => .string value
  | none => .undefined

def roleName : Role → JsString
  | .system => ofString "system"
  | .user => ofString "user"
  | .assistant => ofString "assistant"
  | .tool => ofString "tool"

def NativeHistoryMessage.get (raw : NativeHistoryMessage N) (name : String) : Payload N :=
  lookup raw.rest name

def NativeHistoryMessage.payload (raw : NativeHistoryMessage N) : Payload N :=
  .object ((ofString "id", .string raw.id) :: (ofString "type", .string raw.type.name) :: raw.rest)

def Model.payload (model : Model) : Payload N :=
  object
    [("id", .string model.id), ("providerID", .string model.providerID),
      ("variant", optional model.variant)]

def Message.payload (message : Message N) : Payload N :=
  object
    [("id", optional message.id), ("role", .string (roleName message.role)),
      ("content", .array message.content), ("metadata", message.metadata),
      ("providerMetadata", message.providerMetadata), ("native", message.native)]

end Values

section Tracker

variable {N Digest : Type} [DecidableEq Digest]
variable [Add N] [NatCast N] [LE N] [DecidableLE N]
variable (platform : Platform N Digest)

/-! ### The latest assistant -/

def messageHash (message : Message N) : Option Digest := platform.fingerprint message.payload

def messageHashes (messages : List (Message N)) : Option (List Digest) :=
  messages.mapM (messageHash platform)

def definedFields (fields : Fields N) : Fields N := fields.filter fun field => !field.2.isUndefined

def matchesFields (actual : Payload N) (expected : Fields N) : Bool :=
  match actual.fields with
  | none => false
  | some value =>
      match platform.fingerprint (.object (definedFields value)) with
      | none => false
      | some hash => platform.fingerprint (.object (definedFields expected)) = some hash

def metadataOf (provider : JsString) (state : Payload N) : Payload N :=
  if state.isUndefined then .undefined else .object [(provider, state)]

def namedFields (fields : List (String × Payload N)) : Fields N :=
  fields.map fun field => (ofString field.1, field.2)

/-- The result of a hosted tool, as the host lowers it. -/
def hostedResult (status : JsString) (state : Payload N) : Option (Payload N) :=
  if status = ofString "completed" then
    match state.get "content" with
    | .array items =>
        let single := if items.length = 1 then items.head? else none
        some (match single.bind (fun item => (item.get "type").text) with
          | some type =>
              if type = ofString "text" then
                object
                  [("type", .string (ofString "text")),
                    ("value", (single.getD .undefined).get "text")]
              else object [("type", .string (ofString "content")), ("value", .array items)]
          | none => object [("type", .string (ofString "content")), ("value", .array items)])
    | _ => none
  else
    let content := state.get "content"
    some (object
      [("type", .string (ofString "error")),
        ("value", object
          [("error", state.get "error"),
            ("content", if content.isNullish then .array [] else content)])])

/-- The input of a call, or nothing when the host would not lower it. -/
def callInput (status : JsString) (input : Payload N) : Option (Payload N) :=
  if status = ofString "streaming" then
    match input with
    | .string text => some ((platform.parse text).getD input)
    | _ => none
  else if input.fields.isSome then some input
  else none

/-- What the host lowers one content part to. It drops empty text, but keeps empty reasoning
with provider state. -/
def expectedParts (provider : JsString) (part : Payload N) : Option (List (Fields N)) := do
  let _ ← part.fields
  let type ← (part.get "type").text
  if type = ofString "text" ∨ type = ofString "reasoning" then
    let text ← (part.get "text").text
    let state := part.get "state"
    if !state.isUndefined && state.fields.isNone then none
    else if text = [] ∧ (type = ofString "text" ∨ state.isUndefined) then some []
    else some [namedFields
      [("type", .string type), ("text", .string text),
        ("providerMetadata", metadataOf provider state)]]
  else if type = ofString "tool" then
    let id ← (part.get "id").text
    let name ← (part.get "name").text
    let state := part.get "state"
    let _ ← state.fields
    let status ← (state.get "status").text
    if !(["streaming", "running", "completed", "error"].map ofString).contains status then none
    else
      let input ← callInput platform status (state.get "input")
      let executed := part.get "executed"
      let providerState := part.get "providerState"
      if !(match executed with | .undefined => true | .boolean _ => true | _ => false) then none
      else if !providerState.isUndefined && providerState.fields.isNone then none
      else
        let call := namedFields
          [("type", .string (ofString "tool-call")), ("id", .string id), ("name", .string name),
            ("input", input), ("providerExecuted", executed),
            ("providerMetadata", metadataOf provider providerState)]
        -- Local results are separate messages.
        if !executed.isTrue || (status ≠ ofString "completed" && status ≠ ofString "error") then
          some [call]
        else
          let own := part.get "providerResultState"
          let resultState := if own.isNullish then providerState else own
          if !resultState.isUndefined && resultState.fields.isNone then none
          else
            let result ← hostedResult status state
            some [call, namedFields
              [("type", .string (ofString "tool-result")), ("id", .string id),
                ("name", .string name), ("result", result), ("providerExecuted", executed),
                ("providerMetadata", metadataOf provider resultState)]]
  else none

def matchesAssistant (record : NativeCanonicalRecord N) (message : Message N)
    (provider : JsString) : Bool :=
  match record.raw.get "content" with
  | .array content =>
      match content.mapM (expectedParts platform provider) with
      | none => false
      | some parts =>
          let expected := parts.flatten
          !expected.isEmpty && expected.length = message.content.length &&
            ((message.content.zip expected).all fun pair => matchesFields platform pair.1 pair.2) &&
            matchesFields platform
              (object
                [("metadata", message.metadata), ("providerMetadata", message.providerMetadata),
                  ("native", message.native)])
              (namedFields [("metadata", record.raw.get "metadata")])
  | _ => false

def finite : Payload N → Option N
  | .number value => if ((0 : Nat) : N) ≤ value then some value else none
  | _ => none

/-- The reported total of a raw assistant, whether or not it is complete. -/
def reported (raw : NativeHistoryMessage N) : Option N := do
  if raw.type ≠ .assistant then none
  else
    let completed := (raw.get "time").get "completed"
    if !(match completed with | .number _ => true | _ => false) then none
    else if !(raw.get "error").isNullish then none
    else
      let tokens := raw.get "tokens"
      let cache := tokens.get "cache"
      let _ ← tokens.fields
      let _ ← cache.fields
      let input ← finite (tokens.get "input")
      let read ← finite (cache.get "read")
      let write ← finite (cache.get "write")
      let output ← finite (tokens.get "output")
      let reasoning ← finite (tokens.get "reasoning")
      if input + read + write ≤ ((0 : Nat) : N) then none
      else some (input + read + write + output + reasoning)

def usage (record : NativeCanonicalRecord N) : Option N :=
  if record.complete then reported record.raw else none

/-- `rawModel.variant === undefined || rawModel.variant === model.variant`, with provider and
model id the same. -/
def sameModel (raw : NativeHistoryMessage N) (model : Model) : Bool :=
  let rawModel := raw.get "model"
  (rawModel.get "providerID").text = some model.providerID &&
    (rawModel.get "id").text = some model.id &&
    ((rawModel.get "variant").isUndefined ||
      (model.variant.isSome && (rawModel.get "variant").text = model.variant))

/-! ### State -/

structure Anchor (Digest : Type) where
  id : Digest
  raw : Digest
  message : Digest
  before : List Digest
  after : List Digest
deriving DecidableEq

structure State (N Digest : Type) where
  config : Digest
  messages : List Digest
  anchor : Option (Anchor Digest)
  /-- Latest assistant when `messages` was sent; a newer one answered it. -/
  sent : Option Digest
  /-- Provider-derived size of `messages` when it was sent. -/
  tokens : Option N
deriving DecidableEq

/-- Sessions in the order they were last remembered. -/
structure UsageTracker (N Digest : Type) where
  sessions : List (JsString × State N Digest)
  capacity : Nat
deriving DecidableEq

def UsageTracker.get (tracker : UsageTracker N Digest) (session : JsString) :
    Option (State N Digest) :=
  (tracker.sessions.find? fun entry => entry.1 = session).map (·.2)

def UsageTracker.delete (tracker : UsageTracker N Digest) (session : JsString) :
    UsageTracker N Digest :=
  { tracker with sessions := tracker.sessions.filter fun entry => entry.1 ≠ session }

/-- The session's state as the newest, and the oldest session evicted past the capacity. -/
def UsageTracker.set (tracker : UsageTracker N Digest) (session : JsString)
    (state : State N Digest) : UsageTracker N Digest :=
  let sessions := (tracker.delete session).sessions ++ [(session, state)]
  { tracker with
    sessions := if sessions.length > tracker.capacity then sessions.drop 1 else sessions }

/-! ### One request -/

structure Config (N : Type) where
  model : Model
  system : Payload N
  tools : Payload N
  options : Payload N

def Config.payload (config : Config N) : Payload N :=
  object
    [("model", config.model.payload), ("system", config.system), ("tools", config.tools),
      ("options", config.options)]

/-- What `prepare` computes before any size is asked for. -/
structure Prepared (N Digest : Type) where
  model : Model
  config : Option Digest
  previous : Option (State N Digest)
  latest : Option (NativeCanonicalRecord N)
  total : Option N
  raw : Option Digest
  assistantId : Option Digest

def prepare (tracker : UsageTracker N Digest) (session : JsString)
    (records : List (NativeCanonicalRecord N)) (config : Config N) : Prepared N Digest :=
  let latest := records.reverse.find? fun record => record.raw.type = .assistant
  { model := config.model
    config := platform.fingerprint config.payload
    previous := tracker.get session
    latest := latest
    total := latest.bind usage
    raw := latest.bind fun latest => platform.fingerprint latest.raw.payload
    assistantId := latest.bind fun latest => platform.fingerprint (.string latest.raw.id) }

variable (prepared : Prepared N Digest)

/-- The messages an anchor or an exact size may be based on. -/
def isLatest (latest : NativeCanonicalRecord N) (message : Message N) : Bool :=
  message.id = some latest.raw.id && message.role = .assistant

def latestMatches (latest : NativeCanonicalRecord N) (messages : List (Message N)) : List Nat :=
  messages.findIdxs (isLatest latest)

def estimationMessage (message : Message N) : Option (EstimationMessage N) :=
  if !message.native.isNullish then none
  else
    (platform.estimationValue (.array (
      if message.providerMetadata.isNullish then message.content
      else message.content ++
        [object
          [("type", .string (ofString "reflection-provider-metadata")),
            ("providerMetadata", message.providerMetadata)]]))).map fun content =>
      { role := message.role
        content := content }

def estimateMessages (messages : List (Message N)) : Option (List (EstimationMessage N)) :=
  messages.mapM (estimationMessage platform)

/-- `8 + estimateNativeTokens(…)` of every message, added up. -/
def addedTokens (sum : N) : List (EstimationMessage N) → Option N
  | [] => some sum
  | message :: rest => do
      let tokens ← platform.estimateNativeTokens message
      addedTokens (sum + ((8 : Nat) : N) + tokens) rest

/-- A list continues the one an anchor was set in, or the request that the latest assistant
is taken to answer. -/
def continues (previous : State N Digest) (latest : NativeCanonicalRecord N)
    (messages : List (Message N)) (hashes : List Digest) (index : Nat) : Bool :=
  let before := hashes.take index
  let after := hashes.drop (index + 1)
  let lowered := (messages[index]?).any fun message =>
    matchesAssistant platform latest message prepared.model.providerID
  match previous.anchor with
  | some anchor =>
      if some anchor.id = prepared.assistantId then
        some anchor.raw = prepared.raw && hashes[index]? = some anchor.message &&
          before = anchor.before && after.take anchor.after.length = anchor.after && lowered
      else before = previous.messages && lowered
  | none => before = previous.messages && lowered

def eligible (previous : State N Digest) (latest : NativeCanonicalRecord N) : Bool :=
  prepared.config = some previous.config && prepared.raw.isSome && prepared.assistantId.isSome &&
    sameModel latest.raw prepared.model

/-- The size of a request that continues the remembered one exactly: `some none` is
`undefined`, and `none` an estimate that fails. -/
def estimate (messages : List (Message N)) : Option (Option N) :=
  match prepared.previous, prepared.latest, prepared.total with
  | some previous, some latest, some total =>
      if eligible prepared previous latest then
        match messageHashes platform messages with
        | none => some none
        | some hashes =>
            match latestMatches latest messages with
            | [index] =>
                if continues platform prepared previous latest messages hashes index then do
                  let copies ← estimateMessages platform (messages.drop (index + 1))
                  let added ← addedTokens platform ((0 : Nat) : N) copies
                  some (some (total + added))
                else some none
            | _ => some none
      else some none
  | _, _, _ => some none

/-- Whether an assistant newer than the remembered request reported usage. -/
def answered (previous : State N Digest) : Bool :=
  match prepared.latest with
  | none => false
  | some latest =>
      previous.sent.isSome && previous.sent ≠ prepared.assistantId && prepared.assistantId.isSome &&
        prepared.total.isSome && sameModel latest.raw prepared.model

/-- The estimates of the messages that no digest is left for and that are not the answering
assistant's own output. -/
def uncreditedTokens (own : Message N → Bool) (sum : N) (left : List Digest) :
    List (Digest × Message N × EstimationMessage N) → Option N
  | [] => some sum
  | (hash, message, copy) :: rest =>
      if hash ∈ left then uncreditedTokens own sum (left.erase hash) rest
      else if own message then uncreditedTokens own sum left rest
      else do
        let tokens ← platform.estimateNativeTokens copy
        uncreditedTokens own (sum + (((8 : Nat) : N) + tokens)) left rest

/-- Whether a message is the answering assistant's own output, which its usage counts. -/
def ownOutput (previous : State N Digest) (message : Message N) : Bool :=
  answered prepared previous && prepared.latest.any fun latest =>
    isLatest latest message && matchesAssistant platform latest message prepared.model.providerID

/-- Start from the reported size of the request that produced the latest assistant or, when
no newer response reported usage, from the size recorded for the last request sent. Removed
content is never subtracted. -/
def bound (messages : List (Message N)) (fixedTokens : N) : Option (Option N) :=
  match prepared.previous with
  | none => some none
  | some previous =>
      let sameConfig : Bool := prepared.config = some previous.config
      if !answered prepared previous && (previous.tokens.isNone || !sameConfig) then some none
      else
        match messageHashes platform messages with
        | none => some none
        | some hashes => do
            let copies ← estimateMessages platform messages
            let added ← uncreditedTokens platform (ownOutput platform prepared previous)
              ((0 : Nat) : N) previous.messages (hashes.zip (messages.zip copies))
            some (if answered prepared previous then
              prepared.total.map fun total =>
                total + added + if sameConfig then ((0 : Nat) : N) else fixedTokens
            else previous.tokens.map fun tokens => tokens + added)

/-- Remembers the request that is sent. Each reason the code logs for a missing anchor is one
of the conditions under which `estimate` gives no size, so the anchor is set where it does. A
request that cannot be hashed leaves nothing remembered. -/
def remember (tracker : UsageTracker N Digest) (session : JsString) (messages : List (Message N))
    (tokens : Option N) : Option (UsageTracker N Digest) :=
  match prepared.config, messageHashes platform messages with
  | some config, some hashes => do
      let estimated ← estimate platform prepared messages
      let index := if estimated.isSome then
          prepared.latest.bind fun latest => (latestMatches latest messages).head?
        else none
      let anchor := do
        let index ← index
        let id ← prepared.assistantId
        let raw ← prepared.raw
        let message ← hashes[index]?
        some
          { id := id
            raw := raw
            message := message
            before := hashes.take index
            after := hashes.drop (index + 1) }
      some (tracker.set session
        { config := config
          messages := hashes
          anchor := anchor
          sent := some (prepared.assistantId.getD platform.noAssistant)
          tokens := tokens.filter fun tokens =>
            platform.isSafeInteger tokens && ((0 : Nat) : N) ≤ tokens })
  | _, _ => some (tracker.delete session)

end Tracker

end Reflection.Plugin
