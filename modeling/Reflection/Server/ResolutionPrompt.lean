/-
The candidates a resolution prompt shows, within a budget of bytes.

Ids and names are always shown. Then, candidate by candidate, a description and up to ten aliases
are added as long as the whole payload stays within the budget. The size of the payload is kept
up to date by the difference that one candidate makes. The loops over mentions, candidates and
aliases are one list of steps here, in their order.
-/

import Reflection.Server.AsciiJson
import Reflection.Server.Utf8Truncation
import Reflection.Shared.Resolution

namespace Reflection

open JsString

def MAX_RESOLUTION_CANDIDATE_PAYLOAD_BYTES : Nat := 1000000

structure TerminalExtractionValidationError where
  message : String
deriving DecidableEq

/-- A candidate as the prompt shows it. -/
structure ProjectedCandidate where
  entityId : JsString
  canonicalName : JsString
  description : JsString
  aliases : List JsString
deriving DecidableEq

structure PromptMention where
  mentionId : JsString
  role : JsString
  text : JsString
  supportingClaim : JsString
  candidates : List ProjectedCandidate
deriving DecidableEq

/-- What is added to a candidate, as its source has it. -/
inductive PromptField
  | description (value : JsString)
  | aliasName (value : JsString)
deriving DecidableEq

structure PromptStep where
  mentionIndex : Nat
  candidateIndex : Nat
  field : PromptField
deriving DecidableEq

structure PromptState where
  candidates : List (List ProjectedCandidate)
  candidateBytes : Int
deriving DecidableEq

def identityOnly (candidate : EntityCandidate) : ProjectedCandidate :=
  { entityId := candidate.id
    canonicalName := candidate.canonicalName
    description := []
    aliases := [] }

def projectCandidate (candidate : EntityCandidate) :
    Except TerminalExtractionValidationError ProjectedCandidate :=
  if codePointLength candidate.canonicalName > 500 then
    .error ⟨"entity candidate name exceeds the extraction contract"⟩
  else .ok (identityOnly candidate)

/-- The steps of one candidate. -/
def candidateSteps (mentionIndex candidateIndex : Nat) (candidate : EntityCandidate) : List PromptStep :=
  (PromptField.description candidate.description :: (candidate.aliases.take 10).map .aliasName).map
    fun field =>
      { mentionIndex := mentionIndex
        candidateIndex := candidateIndex
        field := field }

def mentionSteps (mentionIndex : Nat) (mention : MentionContext) : List PromptStep :=
  mention.candidates.zipIdx.flatMap fun entry => candidateSteps mentionIndex entry.2 entry.1

def promptSteps (mentions : List MentionContext) : List PromptStep :=
  mentions.zipIdx.flatMap fun entry => mentionSteps entry.2 entry.1

section Prompt

variable (numbers : Numbers)

def ProjectedCandidate.json (candidate : ProjectedCandidate) : Json numbers.Number :=
  .object
    [(ofString "entity_id", .string candidate.entityId),
      (ofString "canonical_name", .string candidate.canonicalName),
      (ofString "description", .string candidate.description),
      (ofString "aliases", .array (candidate.aliases.map .string))]

def candidatesJson (candidates : List (List ProjectedCandidate)) : Json numbers.Number :=
  .array (candidates.map fun row => .array (row.map (·.json numbers)))

/-- What tells the candidates of a mention apart. -/
def ProjectedCandidate.evidenceJson (candidate : ProjectedCandidate) : Json numbers.Number :=
  .object
    [(ofString "canonical_name", .string candidate.canonicalName),
      (ofString "description", .string candidate.description),
      (ofString "aliases", .array (candidate.aliases.map .string))]

def compactAsciiJsonByteLength (value : Json numbers.Number) : Nat :=
  utf8ByteLength (compactAsciiJson numbers value)

/-- `candidateBytes + after - before` within the budget. -/
def withinBudget (candidateBytes : Int) (after before : Nat) : Prop :=
  candidateBytes + after - before ≤ (MAX_RESOLUTION_CANDIDATE_PAYLOAD_BYTES : Int)

instance (candidateBytes : Int) (after before : Nat) :
    Decidable (withinBudget candidateBytes after before) :=
  inferInstanceAs (Decidable (_ ≤ _))

/-- One field of one candidate, with the bytes of the whole payload. -/
def fillField (projected : ProjectedCandidate) (candidateBytes : Int) :
    PromptField → ProjectedCandidate × Int
  | .description value =>
      let described := { projected with description := truncateUtf8Bytes value 1000 }
      let beforeDescription := compactAsciiJsonByteLength numbers (projected.json numbers)
      let afterDescription := compactAsciiJsonByteLength numbers (described.json numbers)
      if withinBudget candidateBytes afterDescription beforeDescription then
        (described, candidateBytes + (afterDescription - beforeDescription))
      else ({ described with description := [] }, candidateBytes)
  | .aliasName value =>
      let boundedAlias := truncateUtf8Bytes value 256
      if boundedAlias.length = 0 then (projected, candidateBytes)
      else
        let pushed := { projected with aliases := projected.aliases ++ [boundedAlias] }
        let beforeAlias := compactAsciiJsonByteLength numbers (projected.json numbers)
        let afterAlias := compactAsciiJsonByteLength numbers (pushed.json numbers)
        if withinBudget candidateBytes afterAlias beforeAlias then
          (pushed, candidateBytes + (afterAlias - beforeAlias))
        else ({ pushed with aliases := pushed.aliases.dropLast }, candidateBytes)

/-- `candidates[mentionIndex]![candidateIndex]!`. -/
def candidateAt (candidates : List (List ProjectedCandidate)) (mentionIndex candidateIndex : Nat) :
    Option ProjectedCandidate :=
  candidates[mentionIndex]?.bind fun row => row[candidateIndex]?

def putCandidate (candidates : List (List ProjectedCandidate)) (mentionIndex candidateIndex : Nat)
    (candidate : ProjectedCandidate) : List (List ProjectedCandidate) :=
  candidates.modify mentionIndex fun row => row.set candidateIndex candidate

def promptStep (state : PromptState) (step : PromptStep) : PromptState :=
  match candidateAt state.candidates step.mentionIndex step.candidateIndex with
  | none => state
  | some projected =>
      let filled := fillField numbers projected state.candidateBytes step.field
      { candidates := putCandidate state.candidates step.mentionIndex step.candidateIndex filled.1
        candidateBytes := filled.2 }

/-- The lists before the first step. -/
def promptStart (candidates : List (List ProjectedCandidate)) : PromptState :=
  { candidates := candidates
    candidateBytes := compactAsciiJsonByteLength numbers (candidatesJson numbers candidates) }

def checkIdentities : List JsString → List ProjectedCandidate →
    Except TerminalExtractionValidationError Unit
  | _, [] => .ok ()
  | identities, candidate :: rest =>
      let identity := compactAsciiJson numbers (candidate.evidenceJson numbers)
      if identities.contains identity then
        .error ⟨"entity candidates are indistinguishable within the prompt budget"⟩
      else checkIdentities (identity :: identities) rest

def promptMention (mention : MentionContext) (candidates : List ProjectedCandidate) : PromptMention :=
  { mentionId := mention.mentionId
    role := mention.role
    text := mention.text
    supportingClaim := mention.supportingClaim
    candidates := candidates }

def resolutionPromptMentions (mentions : List MentionContext) :
    Except TerminalExtractionValidationError (List PromptMention) := do
  let candidates ← mentions.mapM fun mention => mention.candidates.mapM projectCandidate
  let start := promptStart numbers candidates
  if start.candidateBytes > (MAX_RESOLUTION_CANDIDATE_PAYLOAD_BYTES : Int) then
    .error ⟨"entity candidate identities exceed the prompt budget"⟩
  else do
    let filled := (promptSteps mentions).foldl (promptStep numbers) start
    filled.candidates.forM (checkIdentities numbers [])
    .ok (List.zipWith promptMention mentions filled.candidates)

end Prompt

end Reflection
