/-
What a model decides on the claims of an extraction and on the entities they mention.

The answer names every proposed claim and every mention of a kept claim once. A mention keeps a
candidate it was offered, becomes a new entity, or joins the new entity of an earlier mention with
the same normalized text. An id that was offered to another mention is accepted, and one that was
never offered becomes a new entity; both are recorded.
-/

import Reflection.Foundation.EntryMaps
import Reflection.Foundation.Results
import Reflection.Shared.Extraction
import Reflection.Shared.Framing

namespace Reflection

open JsString

/-- `\p{White_Space}` and the separators U+001C to U+001F. -/
def isNameSpace (unit : UInt16) : Bool :=
  (0x09 ≤ unit && unit ≤ 0x0d) || (0x1c ≤ unit && unit ≤ 0x20) || unit == 0x85 || unit == 0xa0 ||
    unit == 0x1680 || (0x2000 ≤ unit && unit ≤ 0x200a) || unit == 0x2028 || unit == 0x2029 ||
      unit == 0x202f || unit == 0x205f || unit == 0x3000

/-- The words of the folded name, one blank between two. `caseFold` is the library's. -/
def normalizeName (caseFold : JsString → JsString) (value : JsString) : JsString :=
  [0x20].intercalate (((caseFold value).splitOnP isNameSpace).filter fun word => !word.isEmpty)

inductive ClaimAction
  | keep
  | drop
  | review
deriving DecidableEq

structure ClaimDecision where
  claimId : JsString
  action : ClaimAction
deriving DecidableEq

structure Resolution where
  mentionId : JsString
  candidateEntityId : Option JsString
  sameNewEntityAs : Option JsString
deriving DecidableEq

structure ResolutionResult where
  claims : List ClaimDecision
  resolutions : List Resolution
deriving DecidableEq

structure EntityCandidate where
  id : JsString
  canonicalName : JsString
  description : JsString
  aliases : List JsString
deriving DecidableEq

structure MentionContext where
  mentionId : JsString
  role : JsString
  text : JsString
  supportingClaim : JsString
  candidates : List EntityCandidate
deriving DecidableEq

structure ValidatedClaimDecision where
  index : Nat
  claim : ExtractedClaim
deriving DecidableEq

structure ValidatedMentionResolution where
  context : MentionContext
  resolution : Resolution
  selectedCandidate : Option EntityCandidate
deriving DecidableEq

inductive SubstitutionOutcome
  | otherMentionCandidate
  | newEntity
deriving DecidableEq

structure CandidateSubstitution where
  mentionId : JsString
  candidateEntityId : JsString
  outcome : SubstitutionOutcome
deriving DecidableEq

structure ValidatedResolutionPlan where
  keptClaims : List ValidatedClaimDecision
  mentions : List ValidatedMentionResolution
  substitutions : List CandidateSubstitution
deriving DecidableEq

inductive ResolutionError
  /-- claim triage returned duplicate claim IDs -/
  | duplicateClaims
  /-- claim triage must return every proposed claim exactly once -/
  | claimsNotExact
  /-- entity resolution returned duplicate mention IDs -/
  | duplicateMentions
  /-- entity resolution must return every mention exactly once -/
  | mentionsNotExact
  /-- entity resolution returned an invalid new-entity group for the mention -/
  | invalidGroup (mentionId : JsString)
  /-- a TypeError: a property of undefined is read -/
  | undefined
deriving DecidableEq

/-- The template `c{index}`. -/
def claimName (index : Nat) : JsString := 0x63 :: decimal index

def subjectMention (index : Nat) : JsString := claimName index ++ ofString ".subject"

def objectMention (index : Nat) : JsString := claimName index ++ ofString ".object"

/-! ### Claims -/

/-- The loop over the proposals: the kept ones with their indexes. -/
def keptDecisions (actual : AList fun _ : JsString => ClaimDecision) :
    Nat → List ExtractedClaim → Except ResolutionError (List ValidatedClaimDecision)
  | _, [] => .ok []
  | index, claim :: rest =>
      match actual.lookup (claimName index) with
      | none => .error .undefined
      | some decision => do
          let kept ← keptDecisions actual (index + 1) rest
          .ok (if decision.action = .keep then
            { index := index
              claim := claim } :: kept
          else kept)

def validateClaimDecisions (proposed : List ExtractedClaim) (result : ResolutionResult) :
    Except ResolutionError (List ValidatedClaimDecision) :=
  let expected := (List.range proposed.length).map claimName
  let actual := ofEntries (result.claims.map fun decision => (decision.claimId, decision))
  if mapSize actual ≠ result.claims.length then .error .duplicateClaims
  else if mapSize actual ≠ expected.length || actual.keys.any fun id => !expected.contains id then
    .error .claimsNotExact
  else keptDecisions actual 0 proposed

/-- The mentions of a kept claim. -/
def ValidatedClaimDecision.mentionIds (kept : ValidatedClaimDecision) : List JsString :=
  subjectMention kept.index :: (if kept.claim.objectEntity.isSome then [objectMention kept.index] else [])

/-! ### Mentions -/

section Mentions

variable (caseFold : JsString → JsString)

/-- What the loop over the kept contexts looks up. -/
structure ResolutionMaps where
  expected : AList fun _ : JsString => MentionContext
  contextIndexes : AList fun _ : JsString => Nat
  actual : AList fun _ : JsString => Resolution
  requestCandidates : List EntityCandidate

def resolutionMaps (contexts keptContexts : List MentionContext) (result : ResolutionResult) :
    ResolutionMaps :=
  { expected := ofEntries (keptContexts.map fun context => (context.mentionId, context))
    contextIndexes := ofEntries (keptContexts.zipIdx.map fun (context, index) => (context.mentionId, index))
    actual := ofEntries (result.resolutions.map fun resolution => (resolution.mentionId, resolution))
    requestCandidates := contexts.flatMap MentionContext.candidates }

/-- A mention may only join an earlier new entity that joins none itself. -/
def invalidGroup (maps : ResolutionMaps) (context : MentionContext) (resolution : Resolution)
    (anchorId : JsString) : Bool :=
  resolution.candidateEntityId.isSome ||
    match maps.expected.lookup anchorId, maps.actual.lookup anchorId with
    | some groupedContext, some groupedResolution =>
        groupedResolution.candidateEntityId.isSome || groupedResolution.sameNewEntityAs.isSome ||
          (match maps.contextIndexes.lookup anchorId, maps.contextIndexes.lookup context.mentionId with
          | some anchor, some member => decide (member ≤ anchor)
          | _, _ => false) ||
            normalizeName caseFold groupedContext.text != normalizeName caseFold context.text
    | _, _ => true

/-- The candidate a mention selects, and what is recorded when it was not offered to it. The first
candidate with an id wins, among its own and among all. -/
def selectCandidate (requestCandidates : List EntityCandidate) (context : MentionContext)
    (resolution : Resolution) :
    Resolution × Option EntityCandidate × Option CandidateSubstitution :=
  match resolution.candidateEntityId with
  | none => (resolution, none, none)
  | some candidateEntityId =>
      match context.candidates.find? fun candidate => candidate.id == candidateEntityId with
      | some own => (resolution, some own, none)
      | none =>
          match requestCandidates.find? fun candidate => candidate.id == candidateEntityId with
          | some other =>
              (resolution, some other,
                some
                  { mentionId := context.mentionId
                    candidateEntityId := candidateEntityId
                    outcome := .otherMentionCandidate })
          | none =>
              ({ resolution with candidateEntityId := none }, none,
                some
                  { mentionId := context.mentionId
                    candidateEntityId := candidateEntityId
                    outcome := .newEntity })

/-- The loop's body. Groups are checked against the original answer. -/
def resolveMention (maps : ResolutionMaps) (context : MentionContext) :
    Except ResolutionError (ValidatedMentionResolution × Option CandidateSubstitution) :=
  match maps.actual.lookup context.mentionId with
  | none => .error .undefined
  | some original =>
      let (resolution, selectedCandidate, substitution) :=
        selectCandidate maps.requestCandidates context original
      if resolution.sameNewEntityAs.any (invalidGroup caseFold maps context original) then
        .error (.invalidGroup context.mentionId)
      else
        .ok
          ({ context := context
             resolution := resolution
             selectedCandidate := selectedCandidate },
            substitution)

def validateResolutionResult (proposed : List ExtractedClaim) (contexts : List MentionContext)
    (result : ResolutionResult) : Except ResolutionError ValidatedResolutionPlan := do
  let keptClaims ← validateClaimDecisions proposed result
  let keptMentionIds := keptClaims.flatMap ValidatedClaimDecision.mentionIds
  let keptContexts := contexts.filter fun context => keptMentionIds.contains context.mentionId
  let maps := resolutionMaps contexts keptContexts result
  if mapSize maps.actual ≠ result.resolutions.length then .error .duplicateMentions
  else if mapSize maps.actual ≠ mapSize maps.expected ||
      maps.actual.keys.any fun id => !maps.expected.keys.contains id then .error .mentionsNotExact
  else
    let resolved ← keptContexts.mapM (resolveMention caseFold maps)
    .ok
      { keptClaims := keptClaims
        mentions := resolved.map Prod.fst
        substitutions := resolved.filterMap Prod.snd }

end Mentions

end Reflection
