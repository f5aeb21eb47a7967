/-
Ranking what a search recalls.

Candidates of one equivalence key are one claim, and the best of them stands for it. A direct
candidate scores at least one, any other at most nine tenths, and this alone puts the claims that
were found directly first. Scores are rational numbers here, where the runtime rounds.
-/

import Reflection.Foundation.BestOfGroups
import Reflection.Shared.JsString

namespace Reflection

/-- A number of the runtime; none is NaN. -/
abbrev JsNumber := Option ℚ

structure SegmentReference where
  sourceId : JsString
  segmentId : JsString
deriving DecidableEq

structure RecallCandidate where
  subject : JsString
  subjectEntityId : JsString
  predicate : JsString
  confidence : JsNumber
  objectEntity : Option JsString
  objectEntityId : Option JsString
  objectValue : Option JsString
  equivalenceKey : JsString
  sourceId : JsString
  segmentId : JsString
  similarity : JsNumber
  seedSimilarity : Option JsNumber
  isDirect : Bool
deriving DecidableEq

structure ClaimSupport where
  segments : List SegmentReference
  supportCount : Nat
  sessionCount : Nat
deriving DecidableEq

structure SearchClaim where
  subject : JsString
  subjectEntityId : JsString
  predicate : JsString
  confidence : JsNumber
  objectEntity : Option JsString
  objectEntityId : Option JsString
  objectValue : Option JsString
  segments : List SegmentReference
  supportCount : Nat
  sessionCount : Nat
  score : ℚ
deriving DecidableEq

def clamp : JsNumber → ℚ
  | none => 0
  | some value => min 1 (max 0 value)

section Ranking

variable (supportByKey : JsString → Option ClaimSupport)

def sessionCount (candidate : RecallCandidate) : Nat :=
  match supportByKey candidate.equivalenceKey with
  | some support => support.sessionCount
  | none => 1

def supportBoost (candidate : RecallCandidate) : ℚ :=
  min (1 / 10) (2 / 100 * max 0 ((sessionCount supportByKey candidate : ℚ) - 1))

def candidateScore (candidate : RecallCandidate) : ℚ :=
  let similarity := clamp candidate.similarity
  let confidence := clamp candidate.confidence
  if candidate.isDirect then
    1 + 8 / 10 * similarity + 2 / 10 * confidence + supportBoost supportByKey candidate
  else
    8 / 10 * (5 / 10 * similarity + 3 / 10 * clamp (candidate.seedSimilarity.getD (some 0)) +
      2 / 10 * confidence) + supportBoost supportByKey candidate

/-- An entry of the map of groups. -/
structure ScoredCandidate where
  candidate : RecallCandidate
  score : ℚ
deriving DecidableEq

def ScoredCandidate.key (scored : ScoredCandidate) : JsString := scored.candidate.equivalenceKey

def scoreCandidate (candidate : RecallCandidate) : ScoredCandidate :=
  { candidate := candidate
    score := candidateScore supportByKey candidate }

def searchClaim (scored : ScoredCandidate) : SearchClaim :=
  let support := supportByKey scored.key
  { subject := scored.candidate.subject
    subjectEntityId := scored.candidate.subjectEntityId
    predicate := scored.candidate.predicate
    confidence := scored.candidate.confidence
    objectEntity := scored.candidate.objectEntity
    objectEntityId := scored.candidate.objectEntityId
    objectValue := scored.candidate.objectValue
    segments :=
      match support with
      | some support => support.segments
      | none =>
          [{ sourceId := scored.candidate.sourceId
             segmentId := scored.candidate.segmentId }]
    supportCount :=
      match support with
      | some support => support.supportCount
      | none => 1
    sessionCount := sessionCount supportByKey scored.candidate
    score := scored.score }

/-- The groups that are returned, best first. -/
def rankedGroups (candidates : List RecallCandidate) (limit : Nat) : List ScoredCandidate :=
  topGroups ScoredCandidate.key ScoredCandidate.score limit
    (candidates.map (scoreCandidate supportByKey))

def rankAndGroupClaims (candidates : List RecallCandidate) (limit : Nat) : List SearchClaim :=
  (rankedGroups supportByKey candidates limit).map (searchClaim supportByKey)

end Ranking

/-! ### Bounds of a score -/

theorem clamp_nonneg (number : JsNumber) : 0 ≤ clamp number := by
  cases number with
  | none => exact le_rfl
  | some value => exact le_min zero_le_one (le_max_left 0 value)

theorem clamp_le_one (number : JsNumber) : clamp number ≤ 1 := by
  cases number with
  | none => exact zero_le_one
  | some value => exact min_le_left 1 (max 0 value)

section Bounds

variable {supportByKey : JsString → Option ClaimSupport} {candidate : RecallCandidate}

theorem supportBoost_nonneg : 0 ≤ supportBoost supportByKey candidate := by
  refine le_min (by norm_num) (mul_nonneg (by norm_num) (le_max_left 0 _))

theorem supportBoost_le : supportBoost supportByKey candidate ≤ 1 / 10 := min_le_left _ _

theorem candidateScore_direct (direct : candidate.isDirect = true) :
    1 ≤ candidateScore supportByKey candidate := by
  have similarity := clamp_nonneg candidate.similarity
  have confidence := clamp_nonneg candidate.confidence
  have boost : 0 ≤ supportBoost supportByKey candidate := supportBoost_nonneg
  unfold candidateScore
  rw [if_pos direct]
  linarith

/-- The three weights sum to one, so that only the factor and the boost count. -/
theorem candidateScore_neighbor (neighbor : ¬candidate.isDirect = true) :
    candidateScore supportByKey candidate < 1 := by
  have similarity := clamp_le_one candidate.similarity
  have confidence := clamp_le_one candidate.confidence
  have seed := clamp_le_one (candidate.seedSimilarity.getD (some 0))
  have boost : supportBoost supportByKey candidate ≤ 1 / 10 := supportBoost_le
  unfold candidateScore
  rw [if_neg neighbor]
  linarith

theorem one_le_candidateScore_iff :
    1 ≤ candidateScore supportByKey candidate ↔ candidate.isDirect = true := by
  constructor
  · intro atLeast
    by_contra neighbor
    exact absurd (candidateScore_neighbor neighbor) (not_lt.mpr atLeast)
  · exact candidateScore_direct

end Bounds

/-! ### Ranked groups -/

section Groups

variable {supportByKey : JsString → Option ClaimSupport} {candidates : List RecallCandidate}
  {limit : Nat} {group : ScoredCandidate}

/-- Some candidate of the key was found directly. -/
def HasDirect (candidates : List RecallCandidate) (key : JsString) : Prop :=
  ∃ candidate ∈ candidates, candidate.equivalenceKey = key ∧ candidate.isDirect = true

theorem rankedGroups_score (inside : group ∈ rankedGroups supportByKey candidates limit) :
    group.candidate ∈ candidates ∧ group.score = candidateScore supportByKey group.candidate := by
  have isScored := (bestOfGroups_best ScoredCandidate.key ScoredCandidate.score
    (candidates.map (scoreCandidate supportByKey))).inside group (mem_topGroups inside)
  obtain ⟨candidate, isCandidate, rfl⟩ := List.mem_map.mp isScored
  exact ⟨isCandidate, rfl⟩

theorem rankedGroups_maximal (inside : group ∈ rankedGroups supportByKey candidates limit)
    {other : RecallCandidate} (isCandidate : other ∈ candidates)
    (sameKey : other.equivalenceKey = group.key) :
    candidateScore supportByKey other ≤ group.score :=
  (bestOfGroups_best ScoredCandidate.key ScoredCandidate.score
    (candidates.map (scoreCandidate supportByKey))).maximal (mem_topGroups inside)
      (List.mem_map_of_mem isCandidate) sameKey

theorem rankedGroups_best (inside : group ∈ rankedGroups supportByKey candidates limit)
    {other : RecallCandidate} (isCandidate : other ∈ candidates)
    (leftOut : other.equivalenceKey ∉ (rankedGroups supportByKey candidates limit).map (·.key)) :
    candidateScore supportByKey other ≤ group.score :=
  topGroups_best inside (List.mem_map_of_mem isCandidate) leftOut

/-- A group has a direct candidate exactly where its score says so. -/
theorem rankedGroups_hasDirect_iff (inside : group ∈ rankedGroups supportByKey candidates limit) :
    HasDirect candidates group.key ↔ 1 ≤ group.score := by
  obtain ⟨isCandidate, isScore⟩ := rankedGroups_score inside
  constructor
  · intro hasDirect
    obtain ⟨candidate, isMember, sameKey, direct⟩ := hasDirect
    exact (candidateScore_direct direct).trans (rankedGroups_maximal inside isMember sameKey)
  · intro atLeast
    rw [isScore] at atLeast
    exact ⟨group.candidate, isCandidate, rfl, one_le_candidateScore_iff.mp atLeast⟩

end Groups

/-- The groups that are returned are the best, each with the score of its best candidate, and those
with a direct candidate come first. -/
theorem rankAndGroupClaims_best (supportByKey : JsString → Option ClaimSupport)
    (candidates : List RecallCandidate) (limit : Nat) :
    ∃ groups : List ScoredCandidate,
      rankAndGroupClaims supportByKey candidates limit = groups.map (searchClaim supportByKey) ∧
      groups.length = min limit (candidates.map (·.equivalenceKey)).dedup.length ∧
      (groups.map (·.key)).Nodup ∧
      groups.Pairwise (fun first second => second.score ≤ first.score) ∧
      (∀ group ∈ groups, group.candidate ∈ candidates ∧
        group.score = candidateScore supportByKey group.candidate ∧
        ∀ other ∈ candidates, other.equivalenceKey = group.key →
          candidateScore supportByKey other ≤ group.score) ∧
      groups.Pairwise (fun first second =>
        HasDirect candidates second.key → HasDirect candidates first.key) ∧
      (∀ other ∈ candidates, other.equivalenceKey ∉ groups.map (·.key) → ∀ group ∈ groups,
        candidateScore supportByKey other ≤ group.score ∧
          (HasDirect candidates other.equivalenceKey → HasDirect candidates group.key)) ∧
      ∀ others : List RecallCandidate, others.Perm candidates →
        (rankAndGroupClaims supportByKey others limit).map (·.score) = groups.map (·.score) := by
  have ordered : (rankedGroups supportByKey candidates limit).Pairwise
      fun first second => second.score ≤ first.score := topGroups_sorted
  refine ⟨rankedGroups supportByKey candidates limit, rfl, ?_, topGroups_distinct, ordered, ?_, ?_, ?_, ?_⟩
  · rw [rankedGroups, topGroups_length, List.map_map]
    rfl
  · intro group inside
    obtain ⟨isCandidate, isScore⟩ := rankedGroups_score inside
    exact ⟨isCandidate, isScore, fun other isOther => rankedGroups_maximal inside isOther⟩
  · refine ordered.imp_of_mem fun {first second} firstInside secondInside below hasDirect => ?_
    rw [rankedGroups_hasDirect_iff secondInside] at hasDirect
    rw [rankedGroups_hasDirect_iff firstInside]
    exact hasDirect.trans below
  · intro other isOther leftOut group inside
    refine ⟨rankedGroups_best inside isOther leftOut, fun hasDirect => ?_⟩
    obtain ⟨candidate, isCandidate, sameKey, direct⟩ := hasDirect
    rw [rankedGroups_hasDirect_iff inside]
    rw [← sameKey] at leftOut
    exact (candidateScore_direct direct).trans (rankedGroups_best inside isCandidate leftOut)
  · intro others permuted
    rw [rankAndGroupClaims, List.map_map]
    refine topGroups_scores fun scored => ?_
    rw [List.mem_map, List.mem_map]
    constructor
    · intro isScored
      obtain ⟨candidate, isCandidate, same⟩ := isScored
      exact ⟨candidate, permuted.mem_iff.mp isCandidate, same⟩
    · intro isScored
      obtain ⟨candidate, isCandidate, same⟩ := isScored
      exact ⟨candidate, permuted.mem_iff.mpr isCandidate, same⟩

end Reflection
