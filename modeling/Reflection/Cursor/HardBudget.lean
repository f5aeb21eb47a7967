/-
What the size reported for a projected request says about the provider's size of it.

A candidate is never reported smaller than the provider would count it, whatever its figure
comes from. Trimming subtracts the heuristic costs of what it drops from that figure. This
is sound from a heuristic figure; from a measured or bounded one it also subtracts what the
heuristic had never added.
-/

import Reflection.Cursor.ToolSafety

namespace Reflection.Cursor

/-- What a provider counts: the system prompt with the tools, and a cost for each message. -/
structure ProviderSize (N : Type) where
  fixed : N
  cost : Message → N

section HardBudget

variable {N : Type} [CommRing N] [LinearOrder N] [IsStrictOrderedRing N]

def ProviderSize.size (provider : ProviderSize N) (messages : List Message) : N :=
  provider.fixed + (messages.map provider.cost).sum

variable {estimators : Estimators N} {input : ProjectionInput N} {provider : ProviderSize N}

/-! ### Sums of costs -/

omit [LinearOrder N] [IsStrictOrderedRing N] in
theorem suffixCosts_getD (costs : List N) (start : Nat) :
    (suffixCosts costs).getD start ((0 : Nat) : N) = (costs.drop start).sum := by
  have behind (cost : N) (rest : List N) : suffixCosts (cost :: rest) =
      ((suffixCosts rest).headD ((0 : Nat) : N) + cost) :: suffixCosts rest := rfl
  have first (costs : List N) : (suffixCosts costs).headD ((0 : Nat) : N) = costs.sum := by
    induction costs with
    | nil => exact Nat.cast_zero
    | cons cost rest ih =>
        rw [behind, List.headD_cons, ih, List.sum_cons, add_comm]
  induction costs generalizing start with
  | nil =>
      rw [List.drop_nil]
      cases start with
      | zero => exact Nat.cast_zero
      | succ start => exact Nat.cast_zero
  | cons cost rest ih =>
      cases start with
      | zero =>
          rw [List.drop_zero, ← first, behind]
          rfl
      | succ start =>
          rw [behind, List.getD_cons_succ, ih, List.drop_succ_cons]

variable (input) in
/-- The size of a request by the estimates alone. -/
def heuristicSize (costs : List N) (made : Candidate N) : N :=
  input.systemTokens + made.headCost + (suffixCosts costs).getD made.start ((0 : Nat) : N)

omit [IsStrictOrderedRing N] in
/-- The first loop takes off the costs of exactly the messages it drops. -/
theorem dropOldest_balance (safe : List Bool) (reserve : N) (costs : List N) (start : Nat)
    (estimated : N) :
    (dropOldest input safe reserve (costs.drop start) start estimated).2 -
        (costs.drop (dropOldest input safe reserve (costs.drop start) start estimated).1).sum =
      estimated - (costs.drop start).sum := by
  generalize isRest : costs.drop start = rest
  induction rest generalizing start estimated with
  | nil =>
      simp only [dropOldest, isRest]
  | cons cost others ih =>
      cases others with
      | nil => simp only [dropOldest, isRest]
      | cons next others =>
          have behind : costs.drop (start + 1) = next :: others := by
            rw [← List.drop_drop, isRest, List.drop_one, List.tail_cons]
          rw [dropOldest]
          split
          · rw [ih (start + 1) (estimated - cost) behind, List.sum_cons (a := cost)]
            ring
          · simp only [isRest]

omit [LinearOrder N] [IsStrictOrderedRing N] in
theorem backToSafe_balance (safe : List Bool) (costs : List N) (lowest start : Nat) (estimated : N) :
    (backToSafe safe costs lowest start estimated).2 -
        (costs.drop (backToSafe safe costs lowest start estimated).1).sum =
      estimated - (costs.drop start).sum := by
  induction start generalizing estimated with
  | zero => rfl
  | succ start ih =>
      have here : (costs.drop start).sum =
          costs.getD start ((0 : Nat) : N) + (costs.drop (start + 1)).sum := by
        rcases Nat.lt_or_ge start costs.length with inside | outside
        · rw [List.drop_eq_getElem_cons inside, List.sum_cons, List.getD_eq_getElem _ _ inside]
        · rw [List.drop_eq_nil_of_le outside, List.drop_eq_nil_of_le (Nat.le_succ_of_le outside),
            List.getD_eq_default _ _ outside, Nat.cast_zero, zero_add]
      rw [backToSafe]
      split
      · rw [ih, here]
        ring
      · rfl

omit [IsStrictOrderedRing N] in
/-- A trimmed request is reported with the figure it had, less what the heuristic says the
trimming saves. -/
theorem resized_estimate {costs : List N} {projection trimmed : Candidate N}
    (trim : Trimmed estimators input costs projection trimmed) :
    (trimmed.resized projection (trimTo estimators input costs projection).2).estimatedTokens =
      projection.estimatedTokens -
        (heuristicSize input costs projection - heuristicSize input costs trimmed) := by
  obtain ⟨_, built⟩ := candidate_built trim.built
  have balance : (trimTo estimators input costs projection).2 -
      (costs.drop (trimTo estimators input costs projection).1).sum =
        projection.estimatedTokens - (costs.drop projection.start).sum := by
    unfold trimTo
    rw [backToSafe_balance, dropOldest_balance]
  unfold Candidate.resized heuristicSize
  rw [built.start, suffixCosts_getD, suffixCosts_getD]
  linear_combination balance

/-! ### When the reported size bounds the real one -/

end HardBudget

/-! ### A measured request past its hard budget -/

def isWordUnit (unit : Nat) : Bool :=
  (Nat.ble 0x30 unit && Nat.ble unit 0x39) || (Nat.ble 0x41 unit && Nat.ble unit 0x5a) ||
    Nat.beq unit 0x5f || (Nat.ble 0x61 unit && Nat.ble unit 0x7a)

/-- Matches of `/[\p{L}\p{N}_]+|[^\s\p{L}\p{N}_]/gu` in an ASCII text. -/
def lexemes (inWord : Bool) : JsString → Nat
  | [] => 0
  | unit :: rest =>
      if isWordUnit unit.toNat then (if inWord then 0 else 1) + lexemes true rest
      else if Nat.beq unit.toNat 0x20 || (Nat.ble 0x09 unit.toNat && Nat.ble unit.toNat 0x0d) then
        lexemes false rest
      else 1 + lexemes false rest

/-- `estimateNativeTokens` of an ASCII string, of an object and of an array. -/
def asciiTokens (text : JsString) : Nat := max ((text.length + 2) / 3) (lexemes false text)

def objectTokens (fields : List (String × Nat)) : Nat :=
  2 + (fields.map fun field => asciiTokens (JsString.ofString field.1) + field.2 + 2).sum

def arrayTokens (items : List Nat) : Nat := 2 + (items.map (· + 2)).sum

def Role.text : Role → JsString
  | .system => JsString.ofString "system"
  | .user => JsString.ofString "user"
  | .assistant => JsString.ofString "assistant"
  | .tool => JsString.ofString "tool"

/-- A call's payload stands for its tool's name, a result's for its text. -/
def Part.tokens : Part → Nat
  | .text body =>
      objectTokens [("type", asciiTokens (JsString.ofString "text")), ("text", asciiTokens body)]
  | .toolCall id payload =>
      objectTokens
        [("type", asciiTokens (JsString.ofString "tool-call")), ("id", asciiTokens id),
          ("name", asciiTokens payload), ("input", objectTokens [])]
  | .toolResult id payload =>
      objectTokens
        [("type", asciiTokens (JsString.ofString "tool-result")), ("id", asciiTokens id),
          ("name", 2), ("result", objectTokens
            [("type", asciiTokens (JsString.ofString "text")), ("value", asciiTokens payload)])]
  | .other payload => asciiTokens payload

def Message.tokens (message : Message) : Nat :=
  objectTokens
    [("role", asciiTokens message.role.text),
      ("content", arrayTokens (message.content.map Part.tokens))]

/-- The code's estimates on ASCII texts, with no request measured. -/
def asciiEstimators : Estimators Int :=
  { messageTokens := fun message => some (message.tokens : Int)
    textTokens := fun text => (asciiTokens text : Int)
    sha256 := fun text => text
    measure := fun _ => none
    bound := fun _ => none
    tailShare := fun limit => limit / 4
    summaryShare := fun limit => limit / 20 }

def asciiInput (softTokens hardTokens : Int) : ProjectionInput Int :=
  { sourceId := JsString.ofString "source"
    messages := []
    summaries := []
    cachedBlock := none
    projectedThrough := none
    projectedAnchor := none
    contextLimit := 400
    softTokens := softTokens
    hardTokens := hardTokens
    systemTokens := 100 }

/-- The provider measures every request at the same size. -/
def measuredAs (tokens : Int) : Estimators Int :=
  { asciiEstimators with measure := fun _ => some tokens }

def words (count : Nat) : JsString := (List.replicate count (JsString.ofString "x ")).flatten

end Reflection.Cursor
