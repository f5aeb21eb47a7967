/-
When trimming finds a request within the hard budget, given that one exists.

Trimming stops at the first safe start where the estimate leaves a fixed reserve. What it adds then
is a notice made anew, which may copy the latest user message; the reserve is for its marker alone.
-/

import Reflection.Cursor.HardBudget

namespace Reflection.Cursor

section FitCompleteness

variable {N : Type} [CommRing N] [LinearOrder N] [IsStrictOrderedRing N]
variable (estimators : Estimators N) (input : ProjectionInput N)

/-- The estimate of the chosen request without the messages before a start. -/
def keptFrom (costs : List N) (projection : Candidate N) (start : Nat) : N :=
  projection.estimatedTokens - ((costs.drop projection.start).sum - (costs.drop start).sum)

def trimReserve : N :=
  estimators.textTokens (droppedMarker input.messages.length) + ((2 : Nat) : N)

/-- A safe start where the loop stops: the reserve fits beside what is kept. -/
def HasReserve (costs : List N) (projection : Candidate N) (start : Nat) : Prop :=
  isSafe (toolSafeStarts input.messages) start = true ∧
    keptFrom costs projection start + trimReserve estimators input ≤ input.hardTokens

/-- The first start with the reserve, or the last safe one where none before the last message has
it. -/
structure TrimPoint (costs : List N) (projection : Candidate N) (start : Nat) : Prop where
  later : projection.start ≤ start
  inside : start < input.messages.length ∨ start = projection.start
  first : ∀ earlier, projection.start ≤ earlier → earlier < start → earlier + 1 < input.messages.length →
    ¬HasReserve estimators input costs projection earlier
  stops : (HasReserve estimators input costs projection start ∧ start + 1 < input.messages.length) ∨
    ((∀ other, projection.start ≤ other → other + 1 < input.messages.length →
        ¬HasReserve estimators input costs projection other) ∧
      (start = projection.start ∨ isSafe (toolSafeStarts input.messages) start = true) ∧
      ∀ other, start < other → other < input.messages.length →
        isSafe (toolSafeStarts input.messages) other = false)

variable {estimators input}

omit [IsStrictOrderedRing N] in
theorem TrimPoint.unique {costs : List N} {projection : Candidate N} {one other : Nat}
    (isOne : TrimPoint estimators input costs projection one)
    (isOther : TrimPoint estimators input costs projection other) : one = other := by
  rcases isOne.stops with ⟨reserved, inner⟩ | ⟨none, safe, last⟩
  · rcases isOther.stops with ⟨reservedOther, innerOther⟩ | ⟨noneOther, _, _⟩
    · rcases Nat.lt_trichotomy one other with before | same | after
      · exact absurd reserved (isOther.first one isOne.later before inner)
      · exact same
      · exact absurd reservedOther (isOne.first other isOther.later after innerOther)
    · exact absurd reserved (noneOther one isOne.later inner)
  · rcases isOther.stops with ⟨reservedOther, innerOther⟩ | ⟨_, safeOther, lastOther⟩
    · exact absurd reservedOther (none other isOther.later innerOther)
    · have earlier := isOne.later
      have earlierOther := isOther.later
      have inside := isOne.inside
      have insideOther := isOther.inside
      rcases Nat.lt_trichotomy one other with before | same | after
      · have notSafe := last other before (by omega)
        rcases safeOther with atStart | isSafe
        · omega
        · rw [isSafe] at notSafe
          cases notSafe
      · exact same
      · have notSafe := lastOther one after (by omega)
        rcases safe with atStart | isSafe
        · omega
        · rw [isSafe] at notSafe
          cases notSafe

/-! ### Where the loops stop -/

omit [IsStrictOrderedRing N] in
/-- The first loop passes every start where it may not stop. -/
theorem dropOldest_stops {costs : List N} (safe : List Bool) (reserve : N) (start : Nat)
    (estimated : N) :
    let stop := (dropOldest input safe reserve (costs.drop start) start estimated).1
    (stop < costs.length ∨ stop = start) ∧
      (costs.length ≤ stop + 1 ∨ (isSafe safe stop = true ∧
        estimated - ((costs.drop start).sum - (costs.drop stop).sum) + reserve ≤ input.hardTokens)) ∧
      ∀ earlier, start ≤ earlier → earlier < stop → ¬(isSafe safe earlier = true ∧
        estimated - ((costs.drop start).sum - (costs.drop earlier).sum) + reserve ≤
          input.hardTokens) := by
  generalize isRest : costs.drop start = rest
  induction rest generalizing start estimated with
  | nil =>
      have outside : costs.length ≤ start := List.drop_eq_nil_iff.mp isRest
      refine ⟨Or.inr rfl, Or.inl (by simp only [dropOldest]; omega), ?_⟩
      intro earlier after before
      simp only [dropOldest] at before
      omega
  | cons cost others ih =>
      have inside : start < costs.length := by
        by_contra outside
        rw [List.drop_eq_nil_of_le (by omega)] at isRest
        cases isRest
      have behind : costs.drop (start + 1) = others := by
        rw [← List.drop_drop, isRest, List.drop_one, List.tail_cons]
      cases others with
      | nil =>
          have atEnd : costs.length ≤ start + 1 := List.drop_eq_nil_iff.mp behind
          refine ⟨Or.inr rfl, Or.inl (by simp only [dropOldest]; omega), ?_⟩
          intro earlier after before
          simp only [dropOldest] at before
          omega
      | cons next others =>
          rw [dropOldest]
          split
          · rename_i passes
            obtain ⟨within, stops, passed⟩ := ih (start + 1) (estimated - cost) behind
            have shifted : ∀ place, estimated - ((cost :: next :: others).sum - (costs.drop place).sum) =
                estimated - cost - ((next :: others).sum - (costs.drop place).sum) := by
              intro place
              rw [List.sum_cons]
              ring
            refine ⟨?_, ?_, ?_⟩
            · have bound : start + 1 < costs.length := by
                by_contra outside
                rw [List.drop_eq_nil_of_le (by omega)] at behind
                cases behind
              rcases within with before | same
              · exact Or.inl before
              · rw [same]
                exact Or.inl bound
            · rw [shifted]
              exact stops
            · intro earlier after before
              rcases Nat.eq_or_lt_of_le after with here | beyond
              · rw [← here, isRest, sub_self, sub_zero]
                rintro ⟨isSafeHere, hasReserve⟩
                rw [isSafeHere, Bool.not_true, Bool.or_false, decide_eq_true_eq] at passes
                exact absurd hasReserve (not_le.mpr passes)
              · rw [shifted]
                exact passed earlier beyond before
          · rename_i stays
            rw [Bool.or_eq_true, not_or, decide_eq_true_eq, not_lt, Bool.not_eq_true',
              Bool.not_eq_false] at stays
            refine ⟨Or.inr rfl, Or.inr ?_, fun earlier after before => absurd before (by omega)⟩
            rw [isRest, sub_self, sub_zero]
            exact ⟨stays.2, stays.1⟩

omit [LinearOrder N] [IsStrictOrderedRing N] in
/-- Going back passes only starts that are not safe. -/
theorem backToSafe_passes (safe : List Bool) (costs : List N) {lowest start : Nat}
    (estimated : N) : ∀ other, (backToSafe safe costs lowest start estimated).1 < other →
      other ≤ start → isSafe safe other = false := by
  induction start generalizing estimated with
  | zero =>
      intro other after within
      simp only [backToSafe] at after
      omega
  | succ start ih =>
      intro other after within
      rw [backToSafe] at after
      split at after
      · rename_i goes
        rw [Bool.and_eq_true, decide_eq_true_eq, Bool.not_eq_true'] at goes
        rcases Nat.eq_or_lt_of_le within with here | before
        · rw [here]
          exact goes.2
        · exact ih _ other after (by omega)
      · omega

omit [LinearOrder N] [IsStrictOrderedRing N] in
theorem backToSafe_safe (safe : List Bool) (costs : List N) {lowest start : Nat} (estimated : N)
    (isSafeHere : isSafe safe start = true) :
    (backToSafe safe costs lowest start estimated).1 = start := by
  cases start with
  | zero => rfl
  | succ start =>
      rw [backToSafe, if_neg]
      rw [isSafeHere, Bool.not_true, Bool.and_false]
      exact Bool.false_ne_true

omit [LinearOrder N] [IsStrictOrderedRing N] in
theorem backToSafe_le (safe : List Bool) (costs : List N) {lowest start : Nat} (estimated : N) :
    (backToSafe safe costs lowest start estimated).1 ≤ start := by
  induction start generalizing estimated with
  | zero => exact Nat.le_refl _
  | succ start ih =>
      rw [backToSafe]
      split
      · exact Nat.le_succ_of_le (ih _)
      · exact Nat.le_refl _

variable (estimators input) in
/-- Where the first loop ends. -/
def dropTo (costs : List N) (projection : Candidate N) : Nat × N :=
  dropOldest input (toolSafeStarts input.messages) (trimReserve estimators input)
    (costs.drop projection.start) projection.start projection.estimatedTokens

omit [IsStrictOrderedRing N] in
theorem dropTo_stops {costs : List N} (projection : Candidate N)
    (counted : costs.length = input.messages.length) :
    ((dropTo estimators input costs projection).1 < input.messages.length ∨
        (dropTo estimators input costs projection).1 = projection.start) ∧
      (input.messages.length ≤ (dropTo estimators input costs projection).1 + 1 ∨
        HasReserve estimators input costs projection (dropTo estimators input costs projection).1) ∧
      ∀ earlier, projection.start ≤ earlier → earlier < (dropTo estimators input costs projection).1 →
        ¬HasReserve estimators input costs projection earlier := by
  have stops := @dropOldest_stops N _ _ input costs (toolSafeStarts input.messages)
    (trimReserve estimators input) projection.start projection.estimatedTokens
  rw [counted] at stops
  exact stops

omit [IsStrictOrderedRing N] in
theorem trimTo_point {costs : List N} (projection : Candidate N)
    (counted : costs.length = input.messages.length) :
    TrimPoint estimators input costs projection (trimTo estimators input costs projection).1 := by
  obtain ⟨later, safe⟩ := trimTo_stops estimators input costs projection
  obtain ⟨within, stops, passed⟩ := @dropTo_stops N _ _ estimators input costs projection counted
  have back : trimTo estimators input costs projection =
      backToSafe (toolSafeStarts input.messages) costs projection.start
        (dropTo estimators input costs projection).1 (dropTo estimators input costs projection).2 := rfl
  rw [back] at later safe ⊢
  generalize dropTo estimators input costs projection = dropped at within stops passed later safe ⊢
  have bound := @backToSafe_le N _ (toolSafeStarts input.messages) costs projection.start dropped.1
    dropped.2
  have goesBack := @backToSafe_passes N _ (toolSafeStarts input.messages) costs projection.start
    dropped.1 dropped.2
  refine ⟨later, by omega, fun earlier after before _ => passed earlier after (by omega), ?_⟩
  rcases Nat.lt_or_ge (dropped.1 + 1) input.messages.length with inner | atEnd
  · have reserved := stops.resolve_left (by omega)
    rw [backToSafe_safe _ _ _ reserved.1]
    exact Or.inl ⟨reserved, inner⟩
  · right
    refine ⟨fun other after inside => passed other after (by omega), safe, ?_⟩
    intro other after inside
    exact goesBack other after (by omega)

/-! ### Fitting requests -/

omit [LinearOrder N] [IsStrictOrderedRing N] in
theorem messageCosts_length {costs : List N} (isCosts : messageCosts estimators input = some costs) :
    costs.length = input.messages.length := by
  have marks := @map_of_mapM _ _ Unit _ (fun _ => ()) (fun _ => ()) (fun _ _ _ => rfl) _ _ isCosts
  have lengths := congrArg List.length marks
  rw [List.length_map, List.length_map] at lengths
  exact lengths

variable (estimators input) in
/-- The request from a safe start on, behind the notice made for it, is within the budget. -/
structure FitsFrom (costs : List N) (projection : Candidate N) (start : Nat) : Prop where
  later : projection.start ≤ start
  inside : start < input.messages.length
  safe : isSafe (toolSafeStarts input.messages) start = true
  within : ∃ made, candidate estimators input costs projection.cut start false = some made ∧
    heuristicSize input costs made ≤ input.hardTokens

variable (estimators input) in
/-- Where trimming stops, the notice made there leaves the rest within the budget. -/
def NoticeHasRoom (costs : List N) (projection : Candidate N) : Prop :=
  ∃ start made, TrimPoint estimators input costs projection start ∧ projection.start < start ∧
    candidate estimators input costs projection.cut start false = some made ∧
    made.headCost ≤ input.hardTokens - (input.systemTokens + (costs.drop start).sum)

/-- No request was sized by a provider. -/
structure Unmeasured (estimators : Estimators N) : Prop where
  measure : ∀ messages, estimators.measure messages = none
  bound : ∀ messages, estimators.bound messages = none

omit [IsStrictOrderedRing N] in
theorem Built.heuristicSize_eq (unmeasured : Unmeasured estimators) {costs : List N}
    {cut : Option Cut} {start : Nat} {bounded : Bool} {made : Candidate N} {head : Option (Notice N)}
    (built : Built estimators input costs cut start bounded made head) :
    made.estimatedTokens = heuristicSize input costs made := by
  have sized := built.sized
  rw [unmeasured.measure, unmeasured.bound, ite_self, Option.or_none, Option.getD_none] at sized
  unfold heuristicSize
  rw [sized, built.start]

/-- A selection reports a request past the budget although a trim fits, unless the notice has room
where trimming stops. -/
theorem fit_complete_iff (unmeasured : Unmeasured estimators) {result : Projection N}
    (selected : selectCursorProjection estimators input = some result) {costs : List N}
    {projection : Candidate N} {mode : Mode} (isCosts : messageCosts estimators input = some costs)
    (isChosen : chosenRequest estimators input costs = some (projection, mode)) :
    ((∃ start, FitsFrom estimators input costs projection start) →
        result.estimatedTokens ≤ input.hardTokens) ↔
      (projection.estimatedTokens ≤ input.hardTokens ∨
        (¬∃ start, FitsFrom estimators input costs projection start) ∨
        NoticeHasRoom estimators input costs projection) := by
  obtain ⟨costs', projection', mode', isCosts', chosen, isChosen', fitted⟩ :=
    selectCursorProjection_cases selected
  rw [isCosts] at isCosts'
  cases isCosts'
  rw [isChosen] at isChosen'
  cases isChosen'
  have counted := messageCosts_length isCosts
  have point := @trimTo_point N _ _ estimators input costs projection counted
  obtain ⟨bounded, head, built⟩ := chosen.built
  have sized := built.heuristicSize_eq unmeasured
  rcases fit_cases fitted with ⟨unchanged, stays⟩ | ⟨trimmed, trim, resized⟩
  · have reported : result.estimatedTokens = projection.estimatedTokens := by
      rw [unchanged]
      rfl
    rw [reported]
    constructor
    · intro complete
      by_cases fits : projection.estimatedTokens ≤ input.hardTokens
      · exact Or.inl fits
      · exact Or.inr (Or.inl fun some => fits (complete some))
    · rintro (fits | none | ⟨start, _, isPoint, moved, _⟩) some
      · exact fits
      · exact absurd some none
      · by_contra exceeds
        have same := stays (not_le.mp exceeds)
        have alsoPoint := point.unique isPoint
        omega
  · obtain ⟨_, trimmedBuilt⟩ := candidate_built trim.built
    have estimate := resized_estimate trim
    have reported : result.estimatedTokens = heuristicSize input costs trimmed := by
      have resizedTokens : result.estimatedTokens = projection.estimatedTokens -
          (heuristicSize input costs projection - heuristicSize input costs trimmed) := by
        rw [resized]
        exact estimate
      rw [resizedTokens, sized]
      ring
    have size : heuristicSize input costs trimmed = input.systemTokens + trimmed.headCost +
        (costs.drop (trimTo estimators input costs projection).1).sum := by
      unfold heuristicSize
      rw [trimmedBuilt.start, suffixCosts_getD]
    rw [reported]
    constructor
    · intro complete
      by_cases some : ∃ start, FitsFrom estimators input costs projection start
      · right
        right
        refine ⟨_, trimmed, point, trim.later, trim.built, ?_⟩
        have within := complete some
        rw [size] at within
        linarith
      · exact Or.inr (Or.inl some)
    · rintro (fits | none | ⟨start, made, isPoint, _, isMade, room⟩) some
      · exact absurd trim.exceeds (not_lt.mpr fits)
      · exact absurd some none
      · have same := point.unique isPoint
        rw [← same] at isMade room
        rw [trim.built] at isMade
        cases isMade
        rw [size]
        linarith

end FitCompleteness

/-! ### A notice that copies the message trimming dropped -/

def trimInput : ProjectionInput Int :=
  { asciiInput 2600 3000 with
    messages :=
      [ sampleMessage "u0" .user [.text (words 600)],
        sampleMessage "a0" .assistant [.text (words 10)],
        sampleMessage "u1" .user [.text (words 220)],
        sampleMessage "a1" .assistant [.text (words 200)],
        sampleMessage "a2" .assistant [.text (words 250)],
        sampleMessage "a3" .assistant [.text (words 40)] ]
    contextLimit := 4000
    systemTokens := 2350 }

theorem trimInput_unmeasured : Unmeasured asciiEstimators := by
  constructor
  · intro messages
    rfl
  · intro messages
    rfl

/-- The chosen start, the size of the last message alone behind its notice, and what is reported. -/
private theorem trimInput_sizes : ((messageCosts asciiEstimators trimInput).bind fun costs =>
    (chosenRequest asciiEstimators trimInput costs).bind fun chosen =>
      (candidate asciiEstimators trimInput costs chosen.1.cut 5 false).bind fun made =>
        (selectCursorProjection asciiEstimators trimInput).map fun result =>
          (chosen.1.start, heuristicSize trimInput costs made, result.estimatedTokens,
            isSafe (toolSafeStarts trimInput.messages) 5)) = some (1, 2865, 3153, true) := by
  decide +kernel

private theorem trimInput_result : ∃ costs projection mode result,
    messageCosts asciiEstimators trimInput = some costs ∧
      chosenRequest asciiEstimators trimInput costs = some (projection, mode) ∧
      selectCursorProjection asciiEstimators trimInput = some result ∧
      FitsFrom asciiEstimators trimInput costs projection 5 ∧ result.estimatedTokens = 3153 := by
  obtain ⟨costs, isCosts, afterCosts⟩ := Option.bind_eq_some_iff.mp trimInput_sizes
  obtain ⟨⟨projection, mode⟩, isChosen, afterChosen⟩ := Option.bind_eq_some_iff.mp afterCosts
  obtain ⟨made, isMade, afterMade⟩ := Option.bind_eq_some_iff.mp afterChosen
  obtain ⟨result, selected, sizes⟩ := Option.map_eq_some_iff.mp afterMade
  obtain ⟨isStart, size, reported, safe⟩ := Prod.ext_iff.mp sizes |>.imp_right fun rest =>
    (Prod.ext_iff.mp rest).imp_right Prod.ext_iff.mp
  refine ⟨costs, projection, mode, result, isCosts, isChosen, selected, ⟨?_, ?_, safe, made, isMade, ?_⟩,
    reported⟩
  · change projection.start = 1 at isStart
    omega
  · decide
  · change heuristicSize trimInput costs made = 2865 at size
    rw [size]
    decide

/-- 3153 tokens are reported under a budget of 3000 though the last message alone would make 2865. -/
theorem fit_incomplete : Unmeasured asciiEstimators ∧
    ∃ costs projection mode result, messageCosts asciiEstimators trimInput = some costs ∧
      chosenRequest asciiEstimators trimInput costs = some (projection, mode) ∧
      selectCursorProjection asciiEstimators trimInput = some result ∧
      (∃ start, FitsFrom asciiEstimators trimInput costs projection start) ∧
      ¬ result.estimatedTokens ≤ trimInput.hardTokens := by
  obtain ⟨costs, projection, mode, result, isCosts, isChosen, selected, fits, reported⟩ :=
    trimInput_result
  refine ⟨trimInput_unmeasured, costs, projection, mode, result, isCosts, isChosen, selected,
    ⟨5, fits⟩, ?_⟩
  rw [reported]
  decide

theorem fit_complete_iff_sample : ∃ costs projection mode result,
    messageCosts asciiEstimators trimInput = some costs ∧
      chosenRequest asciiEstimators trimInput costs = some (projection, mode) ∧
      selectCursorProjection asciiEstimators trimInput = some result ∧
      (((∃ start, FitsFrom asciiEstimators trimInput costs projection start) →
          result.estimatedTokens ≤ trimInput.hardTokens) ↔
        (projection.estimatedTokens ≤ trimInput.hardTokens ∨
          (¬∃ start, FitsFrom asciiEstimators trimInput costs projection start) ∨
          NoticeHasRoom asciiEstimators trimInput costs projection)) := by
  obtain ⟨costs, projection, mode, result, isCosts, isChosen, selected, _⟩ := trimInput_result
  exact ⟨costs, projection, mode, result, isCosts, isChosen, selected,
    fit_complete_iff trimInput_unmeasured selected isCosts isChosen⟩

end Reflection.Cursor
