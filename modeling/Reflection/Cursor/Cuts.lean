/-
Positions and cuts of a history, and how they move when messages are appended.

A cut ends behind its message, at the end of the tool results that follow it, or it
retreats to a safe start. So a message with an id that lies before a cut's start never lies
behind the message the cut names.
-/

import Reflection.Foundation.Lists
import Reflection.Cursor.Projection

namespace Reflection.Cursor

/-! ### Positions -/

def DistinctIds (messages : List Message) : Prop := (messages.filterMap (·.id)).Nodup

instance (messages : List Message) : Decidable (DistinctIds messages) :=
  inferInstanceAs (Decidable (List.Nodup _))

theorem positionOf_eq (messages : List Message) (id : JsString) :
    positionOf messages id = lastIndex (fun message => message.id == some id) messages := rfl

theorem latestUser_eq (messages : List Message) :
    latestUser messages =
      lastIndex (fun message => message.role == .user && message.id.isSome) messages := rfl

theorem positionOf_some {messages : List Message} {id : JsString} {position : Nat}
    (found : positionOf messages id = some position) :
    ∃ message, messages[position]? = some message ∧ message.id = some id := by
  rw [positionOf_eq, lastIndex_eq_some_iff] at found
  obtain ⟨message, present, named⟩ := found.1
  exact ⟨message, present, beq_iff_eq.mp named⟩

theorem positionOf_lt {messages : List Message} {id : JsString} {position : Nat}
    (found : positionOf messages id = some position) : position < messages.length := by
  obtain ⟨message, present, _⟩ := positionOf_some found
  exact (List.getElem?_eq_some_iff.mp present).1

theorem latestUser_some {messages : List Message} {position : Nat}
    (found : latestUser messages = some position) :
    ∃ message id, messages[position]? = some message ∧ message.role = .user ∧
      message.id = some id := by
  rw [latestUser_eq, lastIndex_eq_some_iff] at found
  obtain ⟨message, present, isUser⟩ := found.1
  rw [Bool.and_eq_true, beq_iff_eq, Option.isSome_iff_exists] at isUser
  obtain ⟨id, named⟩ := isUser.2
  exact ⟨message, id, present, isUser.1, named⟩

theorem DistinctIds.index_unique {messages : List Message} (distinct : DistinctIds messages)
    {one two : Nat} {left right : Message} {id : JsString} (oneIs : messages[one]? = some left)
    (twoIs : messages[two]? = some right) (leftId : left.id = some id) (rightId : right.id = some id) :
    one = two := by
  have apart : messages.Pairwise fun left right =>
      ∀ id, left.id = some id → ∀ other, right.id = some other → id ≠ other :=
    List.pairwise_filterMap.mp distinct
  rw [List.pairwise_iff_getElem] at apart
  obtain ⟨oneIn, rfl⟩ := List.getElem?_eq_some_iff.mp oneIs
  obtain ⟨twoIn, rfl⟩ := List.getElem?_eq_some_iff.mp twoIs
  rcases Nat.lt_trichotomy one two with before | same | behind
  · exact absurd rfl (apart one two oneIn twoIn before id leftId id rightId)
  · exact same
  · exact absurd rfl (apart two one twoIn oneIn behind id rightId id leftId)

/-- With distinct ids a message is found where it is. -/
theorem DistinctIds.positionOf {messages : List Message} (distinct : DistinctIds messages)
    {position : Nat} {message : Message} {id : JsString}
    (present : messages[position]? = some message) (named : message.id = some id) :
    positionOf messages id = some position := by
  rw [positionOf_eq, lastIndex_eq_some_iff]
  refine ⟨⟨message, present, beq_iff_eq.mpr named⟩, fun later other behind found => ?_⟩
  by_contra wrong
  have same := distinct.index_unique present found named (beq_iff_eq.mp (Bool.not_eq_false _ ▸ wrong))
  omega

theorem DistinctIds.initial {messages appended : List Message}
    (distinct : DistinctIds (messages ++ appended)) : DistinctIds messages := by
  unfold DistinctIds at distinct
  rw [List.filterMap_append] at distinct
  exact (List.nodup_append.mp distinct).1

/-- Appended messages do not move a position. -/
theorem positionOf_append {messages appended : List Message} {id : JsString} {position : Nat}
    (distinct : DistinctIds (messages ++ appended)) (found : positionOf messages id = some position) :
    positionOf (messages ++ appended) id = some position := by
  obtain ⟨message, present, named⟩ := positionOf_some found
  apply distinct.positionOf _ named
  rw [List.getElem?_append_left (positionOf_lt found)]
  exact present

theorem positionOf_append_iff {messages appended : List Message} {id : JsString} {position : Nat}
    (distinct : DistinctIds (messages ++ appended)) (inside : position < messages.length) :
    positionOf (messages ++ appended) id = some position ↔ positionOf messages id = some position := by
  constructor
  · intro found
    obtain ⟨message, present, named⟩ := positionOf_some found
    rw [List.getElem?_append_left inside] at present
    exact distinct.initial.positionOf present named
  · exact positionOf_append distinct

theorem latestUser_append (messages appended : List Message) :
    latestUser (messages ++ appended) =
      ((latestUser appended).map (messages.length + ·)).or (latestUser messages) := by
  rw [latestUser_eq, latestUser_eq, latestUser_eq, lastIndex_append]

/-! ### Cuts -/

theorem le_skipToolResults (messages : List Message) (start : Nat) :
    start ≤ skipToolResults messages start := by
  induction messages generalizing start with
  | nil => exact Nat.le_refl _
  | cons message rest ih =>
      rw [skipToolResults]
      split
      · exact Nat.le_trans (Nat.le_succ start) (ih (start + 1))
      · exact Nat.le_refl _

/-- Only tool results without an id are skipped. -/
theorem skipToolResults_skips (messages : List Message) {start position : Nat} {message : Message}
    (behind : start ≤ position) (before : position < skipToolResults messages start)
    (present : messages[position - start]? = some message) : message.id = none ∧ message.role = .tool := by
  induction messages generalizing start with
  | nil => cases present
  | cons first rest ih =>
      rw [skipToolResults] at before
      split at before
      · rename_i skipped
        rcases Nat.eq_or_lt_of_le behind with same | later
        · rw [← same, Nat.sub_self, List.getElem?_cons_zero] at present
          cases present
          exact skipped
        · apply ih later before
          have index : position - start = position - (start + 1) + 1 := by omega
          rw [index, List.getElem?_cons_succ] at present
          exact present
      · omega

theorem retreatToSafe_le (safe : List Bool) (start : Nat) : retreatToSafe safe start ≤ start := by
  induction start with
  | zero => exact Nat.le_refl _
  | succ start ih =>
      rw [retreatToSafe]
      split
      · exact Nat.le_refl _
      · omega

theorem retreatToSafe_safe (safe : List Bool) (start : Nat) :
    retreatToSafe safe start = 0 ∨ isSafe safe (retreatToSafe safe start) = true := by
  induction start with
  | zero => exact .inl rfl
  | succ start ih =>
      rw [retreatToSafe]
      split
      · rename_i safeHere
        exact .inr safeHere
      · exact ih

/-- Where the tail behind a message starts when nothing stops the cut. -/
def skippedFrom (messages : List Message) (through : Nat) : Nat :=
  skipToolResults (messages.drop (through + 1)) (through + 1)

/-- Where the tail behind a message starts. -/
def startBehind (messages : List Message) (through : Nat) : Nat :=
  if skippedFrom messages through ≥ messages.length ||
      !isSafe (toolSafeStarts messages) (skippedFrom messages through) then
    retreatToSafe (toolSafeStarts messages) (through + 1)
  else skippedFrom messages through

theorem cutThrough_eq_some_iff {messages : List Message} {id : JsString} {cut : Cut} :
    cutThrough messages id = some cut ↔
      ∃ through, positionOf messages id = some through ∧ 0 < startBehind messages through ∧
        cut =
          { id := id
            through := through
            start := startBehind messages through
            anchor := none } := by
  unfold cutThrough
  cases positionOf messages id with
  | none =>
      constructor
      · intro made
        cases made
      · rintro ⟨through, found, _⟩
        cases found
  | some through =>
      dsimp only
      change (if startBehind messages through > 0 then
        some { id := id, through := through, start := startBehind messages through, anchor := none }
          else none) = some cut ↔ _
      by_cases positive : startBehind messages through > 0
      · rw [if_pos positive]
        constructor
        · intro made
          exact ⟨through, rfl, positive, (Option.some.inj made).symm⟩
        · rintro ⟨_, found, _, made⟩
          cases found
          rw [made]
      · rw [if_neg positive]
        constructor
        · intro made
          cases made
        · rintro ⟨_, found, isPositive, _⟩
          cases found
          exact absurd isPositive positive

theorem startBehind_goes {messages : List Message} {through : Nat}
    (followed : skippedFrom messages through < messages.length)
    (safe : isSafe (toolSafeStarts messages) (skippedFrom messages through) = true) :
    startBehind messages through = skippedFrom messages through := by
  unfold startBehind
  rw [if_neg]
  rw [safe, Bool.not_true, Bool.or_false, decide_eq_true_eq]
  exact Nat.not_le_of_lt followed

theorem startBehind_retreats {messages : List Message} {through : Nat}
    (stopped : messages.length ≤ skippedFrom messages through ∨
      isSafe (toolSafeStarts messages) (skippedFrom messages through) = false) :
    startBehind messages through = retreatToSafe (toolSafeStarts messages) (through + 1) := by
  unfold startBehind
  rw [if_pos]
  rw [Bool.or_eq_true, decide_eq_true_eq, Bool.not_eq_true']
  exact stopped

theorem startBehind_le (messages : List Message) (through : Nat) :
    startBehind messages through ≤ skippedFrom messages through := by
  have skipped := le_skipToolResults (messages.drop (through + 1)) (through + 1)
  change through + 1 ≤ skippedFrom messages through at skipped
  have retreats := retreatToSafe_le (toolSafeStarts messages) (through + 1)
  unfold startBehind
  split
  · omega
  · exact Nat.le_refl _

theorem startBehind_safe (messages : List Message) (through : Nat) :
    startBehind messages through = 0 ∨
      isSafe (toolSafeStarts messages) (startBehind messages through) = true := by
  unfold startBehind
  split
  · exact retreatToSafe_safe _ _
  · rename_i goes
    right
    rw [Bool.or_eq_true, not_or, Bool.not_eq_true', Bool.not_eq_false] at goes
    exact goes.2

/-- A message with an id before the start of a tail is not behind the message that was cut
through. -/
theorem le_through_of_lt_startBehind {messages : List Message} {through position : Nat}
    {message : Message} {id : JsString} (present : messages[position]? = some message)
    (named : message.id = some id) (before : position < startBehind messages through) :
    position ≤ through := by
  by_contra behind
  have skipped : position < skippedFrom messages through :=
    Nat.lt_of_lt_of_le before (startBehind_le messages through)
  have noId : message.id = none := by
    apply (skipToolResults_skips _ (by omega : through + 1 ≤ position) skipped _).1
    rw [List.getElem?_drop, Nat.add_sub_cancel' (by omega)]
    exact present
  rw [named] at noId
  cases noId

/-! ### Anchors -/

/-- The message an anchor names. -/
def anchorPosition (messages : List Message) : Option (Option JsString) → Option Nat
  | none => latestUser messages
  | some none => none
  | some (some id) => positionOf messages id

theorem withAnchor_eq (messages : List Message) (cut : Cut) (anchor : Option (Option JsString))
    (plain : cut.anchor = none) :
    withAnchor messages cut anchor =
      { cut with anchor := (anchorPosition messages anchor).filter fun position => decide (position < cut.start) } := by
  have same : cut = { cut with anchor := none } := by
    rw [← plain]
  have landed : ∀ position, (if position < cut.start then { cut with anchor := some position } else cut) =
      { cut with anchor := (some position).filter fun position => decide (position < cut.start) } := by
    intro position
    rw [Option.filter_some]
    by_cases before : position < cut.start
    · rw [if_pos before, if_pos (decide_eq_true before)]
    · rw [if_neg before, if_neg (fun inside => before (of_decide_eq_true inside)), ← same]
  unfold withAnchor
  dsimp only
  split
  · rename_i position found
    have found : anchorPosition messages anchor = some position := found
    rw [landed, found]
  · rename_i missing
    have missing : anchorPosition messages anchor = none := missing
    rw [missing]
    exact same

theorem withAnchor_start (messages : List Message) (cut : Cut) (anchor : Option (Option JsString)) :
    (withAnchor messages cut anchor).start = cut.start := by
  unfold withAnchor
  dsimp only
  split
  · split <;> rfl
  · rfl

end Reflection.Cursor
