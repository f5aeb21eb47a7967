/-
Cutting a source range into fragments at completed assistants.

The scan adds weights until they pass the limit. It then goes back to the last legal cut it saw, or,
where there was none, waits for the next one.
-/

import Mathlib

namespace Reflection.Fragments

section Scan

variable {Message : Type} (isLegalActiveTurnCut : Message → Bool)

/-! ### Weights of ranges -/

def finitePrefix (weights : List ℕ∞) : List Nat :=
  weights.scanl (fun total weight => total + weight.toNat) 0

def infinitePrefix (weights : List ℕ∞) : List Nat :=
  weights.scanl (fun count weight => count + if weight = ⊤ then 1 else 0) 0

def rangeWeight (weights : List ℕ∞) (start finish : Nat) : ℕ∞ :=
  let endOffset := finish + 1
  if 0 < (infinitePrefix weights).getD endOffset 0 - (infinitePrefix weights).getD start 0 then ⊤
  else (((finitePrefix weights).getD endOffset 0 - (finitePrefix weights).getD start 0 : Nat) : ℕ∞)

/-! ### The scan -/

/-- A cut at `-1` stands for no legal cut since the start. -/
def fragmentScan (messages : List Message) (weights : List ℕ∞) (maxChars : Nat) (forceClosed : Bool)
    (start index : Nat) (lastLegalCut : Int) (forward : start ≤ index) :
    List (List Message × Bool) :=
  if inside : index < messages.length then
    let nextWeight := rangeWeight weights start index
    if rewinds : start < index ∧ (maxChars : ℕ∞) < nextWeight ∧ (start : Int) ≤ lastLegalCut then
      let next := (lastLegalCut + 1).toNat
      (messages.extract start next, true) ::
        fragmentScan messages weights maxChars forceClosed next next (-1) le_rfl
    else
      let legalCut := isLegalActiveTurnCut messages[index]
      if (maxChars : ℕ∞) ≤ nextWeight ∧ legalCut then
        (messages.extract start (index + 1), true) ::
          fragmentScan messages weights maxChars forceClosed (index + 1) (index + 1) (-1) le_rfl
      else
        fragmentScan messages weights maxChars forceClosed start (index + 1)
          (if legalCut then index else lastLegalCut) (Nat.le_succ_of_le forward)
  else if start < messages.length then [(messages.drop start, forceClosed)]
  else []
-- A cut moves the start on; otherwise the index moves on.
termination_by (messages.length - start, messages.length - index)
decreasing_by
  · apply Prod.Lex.left
    omega
  · apply Prod.Lex.left
    omega
  · apply Prod.Lex.right
    omega

variable (weightOf : Message → ℕ∞)

/-- The emitted ranges, each with whether it is closed. -/
def fragmentSourceRange (messages : List Message) (maxChars : Nat) (forceClosed : Bool) :
    List (List Message × Bool) :=
  if messages.isEmpty then []
  else fragmentScan isLegalActiveTurnCut messages (messages.map weightOf) maxChars forceClosed 0 0 (-1)
    le_rfl

def totalWeight (messages : List Message) : ℕ∞ := (messages.map weightOf).sum

/-- The messages up to the next legal cut, and all of them where there is none. -/
def throughNextCut : List Message → List Message
  | [] => []
  | message :: rest =>
      if isLegalActiveTurnCut message then [message] else message :: throughNextCut rest

/-- A range that passes the limit has no legal cut before its last message. -/
def Indivisible (maxChars : Nat) (range : List Message) : Prop :=
  (maxChars : ℕ∞) < totalWeight weightOf range →
    ∀ message ∈ range.dropLast, isLegalActiveTurnCut message = false

def EndsAtCut (range : List Message) : Prop :=
  ∃ message, range.getLast? = some message ∧ isLegalActiveTurnCut message = true

/-- The range is full, or it passes the limit with what follows up to the next cut. -/
def Mature (maxChars : Nat) (range rest : List Message) : Prop :=
  (maxChars : ℕ∞) ≤ totalWeight weightOf range ∨
    (maxChars : ℕ∞) < totalWeight weightOf (range ++ throughNextCut isLegalActiveTurnCut rest)

/-- How a list of messages may be cut into ranges. -/
inductive CutLaw (maxChars : Nat) : List Message → List (List Message) → Prop where
  | done : CutLaw maxChars [] []
  | rest (messages : List Message) (nonempty : messages ≠ [])
      (indivisible : Indivisible isLegalActiveTurnCut weightOf maxChars messages) :
      CutLaw maxChars messages [messages]
  | cut (range messages : List Message) (ranges : List (List Message))
      (endsAtCut : EndsAtCut isLegalActiveTurnCut range)
      (indivisible : Indivisible isLegalActiveTurnCut weightOf maxChars range)
      (mature : Mature isLegalActiveTurnCut weightOf maxChars range messages)
      (later : CutLaw maxChars messages ranges) :
      CutLaw maxChars (range ++ messages) (range :: ranges)

/-! ### A range weight is the sum over the range -/

private theorem foldl_eq_sum (amount : ℕ∞ → Nat) (weights : List ℕ∞) : ∀ initial : Nat,
    weights.foldl (fun total weight => total + amount weight) initial =
      initial + (weights.map amount).sum := by
  induction weights with
  | nil =>
      intro initial
      rfl
  | cons weight rest ih =>
      intro initial
      rw [List.foldl_cons, ih, List.map_cons, List.sum_cons, Nat.add_assoc]

private theorem scanl_getD (amount : ℕ∞ → Nat) (weights : List ℕ∞) {place : Nat}
    (within : place ≤ weights.length) :
    (weights.scanl (fun total weight => total + amount weight) 0).getD place 0 =
      ((weights.take place).map amount).sum := by
  rw [List.getD_eq_getElem?_getD, List.getElem?_scanl, if_pos within, Option.getD_some,
    foldl_eq_sum, Nat.zero_add]

private theorem take_eq_extract (weights : List ℕ∞) {start finish : Nat} (ordered : start ≤ finish) :
    weights.take finish = weights.take start ++ weights.extract start finish := by
  rw [List.extract_eq_take_drop, ← List.take_add, Nat.add_sub_cancel' ordered]

private theorem scanl_difference (amount : ℕ∞ → Nat) (weights : List ℕ∞) {start finish : Nat}
    (ordered : start ≤ finish) (within : finish ≤ weights.length) :
    (weights.scanl (fun total weight => total + amount weight) 0).getD finish 0 -
        (weights.scanl (fun total weight => total + amount weight) 0).getD start 0 =
      ((weights.extract start finish).map amount).sum := by
  rw [scanl_getD amount weights within, scanl_getD amount weights (ordered.trans within),
    take_eq_extract weights ordered, List.map_append, List.sum_append, Nat.add_sub_cancel_left]

private theorem sum_of_finite_and_infinite (weights : List ℕ∞) :
    (if 0 < (weights.map fun weight => if weight = ⊤ then 1 else 0).sum then (⊤ : ℕ∞)
      else (((weights.map ENat.toNat).sum : Nat) : ℕ∞)) = weights.sum := by
  induction weights with
  | nil => rfl
  | cons weight rest ih =>
      rw [List.sum_cons, ← ih, List.map_cons, List.map_cons, List.sum_cons, List.sum_cons]
      by_cases infinite : weight = ⊤
      · simp [infinite]
      · obtain ⟨amount, rfl⟩ := ENat.ne_top_iff_exists.mp infinite
        rw [if_neg infinite, Nat.zero_add, ENat.toNat_natCast]
        split
        · rw [add_top]
        · rw [Nat.cast_add]

theorem rangeWeight_eq_sum {weights : List ℕ∞} {start finish : Nat} (ordered : start ≤ finish)
    (within : finish < weights.length) :
    rangeWeight weights start finish = (weights.extract start (finish + 1)).sum := by
  unfold rangeWeight infinitePrefix finitePrefix
  dsimp only
  rw [scanl_difference _ weights (Nat.le_succ_of_le ordered) within,
    scanl_difference _ weights (Nat.le_succ_of_le ordered) within]
  exact sum_of_finite_and_infinite _

variable {isLegalActiveTurnCut weightOf}

theorem rangeWeight_eq {messages : List Message} {start finish : Nat} (ordered : start ≤ finish)
    (within : finish < messages.length) :
    rangeWeight (messages.map weightOf) start finish =
      totalWeight weightOf (messages.extract start (finish + 1)) := by
  rw [rangeWeight_eq_sum ordered (by rwa [List.length_map])]
  unfold totalWeight
  rw [List.extract_eq_take_drop, List.extract_eq_take_drop, List.map_take, List.map_drop]

theorem totalWeight_append (front back : List Message) :
    totalWeight weightOf (front ++ back) = totalWeight weightOf front + totalWeight weightOf back := by
  unfold totalWeight
  rw [List.map_append, List.sum_append]

theorem totalWeight_le_of_prefix {front whole : List Message} (starts : front <+: whole) :
    totalWeight weightOf front ≤ totalWeight weightOf whole := by
  obtain ⟨back, rfl⟩ := starts
  rw [totalWeight_append]
  exact le_self_add

/-- What stands before the first cut is part of what leads to the next one. -/
theorem take_prefix_throughNextCut (messages : List Message) : ∀ count : Nat,
    (∀ message ∈ messages.take count, isLegalActiveTurnCut message = false) →
    messages.take (count + 1) <+: throughNextCut isLegalActiveTurnCut messages := by
  induction messages with
  | nil =>
      intro count _
      exact List.prefix_rfl
  | cons message rest ih =>
      intro count uncut
      unfold throughNextCut
      cases count with
      | zero =>
          rw [List.take_succ_cons, List.take_zero]
          split
          · exact List.prefix_rfl
          · exact ⟨_, rfl⟩
      | succ count =>
          have here := uncut message (by rw [List.take_succ_cons]; exact List.mem_cons_self)
          rw [List.take_succ_cons, here, if_neg Bool.false_ne_true]
          refine List.cons_prefix_cons.mpr ⟨rfl, ih count ?_⟩
          intro later inside
          exact uncut later (by rw [List.take_succ_cons]; exact List.mem_cons_of_mem _ inside)

/-! ### Ranges by their places -/

private theorem mem_extract {messages : List Message} {start finish : Nat} {message : Message}
    (inside : message ∈ messages.extract start finish) :
    ∃ place, start ≤ place ∧ place < finish ∧ messages[place]? = some message := by
  rw [List.extract_eq_take_drop] at inside
  obtain ⟨offset, within⟩ := List.mem_iff_getElem?.mp inside
  rw [List.getElem?_take] at within
  split at within
  · rename_i bound
    rw [List.getElem?_drop] at within
    exact ⟨start + offset, by omega, by omega, within⟩
  · cases within

private theorem dropLast_extract {messages : List Message} {start finish : Nat}
    (within : finish ≤ messages.length) :
    (messages.extract start finish).dropLast = messages.extract start (finish - 1) := by
  rw [List.dropLast_eq_take, List.extract_eq_take_drop, List.extract_eq_take_drop, List.take_take,
    List.length_take, List.length_drop]
  congr 1
  omega

private theorem getLast?_extract {messages : List Message} {start finish : Nat}
    (ordered : start ≤ finish) (within : finish < messages.length) :
    (messages.extract start (finish + 1)).getLast? = messages[finish]? := by
  rw [List.extract_eq_take_drop, List.getLast?_eq_getElem?, List.length_take, List.length_drop,
    List.getElem?_take, if_pos (by omega), List.getElem?_drop]
  congr 1
  omega

private theorem extract_append_drop {messages : List Message} {start finish : Nat}
    (ordered : start ≤ finish) :
    messages.extract start finish ++ messages.drop finish = messages.drop start := by
  have rest : messages.drop finish = (messages.drop start).drop (finish - start) := by
    rw [List.drop_drop, Nat.add_sub_cancel' ordered]
  rw [rest, List.extract_eq_take_drop, List.take_append_drop]

private theorem extract_append_take {messages : List Message} {start middle finish : Nat}
    (first : start ≤ middle) (second : middle ≤ finish) :
    messages.extract start middle ++ (messages.drop middle).take (finish - middle) =
      messages.extract start finish := by
  have rest : messages.drop middle = (messages.drop start).drop (middle - start) := by
    rw [List.drop_drop, Nat.add_sub_cancel' first]
  rw [rest, List.extract_eq_take_drop, List.extract_eq_take_drop, ← List.take_add]
  congr 1
  omega

/-! ### What the scan knows -/

variable (isLegalActiveTurnCut weightOf)

/-- The remembered cut is the last one since the start, and was too early to be full. -/
structure Scanned (messages : List Message) (maxChars start index : Nat) (lastLegalCut : Int) :
    Prop where
  behind : lastLegalCut < index
  within : index ≤ messages.length
  uncut : ∀ place message, start ≤ place → lastLegalCut < (place : Int) → place < index →
    messages[place]? = some message → isLegalActiveTurnCut message = false
  legal : (start : Int) ≤ lastLegalCut →
    ∃ message, messages[lastLegalCut.toNat]? = some message ∧ isLegalActiveTurnCut message = true
  light : (start : Int) ≤ lastLegalCut →
    totalWeight weightOf (messages.extract start (lastLegalCut.toNat + 1)) < (maxChars : ℕ∞)
  whole : (maxChars : ℕ∞) < totalWeight weightOf (messages.extract start index) →
    ∀ place message, start ≤ place → place + 1 < index → messages[place]? = some message →
      isLegalActiveTurnCut message = false

variable {isLegalActiveTurnCut weightOf} {messages : List Message} {maxChars : Nat}
variable {start index : Nat} {lastLegalCut : Int}

theorem scanned_restart (within : start ≤ messages.length) :
    Scanned isLegalActiveTurnCut weightOf messages maxChars start start (-1) := by
  refine ⟨by omega, within, ?_, by omega, by omega, ?_⟩
  · intro place message after _ before _
    omega
  · intro _ place message after before _
    omega

/-- The first pass of the limit at this message leaves no cut to go back to. -/
theorem Scanned.no_cut_before (known : Scanned isLegalActiveTurnCut weightOf messages maxChars start
      index lastLegalCut)
    (stays : ¬(start < index ∧ (maxChars : ℕ∞) < totalWeight weightOf
      (messages.extract start (index + 1)) ∧ (start : Int) ≤ lastLegalCut))
    (heavy : (maxChars : ℕ∞) < totalWeight weightOf (messages.extract start (index + 1))) :
    ∀ place message, start ≤ place → place < index → messages[place]? = some message →
      isLegalActiveTurnCut message = false := by
  intro place message after before found
  have cutBehind : lastLegalCut < start := by
    by_contra late
    exact stays ⟨by omega, heavy, by omega⟩
  exact known.uncut place message after (by omega) before found

theorem Scanned.advance (known : Scanned isLegalActiveTurnCut weightOf messages maxChars start index
      lastLegalCut)
    (inside : index < messages.length)
    (stays : ¬(start < index ∧ (maxChars : ℕ∞) < totalWeight weightOf
      (messages.extract start (index + 1)) ∧ (start : Int) ≤ lastLegalCut))
    (notFull : ¬((maxChars : ℕ∞) ≤ totalWeight weightOf (messages.extract start (index + 1)) ∧
      isLegalActiveTurnCut messages[index] = true)) :
    Scanned isLegalActiveTurnCut weightOf messages maxChars start (index + 1)
      (if isLegalActiveTurnCut messages[index] then index else lastLegalCut) := by
  have behind := known.behind
  have here : messages[index]? = some messages[index] := List.getElem?_eq_getElem inside
  have whole : (maxChars : ℕ∞) < totalWeight weightOf (messages.extract start (index + 1)) →
      ∀ place message, start ≤ place → place + 1 < index + 1 → messages[place]? = some message →
        isLegalActiveTurnCut message = false := by
    intro heavy place message after before found
    exact known.no_cut_before stays heavy place message after (by omega) found
  by_cases legal : isLegalActiveTurnCut messages[index] = true
  · rw [if_pos legal]
    refine ⟨by omega, inside, ?_, ?_, ?_, whole⟩
    · intro place message _ after before _
      omega
    · intro _
      exact ⟨messages[index], here, legal⟩
    · intro _
      exact lt_of_not_ge fun full => notFull ⟨full, legal⟩
  · rw [if_neg legal]
    refine ⟨by omega, inside, ?_, known.legal, known.light, whole⟩
    intro place message after later before found
    rcases Nat.lt_or_eq_of_le (Nat.le_of_lt_succ before) with earlier | atIndex
    · exact known.uncut place message after later earlier found
    · rw [atIndex, here] at found
      rw [← Option.some.inj found]
      exact Bool.eq_false_iff.mpr legal

/-! ### The law of the cuts -/

/-- Going back to the last legal cut. -/
theorem Scanned.cut_back (known : Scanned isLegalActiveTurnCut weightOf messages maxChars start index
      lastLegalCut)
    (inside : index < messages.length)
    (heavy : (maxChars : ℕ∞) < totalWeight weightOf (messages.extract start (index + 1)))
    (remembered : (start : Int) ≤ lastLegalCut) {ranges : List (List Message)}
    (later : CutLaw isLegalActiveTurnCut weightOf maxChars
      (messages.drop (lastLegalCut + 1).toNat) ranges) :
    CutLaw isLegalActiveTurnCut weightOf maxChars (messages.drop start)
      (messages.extract start (lastLegalCut + 1).toNat :: ranges) := by
  obtain ⟨cut, rfl⟩ : ∃ cut : Nat, lastLegalCut = cut := ⟨lastLegalCut.toNat, by omega⟩
  have behind : cut < index := by
    have := known.behind
    omega
  have after : start ≤ cut := by omega
  have next : ((cut : Int) + 1).toNat = cut + 1 := by omega
  have light := known.light remembered
  obtain ⟨message, found, legal⟩ := known.legal remembered
  rw [Int.toNat_natCast] at light found
  rw [next] at later ⊢
  rw [← extract_append_drop (Nat.le_succ_of_le after)]
  refine CutLaw.cut _ _ _ ?_ ?_ ?_ later
  · exact ⟨message, (getLast?_extract after (by omega)).trans found, legal⟩
  · intro passes
    exact absurd (passes.trans light) (lt_irrefl _)
  · -- The messages that passed the limit lie before the next cut.
    right
    have uncut : ∀ other ∈ (messages.drop (cut + 1)).take (index - (cut + 1)),
        isLegalActiveTurnCut other = false := by
      intro other member
      have extracted : other ∈ messages.extract (cut + 1) index := by
        rw [List.extract_eq_take_drop]
        exact member
      obtain ⟨place, past, before, at_place⟩ := mem_extract extracted
      exact known.uncut place other (by omega) (by omega) before at_place
    have starts := take_prefix_throughNextCut _ _ uncut
    have counted : index - (cut + 1) + 1 = index + 1 - (cut + 1) := by omega
    rw [counted] at starts
    refine lt_of_lt_of_le heavy ?_
    rw [← extract_append_take (Nat.le_succ_of_le after) (show cut + 1 ≤ index + 1 by omega)]
    exact totalWeight_le_of_prefix ((List.prefix_append_right_inj _).mpr starts)

/-- Cutting at a message that fills its range. -/
theorem Scanned.cut_here (known : Scanned isLegalActiveTurnCut weightOf messages maxChars start index
      lastLegalCut)
    (forward : start ≤ index) (inside : index < messages.length)
    (stays : ¬(start < index ∧ (maxChars : ℕ∞) < totalWeight weightOf
      (messages.extract start (index + 1)) ∧ (start : Int) ≤ lastLegalCut))
    (full : (maxChars : ℕ∞) ≤ totalWeight weightOf (messages.extract start (index + 1)))
    (legal : isLegalActiveTurnCut messages[index] = true) {ranges : List (List Message)}
    (later : CutLaw isLegalActiveTurnCut weightOf maxChars (messages.drop (index + 1)) ranges) :
    CutLaw isLegalActiveTurnCut weightOf maxChars (messages.drop start)
      (messages.extract start (index + 1) :: ranges) := by
  rw [← extract_append_drop (Nat.le_succ_of_le forward)]
  refine CutLaw.cut _ _ _ ?_ ?_ (Or.inl full) later
  · refine ⟨messages[index], ?_, legal⟩
    rw [getLast?_extract forward inside, List.getElem?_eq_getElem inside]
  · intro heavy message member
    rw [dropLast_extract inside] at member
    obtain ⟨place, after, before, found⟩ := mem_extract member
    exact known.no_cut_before stays heavy place message after before found

theorem Scanned.finish (known : Scanned isLegalActiveTurnCut weightOf messages maxChars start
      messages.length lastLegalCut)
    (remains : start < messages.length) :
    CutLaw isLegalActiveTurnCut weightOf maxChars (messages.drop start) [messages.drop start] := by
  have whole : messages.drop start = messages.extract start messages.length := by
    rw [← List.append_nil (messages.extract start messages.length), ← List.drop_length (l := messages),
      extract_append_drop remains.le]
  refine CutLaw.rest _ ?_ ?_
  · exact List.ne_nil_of_length_pos (by rw [List.length_drop]; omega)
  · intro heavy message member
    rw [whole] at heavy member
    rw [dropLast_extract le_rfl] at member
    obtain ⟨place, after, before, found⟩ := mem_extract member
    exact known.whole heavy place message after (by omega) found

theorem fragmentScan_cutLaw (forceClosed : Bool) (forward : start ≤ index)
    (known : Scanned isLegalActiveTurnCut weightOf messages maxChars start index lastLegalCut) :
    CutLaw isLegalActiveTurnCut weightOf maxChars (messages.drop start)
      ((fragmentScan isLegalActiveTurnCut messages (messages.map weightOf) maxChars forceClosed start
        index lastLegalCut forward).map Prod.fst) := by
  fun_induction fragmentScan isLegalActiveTurnCut messages (messages.map weightOf) maxChars forceClosed
    start index lastLegalCut forward with
  | case1 start index lastLegalCut forward inside nextWeight rewinds next ih =>
      have same : nextWeight = _ := rangeWeight_eq forward inside
      rw [same] at rewinds
      have nextWithin : next ≤ messages.length := by
        have := known.behind
        omega
      exact known.cut_back inside rewinds.2.1 rewinds.2.2 (ih (scanned_restart nextWithin))
  | case2 start index lastLegalCut forward inside nextWeight stays legalCut full ih =>
      have same : nextWeight = _ := rangeWeight_eq forward inside
      rw [same] at stays full
      exact known.cut_here forward inside stays full.1 full.2 (ih (scanned_restart inside))
  | case3 start index lastLegalCut forward inside nextWeight stays legalCut notFull ih =>
      have same : nextWeight = _ := rangeWeight_eq forward inside
      rw [same] at stays notFull
      exact ih (known.advance inside stays notFull)
  | case4 start index lastLegalCut forward outside remains =>
      have atEnd : index = messages.length := Nat.le_antisymm known.within (by omega)
      rw [atEnd] at known
      exact known.finish remains
  | case5 start index lastLegalCut forward outside nothing =>
      rw [List.drop_eq_nil_of_le (by omega)]
      exact CutLaw.done

theorem fragmentSourceRange_cutLaw (messages : List Message) (maxChars : Nat) (forceClosed : Bool) :
    CutLaw isLegalActiveTurnCut weightOf maxChars messages
      ((fragmentSourceRange isLegalActiveTurnCut weightOf messages maxChars forceClosed).map
        Prod.fst) := by
  unfold fragmentSourceRange
  cases messages with
  | nil => exact CutLaw.done
  | cons message rest =>
      exact fragmentScan_cutLaw forceClosed le_rfl (scanned_restart (Nat.zero_le _))

/-! ### What the law says of the emitted ranges -/

variable {ranges : List (List Message)}

theorem CutLaw.flatten_eq (law : CutLaw isLegalActiveTurnCut weightOf maxChars messages ranges) :
    ranges.flatten = messages := by
  induction law with
  | done => rfl
  | rest messages => exact List.flatten_singleton
  | cut range messages ranges _ _ _ _ ih => rw [List.flatten_cons, ih]

theorem EndsAtCut.ne_nil {range : List Message} (ends : EndsAtCut isLegalActiveTurnCut range) :
    range ≠ [] := by
  intro empty
  obtain ⟨message, last, _⟩ := ends
  rw [empty] at last
  cases last

theorem CutLaw.nonempty (law : CutLaw isLegalActiveTurnCut weightOf maxChars messages ranges) :
    ∀ range ∈ ranges, range ≠ [] := by
  induction law with
  | done =>
      intro range inside
      cases inside
  | rest messages nonempty =>
      intro range inside
      rw [List.mem_singleton.mp inside]
      exact nonempty
  | cut range messages ranges ends _ _ _ ih =>
      intro other inside
      rcases List.mem_cons.mp inside with same | later
      · rw [same]
        exact ends.ne_nil
      · exact ih other later

theorem CutLaw.at_place (law : CutLaw isLegalActiveTurnCut weightOf maxChars messages ranges) :
    ∀ before range after, ranges = before ++ range :: after →
      Indivisible isLegalActiveTurnCut weightOf maxChars range ∧
        (after ≠ [] → EndsAtCut isLegalActiveTurnCut range ∧
          Mature isLegalActiveTurnCut weightOf maxChars range after.flatten) := by
  induction law with
  | done =>
      intro before range after split
      exact absurd split.symm (List.append_ne_nil_of_right_ne_nil _ (List.cons_ne_nil _ _))
  | rest messages nonempty indivisible =>
      intro before range after split
      cases before with
      | nil =>
          cases split
          exact ⟨indivisible, fun more => absurd rfl more⟩
      | cons first before =>
          have impossible := List.cons.inj split
          exact absurd impossible.2.symm (List.append_ne_nil_of_right_ne_nil _ (List.cons_ne_nil _ _))
  | cut cutRange messages ranges ends indivisible mature later ih =>
      intro before range after split
      cases before with
      | nil =>
          have parts := List.cons.inj split
          rw [← parts.1, ← parts.2, later.flatten_eq]
          exact ⟨indivisible, fun _ => ⟨ends, mature⟩⟩
      | cons first before => exact ih before range after (List.cons.inj split).2

/-- The ranges cover the source in order, and each is cut where the law allows. -/
theorem fragmentSourceRange_lawful (messages : List Message) (maxChars : Nat) (forceClosed : Bool) :
    let ranges := (fragmentSourceRange isLegalActiveTurnCut weightOf messages maxChars
      forceClosed).map Prod.fst
    ranges.flatten = messages ∧ (∀ range ∈ ranges, range ≠ []) ∧
      ∀ before range after, ranges = before ++ range :: after →
        Indivisible isLegalActiveTurnCut weightOf maxChars range ∧
          (after ≠ [] → EndsAtCut isLegalActiveTurnCut range ∧
            Mature isLegalActiveTurnCut weightOf maxChars range after.flatten) := by
  intro ranges
  have law : CutLaw isLegalActiveTurnCut weightOf maxChars messages ranges :=
    fragmentSourceRange_cutLaw messages maxChars forceClosed
  exact ⟨law.flatten_eq, law.nonempty, law.at_place⟩

end Scan

end Reflection.Fragments
