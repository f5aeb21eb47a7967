/-
Truncating a text to a number of bytes.

A text is walked by code points, a lone surrogate being one of its own, and the bytes of its code
points add up to the bytes of the text. What is kept is the longest prefix of code points that
fits.
-/

import Reflection.Shared.Utf8

namespace Reflection

open JsString

/-- `for (const character of value)`. -/
def characters : JsString → List JsString
  | [] => []
  | [unit] => [[unit]]
  | first :: second :: rest =>
      if isHighSurrogate first && isLowSurrogate second then [first, second] :: characters rest
      else [first] :: characters (second :: rest)

/-- The loop of `truncateUtf8Bytes` behind some bytes. -/
def retainCharacters (maximum : Nat) : Nat → List JsString → List JsString
  | _, [] => []
  | bytes, character :: rest =>
      if maximum < bytes + utf8ByteLength character then []
      else character :: retainCharacters maximum (bytes + utf8ByteLength character) rest

def truncateUtf8Bytes (value : JsString) (maximum : Nat) : JsString :=
  if utf8ByteLength value ≤ maximum then value
  else (retainCharacters maximum 0 (characters value)).flatten

/-! ### Code points -/

theorem characters_flatten (value : JsString) : (characters value).flatten = value := by
  fun_induction characters value with
  | case1 => rfl
  | case2 unit => rfl
  | case3 first second rest isPair ih =>
      rw [List.flatten_cons, ih]
      rfl
  | case4 first second rest notPair ih =>
      rw [List.flatten_cons, ih]
      rfl

/-- The bytes of some code points. -/
def totalBytes (points : List JsString) : Nat := (points.map utf8ByteLength).sum

theorem totalBytes_cons (point : JsString) (rest : List JsString) :
    totalBytes (point :: rest) = utf8ByteLength point + totalBytes rest := rfl

theorem utf8ByteLength_pair {first second : UInt16}
    (isPair : (isHighSurrogate first && isLowSurrogate second) = true) (rest : JsString) :
    utf8ByteLength (first :: second :: rest) = 4 + utf8ByteLength rest := by
  have high := isHighSurrogate_iff.mp (Bool.and_eq_true_iff.mp isPair).1
  have notOne : ¬ first < 0x80 := by
    rw [UInt16.lt_iff_toNat_lt]
    simp only [UInt16.reduceToNat]
    omega
  have notTwo : ¬ first < 0x800 := by
    rw [UInt16.lt_iff_toNat_lt]
    simp only [UInt16.reduceToNat]
    omega
  rw [utf8ByteLength.eq_def]
  dsimp only
  rw [if_neg notOne, if_neg notTwo, if_pos isPair, Nat.add_comm]

/-- A unit that is no first half of a pair stands alone. -/
theorem utf8ByteLength_single {first : UInt16} {rest : JsString}
    (notPair : ∀ second, rest.head? = some second →
      ¬(isHighSurrogate first && isLowSurrogate second) = true) :
    utf8ByteLength (first :: rest) = utf8ByteLength [first] + utf8ByteLength rest := by
  rw [utf8ByteLength.eq_def, utf8ByteLength.eq_def [first]]
  dsimp only
  split
  · rw [utf8ByteLength]
    omega
  · split
    · rw [utf8ByteLength]
      omega
    · cases rest with
      | nil => rw [utf8ByteLength]
      | cons second after =>
          dsimp only
          rw [if_neg (notPair second rfl), Nat.add_comm]

theorem totalBytes_characters (value : JsString) : totalBytes (characters value) = utf8ByteLength value := by
  fun_induction characters value with
  | case1 => rfl
  | case2 unit => rfl
  | case3 first second rest isPair ih =>
      rw [totalBytes_cons, ih, utf8ByteLength_pair isPair, utf8ByteLength_pair isPair]
      rfl
  | case4 first second rest notPair ih =>
      have alone : utf8ByteLength (first :: second :: rest) =
          utf8ByteLength [first] + utf8ByteLength (second :: rest) := by
        refine utf8ByteLength_single fun other isHead => ?_
        cases isHead
        exact notPair
      rw [totalBytes_cons, ih, alone]

/-- The code points of a prefix of code points are these. -/
theorem characters_prefix {value : JsString} {taken : List JsString} (isPrefix : taken <+: characters value) :
    characters taken.flatten = taken := by
  fun_induction characters value generalizing taken with
  | case1 =>
      rw [List.prefix_nil.mp isPrefix]
      rfl
  | case2 unit =>
      rcases List.prefix_cons_iff.mp isPrefix with rfl | ⟨rest, rfl, isRest⟩
      · rfl
      · rw [List.prefix_nil.mp isRest]
        rfl
  | case3 first second rest isPair ih =>
      rcases List.prefix_cons_iff.mp isPrefix with rfl | ⟨points, rfl, isRest⟩
      · rfl
      · rw [List.flatten_cons, List.cons_append, List.cons_append, List.nil_append, characters,
          if_pos isPair, ih isRest]
  | case4 first second rest notPair ih =>
      rcases List.prefix_cons_iff.mp isPrefix with rfl | ⟨points, rfl, isRest⟩
      · rfl
      · have behind := ih isRest
        have starts : points.flatten <+: second :: rest := by
          obtain ⟨others, split⟩ := isRest
          refine ⟨others.flatten, ?_⟩
          rw [← List.flatten_append, split, characters_flatten]
        rw [List.flatten_cons, List.singleton_append]
        cases same : points.flatten with
        | nil =>
            rw [same] at behind
            rw [← behind]
            rfl
        | cons head tail =>
            rw [same] at behind starts
            obtain ⟨isHead, _⟩ := List.cons_prefix_cons.mp starts
            rw [isHead] at behind ⊢
            rw [characters, if_neg notPair, behind]

theorem utf8ByteLength_le_whole {value : JsString} {taken : List JsString}
    (isPrefix : taken <+: characters value) : utf8ByteLength taken.flatten = totalBytes taken := by
  rw [← totalBytes_characters, characters_prefix isPrefix]

/-! ### The longest prefix -/

/-- A prefix that ends between two code points. -/
def CodePointPrefix (kept value : JsString) : Prop :=
  ∃ taken, taken <+: characters value ∧ kept = taken.flatten

structure LongestPrefix (maximum : Nat) (value kept : JsString) : Prop where
  starts : CodePointPrefix kept value
  fits : utf8ByteLength kept ≤ maximum
  longest : ∀ other, CodePointPrefix other value → utf8ByteLength other ≤ maximum → other <+: kept

theorem retainCharacters_prefix (maximum bytes : Nat) (points : List JsString) :
    retainCharacters maximum bytes points <+: points := by
  induction points generalizing bytes with
  | nil => exact List.prefix_rfl
  | cons point rest ih =>
      unfold retainCharacters
      split
      · exact List.nil_prefix
      · exact List.cons_prefix_cons.mpr ⟨rfl, ih _⟩

theorem retainCharacters_fits {maximum bytes : Nat} (room : bytes ≤ maximum) (points : List JsString) :
    bytes + totalBytes (retainCharacters maximum bytes points) ≤ maximum := by
  induction points generalizing bytes with
  | nil => exact room
  | cons point rest ih =>
      unfold retainCharacters
      split
      · exact room
      · rename_i notOver
        have later := ih (Nat.not_lt.mp notOver)
        rw [totalBytes_cons]
        omega

theorem retainCharacters_longest {maximum bytes : Nat} {points taken : List JsString}
    (isPrefix : taken <+: points) (fits : bytes + totalBytes taken ≤ maximum) :
    taken <+: retainCharacters maximum bytes points := by
  induction points generalizing bytes taken with
  | nil => exact isPrefix
  | cons point rest ih =>
      rcases List.prefix_cons_iff.mp isPrefix with rfl | ⟨others, rfl, isRest⟩
      · exact List.nil_prefix
      · rw [totalBytes_cons] at fits
        rw [retainCharacters, if_neg (by omega)]
        exact List.cons_prefix_cons.mpr ⟨rfl, ih isRest (by omega)⟩

theorem truncateUtf8Bytes_longest (value : JsString) (maximum : Nat) :
    LongestPrefix maximum value (truncateUtf8Bytes value maximum) := by
  have flattened : ∀ {one other : List JsString}, one <+: other → one.flatten <+: other.flatten := by
    intro one other isPrefix
    obtain ⟨rest, rfl⟩ := isPrefix
    rw [List.flatten_append]
    exact List.prefix_append _ _
  unfold truncateUtf8Bytes
  split
  · rename_i whole
    refine
      { starts := ⟨characters value, List.prefix_rfl, (characters_flatten value).symm⟩
        fits := whole
        longest := fun other starts _ => ?_ }
    obtain ⟨taken, isPrefix, rfl⟩ := starts
    have inside := flattened isPrefix
    rwa [characters_flatten] at inside
  · have isPrefix := retainCharacters_prefix maximum 0 (characters value)
    refine
      { starts := ⟨_, isPrefix, rfl⟩
        fits := ?_
        longest := fun other starts fits => ?_ }
    · rw [utf8ByteLength_le_whole isPrefix]
      have bound := retainCharacters_fits (Nat.zero_le maximum) (characters value)
      rwa [Nat.zero_add] at bound
    · obtain ⟨taken, isTaken, rfl⟩ := starts
      rw [utf8ByteLength_le_whole isTaken] at fits
      exact flattened (retainCharacters_longest isTaken (by rwa [Nat.zero_add]))

theorem utf8ByteLength_le (text : JsString) : utf8ByteLength text ≤ 3 * text.length := by
  fun_induction utf8ByteLength text with
  | case1 => exact Nat.le_refl 0
  | case2 first rest _ ih =>
      rw [List.length_cons]
      omega
  | case3 first rest _ _ ih =>
      rw [List.length_cons]
      omega
  | case4 first _ _ second after _ ih =>
      rw [List.length_cons, List.length_cons]
      omega
  | case5 first _ _ second after _ ih =>
      rw [List.length_cons]
      omega
  | case6 first _ _ => exact Nat.le_refl 3

/-- A text that is not empty starts with a code point of at most two units. -/
theorem characters_head {value : JsString} (nonempty : value ≠ []) :
    ∃ head, [head] <+: characters value ∧ head ≠ [] ∧ head.length ≤ 2 := by
  fun_cases characters value with
  | case1 => exact absurd rfl nonempty
  | case2 unit => exact ⟨[unit], List.prefix_rfl, List.cons_ne_nil _ _, Nat.le_succ 1⟩
  | case3 first second rest _ =>
      exact ⟨[first, second], ⟨_, rfl⟩, List.cons_ne_nil _ _, Nat.le_refl 2⟩
  | case4 first second rest _ =>
      exact ⟨[first], ⟨_, rfl⟩, List.cons_ne_nil _ _, Nat.le_succ 1⟩

/-- Where a code point has room, only the empty text has nothing left. -/
theorem truncateUtf8Bytes_nil {value : JsString} {maximum : Nat} (room : 6 ≤ maximum)
    (nothing : truncateUtf8Bytes value maximum = []) : value = [] := by
  by_contra nonempty
  obtain ⟨head, isPrefix, isHead, short⟩ := characters_head nonempty
  have size := utf8ByteLength_le head
  have kept := (truncateUtf8Bytes_longest value maximum).longest head
    ⟨[head], isPrefix, (List.append_nil head).symm⟩ (by omega)
  rw [nothing, List.prefix_nil] at kept
  exact isHead kept

end Reflection
