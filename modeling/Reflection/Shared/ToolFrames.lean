/-
Frames of rendered tool parts are found again.

The pattern reads a name up to its closing quote and a state up to the end of its line, so each
frame is matched where it starts and the next match starts behind it. Whether the match is kept
is decided by the state alone.
-/

import Reflection.Shared.JsonReading
import Reflection.Shared.ToolSource

namespace Reflection

open JsString JsObject

/-! ### The pattern on a frame -/

theorem nameBody_plain {unit : UInt16} (rest : JsString) (notQuote : unit ≠ 0x22)
    (notBackslash : unit ≠ 0x5c) (plain : isLineBreak unit = false) :
    nameBody (unit :: rest) = (nameBody rest).map fun found => (unit :: found.1, found.2) := by
  simp only [isLineBreak, Bool.or_eq_false_iff, beq_eq_false_iff_ne] at plain
  rw [nameBody.eq_def]
  dsimp only
  rw [if_neg notQuote, if_neg notBackslash, if_neg (not_or.mpr plain)]

theorem nameBody_escape {escaped : UInt16} (rest : JsString) (plain : isLineTerminator escaped = false) :
    nameBody (0x5c :: escaped :: rest) =
      (nameBody rest).map fun found => (0x5c :: escaped :: found.1, found.2) := by
  rw [nameBody.eq_def]
  dsimp only
  rw [if_neg (by decide), if_pos rfl, plain]
  rfl

theorem hexDigit_plain : ∀ value < 16, hexDigit value ≠ 0x22 ∧ hexDigit value ≠ 0x5c ∧
    isLineBreak (hexDigit value) = false := by
  decide

theorem nameBody_hexDigit {value : Nat} (small : value < 16) (rest : JsString) :
    nameBody (hexDigit value :: rest) =
      (nameBody rest).map fun found => (hexDigit value :: found.1, found.2) := by
  obtain ⟨notQuote, notBackslash, plain⟩ := hexDigit_plain value small
  exact nameBody_plain rest notQuote notBackslash plain

theorem nameBody_unicode (unit : UInt16) (rest : JsString) :
    nameBody (unicodeEscape unit ++ rest) =
      (nameBody rest).map fun found => (unicodeEscape unit ++ found.1, found.2) := by
  have small := unit.toNat_lt
  have letter : isLineTerminator 0x75 = false := by decide
  rw [unicodeEscape]
  simp only [List.cons_append, List.nil_append]
  rw [nameBody_escape _ letter, nameBody_hexDigit (by omega), nameBody_hexDigit (by omega),
    nameBody_hexDigit (by omega), nameBody_hexDigit (by omega)]
  simp [Option.map_map, Function.comp_def]

theorem EscapedAs.nameBody {value text : JsString} (escaped : EscapedAs value text) (rest : JsString) :
    Reflection.nameBody (text ++ 0x22 :: rest) = some (text ++ [0x22], rest) := by
  induction escaped with
  | nil =>
      rw [List.nil_append, nameBody.eq_def]
      rfl
  | plain notQuote notBackslash visible behind ih =>
      rw [List.cons_append, nameBody_plain _ notQuote notBackslash (isLineBreak_of_visible visible), ih]
      rfl
  | @short unit escaped value text known behind ih =>
      have plain : isLineTerminator escaped = false := by
        rw [← Bool.not_eq_true]
        intro ends
        simp only [isLineTerminator, List.contains_iff_mem, List.mem_cons, List.not_mem_nil,
          or_false] at ends
        rcases ends with rfl | rfl | rfl | rfl <;> cases known
      rw [List.cons_append, List.cons_append, nameBody_escape _ plain, ih]
      rfl
  | unicode behind ih =>
      rw [List.append_assoc, nameBody_unicode, ih]
      simp

theorem behindPrefix_append (front rest : JsString) : behindPrefix front (front ++ rest) = some rest := by
  have isFront : front.isPrefixOf (front ++ rest) = true :=
    List.isPrefixOf_iff_prefix.mpr (List.prefix_append front rest)
  rw [behindPrefix, if_pos isFront, List.drop_left]

section Frames

variable {numbers : Numbers}

/-- The state of a frame is taken up to the break in front of the closing line. -/
theorem takeWhile_state {state : JsString} (oneLine : OneLine state) (rest : JsString) :
    (state ++ (toolClosing ++ rest)).takeWhile (fun unit => !(unit == 0x0a || unit == 0x0d)) = state := by
  have inside : ∀ unit ∈ state, (!(unit == 0x0a || unit == 0x0d)) = true := by
    intro unit isUnit
    have plain := oneLine unit isUnit
    rw [isLineBreak] at plain
    rw [plain]
    rfl
  obtain ⟨tail, starts⟩ : ∃ tail, toolClosing = 0x0a :: tail := ⟨_, rfl⟩
  rw [List.takeWhile_append_of_pos inside, starts]
  simp

theorem matchToolBlock_frame (part : ToolPart numbers.Number) (state : Json numbers.Number)
    (rest : JsString) :
    matchToolBlock (toolSourceFrame numbers part state ++ rest) =
      some
        { encodedName := jsonString (visibleToolName part)
          encodedState := stringify numbers state
          length := (toolSourceFrame numbers part state).length } := by
  have text : toolSourceFrame numbers part state ++ rest =
      (toolOpening ++ [0x22]) ++ (jsonEscape (visibleToolName part) ++
        0x22 :: (toolStateOpening ++ (stringify numbers state ++ (toolClosing ++ rest)))) := by
    simp [toolSourceFrame, jsonString]
  have body := (jsonEscape_escapedAs (visibleToolName part)).nameBody
    (toolStateOpening ++ (stringify numbers state ++ (toolClosing ++ rest)))
  have taken := takeWhile_state (stringify_oneLine state) rest
  have length : (toolSourceFrame numbers part state ++ rest).length - rest.length =
      (toolSourceFrame numbers part state).length := by
    rw [List.length_append]
    omega
  rw [text] at length ⊢
  rw [matchToolBlock]
  simp only [behindPrefix_append, Option.bind_eq_bind, Option.bind_some, body, taken, List.drop_left,
    length]
  rfl

/-- Units a match covers are passed over. -/
theorem matchAllToolBlocks_covered (covered passed : Nat) (text : JsString) :
    matchAllToolBlocks covered passed text =
      matchAllToolBlocks 0 (passed + covered) (text.drop covered) := by
  induction text generalizing covered passed with
  | nil => simp [matchAllToolBlocks]
  | cons first rest ih =>
      cases covered with
      | zero => rfl
      | succ covered =>
          rw [matchAllToolBlocks, ih, List.drop_succ_cons]
          congr 1
          omega

theorem matchAllToolBlocks_frame (part : ToolPart numbers.Number) (state : Json numbers.Number)
    (passed : Nat) (rest : JsString) :
    matchAllToolBlocks 0 passed (toolSourceFrame numbers part state ++ rest) =
      (passed,
        { encodedName := jsonString (visibleToolName part)
          encodedState := stringify numbers state
          length := (toolSourceFrame numbers part state).length }) ::
        matchAllToolBlocks 0 (passed + (toolSourceFrame numbers part state).length) rest := by
  have found := matchToolBlock_frame part state rest
  obtain ⟨first, tail, starts⟩ : ∃ first tail, toolSourceFrame numbers part state = first :: tail :=
    ⟨0x0a, _, rfl⟩
  rw [starts, List.cons_append] at found
  rw [starts, List.cons_append, matchAllToolBlocks, found]
  dsimp only
  rw [matchAllToolBlocks_covered]
  simp only [List.length_cons, Nat.add_sub_cancel, List.drop_left]
  congr 2
  omega

end Frames

end Reflection
