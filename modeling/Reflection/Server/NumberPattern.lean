/-
The pattern of words and numbers at the front of a text.

A number is a sign, an integer, a fraction and an exponent, of which only the integer is always
there. Each part of the pattern takes as much as it can, and none has to give back: what follows it
may always be nothing. So no longer literal starts the text.
-/

import Reflection.Shared.JsonReading

namespace Reflection

open JsString JsObject

/-- An optional unit of a class. -/
def matchOneOf (units : List UInt16) : JsString → JsString
  | [] => []
  | first :: _ => if units.contains first then [first] else []

/-- `(?:[eE][+-]?[0-9]+)?`. -/
def matchExponent : JsString → JsString
  | [] => []
  | first :: rest =>
      if first = 0x65 ∨ first = 0x45 then
        let sign := matchOneOf [0x2b, 0x2d] rest
        let digits := (rest.drop sign.length).takeWhile isDigit
        if digits.isEmpty then [] else first :: (sign ++ digits)
      else []

/-- `(?:\.[0-9]+)?`. -/
def matchFraction : JsString → JsString
  | [] => []
  | first :: rest =>
      if first = 0x2e then
        let digits := rest.takeWhile isDigit
        if digits.isEmpty then [] else first :: digits
      else []

/-- `(?:0|[1-9][0-9]*)`. -/
def matchInteger : JsString → Option JsString
  | [] => none
  | first :: rest =>
      if first = 0x30 then some [first]
      else if 0x31 ≤ first ∧ first ≤ 0x39 then some (first :: rest.takeWhile isDigit)
      else none

/-- `-?(?:0|[1-9][0-9]*)(?:\.[0-9]+)?(?:[eE][+-]?[0-9]+)?`. -/
def matchNumber (text : JsString) : Option JsString := do
  let sign := matchOneOf [0x2d] text
  let unsigned := text.drop sign.length
  let integer ← matchInteger unsigned
  let behindInteger := unsigned.drop integer.length
  let fraction := matchFraction behindInteger
  let exponent := matchExponent (behindInteger.drop fraction.length)
  some (sign ++ (integer ++ (fraction ++ exponent)))

/-- The words come first in the pattern. -/
def matchPrimitive (text : JsString) : Option JsString :=
  if (ofString "true").isPrefixOf text then some (ofString "true")
  else if (ofString "false").isPrefixOf text then some (ofString "false")
  else if (ofString "null").isPrefixOf text then some (ofString "null")
  else matchNumber text

/-! ### The parts of a literal -/

def Digits (text : JsString) : Prop := text ≠ [] ∧ ∀ unit ∈ text, isDigit unit = true

/-- A sign of a class, or none. -/
def IsSign (units : List UInt16) (text : JsString) : Prop :=
  text = [] ∨ ∃ unit, units.contains unit = true ∧ text = [unit]

inductive IsFraction : JsString → Prop
  | absent : IsFraction []
  | point {digits : JsString} (isDigits : Digits digits) : IsFraction (0x2e :: digits)

inductive IsExponent : JsString → Prop
  | absent : IsExponent []
  | marked {mark : UInt16} {sign digits : JsString} (isMark : mark = 0x65 ∨ mark = 0x45)
      (isSign : IsSign [0x2b, 0x2d] sign) (isDigits : Digits digits) :
      IsExponent (mark :: (sign ++ digits))

structure LiteralParts (sign integer fraction exponent : JsString) : Prop where
  sign : IsSign [0x2d] sign
  integer : isIndexText integer = true
  fraction : IsFraction fraction
  exponent : IsExponent exponent

/-- What stands behind digits does not continue them. -/
def EndsDigits (rest : JsString) : Prop := ∀ unit, rest.head? = some unit → isDigit unit = false

theorem EndsDigits.takeWhile {rest : JsString} (ends : EndsDigits rest) : rest.takeWhile isDigit = [] := by
  cases rest with
  | nil => rfl
  | cons first behind =>
      rw [List.takeWhile_cons, ends first rfl]
      rfl

theorem takeWhile_digits {digits rest : JsString} (each : ∀ unit ∈ digits, isDigit unit = true)
    (ends : EndsDigits rest) :
    (digits ++ rest).takeWhile isDigit = digits ∧ (digits ++ rest).dropWhile isDigit = rest := by
  rw [List.takeWhile_append_of_pos each, List.dropWhile_append_of_pos each]
  cases rest with
  | nil => exact ⟨List.append_nil digits, rfl⟩
  | cons first behind =>
      have stop := ends first rfl
      rw [List.takeWhile_cons, List.dropWhile_cons, stop]
      exact ⟨List.append_nil digits, rfl⟩

theorem endsDigits_nil : EndsDigits [] := fun _ isHead => (nomatch isHead)

theorem endsDigits_cons {unit : UInt16} {rest : JsString} (stop : isDigit unit = false) :
    EndsDigits (unit :: rest) := by
  intro first isFirst
  cases isFirst
  exact stop

theorem IsExponent.endsDigits {exponent : JsString} (isExponent : IsExponent exponent) (nonempty : exponent ≠ [])
    (rest : JsString) : EndsDigits (exponent ++ rest) := by
  cases isExponent with
  | absent => exact absurd rfl nonempty
  | marked isMark _ _ =>
      rcases isMark with rfl | rfl
      · exact endsDigits_cons rfl
      · exact endsDigits_cons rfl

theorem isIndexText_digits {integer : JsString} (isInteger : isIndexText integer = true) : Digits integer := by
  cases integer with
  | nil => cases isInteger
  | cons first rest =>
      refine ⟨List.cons_ne_nil _ _, ?_⟩
      simp only [isIndexText, Bool.or_eq_true, Bool.and_eq_true, beq_iff_eq, decide_eq_true_eq,
        List.isEmpty_iff, List.all_eq_true] at isInteger
      rcases isInteger with ⟨rfl, rfl⟩ | ⟨⟨lower, upper⟩, each⟩
      · intro unit inside
        rw [List.mem_singleton.mp inside]
        rfl
      · intro unit inside
        rcases List.mem_cons.mp inside with rfl | later
        · simp only [isDigit, Bool.and_eq_true, decide_eq_true_eq]
          exact ⟨UInt16.le_trans (by decide) lower, upper⟩
        · exact each unit later

/-! ### Literals and their parts -/

theorem withoutSign_split (units : List UInt16) (text : JsString) :
    ∃ sign, IsSign units sign ∧ text = sign ++ withoutSign units text := by
  cases text with
  | nil => exact ⟨[], .inl rfl, rfl⟩
  | cons first rest =>
      cases isSign : units.contains first with
      | true =>
          rw [withoutSign, if_pos isSign]
          exact ⟨[first], .inr ⟨first, isSign, rfl⟩, rfl⟩
      | false =>
          rw [withoutSign, isSign]
          exact ⟨[], .inl rfl, rfl⟩

theorem isExponent_parts {text : JsString} (literal : isExponent text = true) : IsExponent text := by
  cases text with
  | nil => exact .absent
  | cons mark rest =>
      simp only [isExponent, Bool.and_eq_true, Bool.or_eq_true, beq_iff_eq] at literal
      obtain ⟨⟨isMark, nonempty⟩, each⟩ := literal
      have isDigits : Digits (withoutSign [0x2b, 0x2d] rest) := by
        refine ⟨fun empty => ?_, List.all_eq_true.mp each⟩
        rw [empty] at nonempty
        cases nonempty
      obtain ⟨sign, isSign, whole⟩ := withoutSign_split [0x2b, 0x2d] rest
      rw [whole]
      exact .marked isMark.symm isSign isDigits

theorem isFraction_parts {text : JsString} (literal : Reflection.isFraction text = true) :
    ∃ fraction exponent, text = fraction ++ exponent ∧ IsFraction fraction ∧ IsExponent exponent := by
  cases text with
  | nil => exact ⟨[], [], rfl, .absent, .absent⟩
  | cons first rest =>
      unfold Reflection.isFraction at literal
      dsimp only at literal
      split at literal
      · rename_i isPoint
        obtain ⟨nonempty, isExponent⟩ := Bool.and_eq_true_iff.mp literal
        have isDigits : Digits (rest.takeWhile isDigit) := by
          refine ⟨fun empty => ?_, fun unit inside => List.mem_takeWhile_imp inside⟩
          rw [empty] at nonempty
          cases nonempty
        refine ⟨0x2e :: rest.takeWhile isDigit, rest.dropWhile isDigit, ?_, .point isDigits,
          isExponent_parts isExponent⟩
        rw [isPoint, List.cons_append, List.takeWhile_append_dropWhile]
      · exact ⟨[], first :: rest, rfl, .absent, isExponent_parts literal⟩

theorem isNumberLiteral_parts {token : JsString} (literal : isNumberLiteral token = true) :
    ∃ sign integer fraction exponent, token = sign ++ (integer ++ (fraction ++ exponent)) ∧
      LiteralParts sign integer fraction exponent := by
  simp only [isNumberLiteral, Bool.and_eq_true] at literal
  obtain ⟨⟨_, isInteger⟩, behind⟩ := literal
  obtain ⟨sign, isSign, whole⟩ := withoutSign_split [0x2d] token
  obtain ⟨fraction, exponent, split, isFraction, isExponent⟩ := isFraction_parts behind
  refine ⟨sign, _, fraction, exponent, ?_,
    { sign := isSign
      integer := isInteger
      fraction := isFraction
      exponent := isExponent }⟩
  rw [← split, List.takeWhile_append_dropWhile]
  exact whole

/-! ### Matching -/

theorem matchOneOf_isSign (units : List UInt16) (text : JsString) :
    IsSign units (matchOneOf units text) ∧ text = matchOneOf units text ++ text.drop (matchOneOf units text).length := by
  cases text with
  | nil => exact ⟨.inl rfl, rfl⟩
  | cons first rest =>
      cases isSign : units.contains first with
      | true =>
          rw [matchOneOf, if_pos isSign]
          exact ⟨.inr ⟨first, isSign, rfl⟩, rfl⟩
      | false =>
          rw [matchOneOf, isSign]
          exact ⟨.inl rfl, rfl⟩

/-- A digit is no sign. -/
theorem notSigns_of_digit {unit : UInt16} (digit : isDigit unit = true) :
    ([0x2b, 0x2d] : List UInt16).contains unit = false := by
  rw [← Bool.not_eq_true]
  intro inside
  simp only [List.contains_iff_mem, List.mem_cons, List.not_mem_nil, or_false] at inside
  rcases inside with rfl | rfl <;> cases digit

theorem notSign_of_digit {unit : UInt16} (digit : isDigit unit = true) :
    ([0x2d] : List UInt16).contains unit = false := by
  rw [← Bool.not_eq_true]
  intro inside
  rw [List.contains_iff_mem, List.mem_singleton] at inside
  subst inside
  cases digit

/-- A sign is matched as it is in front of a unit that is no sign. -/
theorem matchOneOf_append {units : List UInt16} {sign : JsString} (isSign : IsSign units sign)
    {rest : JsString} (other : ∀ unit, rest.head? = some unit → units.contains unit = false) :
    matchOneOf units (sign ++ rest) = sign := by
  rcases isSign with rfl | ⟨unit, isUnit, rfl⟩
  · cases rest with
    | nil => rfl
    | cons first behind =>
        rw [List.nil_append, matchOneOf, other first rfl]
        rfl
  · exact if_pos isUnit

/-- What is matched is an integer in front of the text. -/
theorem matchInteger_sound {text integer : JsString} (matched : matchInteger text = some integer) :
    isIndexText integer = true ∧ text = integer ++ text.drop integer.length := by
  cases text with
  | nil => cases matched
  | cons first rest =>
      rw [matchInteger] at matched
      split at matched
      · rename_i isZero
        cases matched
        rw [isZero]
        exact ⟨rfl, rfl⟩
      · split at matched
        · rename_i range
          cases matched
          constructor
          · simp only [isIndexText, Bool.or_eq_true, Bool.and_eq_true, decide_eq_true_eq, List.all_eq_true]
            exact .inr ⟨range, fun unit inside => List.mem_takeWhile_imp inside⟩
          · rw [List.length_cons, List.drop_succ_cons, List.cons_append,
              List.prefix_iff_eq_append.mp (List.takeWhile_prefix isDigit)]
        · cases matched

/-- An integer is matched, with the digits behind it that continue it. -/
theorem matchInteger_append {integer : JsString} (isInteger : isIndexText integer = true)
    (rest : JsString) : ∃ more, matchInteger (integer ++ rest) = some (integer ++ more) ∧
      (EndsDigits rest → more = []) := by
  cases integer with
  | nil => cases isInteger
  | cons first digits =>
      simp only [isIndexText, Bool.or_eq_true, Bool.and_eq_true, beq_iff_eq, decide_eq_true_eq,
        List.isEmpty_iff, List.all_eq_true] at isInteger
      rcases isInteger with ⟨rfl, rfl⟩ | ⟨⟨lower, upper⟩, each⟩
      · exact ⟨[], rfl, fun _ => rfl⟩
      · have notZero : first ≠ 0x30 := by
          rintro rfl
          exact absurd lower (by decide)
        refine ⟨rest.takeWhile isDigit, ?_, fun ends => ?_⟩
        · rw [List.cons_append, matchInteger, if_neg notZero, if_pos ⟨lower, upper⟩,
            List.takeWhile_append_of_pos each]
          rfl
        · exact ends.takeWhile

theorem matchFraction_sound (text : JsString) :
    IsFraction (matchFraction text) ∧ text = matchFraction text ++ text.drop (matchFraction text).length := by
  cases text with
  | nil => exact ⟨.absent, rfl⟩
  | cons first rest =>
      rw [matchFraction]
      split
      · rename_i isPoint
        dsimp only
        split
        · exact ⟨.absent, rfl⟩
        · rename_i nonempty
          rw [isPoint]
          constructor
          · refine .point ⟨fun empty => nonempty ?_, fun unit inside => List.mem_takeWhile_imp inside⟩
            rw [empty]
            rfl
          · rw [List.length_cons, List.drop_succ_cons, List.cons_append,
              List.prefix_iff_eq_append.mp (List.takeWhile_prefix isDigit)]
      · exact ⟨.absent, rfl⟩

theorem matchFraction_append {fraction : JsString} (isFraction : IsFraction fraction)
    (nonempty : fraction ≠ []) (rest : JsString) :
    ∃ more, matchFraction (fraction ++ rest) = fraction ++ more ∧ (EndsDigits rest → more = []) := by
  cases isFraction with
  | absent => exact absurd rfl nonempty
  | @point digits isDigits =>
      obtain ⟨first, behind, rfl⟩ := List.exists_cons_of_ne_nil isDigits.1
      refine ⟨rest.takeWhile isDigit, ?_, fun ends => ?_⟩
      · rw [List.cons_append, matchFraction, if_pos rfl, List.takeWhile_append_of_pos isDigits.2]
        rfl
      · exact ends.takeWhile

theorem matchExponent_sound (text : JsString) :
    IsExponent (matchExponent text) ∧ text = matchExponent text ++ text.drop (matchExponent text).length := by
  cases text with
  | nil => exact ⟨.absent, rfl⟩
  | cons first rest =>
      rw [matchExponent]
      split
      · rename_i isMark
        dsimp only
        split
        · exact ⟨.absent, rfl⟩
        · rename_i nonempty
          obtain ⟨isSign, whole⟩ := matchOneOf_isSign [0x2b, 0x2d] rest
          let sign := matchOneOf [0x2b, 0x2d] rest
          constructor
          · refine .marked isMark isSign
              ⟨fun empty => nonempty ?_, fun unit inside => List.mem_takeWhile_imp inside⟩
            rw [empty]
            rfl
          · have digits := List.prefix_iff_eq_append.mp
              (List.takeWhile_prefix isDigit (l := rest.drop sign.length))
            have isPrefix : sign ++ (rest.drop sign.length).takeWhile isDigit <+: rest := by
              refine ⟨(rest.drop sign.length).drop ((rest.drop sign.length).takeWhile isDigit).length, ?_⟩
              rw [List.append_assoc, digits]
              exact whole.symm
            rw [List.length_cons, List.drop_succ_cons, List.cons_append,
              List.prefix_iff_eq_append.mp isPrefix]
      · exact ⟨.absent, rfl⟩

theorem matchExponent_append {exponent : JsString} (isExponent : IsExponent exponent)
    (nonempty : exponent ≠ []) (rest : JsString) :
    ∃ more, matchExponent (exponent ++ rest) = exponent ++ more := by
  cases isExponent with
  | absent => exact absurd rfl nonempty
  | @marked mark sign digits isMark isSign isDigits =>
      obtain ⟨first, behind, rfl⟩ := List.exists_cons_of_ne_nil isDigits.1
      have notSign : ∀ unit, ((first :: behind) ++ rest).head? = some unit →
          ([0x2b, 0x2d] : List UInt16).contains unit = false := by
        intro unit isHead
        cases isHead
        exact notSigns_of_digit (isDigits.2 _ List.mem_cons_self)
      refine ⟨rest.takeWhile isDigit, ?_⟩
      rw [List.cons_append, List.append_assoc, matchExponent, if_pos isMark,
        matchOneOf_append isSign notSign]
      dsimp only
      rw [List.drop_left, List.takeWhile_append_of_pos isDigits.2, if_neg (by simp)]
      simp only [List.cons_append, List.append_assoc]

/-! ### Numbers -/

/-- A fraction or an exponent ends the digits in front of it. -/
theorem LiteralParts.endsDigits {sign integer fraction exponent : JsString}
    (parts : LiteralParts sign integer fraction exponent) {rest : JsString}
    (ends : fraction = [] → exponent = [] → EndsDigits rest) :
    EndsDigits (fraction ++ (exponent ++ rest)) := by
  cases parts.fraction with
  | point _ => exact endsDigits_cons rfl
  | absent =>
      rcases eq_or_ne exponent [] with rfl | present
      · exact ends rfl rfl
      · exact parts.exponent.endsDigits present rest

/-- Where an exponent follows, a fraction is matched as it is. -/
theorem matchFraction_exact {fraction exponent : JsString} (isFraction : IsFraction fraction)
    (isExponent : IsExponent exponent) (present : exponent ≠ []) (rest : JsString) :
    matchFraction (fraction ++ (exponent ++ rest)) = fraction := by
  rcases eq_or_ne fraction [] with rfl | nonempty
  · cases isExponent with
    | absent => exact absurd rfl present
    | marked isMark _ _ =>
        rcases isMark with rfl | rfl
        · rfl
        · rfl
  · obtain ⟨more, matched, ends⟩ := matchFraction_append isFraction nonempty (exponent ++ rest)
    rw [matched, ends (isExponent.endsDigits present rest), List.append_nil]

theorem head_of_integer {integer rest : JsString} (isInteger : isIndexText integer = true) {unit : UInt16}
    (isHead : (integer ++ rest).head? = some unit) : isDigit unit = true := by
  obtain ⟨nonempty, each⟩ := isIndexText_digits isInteger
  obtain ⟨first, behind, rfl⟩ := List.exists_cons_of_ne_nil nonempty
  cases isHead
  exact each _ List.mem_cons_self

/-- The match is made of the parts of a literal and starts the text. -/
theorem matchNumber_sound {text matched : JsString} (isMatch : matchNumber text = some matched) :
    (∃ sign integer fraction exponent, matched = sign ++ (integer ++ (fraction ++ exponent)) ∧
      LiteralParts sign integer fraction exponent) ∧ matched <+: text := by
  obtain ⟨integer, isInteger, later⟩ := Option.bind_eq_some_iff.mp isMatch
  cases later
  obtain ⟨isSign, signSplit⟩ := matchOneOf_isSign [0x2d] text
  obtain ⟨isIndex, integerSplit⟩ := matchInteger_sound isInteger
  let unsigned := text.drop (matchOneOf [0x2d] text).length
  let behindInteger := unsigned.drop integer.length
  obtain ⟨isFraction, fractionSplit⟩ := matchFraction_sound behindInteger
  let behindFraction := behindInteger.drop (matchFraction behindInteger).length
  obtain ⟨isExponent, exponentSplit⟩ := matchExponent_sound behindFraction
  refine ⟨⟨_, _, _, _, rfl,
    { sign := isSign
      integer := isIndex
      fraction := isFraction
      exponent := isExponent }⟩, behindFraction.drop (matchExponent behindFraction).length, ?_⟩
  rw [List.append_assoc, List.append_assoc, List.append_assoc, ← exponentSplit, ← fractionSplit,
    ← integerSplit]
  exact signSplit.symm

/-- No literal at the front of the text is longer than the match. -/
theorem matchNumber_longest {token : JsString} (literal : isNumberLiteral token = true) (rest : JsString) :
    ∃ matched, matchNumber (token ++ rest) = some matched ∧ token.length ≤ matched.length := by
  obtain ⟨sign, integer, fraction, exponent, rfl, parts⟩ := isNumberLiteral_parts literal
  let behind := fraction ++ (exponent ++ rest)
  have whole : sign ++ (integer ++ (fraction ++ exponent)) ++ rest = sign ++ (integer ++ behind) := by
    simp only [List.append_assoc, behind]
  have isSign : matchOneOf [0x2d] (sign ++ (integer ++ behind)) = sign :=
    matchOneOf_append parts.sign fun unit isHead => notSign_of_digit (head_of_integer parts.integer isHead)
  obtain ⟨more, isInteger, ends⟩ := matchInteger_append parts.integer behind
  have unfolded : matchNumber (sign ++ (integer ++ behind)) = some (sign ++ ((integer ++ more) ++
      (matchFraction ((integer ++ behind).drop (integer ++ more).length) ++
        matchExponent (((integer ++ behind).drop (integer ++ more).length).drop
          (matchFraction ((integer ++ behind).drop (integer ++ more).length)).length)))) := by
    rw [matchNumber, isSign]
    dsimp only
    rw [List.drop_left, isInteger]
    rfl
  refine ⟨_, by rw [whole, unfolded], ?_⟩
  by_cases onlyInteger : fraction = [] ∧ exponent = []
  · -- The integer is all there is to cover.
    rw [onlyInteger.1, onlyInteger.2]
    simp only [List.length_append, List.length_nil]
    omega
  · -- What follows the integer ends it, so that it is matched as it is.
    have none : more = [] :=
      ends (parts.endsDigits fun noFraction noExponent => absurd ⟨noFraction, noExponent⟩ onlyInteger)
    rw [none, List.append_nil, List.drop_left]
    rcases eq_or_ne exponent [] with rfl | present
    · have isPresent : fraction ≠ [] := fun empty => onlyInteger ⟨empty, rfl⟩
      obtain ⟨digits, matched, _⟩ := matchFraction_append parts.fraction isPresent ([] ++ rest)
      rw [matched]
      simp only [List.length_append, List.length_nil]
      omega
    · obtain ⟨digits, matched⟩ := matchExponent_append parts.exponent present rest
      rw [matchFraction_exact parts.fraction parts.exponent present, List.drop_left, matched]
      simp only [List.length_append]
      omega

/-! ### Parts make a literal -/

theorem isNumberUnit_of_digit {unit : UInt16} (digit : isDigit unit = true) : isNumberUnit unit = true := by
  rw [isNumberUnit, digit]
  rfl

theorem isNumberUnit_of_sign {units text : JsString} (isSign : IsSign units text)
    (each : units.all isNumberUnit = true) : ∀ unit ∈ text, isNumberUnit unit = true := by
  intro unit inside
  rcases isSign with rfl | ⟨sign, isUnit, rfl⟩
  · cases inside
  · rw [List.mem_singleton.mp inside]
    exact List.all_eq_true.mp each sign (List.contains_iff_mem.mp isUnit)

theorem withoutSign_append {units sign : JsString} (isSign : IsSign units sign) {rest : JsString}
    (other : ∀ unit, rest.head? = some unit → units.contains unit = false) :
    withoutSign units (sign ++ rest) = rest := by
  rcases isSign with rfl | ⟨unit, isUnit, rfl⟩
  · cases rest with
    | nil => rfl
    | cons first behind =>
        rw [List.nil_append, withoutSign, other first rfl]
        rfl
  · exact if_pos isUnit

theorem IsExponent.literal {exponent : JsString} (isExponent : IsExponent exponent) :
    Reflection.isExponent exponent = true := by
  cases isExponent with
  | absent => rfl
  | @marked mark sign digits isMark isSign isDigits =>
      obtain ⟨first, behind, rfl⟩ := List.exists_cons_of_ne_nil isDigits.1
      have notSign : ∀ unit, (first :: behind).head? = some unit →
          ([0x2b, 0x2d] : List UInt16).contains unit = false := by
        intro unit isHead
        cases isHead
        exact notSigns_of_digit (isDigits.2 _ List.mem_cons_self)
      rw [Reflection.isExponent, withoutSign_append isSign notSign]
      simp only [Bool.and_eq_true, Bool.or_eq_true, beq_iff_eq]
      exact ⟨⟨isMark.symm, rfl⟩, List.all_eq_true.mpr isDigits.2⟩

theorem isFraction_of_parts {fraction exponent : JsString} (isFraction : IsFraction fraction)
    (isExponent : IsExponent exponent) : Reflection.isFraction (fraction ++ exponent) = true := by
  cases isFraction with
  | absent =>
      have literal := isExponent.literal
      cases isExponent with
      | absent => rfl
      | @marked mark sign digits isMark isSign isDigits =>
          have notPoint : mark ≠ 0x2e := by
            rcases isMark with rfl | rfl <;> decide
          rw [List.nil_append, Reflection.isFraction, if_neg notPoint]
          exact literal
  | @point digits isDigits =>
      have ends : EndsDigits exponent := by
        rcases eq_or_ne exponent [] with rfl | present
        · exact endsDigits_nil
        · have behind := isExponent.endsDigits present []
          rwa [List.append_nil] at behind
      obtain ⟨taken, dropped⟩ := takeWhile_digits isDigits.2 ends
      rw [List.cons_append, Reflection.isFraction, if_pos rfl, taken, dropped, isExponent.literal]
      cases digits with
      | nil => exact absurd rfl isDigits.1
      | cons first behind => rfl

theorem LiteralParts.units {sign integer fraction exponent : JsString}
    (parts : LiteralParts sign integer fraction exponent) :
    ∀ unit ∈ sign ++ (integer ++ (fraction ++ exponent)), isNumberUnit unit = true := by
  intro unit inside
  simp only [List.mem_append] at inside
  rcases inside with inSign | inInteger | inFraction | inExponent
  · exact isNumberUnit_of_sign parts.sign rfl unit inSign
  · exact isNumberUnit_of_digit ((isIndexText_digits parts.integer).2 unit inInteger)
  · cases parts.fraction with
    | absent => cases inFraction
    | point isDigits =>
        rcases List.mem_cons.mp inFraction with rfl | isDigit
        · rfl
        · exact isNumberUnit_of_digit (isDigits.2 unit isDigit)
  · cases parts.exponent with
    | absent => cases inExponent
    | marked isMark isSign isDigits =>
        rcases List.mem_cons.mp inExponent with rfl | behind
        · rcases isMark with rfl | rfl <;> rfl
        · rcases List.mem_append.mp behind with inSign | isDigit
          · exact isNumberUnit_of_sign isSign rfl unit inSign
          · exact isNumberUnit_of_digit (isDigits.2 unit isDigit)

theorem LiteralParts.literal {sign integer fraction exponent : JsString}
    (parts : LiteralParts sign integer fraction exponent) :
    isNumberLiteral (sign ++ (integer ++ (fraction ++ exponent))) = true := by
  have ends : EndsDigits (fraction ++ exponent) := by
    have behind : EndsDigits (fraction ++ (exponent ++ [])) := parts.endsDigits fun _ _ => endsDigits_nil
    rwa [List.append_nil] at behind
  have unsigned : withoutSign [0x2d] (sign ++ (integer ++ (fraction ++ exponent))) =
      integer ++ (fraction ++ exponent) :=
    withoutSign_append parts.sign fun unit isHead => notSign_of_digit (head_of_integer parts.integer isHead)
  obtain ⟨taken, dropped⟩ := takeWhile_digits (isIndexText_digits parts.integer).2 ends
  rw [isNumberLiteral, unsigned, taken, dropped, parts.integer, isFraction_of_parts parts.fraction parts.exponent,
    List.all_eq_true.mpr parts.units]
  rfl

/-- The match is a literal that starts the text. -/
theorem matchNumber_literal {text matched : JsString} (isMatch : matchNumber text = some matched) :
    isNumberLiteral matched = true ∧ matched <+: text := by
  obtain ⟨⟨sign, integer, fraction, exponent, rfl, parts⟩, isPrefix⟩ := matchNumber_sound isMatch
  exact ⟨parts.literal, isPrefix⟩

end Reflection
