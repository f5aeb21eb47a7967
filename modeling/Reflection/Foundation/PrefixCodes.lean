/-
Codes whose words can be read off the front of a text in only one way.

Fields of known length, terminated fields and counted lists are such codes, and so is a
record whose fields are written one behind the other.
-/

import Mathlib

namespace Reflection

section PrefixCodes

variable {Unit Value Other : Type}

/-- What a text starts with determines the valid value and what stands behind it. -/
def PrefixCode (valid : Value → Prop) (encode : Value → List Unit) : Prop :=
  ∀ one other after behind, valid one → valid other →
    encode one ++ after = encode other ++ behind → one = other ∧ after = behind

namespace PrefixCode

variable {valid : Value → Prop} {encode : Value → List Unit}
variable {otherValid : Other → Prop} {otherEncode : Other → List Unit}

theorem injective (code : PrefixCode valid encode) {one other : Value} (oneValid : valid one)
    (otherIsValid : valid other) (same : encode one = encode other) : one = other :=
  (code one other [] [] oneValid otherIsValid (by rw [same])).1

/-- Only the words of valid values matter. -/
theorem congr (code : PrefixCode valid encode) {written : Value → List Unit}
    (same : ∀ value, valid value → written value = encode value) : PrefixCode valid written := by
  intro one other after behind oneValid otherIsValid equal
  rw [same one oneValid, same other otherIsValid] at equal
  exact code one other after behind oneValid otherIsValid equal

/-- A code for an injective image of a type is a code for the type. -/
theorem comap (code : PrefixCode otherValid otherEncode) {image : Value → Other}
    (into : ∀ value, valid value → otherValid (image value))
    (apart : ∀ one other, valid one → valid other → image one = image other → one = other) :
    PrefixCode valid fun value => otherEncode (image value) := by
  intro one other after behind oneValid otherIsValid same
  have split := code _ _ after behind (into one oneValid) (into other otherIsValid) same
  exact ⟨apart one other oneValid otherIsValid split.1, split.2⟩

/-- Words of one length. -/
theorem fixed {length : Nat} (sizes : ∀ value, valid value → (encode value).length = length)
    (apart : ∀ one other, valid one → valid other → encode one = encode other → one = other) :
    PrefixCode valid encode := by
  intro one other after behind oneValid otherIsValid same
  have words := List.append_inj same ((sizes one oneValid).trans (sizes other otherIsValid).symm)
  exact ⟨apart one other oneValid otherIsValid words.1, words.2⟩

/-- Words that never hold a unit may be ended by it. -/
theorem terminated {stop : Unit} (absent : ∀ value, valid value → stop ∉ encode value)
    (apart : ∀ one other, valid one → valid other → encode one = encode other → one = other) :
    PrefixCode valid fun value => encode value ++ [stop] := by
  have words : ∀ left right after behind : List Unit, stop ∉ left → stop ∉ right →
      left ++ [stop] ++ after = right ++ [stop] ++ behind → left = right ∧ after = behind := by
    intro left
    induction left with
    | nil =>
        intro right after behind _ rightAbsent same
        cases right with
        | nil => simpa using same
        | cons first rest =>
            have isStop : stop = first := (List.cons.inj same).1
            exact absurd (isStop ▸ List.mem_cons_self) rightAbsent
    | cons first rest ih =>
        intro right after behind leftAbsent rightAbsent same
        cases right with
        | nil =>
            have isStop : first = stop := (List.cons.inj same).1
            exact absurd (isStop ▸ List.mem_cons_self) leftAbsent
        | cons head tail =>
            have parts := List.cons.inj same
            have split := ih tail after behind (fun inside => leftAbsent (List.mem_cons_of_mem _ inside))
              (fun inside => rightAbsent (List.mem_cons_of_mem _ inside)) parts.2
            exact ⟨by rw [parts.1, split.1], split.2⟩
  intro one other after behind oneValid otherIsValid same
  have split := words _ _ after behind (absent one oneValid) (absent other otherIsValid) same
  exact ⟨apart one other oneValid otherIsValid split.1, split.2⟩

/-- A word behind its own length. -/
theorem measured {size : Nat → List Unit} (sizes : PrefixCode (fun _ => True) size)
    (apart : ∀ one other, valid one → valid other → encode one = encode other → one = other) :
    PrefixCode valid fun value => size (encode value).length ++ encode value := by
  intro one other after behind oneValid otherIsValid same
  rw [List.append_assoc, List.append_assoc] at same
  have lengths := sizes _ _ _ _ trivial trivial same
  have words := List.append_inj lengths.2 lengths.1
  exact ⟨apart one other oneValid otherIsValid words.1, words.2⟩

/-- Two fields one behind the other. -/
theorem pair (first : PrefixCode valid encode) (second : PrefixCode otherValid otherEncode) :
    PrefixCode (fun value : Value × Other => valid value.1 ∧ otherValid value.2)
      fun value => encode value.1 ++ otherEncode value.2 := by
  intro one other after behind oneValid otherIsValid same
  rw [List.append_assoc, List.append_assoc] at same
  have front := first _ _ _ _ oneValid.1 otherIsValid.1 same
  have back := second _ _ _ _ oneValid.2 otherIsValid.2 front.2
  exact ⟨Prod.ext front.1 back.1, back.2⟩

/-- Lists of one length. -/
theorem sequence (code : PrefixCode valid encode) (ones others : List Value) (after behind : List Unit)
    (onesValid : ∀ value ∈ ones, valid value) (othersValid : ∀ value ∈ others, valid value)
    (length : ones.length = others.length)
    (same : ones.flatMap encode ++ after = others.flatMap encode ++ behind) :
    ones = others ∧ after = behind := by
  induction ones generalizing others with
  | nil =>
      cases others with
      | nil => simpa using same
      | cons _ _ => simp at length
  | cons one rest ih =>
      cases others with
      | nil => simp at length
      | cons other tail =>
          rw [List.flatMap_cons, List.flatMap_cons, List.append_assoc, List.append_assoc] at same
          have front := code one other _ _ (onesValid one List.mem_cons_self)
            (othersValid other List.mem_cons_self) same
          have back := ih tail (fun value inside => onesValid value (List.mem_cons_of_mem _ inside))
            (fun value inside => othersValid value (List.mem_cons_of_mem _ inside))
            (by simpa using length) front.2
          exact ⟨by rw [front.1, back.1], back.2⟩

/-- A list behind its length. -/
theorem counted {size : Nat → List Unit} (sizes : PrefixCode (fun _ => True) size)
    (code : PrefixCode valid encode) :
    PrefixCode (fun values : List Value => ∀ value ∈ values, valid value)
      fun values => size values.length ++ values.flatMap encode := by
  intro ones others after behind onesValid othersValid same
  rw [List.append_assoc, List.append_assoc] at same
  have lengths := sizes _ _ _ _ trivial trivial same
  exact code.sequence ones others after behind onesValid othersValid lengths.1 lengths.2

end PrefixCode

end PrefixCodes

end Reflection
