/-
Values of the database: texts, JSONB and three-valued conditions.

NULL is `none`. A condition that is NULL is not taken, and an operator applied to NULL is NULL
unless its definition says otherwise.
-/

import Reflection.Shared.CodePoints

namespace Reflection

/-! ### Conditions -/

namespace Sql

/-- A condition that may be NULL. -/
abbrev Condition := Option Bool

/-- `one OR other`. -/
def or : Condition → Condition → Condition
  | some true, _ => some true
  | _, some true => some true
  | some false, some false => some false
  | _, _ => none

/-- `one AND other`. -/
def and : Condition → Condition → Condition
  | some false, _ => some false
  | _, some false => some false
  | some true, some true => some true
  | _, _ => none

/-- `NOT condition`. -/
def not (condition : Condition) : Condition := condition.map fun value => !value

/-- Conditions joined by `OR`. -/
def anyOf (conditions : List Condition) : Condition := conditions.foldr or (some false)

/-- Conditions joined by `AND`. -/
def allOf (conditions : List Condition) : Condition := conditions.foldr and (some true)

/-- `IF condition THEN` and `WHERE condition`. -/
def taken (condition : Condition) : Bool := condition == some true

/-- `one IS DISTINCT FROM other`. -/
def isDistinctFrom {Value : Type} [DecidableEq Value] (one other : Option Value) : Condition :=
  some (decide (one ≠ other))

/-- `value <> other`. -/
def differs {Value : Type} [DecidableEq Value] (value : Option Value) (other : Value) : Condition :=
  value.map fun known => decide (known ≠ other)

/-- `value IS NOT NULL`. -/
def isNotNull {Value : Type} (value : Option Value) : Condition := some value.isSome

/-- `value IS NULL`. -/
def isNull {Value : Type} (value : Option Value) : Condition := some value.isNone

theorem anyOf_false {conditions : List Condition} (each : ∀ condition ∈ conditions, condition = some false) :
    anyOf conditions = some false := by
  induction conditions with
  | nil => rfl
  | cons condition rest ih =>
      have behind : anyOf rest = some false := ih fun other inside => each other (List.mem_cons_of_mem _ inside)
      have first : condition = some false := each condition List.mem_cons_self
      rw [anyOf, List.foldr_cons, ← anyOf, behind, first]
      rfl

theorem allOf_true {conditions : List Condition} (each : ∀ condition ∈ conditions, condition = some true) :
    allOf conditions = some true := by
  induction conditions with
  | nil => rfl
  | cons condition rest ih =>
      have behind : allOf rest = some true := ih fun other inside => each other (List.mem_cons_of_mem _ inside)
      have first : condition = some true := each condition List.mem_cons_self
      rw [allOf, List.foldr_cons, ← allOf, behind, first]
      rfl

@[simp] theorem isDistinctFrom_self {Value : Type} [DecidableEq Value] (value : Option Value) :
    isDistinctFrom value value = some false := by
  simp [isDistinctFrom]

@[simp] theorem differs_self {Value : Type} [DecidableEq Value] (value : Value) :
    differs (some value) value = some false := by
  simp [differs]

/-- Rows of which none satisfies the condition. -/
theorem any_taken_false {Row : Type} {rows : List Row} {condition : Row → Condition}
    (each : ∀ row ∈ rows, condition row = some false) :
    (rows.any fun row => taken (condition row)) = false := by
  rw [List.any_eq_false]
  intro row inside
  rw [each row inside]
  exact Bool.false_ne_true

end Sql

/-! ### Texts -/

namespace PgText

/-- Parts joined by `||`. -/
def concat : List (Option PgText) → Option PgText
  | [] => some []
  | part :: rest => do
      let text ← part
      let behind ← concat rest
      some (text ++ behind)

/-- `string_agg(row, '')`: rows that are NULL are left out. -/
def stringAgg (rows : List (Option PgText)) : Option PgText :=
  match rows.filterMap id with
  | [] => none
  | known => some known.flatten

/-- `btrim(text)`. -/
def btrim (text : PgText) : PgText :=
  (text.dropWhile fun point => point == ' ').rdropWhile fun point => point == ' '

theorem concat_some (parts : List PgText) : concat (parts.map some) = some parts.flatten := by
  induction parts with
  | nil => rfl
  | cons part rest ih => simp [concat, ih]

/-- Where a row is known for every item. -/
theorem stringAgg_some {Item : Type} {items : List Item} (row : Item → PgText) :
    stringAgg (items.map fun item => some (row item)) =
      if items = [] then none else some (items.flatMap row) := by
  have known : (items.map fun item => some (row item)).filterMap id = items.map row := by
    rw [List.filterMap_map]
    exact List.filterMap_eq_map ▸ rfl
  unfold stringAgg
  rw [known]
  cases items with
  | nil => rfl
  | cons item rest =>
      rw [if_neg (List.cons_ne_nil item rest), List.flatMap_def]
      rfl

theorem btrim_ne_nil {point : Char} {rest : PgText} (visible : point ≠ ' ') :
    btrim (point :: rest) ≠ [] := by
  intro blank
  have stopped : (point == ' ') = false := by simpa using visible
  rw [btrim, List.dropWhile_cons, stopped, List.rdropWhile_eq_nil_iff] at blank
  have isBlank := blank point List.mem_cons_self
  rw [stopped] at isBlank
  cases isBlank

end PgText

/-! ### JSONB -/

/-- A JSONB value; an object keeps each key once. -/
inductive Jsonb
  | null
  | boolean (value : Bool)
  | number (value : Rat)
  | string (value : PgText)
  | array (items : List Jsonb)
  | object (entries : List (PgText × Jsonb))

inductive JsonbType
  | null
  | boolean
  | number
  | string
  | array
  | object
deriving DecidableEq

namespace Jsonb

/-- `jsonb_typeof(value)`. -/
def typeof : Jsonb → JsonbType
  | .null => .null
  | .boolean _ => .boolean
  | .number _ => .number
  | .string _ => .string
  | .array _ => .array
  | .object _ => .object

/-- `value -> key`. -/
def field : Jsonb → PgText → Option Jsonb
  | .object entries, key => (entries.find? fun entry => entry.1 == key).map (·.2)
  | _, _ => none

/-- The value as `->>` reads it. The functions below read only strings so; where another value
stands, they return before they use it. -/
def asText : Jsonb → Option PgText
  | .string value => some value
  | _ => none

/-- `value ->> key`. -/
def fieldText (value : Jsonb) (key : PgText) : Option PgText := (value.field key).bind asText

/-- `(value ->> key)::numeric` of a number; as for `asText`, no other value is cast. -/
def fieldNumeric (value : Jsonb) (key : PgText) : Option Rat :=
  match value.field key with
  | some (.number known) => some known
  | _ => none

/-- `jsonb_typeof(value -> key)`. -/
def fieldType (value : Jsonb) (key : PgText) : Option JsonbType := (value.field key).map typeof

/-- `value -> key IS DISTINCT FROM expected::jsonb`. -/
def fieldIsNot (value : Jsonb) (key : PgText) (expected : Rat) : Sql.Condition :=
  match value.field key with
  | some (.number known) => some (decide (known ≠ expected))
  | _ => some true

/-- `value ?& keys`: keys of an object, strings of an array. -/
def hasAll (value : Jsonb) (keys : List PgText) : Bool :=
  match value with
  | .object entries => keys.all fun key => entries.any fun entry => entry.1 == key
  | .array items => keys.all fun key => items.any fun item => item.asText == some key
  | other => keys.all fun key => other.asText == some key

/-- `value - keys <> '{}'::jsonb`, for an object. -/
def hasOther (value : Jsonb) (keys : List PgText) : Bool :=
  match value with
  | .object entries => !(entries.filter fun entry => !keys.contains entry.1).isEmpty
  | _ => true

/-- `jsonb_array_elements(value)`. -/
def elements : Option Jsonb → List Jsonb
  | some (.array items) => items
  | _ => []

/-- `jsonb_array_length(value)`. -/
def arrayLength : Option Jsonb → Option Nat
  | some (.array items) => some items.length
  | _ => none

@[simp] theorem typeof_string (value : PgText) : (Jsonb.string value).typeof = .string := rfl
@[simp] theorem typeof_number (value : Rat) : (Jsonb.number value).typeof = .number := rfl
@[simp] theorem typeof_array (items : List Jsonb) : (Jsonb.array items).typeof = .array := rfl
@[simp] theorem typeof_object (entries : List (PgText × Jsonb)) : (Jsonb.object entries).typeof = .object := rfl

end Jsonb

end Reflection
