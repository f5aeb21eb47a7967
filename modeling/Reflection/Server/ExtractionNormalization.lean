/-
Absolute paths of an extraction, as its messages show them.

A path of the result that no message shows is replaced by its file name where a message shows that name
between backticks. Of tools, the names and states of canonical blocks are read, within a budget.
-/

import Reflection.Server.PathPattern
import Reflection.Shared.Extraction
import Reflection.Shared.ToolSizes
import Reflection.Shared.ToolSource

namespace Reflection.ExtractedPaths

open JsString

/-! ### Messages -/

section Messages

def isFileCharacter : JsString → Bool
  | [unit] =>
      (0x41 ≤ unit && unit ≤ 0x5a) || (0x61 ≤ unit && unit ≤ 0x7a) || (0x30 ≤ unit && unit ≤ 0x39) ||
        (pathMarks.contains unit && unit != 0x2f)
  | _ => false

/-- A match of SOURCE_CODE_FILENAME_PATTERN behind a character: what stands between the backticks. -/
def matchFilename (before : Option JsString) : List JsString → Option (List JsString)
  | [] => none
  | first :: rest =>
      let name := rest.takeWhile isFileCharacter
      match rest.dropWhile isFileCharacter with
      | [] => none
      | close :: behind =>
          if first == backtick && before != some backtick && !name.isEmpty && close == backtick &&
              behind.head? != some backtick then
            some name
          else none

def scanFilenames : Option JsString → Nat → List JsString → List (List JsString)
  | _, _, [] => []
  | _, covered + 1, first :: rest => scanFilenames (some first) covered rest
  | before, 0, first :: rest =>
      match matchFilename before (first :: rest) with
      | some name => name :: scanFilenames (some first) (name.length + 1) rest
      | none => scanFilenames (some first) 0 rest

def filenamesOf (text : JsString) : List JsString := (scanFilenames none 0 (characters text)).map List.flatten

theorem matchFilename_name {before : Option JsString} {text name : List JsString}
    (found : matchFilename before text = some name) :
    name ≠ [] ∧ ∀ character ∈ name, isFileCharacter character = true := by
  cases text with
  | nil => cases found
  | cons first rest =>
      rw [matchFilename] at found
      split at found
      · cases found
      · split at found
        · rename_i passes
          cases found
          rw [Bool.and_eq_true, Bool.and_eq_true, Bool.and_eq_true] at passes
          refine ⟨fun empty => ?_, fun character inside => List.mem_takeWhile_imp inside⟩
          have notEmpty := passes.1.1.2
          rw [empty] at notEmpty
          cases notEmpty
        · cases found

theorem scanFilenames_name (before : Option JsString) (covered : Nat) (text : List JsString) :
    ∀ name ∈ scanFilenames before covered text,
      name ≠ [] ∧ ∀ character ∈ name, isFileCharacter character = true := by
  induction text generalizing before covered with
  | nil =>
      intro name absent
      rw [scanFilenames] at absent
      cases absent
  | cons first rest ih =>
      intro name inside
      cases covered with
      | succ covered => exact ih _ _ name inside
      | zero =>
          rw [scanFilenames] at inside
          split at inside
          · rename_i other found
            rcases List.mem_cons.mp inside with same | behind
            · rw [same]
              exact matchFilename_name found
            · exact ih _ _ name behind
          · exact ih _ _ name inside

theorem filenamesOf_nonempty (text : JsString) : [] ∉ filenamesOf text := by
  intro inside
  obtain ⟨name, isName, empty⟩ := List.mem_map.mp inside
  obtain ⟨nonempty, each⟩ := scanFilenames_name none 0 _ name isName
  cases name with
  | nil => exact nonempty rfl
  | cons first rest =>
      rw [List.flatten_cons, List.append_eq_nil_iff] at empty
      have isFile := each first List.mem_cons_self
      rw [empty.1] at isFile
      cases isFile

/-- `text.indexOf(front, passed)`, with the text from there on. -/
def indexFrom (front : JsString) : Nat → JsString → Option Nat
  | passed, [] => if front.isPrefixOf [] then some passed else none
  | passed, first :: rest =>
      if front.isPrefixOf (first :: rest) then some passed else indexFrom front (passed + 1) rest

/-- Every frame moves the cursor, so the length of the text bounds their number. -/
def frameRanges (text : JsString) : Nat → Nat → List (Nat × Nat)
  | 0, _ => []
  | steps + 1, cursor =>
      if text.length ≤ cursor then []
      else
        match indexFrom toolOpening cursor (text.drop cursor) with
        | none => []
        | some start =>
            let behind := start + toolOpening.length
            let stop :=
              match indexFrom toolClosing behind (text.drop behind) with
              | none => text.length
              | some place => place + toolClosing.length
            (start, stop) :: frameRanges text steps stop

def toolFallbackFrameRanges (text : JsString) : List (Nat × Nat) := frameRanges text text.length 0

structure ScannedMessage where
  /-- the role of a legacy message, the type of a native one -/
  role : JsString
  text : JsString

/-- What is left for the states of tools. -/
structure ToolBudget where
  remainingToolChars : Nat
  toolBudgetExhausted : Bool

variable (numbers : Numbers)

mutual

def stateTexts : Json numbers.Number → List JsString
  | .null => []
  | .bool value => [if value then ofString "true" else ofString "false"]
  | .number value => [numbers.text value]
  | .string value => [value]
  | .array items => itemTexts items
  | .object entries => entryTexts entries

def itemTexts : List (Json numbers.Number) → List JsString
  | [] => []
  | item :: rest => stateTexts item ++ itemTexts rest

def entryTexts : List (JsString × Json numbers.Number) → List JsString
  | [] => []
  | (key, item) :: rest => key :: (stateTexts item ++ entryTexts rest)

end

/-- The texts of an assistant's message that are scanned, from the cursor on. -/
def assistantTexts (text : JsString) (blocks : List (CanonicalToolFallbackBlock numbers.Number)) :
    Nat → ToolBudget → List (Nat × Nat) → List JsString × ToolBudget
  | cursor, budget, [] => ([text.drop cursor], budget)
  | cursor, budget, (start, stop) :: ranges =>
      let before := (text.take start).drop cursor
      let behind := fun budget => assistantTexts text blocks stop budget ranges
      match blocks.reverse.find? fun block => block.start == start with
      | none => (before :: (behind budget).1, (behind budget).2)
      | some block =>
          if block.stop ≠ stop then (before :: (behind budget).1, (behind budget).2)
          else if budget.toolBudgetExhausted ∨ budget.remainingToolChars < stop - start then
            let exhausted := { budget with toolBudgetExhausted := true }
            (before :: (behind exhausted).1, (behind exhausted).2)
          else
            let left := { budget with remainingToolChars := budget.remainingToolChars - (stop - start) }
            (before :: block.name :: (stateTexts numbers block.state ++ (behind left).1), (behind left).2)

def messageTexts (budget : ToolBudget) (message : ScannedMessage) : List JsString × ToolBudget :=
  if message.role ≠ ofString "assistant" then ([message.text], budget)
  else
    assistantTexts numbers message.text (canonicalToolFallbackFrames numbers message.text) 0 budget
      (toolFallbackFrameRanges message.text)

def scannedTexts (budget : ToolBudget) : List ScannedMessage → List JsString
  | [] => []
  | message :: messages =>
      let scanned := messageTexts numbers budget message
      scanned.1 ++ scannedTexts scanned.2 messages

end Messages

/-! ### Normalization -/

section Normalization

variable (classes : UnicodeClasses) (numbers : Numbers)

/-- `path.slice(path.lastIndexOf("/") + 1)`. -/
def nameOf (path : List JsString) : List JsString :=
  (path.reverse.takeWhile fun character => character != slash).reverse

/-- The candidates that were seen, and their names that were seen between backticks. -/
structure Seen where
  exactPaths : List JsString
  backtickedBasenames : List JsString

def Seen.shorten (seen : Seen) (path : List JsString) : Option (List JsString) :=
  if seen.exactPaths.contains path.flatten then none
  else if seen.backtickedBasenames.contains (nameOf path).flatten then some (nameOf path)
  else none

def seenIn (candidates : List (List JsString)) (texts : List JsString) : Seen :=
  { exactPaths := (texts.flatMap fun text => (pathsOf classes text).map List.flatten).filter fun path =>
      (candidates.map List.flatten).contains path
    backtickedBasenames := (texts.flatMap filenamesOf).filter fun name =>
      (candidates.map fun path => (nameOf path).flatten).contains name }

def resultTexts (result : ExtractionResult) : List JsString :=
  result.summary :: result.claims.flatMap fun claim =>
    [claim.subject, claim.predicate] ++ claim.objectEntity.toList ++ claim.objectValue.toList

def normalizeClaim (normalize : JsString → JsString) (claim : ExtractedClaim) : ExtractedClaim :=
  { subject := normalize claim.subject
    predicate := normalize claim.predicate
    confidence := claim.confidence
    objectEntity := claim.objectEntity.map normalize
    objectValue := if claim.objectEntity.isNone then claim.objectValue.map normalize else none }

def normalizeTexts (normalize : JsString → JsString) (result : ExtractionResult) : ExtractionResult :=
  { summary := normalize result.summary
    claims := result.claims.map (normalizeClaim normalize) }

/-- The texts that are normalized, of which a claim has one object. -/
def normalizedTexts (result : ExtractionResult) : List JsString :=
  result.summary :: result.claims.flatMap fun claim =>
    [claim.subject, claim.predicate] ++
      if claim.objectEntity.isNone then claim.objectValue.toList else claim.objectEntity.toList

def normalizeExtractedPaths (result : ExtractionResult) (messages : List ScannedMessage) : ExtractionResult × Nat :=
  let candidates := (resultTexts result).flatMap (pathsOf classes)
  if candidates = [] then (result, 0)
  else
    let seen := seenIn classes candidates (scannedTexts numbers
      { remainingToolChars := MAX_COMPLETE_TOOL_SOURCE_CHARS
        toolBudgetExhausted := false } messages)
    (normalizeTexts (replacePaths classes seen.shorten) result,
      (((normalizedTexts result).flatMap (pathsOf classes)).filter fun path => (seen.shorten path).isSome).length)

variable {classes numbers}

theorem nameOf_toName (path : List JsString) :
    slash ∉ nameOf path ∧ ∃ front, path = front ++ nameOf path := by
  constructor
  · intro inside
    have isName := List.mem_takeWhile_imp (List.mem_reverse.mp inside)
    rw [bne_self_eq_false] at isName
    cases isName
  · refine ⟨(path.reverse.dropWhile fun character => character != slash).reverse, ?_⟩
    rw [nameOf, ← List.reverse_append, List.takeWhile_append_dropWhile, List.reverse_reverse]

theorem seenIn_toName (candidates : List (List JsString)) (texts : List JsString) :
    ToName (seenIn classes candidates texts).shorten := by
  intro path name isName
  rw [Seen.shorten] at isName
  split at isName
  · cases isName
  · split at isName
    · rename_i seen
      cases isName
      have nonempty : nameOf path ≠ [] := by
        intro empty
        rw [empty, List.contains_iff_mem] at seen
        obtain ⟨text, _, inside⟩ := List.mem_flatMap.mp (List.mem_filter.mp seen).1
        exact filenamesOf_nonempty text inside
      exact ⟨nonempty, nameOf_toName path⟩
    · cases isName

/-- A path that was left is left again while it is still a candidate. -/
theorem seenIn_again {candidates others : List (List JsString)} {texts : List JsString} {path : List JsString}
    (inside : path ∈ candidates) (again : path ∈ others)
    (left : (seenIn classes candidates texts).shorten path = none) :
    (seenIn classes others texts).shorten path = none := by
  rw [Seen.shorten] at left ⊢
  split at left
  · rename_i seen
    rw [if_pos]
    rw [List.contains_iff_mem] at seen ⊢
    exact List.mem_filter.mpr ⟨(List.mem_filter.mp seen).1,
      List.contains_iff_mem.mpr (List.mem_map.mpr ⟨path, again, rfl⟩)⟩
  · split at left
    · cases left
    · rename_i unseen
      have still : (seenIn classes others texts).backtickedBasenames.contains (nameOf path).flatten ≠ true := by
        intro seen
        apply unseen
        rw [List.contains_iff_mem] at seen ⊢
        exact List.mem_filter.mpr ⟨(List.mem_filter.mp seen).1,
          List.contains_iff_mem.mpr (List.mem_map.mpr ⟨path, inside, rfl⟩)⟩
      rw [if_neg still, ite_self]

theorem mem_resultTexts_normalizeTexts {normalize : JsString → JsString} {result : ExtractionResult} {text : JsString}
    (inside : text ∈ resultTexts (normalizeTexts normalize result)) :
    ∃ original ∈ resultTexts result, text = normalize original := by
  rcases List.mem_cons.mp inside with isSummary | inClaims
  · exact ⟨result.summary, List.mem_cons_self, isSummary⟩
  · obtain ⟨claim, isClaim, inside⟩ := List.mem_flatMap.mp inClaims
    obtain ⟨original, isOriginal, same⟩ := List.mem_map.mp isClaim
    have place : ∀ own ∈ [original.subject, original.predicate] ++ original.objectEntity.toList ++
        original.objectValue.toList, own ∈ resultTexts result :=
      fun own isOwn => List.mem_cons_of_mem _ (List.mem_flatMap.mpr ⟨original, isOriginal, isOwn⟩)
    rw [← same] at inside
    rcases List.mem_append.mp inside with front | isValue
    · rcases List.mem_append.mp front with names | isEntity
      · rcases List.mem_cons.mp names with isSubject | isPredicate
        · exact ⟨original.subject, place _ (by simp), isSubject⟩
        · exact ⟨original.predicate, place _ (by simp), List.mem_singleton.mp isPredicate⟩
      · rw [normalizeClaim, Option.mem_toList, Option.map_eq_some_iff] at isEntity
        obtain ⟨entity, isEntity, same⟩ := isEntity
        exact ⟨entity, place _ (by simp [isEntity]), same.symm⟩
    · rw [normalizeClaim, Option.mem_toList] at isValue
      dsimp only at isValue
      split at isValue
      · obtain ⟨value, isValue, same⟩ := Option.map_eq_some_iff.mp isValue
        exact ⟨value, place _ (by simp [isValue]), same.symm⟩
      · cases isValue

theorem normalizedTexts_subset (result : ExtractionResult) : normalizedTexts result ⊆ resultTexts result := by
  intro text inside
  rcases List.mem_cons.mp inside with same | inside
  · rw [same]
    exact List.mem_cons_self
  · obtain ⟨claim, isClaim, inside⟩ := List.mem_flatMap.mp inside
    refine List.mem_cons_of_mem _ (List.mem_flatMap.mpr ⟨claim, isClaim, ?_⟩)
    rcases List.mem_append.mp inside with names | isObject
    · exact List.mem_append_left _ (List.mem_append_left _ names)
    · split at isObject
      · exact List.mem_append_right _ isObject
      · exact List.mem_append_left _ (List.mem_append_right _ isObject)

/-- A claim that was normalized has one object. -/
theorem normalizeTexts_same {normalize other : JsString → JsString} {result : ExtractionResult}
    (same : ∀ text ∈ resultTexts (normalizeTexts normalize result), other text = text) :
    normalizeTexts other (normalizeTexts normalize result) = normalizeTexts normalize result := by
  have each : ∀ claim ∈ (normalizeTexts normalize result).claims, normalizeClaim other claim = claim := by
    intro claim isClaim
    have ofText : ∀ own ∈ [claim.subject, claim.predicate] ++ claim.objectEntity.toList ++ claim.objectValue.toList,
        other own = own :=
      fun own isOwn => same own (List.mem_cons_of_mem _ (List.mem_flatMap.mpr ⟨claim, isClaim, isOwn⟩))
    obtain ⟨original, _, isNormalized⟩ := List.mem_map.mp isClaim
    have oneObject : claim.objectEntity.isNone = false → claim.objectValue = none := by
      intro isEntity
      rw [← isNormalized, normalizeClaim, Option.isNone_map] at isEntity
      rw [← isNormalized, normalizeClaim]
      dsimp only
      rw [isEntity, if_neg Bool.false_ne_true]
    have ofEntity : claim.objectEntity.map other = claim.objectEntity := by
      cases isEntity : claim.objectEntity with
      | none => rfl
      | some entity => exact congrArg some (ofText entity (by simp [isEntity]))
    have ofValue : (if claim.objectEntity.isNone then claim.objectValue.map other else none) = claim.objectValue := by
      split
      · cases isValue : claim.objectValue with
        | none => rfl
        | some value => exact congrArg some (ofText value (by simp [isValue]))
      · rename_i isEntity
        exact (oneObject (Bool.eq_false_iff.mpr isEntity)).symm
    rw [normalizeClaim, ofText claim.subject (by simp), ofText claim.predicate (by simp), ofEntity, ofValue]
  have claims : (normalizeTexts normalize result).claims.map (normalizeClaim other) =
      (normalizeTexts normalize result).claims :=
    (List.map_congr_left each).trans (List.map_id _)
  rw [normalizeTexts, same _ List.mem_cons_self, claims]

/-- The paths of a normalized result were left, and are left again. -/
theorem normalizeTexts_left {result normalized : ExtractionResult} {texts : List JsString} {seen : Seen}
    (isSeen : seenIn classes ((resultTexts result).flatMap (pathsOf classes)) texts = seen)
    (isNormalized : normalizeTexts (replacePaths classes seen.shorten) result = normalized) :
    ∀ text ∈ resultTexts normalized, ∀ path ∈ pathsOf classes text,
      (seenIn classes ((resultTexts normalized).flatMap (pathsOf classes)) texts).shorten path = none := by
  intro text inside path isPath
  have toName : ToName seen.shorten := by
    rw [← isSeen]
    exact seenIn_toName _ texts
  have again : path ∈ (resultTexts normalized).flatMap (pathsOf classes) :=
    List.mem_flatMap.mpr ⟨text, inside, isPath⟩
  rw [← isNormalized] at inside
  obtain ⟨original, isOriginal, same⟩ := mem_resultTexts_normalizeTexts inside
  rw [same] at isPath
  obtain ⟨before, left⟩ := pathsOf_replacePaths toName isPath
  rw [← isSeen] at left
  exact seenIn_again (List.mem_flatMap.mpr ⟨original, isOriginal, before⟩) again left

/-- What was normalized stays as it is when the same messages are scanned again. -/
theorem normalizeExtractedPaths_again (classes : UnicodeClasses) (numbers : Numbers) (result : ExtractionResult)
    (messages : List ScannedMessage) :
    normalizeExtractedPaths classes numbers (normalizeExtractedPaths classes numbers result messages).1 messages =
      ((normalizeExtractedPaths classes numbers result messages).1, 0) := by
  by_cases empty : (resultTexts result).flatMap (pathsOf classes) = []
  · have first : normalizeExtractedPaths classes numbers result messages = (result, 0) := if_pos empty
    rw [first]
    exact first
  · generalize areTexts : scannedTexts numbers
      { remainingToolChars := MAX_COMPLETE_TOOL_SOURCE_CHARS
        toolBudgetExhausted := false } messages = texts
    generalize isSeen : seenIn classes ((resultTexts result).flatMap (pathsOf classes)) texts = seen
    have first : (normalizeExtractedPaths classes numbers result messages).1 =
        normalizeTexts (replacePaths classes seen.shorten) result := by
      unfold normalizeExtractedPaths
      dsimp only
      rw [if_neg empty, areTexts, isSeen]
    rw [first]
    generalize isNormalized : normalizeTexts (replacePaths classes seen.shorten) result = normalized
    have left := normalizeTexts_left isSeen isNormalized
    unfold normalizeExtractedPaths
    dsimp only
    split
    · rfl
    · rw [areTexts]
      generalize seenIn classes ((resultTexts normalized).flatMap (pathsOf classes)) texts = again at left ⊢
      have unchanged : normalizeTexts (replacePaths classes again.shorten) normalized = normalized := by
        rw [← isNormalized] at left ⊢
        exact normalizeTexts_same fun text inside => replacePaths_same (left text inside)
      have uncounted : ((normalizedTexts normalized).flatMap (pathsOf classes)).filter (fun path =>
          (again.shorten path).isSome) = [] := by
        refine List.filter_eq_nil_iff.mpr fun path inside => ?_
        obtain ⟨text, isText, isPath⟩ := List.mem_flatMap.mp inside
        rw [left text (normalizedTexts_subset normalized isText) path isPath]
        exact Bool.false_ne_true
      rw [unchanged, uncounted]
      rfl

end Normalization

end Reflection.ExtractedPaths
