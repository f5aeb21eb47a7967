/-
Absolute paths in a text.

A path runs from a slash to the last path character behind it. Where paths are replaced by their file
names, the paths that were left are the only ones of the new text. The classes of Unicode are parameters.
-/

import Reflection.Server.Utf8Truncation
import Reflection.Shared.Utf8

namespace Reflection.ExtractedPaths

open JsString

/-- Letters, numbers, marks and format characters. None of them is half of a pair. -/
structure UnicodeClasses where
  isWord : JsString → Bool
  whole : ∀ unit, (isHighSurrogate unit || isLowSurrogate unit) = true → isWord [unit] = false

def slash : JsString := [0x2f]

def backtick : JsString := [0x60]

/-! ### Characters of a text -/

/-- Two halves of a pair that stand apart. -/
def Fuse (one other : JsString) : Prop :=
  ∃ high low, one = [high] ∧ other = [low] ∧ isHighSurrogate high = true ∧ isLowSurrogate low = true

/-- A unit or a pair. -/
def IsCharacter (character : JsString) : Prop :=
  (∃ unit, character = [unit]) ∨
    ∃ high low, character = [high, low] ∧ (isHighSurrogate high && isLowSurrogate low) = true

theorem high_not_low {unit : UInt16} (isHigh : isHighSurrogate unit = true) : isLowSurrogate unit = false := by
  by_contra isLow
  have atMost := isHighSurrogate_iff.mp isHigh
  have atLeast := isLowSurrogate_iff.mp ((Bool.not_eq_false _).mp isLow)
  omega

structure WellCut (items : List JsString) : Prop where
  each : ∀ item ∈ items, IsCharacter item
  apart : items.IsChain fun one other => ¬ Fuse one other

theorem WellCut.tail {item : JsString} {items : List JsString} (cut : WellCut (item :: items)) : WellCut items :=
  ⟨fun other inside => cut.each other (List.mem_cons_of_mem _ inside), cut.apart.tail⟩

theorem WellCut.cons {item : JsString} {items : List JsString} (isCharacter : IsCharacter item)
    (apart : ∀ other ∈ items.head?, ¬ Fuse item other) (cut : WellCut items) : WellCut (item :: items) := by
  refine ⟨fun other inside => ?_, ?_⟩
  · rcases List.mem_cons.mp inside with same | behind
    · rw [same]
      exact isCharacter
    · exact cut.each other behind
  · cases items with
    | nil => exact List.isChain_singleton _
    | cons head rest => exact List.isChain_cons_cons.mpr ⟨apart head rfl, cut.apart⟩

theorem characters_wellCut (text : JsString) : WellCut (characters text) := by
  fun_induction characters text with
  | case1 => exact ⟨fun _ absent => absurd absent List.not_mem_nil, List.isChain_nil⟩
  | case2 unit =>
      refine WellCut.cons (Or.inl ⟨unit, rfl⟩) ?_
        ⟨fun _ absent => absurd absent List.not_mem_nil, List.isChain_nil⟩
      intro other absent
      cases absent
  | case3 first second rest isPair ih =>
      refine WellCut.cons (Or.inr ⟨first, second, rfl, isPair⟩) ?_ ih
      rintro other _ ⟨_, _, single, _⟩
      cases single
  | case4 first second rest noPair ih =>
      refine WellCut.cons (Or.inl ⟨first, rfl⟩) ?_ ih
      rintro other isHead ⟨high, low, single, isOther, isHigh, isLow⟩
      injection single with sameHigh _
      have isSecond : low = second := by
        rw [isOther] at isHead
        cases rest with
        | nil =>
            cases isHead
            rfl
        | cons third more =>
            rw [characters] at isHead
            split at isHead
            · cases isHead
            · cases isHead
              rfl
      rw [sameHigh, ← isSecond, isHigh, isLow] at noPair
      exact noPair rfl

theorem characters_flatten_wellCut {items : List JsString} (cut : WellCut items) :
    characters items.flatten = items := by
  induction items with
  | nil => rfl
  | cons item rest ih =>
      have behind := ih cut.tail
      rcases cut.each item List.mem_cons_self with ⟨unit, same⟩ | ⟨high, low, same, isPair⟩
      · rw [same]
        cases rest with
        | nil => rfl
        | cons next more =>
            have apart := (List.isChain_cons_cons.mp cut.apart).1
            obtain ⟨second, others, isNext, noPair⟩ : ∃ second others, next = second :: others ∧
                (isHighSurrogate unit && isLowSurrogate second) = false := by
              rcases cut.tail.each next List.mem_cons_self with
                ⟨second, isNext⟩ | ⟨second, other, isNext, isPair⟩
              · refine ⟨second, [], isNext, ?_⟩
                by_contra pair
                rw [Bool.not_eq_false, Bool.and_eq_true] at pair
                exact apart ⟨unit, second, same, isNext, pair.1, pair.2⟩
              · refine ⟨second, [other], isNext, ?_⟩
                rw [high_not_low (Bool.and_eq_true_iff.mp isPair).1, Bool.and_false]
            rw [List.flatten_cons, List.flatten_cons, isNext, List.cons_append, List.cons_append, List.nil_append]
            rw [List.flatten_cons, isNext, List.cons_append] at behind
            rw [characters, noPair, if_neg Bool.false_ne_true, behind]
      · rw [same, List.flatten_cons, List.cons_append, List.cons_append, List.nil_append, characters, if_pos isPair,
          behind]

/-! ### Patterns -/

section Patterns

variable (classes : UnicodeClasses)

/-- `._~!$&'()*+=:@%`, the slash and the hyphen. -/
def pathMarks : List UInt16 :=
  [0x2e, 0x5f, 0x7e, 0x21, 0x24, 0x26, 0x27, 0x28, 0x29, 0x2a, 0x2b, 0x3d, 0x3a, 0x40, 0x25, 0x2f, 0x2d]

def isPathMark (character : JsString) : Bool := pathMarks.any fun unit => character == [unit]

def isPathCharacter (character : JsString) : Bool := classes.isWord character || isPathMark character

def isNameCharacter (character : JsString) : Bool := classes.isWord character || character == ofString "_"

/-- What a path does not stand behind. -/
def isBound (character : JsString) : Bool :=
  isNameCharacter classes character || character == slash || character == ofString ":"

/-- The longest run of path characters that no name character follows. -/
def pathRun : List JsString → Option (List JsString)
  | [] => none
  | first :: rest =>
      if isPathCharacter classes first then
        match pathRun rest with
        | some run => some (first :: run)
        | none => if rest.head?.any (isNameCharacter classes) then none else some [first]
      else none

/-- A match of ABSOLUTE_PATH_PATTERN behind a character. -/
def matchPath (before : Option JsString) : List JsString → Option (List JsString)
  | [] => none
  | first :: rest =>
      if first == slash && !before.any (isBound classes) && rest.head? != some slash then
        (pathRun classes rest).map fun run => first :: run
      else none

inductive Piece
  | plain (character : JsString)
  | path (characters : List JsString)

/-- The matches of a text and what stands between them. The number counts the characters that are still
covered by the last match. -/
def scanPaths : Option JsString → Nat → List JsString → List Piece
  | _, _, [] => []
  | _, covered + 1, first :: rest => scanPaths (some first) covered rest
  | before, 0, first :: rest =>
      match matchPath classes before (first :: rest) with
      | some path => .path path :: scanPaths (some first) (path.length - 1) rest
      | none => .plain first :: scanPaths (some first) 0 rest

end Patterns

/-! ### Runs -/

section Runs

variable {classes : UnicodeClasses}

theorem isPathMark_whole {unit : UInt16} (isMark : isPathMark [unit] = true) :
    (isHighSurrogate unit || isLowSurrogate unit) = false := by
  have none : (pathMarks.any fun mark => isHighSurrogate mark || isLowSurrogate mark) = false := by
    decide +kernel
  obtain ⟨mark, inside, same⟩ := List.any_eq_true.mp isMark
  injection eq_of_beq same with sameUnit _
  rw [sameUnit]
  exact Bool.eq_false_iff.mpr (List.any_eq_false.mp none mark inside)

theorem isPathCharacter_whole {unit : UInt16} (isPath : isPathCharacter classes [unit] = true) :
    (isHighSurrogate unit || isLowSurrogate unit) = false := by
  rcases Bool.or_eq_true_iff.mp isPath with isWord | isMark
  · by_contra half
    rw [classes.whole unit ((Bool.not_eq_false _).mp half)] at isWord
    cases isWord
  · exact isPathMark_whole isMark

theorem isPathCharacter_apart {character : JsString} (isPath : isPathCharacter classes character = true)
    (other : JsString) : ¬ Fuse character other ∧ ¬ Fuse other character := by
  constructor
  · rintro ⟨high, low, same, _, isHigh, _⟩
    rw [same] at isPath
    have whole := isPathCharacter_whole isPath
    rw [isHigh] at whole
    cases whole
  · rintro ⟨high, low, _, same, _, isLow⟩
    rw [same] at isPath
    have whole := isPathCharacter_whole isPath
    rw [isLow, Bool.or_true] at whole
    cases whole

theorem isNameCharacter_path {character : JsString} (isName : isNameCharacter classes character = true) :
    isPathCharacter classes character = true := by
  have underscore : isPathMark (ofString "_") = true := by decide
  rcases Bool.or_eq_true_iff.mp isName with isWord | same
  · exact Bool.or_eq_true_iff.mpr (Or.inl isWord)
  · rw [eq_of_beq same]
    exact Bool.or_eq_true_iff.mpr (Or.inr underscore)

theorem slash_path : isPathCharacter classes slash = true := by
  have isMark : isPathMark slash = true := by decide
  exact Bool.or_eq_true_iff.mpr (Or.inr isMark)

theorem pathRun_none {behind : List JsString}
    (stops : ∀ next ∈ behind.head?, isPathCharacter classes next = false) :
    pathRun classes behind = none := by
  cases behind with
  | nil => rfl
  | cons first rest => rw [pathRun, stops first rfl, if_neg Bool.false_ne_true]

/-- The lookahead never takes a character back. -/
theorem pathRun_append {run behind : List JsString} (nonempty : run ≠ [])
    (each : ∀ character ∈ run, isPathCharacter classes character = true)
    (stops : ∀ next ∈ behind.head?, isPathCharacter classes next = false) :
    pathRun classes (run ++ behind) = some run := by
  induction run with
  | nil => exact absurd rfl nonempty
  | cons first rest ih =>
      rw [List.cons_append, pathRun, if_pos (each first List.mem_cons_self)]
      cases rest with
      | nil =>
          rw [List.nil_append, pathRun_none stops]
          have noName : behind.head?.any (isNameCharacter classes) = false := by
            cases isHead : behind.head? with
            | none => rfl
            | some next =>
                rw [Option.any_some]
                by_contra isName
                have isPath := isNameCharacter_path ((Bool.not_eq_false _).mp isName)
                rw [stops next isHead] at isPath
                cases isPath
          dsimp only
          rw [noName, if_neg Bool.false_ne_true]
      | cons second more =>
          rw [ih (List.cons_ne_nil _ _) fun character inside => each character (List.mem_cons_of_mem _ inside)]

theorem pathRun_cases (classes : UnicodeClasses) (text : List JsString) :
    (pathRun classes text = none ∧ ∀ next ∈ text.head?, isPathCharacter classes next = false) ∨
      ∃ run behind, text = run ++ behind ∧ run ≠ [] ∧
        (∀ character ∈ run, isPathCharacter classes character = true) ∧
          ∀ next ∈ behind.head?, isPathCharacter classes next = false := by
  by_cases stops : ∀ next ∈ text.head?, isPathCharacter classes next = false
  · exact Or.inl ⟨pathRun_none stops, stops⟩
  · right
    refine ⟨text.takeWhile (isPathCharacter classes), text.dropWhile (isPathCharacter classes),
      List.takeWhile_append_dropWhile.symm, ?_, fun character inside => List.mem_takeWhile_imp inside, ?_⟩
    · intro empty
      apply stops
      intro next isHead
      cases text with
      | nil => cases isHead
      | cons first rest =>
          cases isHead
          by_contra isPath
          rw [List.takeWhile_cons, if_pos ((Bool.not_eq_false _).mp isPath)] at empty
          cases empty
    · intro next isHead
      have ends := List.head?_dropWhile_not (isPathCharacter classes) text
      rw [isHead] at ends
      exact ends

/-! ### Matches -/

variable (classes) in
/-- The run is a path behind its slash. -/
structure Matches (before : Option JsString) (run behind : List JsString) : Prop where
  nonempty : run ≠ []
  each : ∀ character ∈ run, isPathCharacter classes character = true
  stops : ∀ next ∈ behind.head?, isPathCharacter classes next = false
  free : before.any (isBound classes) = false
  single : run.head? ≠ some slash

theorem head_append {run behind : List JsString} (nonempty : run ≠ []) : (run ++ behind).head? = run.head? := by
  cases run with
  | nil => exact absurd rfl nonempty
  | cons first rest => rfl

theorem Matches.matchPath {before : Option JsString} {run behind : List JsString}
    (found : Matches classes before run behind) :
    matchPath classes before (slash :: (run ++ behind)) = some (slash :: run) := by
  have opens : (slash == slash && !before.any (isBound classes) && (run ++ behind).head? != some slash) = true := by
    rw [found.free, head_append found.nonempty, beq_self_eq_true, Bool.not_false, Bool.and_self, Bool.true_and,
      bne_iff_ne]
    exact found.single
  rw [ExtractedPaths.matchPath, if_pos opens, pathRun_append found.nonempty found.each found.stops]
  rfl

/-- Only the next character decides whether a path begins. -/
theorem matchPath_cases (before : Option JsString) (first : JsString) (rest : List JsString) :
    (∃ run behind, Matches classes before run behind ∧ first = slash ∧ rest = run ++ behind) ∨
      matchPath classes before (first :: rest) = none ∧ (first = slash → before.any (isBound classes) = false →
        ∀ next ∈ rest.head?, next = slash ∨ isPathCharacter classes next = false) := by
  by_cases opens : (first == slash && !before.any (isBound classes) && rest.head? != some slash) = true
  · have parts := opens
    rw [Bool.and_eq_true, Bool.and_eq_true, beq_iff_eq, Bool.not_eq_true', bne_iff_ne] at parts
    obtain ⟨⟨isSlash, free⟩, single⟩ := parts
    rcases pathRun_cases classes rest with ⟨none, stops⟩ | ⟨run, behind, same, nonempty, each, stops⟩
    · right
      refine ⟨?_, fun _ _ next isHead => Or.inr (stops next isHead)⟩
      rw [matchPath, if_pos opens, none]
      rfl
    · left
      refine ⟨run, behind, ⟨nonempty, each, stops, free, ?_⟩, isSlash, same⟩
      rw [same, head_append nonempty] at single
      exact single
  · right
    refine ⟨by rw [matchPath, if_neg opens], fun isSlash free next isHead => ?_⟩
    left
    by_contra different
    apply opens
    rw [isSlash, free, isHead, beq_self_eq_true, Bool.not_false, Bool.and_self, Bool.true_and, bne_iff_ne]
    exact fun same => different (Option.some.inj same)

theorem matchPath_none {before : Option JsString} {first : JsString} {rest : List JsString}
    (blocked : first = slash → before.any (isBound classes) = false →
      ∀ next ∈ rest.head?, next = slash ∨ isPathCharacter classes next = false) :
    matchPath classes before (first :: rest) = none := by
  rcases @matchPath_cases classes before first rest with ⟨run, behind, found, isSlash, same⟩ | ⟨none, _⟩
  · rw [same, head_append found.nonempty] at blocked
    cases run with
    | nil => exact absurd rfl found.nonempty
    | cons next more =>
        rcases blocked isSlash found.free next rfl with twice | stops
        · exact absurd (congrArg some twice) found.single
        · rw [found.each next List.mem_cons_self] at stops
          cases stops
  · exact none

theorem scanPaths_covered (before : Option JsString) (run behind : List JsString) :
    scanPaths classes before run.length (run ++ behind) = scanPaths classes (run.getLast?.or before) 0 behind := by
  induction run generalizing before with
  | nil => rfl
  | cons first rest ih =>
      rw [List.cons_append, List.length_cons, scanPaths, ih, List.getLast?_cons]
      cases rest.getLast? <;> rfl

theorem Matches.scanPaths {before : Option JsString} {run behind : List JsString}
    (found : Matches classes before run behind) :
    scanPaths classes before 0 (slash :: (run ++ behind)) =
      .path (slash :: run) :: scanPaths classes run.getLast? 0 behind := by
  rw [ExtractedPaths.scanPaths, found.matchPath]
  dsimp only
  rw [List.length_cons, Nat.add_sub_cancel, scanPaths_covered]
  congr 2
  cases isLast : run.getLast? with
  | none => exact absurd (List.getLast?_eq_none_iff.mp isLast) found.nonempty
  | some last => rfl

/-- A text is scanned character by character, except for its paths. -/
theorem scan_induction {motive : Option JsString → List JsString → Prop} (nil : ∀ before, motive before [])
    (plain : ∀ before first rest, matchPath classes before (first :: rest) = none → motive (some first) rest →
      motive before (first :: rest))
    (path : ∀ before run behind, Matches classes before run behind → motive run.getLast? behind →
      motive before (slash :: (run ++ behind)))
    (before : Option JsString) (text : List JsString) : motive before text := by
  induction size : text.length using Nat.strong_induction_on generalizing before text with
  | _ size ih =>
      cases text with
      | nil => exact nil before
      | cons first rest =>
          rw [List.length_cons] at size
          rcases @matchPath_cases classes before first rest with ⟨run, behind, found, isSlash, same⟩ | ⟨none, _⟩
          · rw [isSlash, same]
            refine path before run behind found (ih behind.length ?_ _ behind rfl)
            rw [← size, same, List.length_append]
            omega
          · exact plain before first rest none (ih rest.length (by omega) _ rest rfl)

theorem matchPath_blocked {before : Option JsString} {first : JsString} {rest : List JsString}
    (none : matchPath classes before (first :: rest) = none) :
    first = slash → before.any (isBound classes) = false →
      ∀ next ∈ rest.head?, next = slash ∨ isPathCharacter classes next = false := by
  rcases @matchPath_cases classes before first rest with ⟨run, behind, found, isSlash, same⟩ | ⟨_, blocked⟩
  · rw [isSlash, same, found.matchPath] at none
    cases none
  · exact blocked

theorem scanPaths_plain {before : Option JsString} {first : JsString} {rest : List JsString}
    (none : matchPath classes before (first :: rest) = none) :
    scanPaths classes before 0 (first :: rest) = .plain first :: scanPaths classes (some first) 0 rest := by
  rw [scanPaths, none]

theorem scanPaths_name (before : Option JsString) {name : List JsString} (noSlash : slash ∉ name)
    (behind : List JsString) :
    scanPaths classes before 0 (name ++ behind) =
      name.map .plain ++ scanPaths classes (name.getLast?.or before) 0 behind := by
  induction name generalizing before with
  | nil => rfl
  | cons first rest ih =>
      have none : matchPath classes before (first :: (rest ++ behind)) = none :=
        matchPath_none fun isSlash => absurd (isSlash ▸ List.mem_cons_self) noSlash
      rw [List.cons_append, scanPaths_plain none, ih _ fun inside => noSlash (List.mem_cons_of_mem _ inside),
        List.map_cons, List.cons_append, List.getLast?_cons]
      cases rest.getLast? <;> rfl

end Runs

/-! ### Shorter paths -/

section Shortening

variable {classes : UnicodeClasses} {shorten : List JsString → Option (List JsString)}

def render (shorten : List JsString → Option (List JsString)) : Piece → List JsString
  | .plain character => [character]
  | .path path => (shorten path).getD path

variable (classes shorten) in
def shortened (before : Option JsString) (text : List JsString) : List JsString :=
  (scanPaths classes before 0 text).flatMap (render shorten)

/-- A path is only shortened to what stands behind one of its slashes. -/
def ToName (shorten : List JsString → Option (List JsString)) : Prop :=
  ∀ path name, shorten path = some name → name ≠ [] ∧ slash ∉ name ∧ ∃ front, path = front ++ name

theorem shortened_plain {before : Option JsString} {first : JsString} {rest : List JsString}
    (none : matchPath classes before (first :: rest) = none) :
    shortened classes shorten before (first :: rest) = first :: shortened classes shorten (some first) rest := by
  rw [shortened, scanPaths_plain none, List.flatMap_cons]
  rfl

theorem shortened_path {before : Option JsString} {run behind : List JsString}
    (found : Matches classes before run behind) :
    shortened classes shorten before (slash :: (run ++ behind)) =
      (shorten (slash :: run)).getD (slash :: run) ++ shortened classes shorten run.getLast? behind := by
  rw [shortened, found.scanPaths, List.flatMap_cons]
  rfl

theorem Matches.whole {before : Option JsString} {run behind : List JsString}
    (found : Matches classes before run behind) :
    ∀ character ∈ slash :: run, isPathCharacter classes character = true := by
  intro character inside
  rcases List.mem_cons.mp inside with same | isRun
  · rw [same]
    exact slash_path
  · exact found.each character isRun

/-- A text begins as before, or with a name. -/
theorem shortened_head (toName : ToName shorten) (before : Option JsString) (text : List JsString) :
    (shortened classes shorten before text).head? = text.head? ∨
      text.head? = some slash ∧ before.any (isBound classes) = false ∧
        ∃ first, (shortened classes shorten before text).head? = some first ∧
          isPathCharacter classes first = true := by
  cases text with
  | nil => exact Or.inl rfl
  | cons first rest =>
      rcases @matchPath_cases classes before first rest with ⟨run, behind, found, isSlash, same⟩ | ⟨none, _⟩
      · rw [isSlash, same, shortened_path found]
        cases isShort : shorten (slash :: run) with
        | none => exact Or.inl rfl
        | some name =>
            obtain ⟨nonempty, _, front, whole⟩ := toName _ name isShort
            right
            refine ⟨rfl, found.free, name.head nonempty, ?_, ?_⟩
            · rw [Option.getD_some, head_append nonempty]
              exact List.head?_eq_some_head nonempty
            · apply found.whole
              rw [whole]
              exact List.mem_append_right _ (List.head_mem nonempty)
      · left
        rw [shortened_plain none]
        rfl

theorem shortened_head_stops (toName : ToName shorten) (before : Option JsString) {text : List JsString}
    (stops : ∀ next ∈ text.head?, isPathCharacter classes next = false) :
    (shortened classes shorten before text).head? = text.head? := by
  rcases @shortened_head classes shorten toName before text with same | ⟨isSlash, _⟩
  · exact same
  · have absurdStop := stops slash isSlash
    rw [slash_path] at absurdStop
    cases absurdStop

theorem shortened_head_slash (toName : ToName shorten) (text : List JsString) :
    (shortened classes shorten (some slash) text).head? = text.head? := by
  rcases @shortened_head classes shorten toName (some slash) text with same | ⟨_, free, _⟩
  · exact same
  · rw [Option.any_some, isBound, beq_self_eq_true, Bool.or_true, Bool.true_or] at free
    cases free

theorem last_of_suffix {front name run : List JsString} (nonempty : name ≠ []) (full : run ≠ [])
    (whole : slash :: run = front ++ name) : name.getLast? = run.getLast? := by
  have last := congrArg List.getLast? whole
  rw [List.getLast?_append, List.getLast?_cons] at last
  cases isLast : name.getLast? with
  | none => exact absurd (List.getLast?_eq_none_iff.mp isLast) nonempty
  | some one =>
      cases isRun : run.getLast? with
      | none => exact absurd (List.getLast?_eq_none_iff.mp isRun) full
      | some other =>
          rw [isLast, isRun] at last
          exact last.symm

/-- What is scanned again of a piece. -/
def rescanned (shorten : List JsString → Option (List JsString)) : Piece → List Piece
  | .plain character => [.plain character]
  | .path path =>
      match shorten path with
      | none => [.path path]
      | some name => name.map .plain

/-- In the shorter text the paths that were left are the only ones. -/
theorem scanPaths_shortened (toName : ToName shorten) (before : Option JsString) (text : List JsString) :
    scanPaths classes before 0 (shortened classes shorten before text) =
      (scanPaths classes before 0 text).flatMap (rescanned shorten) := by
  refine @scan_induction classes (fun before text =>
    scanPaths classes before 0 (shortened classes shorten before text) =
      (scanPaths classes before 0 text).flatMap (rescanned shorten)) ?_ ?_ ?_ before text
  · intro before
    rfl
  · intro before first rest none ih
    have again : matchPath classes before (first :: shortened classes shorten (some first) rest) = Option.none := by
      refine matchPath_none fun isSlash free next isHead => ?_
      rw [isSlash, shortened_head_slash toName] at isHead
      exact matchPath_blocked none isSlash free next isHead
    rw [shortened_plain none, scanPaths_plain again, scanPaths_plain none, List.flatMap_cons, ih]
    rfl
  · intro before run behind found ih
    rw [shortened_path found, found.scanPaths, List.flatMap_cons]
    cases isShort : shorten (slash :: run) with
    | none =>
        have same : rescanned shorten (.path (slash :: run)) = [.path (slash :: run)] := by
          rw [rescanned, isShort]
        have again : Matches classes before run (shortened classes shorten run.getLast? behind) :=
          { found with
            stops := by
              rw [shortened_head_stops toName _ found.stops]
              exact found.stops }
        rw [Option.getD_none, List.cons_append, again.scanPaths, ih, same]
        rfl
    | some name =>
        obtain ⟨nonempty, noSlash, front, whole⟩ := toName _ name isShort
        have same : rescanned shorten (.path (slash :: run)) = name.map .plain := by
          rw [rescanned, isShort]
        have last : name.getLast?.or before = run.getLast? := by
          rw [last_of_suffix nonempty found.nonempty whole]
          cases isLast : run.getLast? with
          | none => exact absurd (List.getLast?_eq_none_iff.mp isLast) found.nonempty
          | some _ => rfl
        rw [Option.getD_some, scanPaths_name before noSlash, last, ih, same]

theorem WellCut.behind {front text : List JsString} (cut : WellCut (front ++ text)) : WellCut text := by
  induction front with
  | nil => exact cut
  | cons _ rest ih => exact ih cut.tail

theorem WellCut.append_path {items text : List JsString} (each : ∀ item ∈ items, IsCharacter item)
    (paths : ∀ item ∈ items, isPathCharacter classes item = true) (cut : WellCut text) :
    WellCut (items ++ text) := by
  induction items with
  | nil => exact cut
  | cons item rest ih =>
      refine WellCut.cons (each item List.mem_cons_self) ?_
        (ih (fun other inside => each other (List.mem_cons_of_mem _ inside))
          fun other inside => paths other (List.mem_cons_of_mem _ inside))
      intro other _
      exact (isPathCharacter_apart (paths item List.mem_cons_self) other).1

/-- Halves of pairs do not meet where something was left out. -/
theorem shortened_wellCut (toName : ToName shorten) (before : Option JsString) (text : List JsString)
    (cut : WellCut text) : WellCut (shortened classes shorten before text) := by
  refine @scan_induction classes (fun before text => WellCut text → WellCut (shortened classes shorten before text))
    ?_ ?_ ?_ before text cut
  · intro before cut
    exact cut
  · intro before first rest none ih cut
    rw [shortened_plain none]
    refine WellCut.cons (cut.each first List.mem_cons_self) (fun other isHead => ?_) (ih cut.tail)
    rcases @shortened_head classes shorten toName (some first) rest with same | ⟨_, _, head, isFirst, isPath⟩
    · rw [same] at isHead
      cases rest with
      | nil => cases isHead
      | cons next more =>
          cases isHead
          exact (List.isChain_cons_cons.mp cut.apart).1
    · rw [isFirst] at isHead
      cases isHead
      exact (isPathCharacter_apart isPath first).2
  · intro before run behind found ih cut
    rw [shortened_path found]
    have each : ∀ item ∈ slash :: run, IsCharacter item := by
      intro item inside
      rw [← List.cons_append] at cut
      exact cut.each item (List.mem_append_left _ inside)
    have rest := ih cut.tail.behind
    cases isShort : shorten (slash :: run) with
    | none => exact WellCut.append_path each found.whole rest
    | some name =>
        obtain ⟨_, _, front, whole⟩ := toName _ name isShort
        have inside : ∀ item ∈ name, item ∈ slash :: run := by
          intro item isName
          rw [whole]
          exact List.mem_append_right _ isName
        exact WellCut.append_path (fun item isName => each item (inside item isName))
          (fun item isName => found.whole item (inside item isName)) rest

theorem shortened_none (before : Option JsString) (text : List JsString) :
    shortened classes (fun _ => none) before text = text := by
  refine @scan_induction classes (fun before text => shortened classes (fun _ => none) before text = text)
    ?_ ?_ ?_ before text
  · intro before
    rfl
  · intro before first rest none ih
    rw [shortened_plain none, ih]
  · intro before run behind found ih
    rw [shortened_path found, ih]
    rfl

/-! ### Texts -/

variable (classes) in
/-- The matches of a text. -/
def pathsOf (text : JsString) : List (List JsString) :=
  (scanPaths classes none 0 (characters text)).filterMap fun piece =>
    match piece with
    | .path path => some path
    | .plain _ => none

variable (classes shorten) in
/-- `text.replace(ABSOLUTE_PATH_PATTERN, ...)`. -/
def replacePaths (text : JsString) : JsString := (shortened classes shorten none (characters text)).flatten

theorem mem_pathsOf_iff {text : JsString} {path : List JsString} :
    path ∈ pathsOf classes text ↔ .path path ∈ scanPaths classes none 0 (characters text) := by
  unfold pathsOf
  rw [List.mem_filterMap]
  constructor
  · rintro ⟨piece, inside, same⟩
    cases piece with
    | plain => cases same
    | path other =>
        cases same
        exact inside
  · intro inside
    exact ⟨.path path, inside, rfl⟩

theorem characters_replacePaths (toName : ToName shorten) (text : JsString) :
    characters (replacePaths classes shorten text) = shortened classes shorten none (characters text) :=
  characters_flatten_wellCut (shortened_wellCut toName none _ (characters_wellCut text))

theorem pathsOf_replacePaths (toName : ToName shorten) {text : JsString} {path : List JsString}
    (inside : path ∈ pathsOf classes (replacePaths classes shorten text)) :
    path ∈ pathsOf classes text ∧ shorten path = none := by
  rw [mem_pathsOf_iff, characters_replacePaths toName, scanPaths_shortened toName, List.mem_flatMap] at inside
  obtain ⟨piece, isPiece, inside⟩ := inside
  cases piece with
  | plain => cases List.mem_singleton.mp inside
  | path other =>
      rw [rescanned] at inside
      split at inside
      · rename_i kept
        cases List.mem_singleton.mp inside
        exact ⟨mem_pathsOf_iff.mpr isPiece, kept⟩
      · obtain ⟨_, _, absent⟩ := List.mem_map.mp inside
        cases absent

theorem replacePaths_same {text : JsString} (kept : ∀ path ∈ pathsOf classes text, shorten path = none) :
    replacePaths classes shorten text = text := by
  have same : shortened classes shorten none (characters text) =
      shortened classes (fun _ => none) none (characters text) := by
    unfold shortened
    refine List.flatMap_congr fun piece inside => ?_
    cases piece with
    | plain => rfl
    | path path =>
        rw [render, kept path (mem_pathsOf_iff.mpr inside)]
        rfl
  rw [replacePaths, same, shortened_none, characters_flatten]

end Shortening

end Reflection.ExtractedPaths
