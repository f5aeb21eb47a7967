/-
The settled prefix of a session's history, kept between snapshots.

A snapshot reads only the rows behind the prefix and reads the prefix's last row again. The
host appends rows, updates incomplete ones, revives the latest assistant and removes a
suffix. A revert can make an assistant inside the prefix the latest one, and then the rows
before the last are no longer settled.
-/

import Reflection.Foundation.Lists
import Reflection.Foundation.Runs
import Reflection.Shared.JsString

set_option linter.unusedSectionVars false

namespace Reflection.Plugin

section HistoryCache

variable {Raw Source : Type} [DecidableEq Raw]

/-- What is read off a row. `source` validates and renders it, and fails on a row that is
invalid or too large. -/
structure Rendering (Raw Source : Type) where
  id : Raw → JsString
  isAssistant : Raw → Bool
  complete : Raw → Bool
  source : Raw → Option Source

structure HistoryRecord (Raw Source : Type) where
  raw : Raw
  source : Source
  complete : Bool
deriving DecidableEq

variable (rendering : Rendering Raw Source)

def recordOf (row : Raw) : Option (HistoryRecord Raw Source) :=
  (rendering.source row).map fun source =>
    { raw := row
      source := source
      complete := rendering.complete row }

/-- `canonicalizeNativeHistory` from the ids seen so far. -/
def canonicalizeFrom (seen : List JsString) : List Raw → Option (List (HistoryRecord Raw Source))
  | [] => some []
  | row :: rest => do
      let record ← recordOf rendering row
      if seen.contains (rendering.id row) then none
      else
        let records ← canonicalizeFrom (rendering.id row :: seen) rest
        some (record :: records)

def canonicalizeNativeHistory (history : List Raw) : Option (List (HistoryRecord Raw Source)) :=
  canonicalizeFrom rendering [] history

/-! ### The cache -/

/-- Rows are compared by their JSON texts, which tell decoded rows apart. -/
structure HistoryCache (Raw Source : Type) where
  records : List (HistoryRecord Raw Source)
  ids : List JsString
  last : Raw

/-- A source and a session. -/
abbrev HistoryKey := JsString × JsString

abbrev Histories (Raw Source : Type) := List (HistoryKey × HistoryCache Raw Source)

def historyCacheSessions : Nat := 8

def getHistory (histories : Histories Raw Source) (key : HistoryKey) : Option (HistoryCache Raw Source) :=
  (histories.find? fun entry => entry.1 = key).map (·.2)

def deleteHistory (histories : Histories Raw Source) (key : HistoryKey) : Histories Raw Source :=
  histories.filter fun entry => entry.1 ≠ key

/-- The rows behind a message, or nothing when it is gone. -/
def rowsAfter (rows : List Raw) (id : JsString) : List Raw :=
  match rows.findIdx? fun row => rendering.id row = id with
  | some index => rows.drop (index + 1)
  | none => []

/-- The read behind the second-to-last cached row. The host may reject its cursor. -/
def overlapTail (rows : List Raw) (anchor : HistoryRecord Raw Source) (rejected : Bool) : List Raw :=
  if rejected then [] else rowsAfter rendering rows (rendering.id anchor.raw)

/-- The records of a session whose history holds `rows` while it is paged. `none` is a read
that throws. -/
def cachedRecords (histories : Histories Raw Source) (key : HistoryKey) (rows : List Raw)
    (rejected : Bool) : Option (List (HistoryRecord Raw Source)) × Histories Raw Source :=
  match getHistory histories key with
  | none => (canonicalizeNativeHistory rendering rows, histories)
  | some cached =>
      match cached.records.reverse[1]? with
      | none => (none, histories)
      | some anchor =>
          let tail := overlapTail rendering rows anchor rejected
          let full := (canonicalizeNativeHistory rendering rows, deleteHistory histories key)
          if tail.head? = some cached.last then
            match canonicalizeNativeHistory rendering (tail.drop 1) with
            | none => (none, histories)
            | some fresh =>
                if fresh.all fun record => !cached.ids.contains (rendering.id record.raw) then
                  (some (cached.records ++ fresh), histories)
                else full
          else full

/-- The prefix before the first incomplete record and before the latest assistant. -/
def settledLength (records : List (HistoryRecord Raw Source)) : Nat :=
  let stop := (records.findIdx? fun record => !record.complete).getD records.length
  match lastIndex (fun record => rendering.isAssistant record.raw) records with
  | some latest => min stop latest
  | none => stop

def rememberHistory (histories : Histories Raw Source) (key : HistoryKey)
    (records : List (HistoryRecord Raw Source)) : Histories Raw Source :=
  let others := deleteHistory histories key
  let settled := records.take (settledLength rendering records)
  if settledLength rendering records < 2 then others
  else
    match settled.getLast? with
    | none => others
    | some last =>
        let kept := others ++
          [(key,
            { records := settled
              ids := settled.map fun record => rendering.id record.raw
              last := last.raw })]
        kept.drop (kept.length - historyCacheSessions)

/-- A snapshot that was stable while it was paged. -/
def snapshot (histories : Histories Raw Source) (key : HistoryKey) (rows : List Raw)
    (rejected : Bool) : Option (List (HistoryRecord Raw Source)) × Histories Raw Source :=
  match cachedRecords rendering histories key rows rejected with
  | (some records, after) => (some records, rememberHistory rendering after key records)
  | (none, after) => (none, after)

/-! ### The host -/

/-- The histories of the host, the ids they have ever held, and the transport's cache. -/
structure HostWorld (Raw Source : Type) where
  rows : HistoryKey → List Raw
  used : HistoryKey → List JsString
  histories : Histories Raw Source

inductive HostEvent (Raw : Type)
  | append (key : HistoryKey) (row : Raw)
  | update (key : HistoryKey) (index : Nat) (row : Raw)
  | revert (key : HistoryKey) (kept : Nat)
  | snapshot (key : HistoryKey) (rejected : Bool)
  /-- A read whose snapshot turned out not to be stable. -/
  | attempt (key : HistoryKey) (rejected : Bool)
  | forget (key : HistoryKey)

def HostWorld.set (world : HostWorld Raw Source) (key : HistoryKey) (rows : List Raw)
    (used : List JsString) : HostWorld Raw Source :=
  { world with
    rows := Function.update world.rows key rows
    used := Function.update world.used key used }

/-- Whether the row is the latest assistant. -/
def IsLatestAssistant (rows : List Raw) (index : Nat) : Prop :=
  ∃ row, rows[index]? = some row ∧ rendering.isAssistant row = true ∧
    ∀ later, ∀ other, index < later → rows[later]? = some other → rendering.isAssistant other = false

/-- Rows are appended under new ids, an update keeps the place and the id of a row that is
incomplete or the latest assistant, and a revert removes a suffix. -/
inductive HostStep : HostWorld Raw Source → HostEvent Raw → HostWorld Raw Source → Prop
  | append (world : HostWorld Raw Source) (key : HistoryKey) (row : Raw)
      (fresh : rendering.id row ∉ world.used key) :
      HostStep world (.append key row)
        (world.set key (world.rows key ++ [row]) (rendering.id row :: world.used key))
  | update (world : HostWorld Raw Source) (key : HistoryKey) (index : Nat) (old row : Raw)
      (present : (world.rows key)[index]? = some old) (sameId : rendering.id row = rendering.id old)
      (mutable : rendering.complete old = false ∨ IsLatestAssistant rendering (world.rows key) index) :
      HostStep world (.update key index row)
        (world.set key ((world.rows key).set index row) (world.used key))
  | revert (world : HostWorld Raw Source) (key : HistoryKey) (kept : Nat) :
      HostStep world (.revert key kept)
        (world.set key ((world.rows key).take kept) (world.used key))
  | snapshot (world : HostWorld Raw Source) (key : HistoryKey) (rejected : Bool) :
      HostStep world (.snapshot key rejected)
        { world with histories := (snapshot rendering world.histories key (world.rows key) rejected).2 }
  | attempt (world : HostWorld Raw Source) (key : HistoryKey) (rejected : Bool) :
      HostStep world (.attempt key rejected)
        { world with
          histories := (cachedRecords rendering world.histories key (world.rows key) rejected).2 }
  | forget (world : HostWorld Raw Source) (key : HistoryKey) :
      HostStep world (.forget key) { world with histories := deleteHistory world.histories key }

/-- An update leaves the rows of a cached prefix alone, its last row apart, as long as that
last row is still there. -/
def PrefixKept (world : HostWorld Raw Source) : HostEvent Raw → Prop
  | .update key index _ => ∀ cached, (key, cached) ∈ world.histories →
      rendering.id cached.last ∈ (world.rows key).map rendering.id → cached.records.length ≤ index + 1
  | _ => True

variable {rendering}

/-! ### Canonical records -/

theorem recordOf_raw {row : Raw} {record : HistoryRecord Raw Source}
    (rendered : recordOf rendering row = some record) : record.raw = row := by
  obtain ⟨source, _, same⟩ := Option.map_eq_some_iff.mp rendered
  rw [← same]

/-- Where no id repeats, every row is rendered on its own. -/
theorem canonicalizeFrom_eq {seen : List JsString} {rows : List Raw}
    (distinct : (rows.map rendering.id).Nodup) (unseen : ∀ row ∈ rows, rendering.id row ∉ seen) :
    canonicalizeFrom rendering seen rows = rows.mapM (recordOf rendering) := by
  induction rows generalizing seen with
  | nil => rfl
  | cons row rest ih =>
      rw [List.map_cons, List.nodup_cons] at distinct
      have behind : ∀ other ∈ rest, rendering.id other ∉ rendering.id row :: seen := by
        intro other inside repeated
        rcases List.mem_cons.mp repeated with same | earlier
        · exact distinct.1 (List.mem_map.mpr ⟨other, inside, same⟩)
        · exact unseen other (List.mem_cons_of_mem _ inside) earlier
      rw [canonicalizeFrom, List.mapM_cons, ih distinct.2 behind]
      cases recordOf rendering row with
      | none => rfl
      | some record =>
          exact if_neg fun repeated => unseen row List.mem_cons_self (List.contains_iff_mem.mp repeated)

theorem canonicalize_eq {rows : List Raw} (distinct : (rows.map rendering.id).Nodup) :
    canonicalizeNativeHistory rendering rows = rows.mapM (recordOf rendering) :=
  canonicalizeFrom_eq distinct fun _ _ seen => nomatch seen

/-- Records of a split history. -/
theorem canonicalize_append {settled rest : List Raw} {records : List (HistoryRecord Raw Source)}
    (distinct : ((settled ++ rest).map rendering.id).Nodup)
    (isSettled : settled.mapM (recordOf rendering) = some records) :
    canonicalizeNativeHistory rendering (settled ++ rest) =
      (canonicalizeNativeHistory rendering rest).map (records ++ ·) := by
  have restDistinct : (rest.map rendering.id).Nodup := by
    rw [List.map_append] at distinct
    exact (List.nodup_append.mp distinct).2.1
  rw [canonicalize_eq distinct, canonicalize_eq restDistinct, List.mapM_append, isSettled]
  cases rest.mapM (recordOf rendering) <;> rfl

/-! ### Rows by their ids -/

theorem same_of_id {rows : List Raw} (distinct : (rows.map rendering.id).Nodup) {one other : Nat}
    {first second : Raw} (isFirst : rows[one]? = some first) (isSecond : rows[other]? = some second)
    (sameId : rendering.id first = rendering.id second) : one = other := by
  have inside : one < (rows.map rendering.id).length := by
    rw [List.length_map]
    exact (List.getElem?_eq_some_iff.mp isFirst).1
  apply (List.getElem?_inj inside distinct).mp
  rw [List.getElem?_map, List.getElem?_map, isFirst, isSecond, Option.map_some, Option.map_some, sameId]

theorem rowsAfter_eq {rows : List Raw} (distinct : (rows.map rendering.id).Nodup) {index : Nat}
    {row : Raw} (present : rows[index]? = some row) :
    rowsAfter rendering rows (rendering.id row) = rows.drop (index + 1) := by
  unfold rowsAfter
  cases found : rows.findIdx? fun other => rendering.id other = rendering.id row with
  | none =>
      have missing := List.findIdx?_eq_none_iff.mp found row (List.mem_of_getElem? present)
      exact absurd rfl (of_decide_eq_false missing)
  | some first =>
      obtain ⟨inside, named, _⟩ := List.findIdx?_eq_some_iff_getElem.mp found
      have same : first = index :=
        same_of_id distinct (List.getElem?_eq_getElem inside) present (of_decide_eq_true named)
      rw [same]

/-- An update in place keeps the ids. -/
theorem set_ids {rows : List Raw} {index : Nat} {old row : Raw} (present : rows[index]? = some old)
    (sameId : rendering.id row = rendering.id old) :
    (rows.set index row).map rendering.id = rows.map rendering.id := by
  obtain ⟨inside, isOld⟩ := List.getElem?_eq_some_iff.mp present
  have within : index < (rows.map rendering.id).length := by
    rw [List.length_map]
    exact inside
  have named : rendering.id row = (rows.map rendering.id)[index] := by
    rw [List.getElem_map, isOld, sameId]
  rw [List.map_set, named, List.set_getElem_self]

/-! ### The invariant -/

variable (rendering) in
/-- While the last cached row is in the history, it stands at its place and everything before
it is as cached. -/
structure CacheSound (rows : List Raw) (used : List JsString) (cached : HistoryCache Raw Source) :
    Prop where
  long : 2 ≤ cached.records.length
  last : (cached.records.map (·.raw)).getLast? = some cached.last
  rendered : (cached.records.map (·.raw)).mapM (recordOf rendering) = some cached.records
  known : ∀ record ∈ cached.records, rendering.id record.raw ∈ used
  kept : rendering.id cached.last ∈ rows.map rendering.id →
    rows.take (cached.records.length - 1) = (cached.records.map (·.raw)).dropLast ∧
      ∃ row, rows[cached.records.length - 1]? = some row ∧
        rendering.id row = rendering.id cached.last

variable (rendering) in
structure HostSound (world : HostWorld Raw Source) : Prop where
  distinct : ∀ key, ((world.rows key).map rendering.id).Nodup
  known : ∀ key, ∀ row ∈ world.rows key, rendering.id row ∈ world.used key
  cached : ∀ entry ∈ world.histories,
    CacheSound rendering (world.rows entry.1) (world.used entry.1) entry.2

theorem getHistory_mem {histories : Histories Raw Source} {key : HistoryKey}
    {cached : HistoryCache Raw Source} (found : getHistory histories key = some cached) :
    (key, cached) ∈ histories := by
  obtain ⟨entry, isEntry, same⟩ := Option.map_eq_some_iff.mp found
  have named := List.find?_some isEntry
  have named : entry.1 = key := of_decide_eq_true named
  rw [← same, ← named]
  exact List.mem_of_find?_eq_some isEntry

/-- Where the overlap reads the cached last row again, the history is the cached prefix and
what was read behind it. -/
theorem CacheSound.overlap {rows : List Raw} {used : List JsString} {cached : HistoryCache Raw Source}
    (sound : CacheSound rendering rows used cached) (distinct : (rows.map rendering.id).Nodup)
    {anchor : HistoryRecord Raw Source} (isAnchor : cached.records.reverse[1]? = some anchor)
    {rejected : Bool} (again : (overlapTail rendering rows anchor rejected).head? = some cached.last) :
    rows = cached.records.map (·.raw) ++ (overlapTail rendering rows anchor rejected).drop 1 := by
  have long := sound.long
  have accepted : overlapTail rendering rows anchor rejected =
      rowsAfter rendering rows (rendering.id anchor.raw) := by
    cases rejected with
    | true => cases again
    | false => rfl
  rw [accepted] at again ⊢
  have isLast : cached.last ∈ rowsAfter rendering rows (rendering.id anchor.raw) :=
    List.mem_of_mem_head? again
  have inRows : cached.last ∈ rows := by
    unfold rowsAfter at isLast
    split at isLast
    · exact List.mem_of_mem_drop isLast
    · cases isLast
  obtain ⟨before, _⟩ := sound.kept (List.mem_map_of_mem inRows)
  have anchorPlace : (cached.records.map (·.raw)).dropLast[cached.records.length - 2]? = some anchor.raw := by
    rw [List.getElem?_reverse (by omega)] at isAnchor
    have place : cached.records.length - 1 - 1 = cached.records.length - 2 := by omega
    rw [place] at isAnchor
    rw [List.getElem?_dropLast, if_pos (by rw [List.length_map]; omega), List.getElem?_map, isAnchor]
    rfl
  rw [← before, List.getElem?_take_of_lt (by omega)] at anchorPlace
  have behind := rowsAfter_eq distinct anchorPlace
  have place : cached.records.length - 2 + 1 = cached.records.length - 1 := by omega
  rw [place] at behind
  rw [behind] at again ⊢
  have whole : cached.records.map (·.raw) =
      (cached.records.map (·.raw)).dropLast ++ [cached.last] :=
    (List.dropLast_append_getLast? _ sound.last).symm
  obtain ⟨rest, isRest⟩ := List.head?_eq_some_iff.mp again
  rw [whole, ← before, List.append_assoc, isRest, List.drop_one, List.tail_cons, List.singleton_append,
    ← isRest, List.take_append_drop]

/-- The records read are those of a full read. -/
theorem cachedRecords_eq {histories : Histories Raw Source} {key : HistoryKey} {rows : List Raw}
    {used : List JsString} {rejected : Bool} (distinct : (rows.map rendering.id).Nodup)
    (sound : ∀ cached, getHistory histories key = some cached →
      CacheSound rendering rows used cached) :
    (cachedRecords rendering histories key rows rejected).1 =
      canonicalizeNativeHistory rendering rows := by
  unfold cachedRecords
  cases found : getHistory histories key with
  | none => rfl
  | some cached =>
      have cachedSound := sound cached found
      dsimp only
      cases isAnchor : cached.records.reverse[1]? with
      | none =>
          have short := List.getElem?_eq_none_iff.mp isAnchor
          rw [List.length_reverse] at short
          have long := cachedSound.long
          omega
      | some anchor =>
          dsimp only
          split
          · rename_i again
            have split := cachedSound.overlap distinct isAnchor again
            have full := canonicalize_append (split ▸ distinct) cachedSound.rendered
            rw [← split] at full
            rw [full]
            cases canonicalizeNativeHistory rendering
                ((overlapTail rendering rows anchor rejected).drop 1) with
            | none => rfl
            | some fresh =>
                dsimp only
                split
                · rfl
                · rfl
          · rfl

/-! ### What a stable snapshot leaves -/

theorem settledLength_le (records : List (HistoryRecord Raw Source)) :
    settledLength rendering records ≤ records.length := by
  have stop : ((records.findIdx? fun record => !record.complete).getD records.length) ≤
      records.length := by
    cases found : records.findIdx? fun record => !record.complete with
    | none => exact le_refl _
    | some index =>
        obtain ⟨inside, _⟩ := List.findIdx?_eq_some_iff_getElem.mp found
        exact Nat.le_of_lt inside
  unfold settledLength
  dsimp only
  split
  · exact (min_le_left _ _).trans stop
  · exact stop

theorem rememberHistory_mem {histories : Histories Raw Source} {key : HistoryKey}
    {records : List (HistoryRecord Raw Source)} {entry : HistoryKey × HistoryCache Raw Source}
    (inside : entry ∈ rememberHistory rendering histories key records) :
    entry ∈ histories ∨ (entry.1 = key ∧ 2 ≤ settledLength rendering records ∧
      entry.2.records = records.take (settledLength rendering records) ∧
        ∃ last, (records.take (settledLength rendering records)).getLast? = some last ∧
          entry.2.last = last.raw) := by
  unfold rememberHistory at inside
  dsimp only at inside
  split at inside
  · exact Or.inl (List.mem_filter.mp inside).1
  rename_i long
  split at inside
  · exact Or.inl (List.mem_filter.mp inside).1
  rename_i last isLast
  rcases List.mem_append.mp (List.mem_of_mem_drop inside) with old | new
  · exact Or.inl (List.mem_filter.mp old).1
  · rw [List.mem_singleton.mp new]
    exact Or.inr ⟨rfl, Nat.le_of_not_lt long, rfl, last, isLast, rfl⟩

theorem remembered_sound {rows : List Raw} {used : List JsString}
    {records : List (HistoryRecord Raw Source)} {cached : HistoryCache Raw Source} {count : Nat}
    (rendered : rows.mapM (recordOf rendering) = some records)
    (known : ∀ row ∈ rows, rendering.id row ∈ used) (within : count ≤ records.length) (long : 2 ≤ count)
    (isRecords : cached.records = records.take count) {last : HistoryRecord Raw Source}
    (isLast : (records.take count).getLast? = some last) (sameLast : cached.last = last.raw) :
    CacheSound rendering rows used cached := by
  have raws : records.map (·.raw) = rows := by
    rw [map_of_mapM (h := id) (fun _ _ made => recordOf_raw made) rendered, List.map_id]
  have settled : (records.take count).map (·.raw) = rows.take count := by
    rw [List.map_take, raws]
  have size : cached.records.length = count := by
    rw [isRecords, List.length_take, min_eq_left within]
  have total : rows.length = records.length := by
    rw [← raws, List.length_map]
  have isLastRow : (rows.take count).getLast? = some cached.last := by
    rw [← settled, List.getLast?_map, isLast, sameLast]
    rfl
  constructor
  · rw [size]
    exact long
  · rw [isRecords, settled]
    exact isLastRow
  · rw [isRecords, settled]
    exact mapM_take rendered count
  · intro record inside
    apply known
    rw [← raws]
    rw [isRecords] at inside
    exact List.mem_map_of_mem (List.mem_of_mem_take inside)
  · intro _
    rw [size, isRecords, settled]
    constructor
    · rw [List.dropLast_eq_take, List.take_take, List.length_take]
      congr 1
      omega
    · refine ⟨cached.last, ?_, rfl⟩
      rw [List.getLast?_eq_getElem?, List.length_take, min_eq_left (by omega),
        List.getElem?_take_of_lt (by omega)] at isLastRow
      exact isLastRow

/-! ### Steps -/

namespace CacheSound

variable {rows : List Raw} {used : List JsString} {cached : HistoryCache Raw Source}

theorem last_known (sound : CacheSound rendering rows used cached) :
    rendering.id cached.last ∈ used := by
  obtain ⟨record, inside, same⟩ := List.mem_map.mp (List.mem_of_getLast? sound.last)
  rw [← same]
  exact sound.known record inside

/-- The cached last row's place, while it is in the history. -/
theorem place_lt (sound : CacheSound rendering rows used cached)
    (present : rendering.id cached.last ∈ rows.map rendering.id) :
    cached.records.length - 1 < rows.length := by
  obtain ⟨_, row, isRow, _⟩ := sound.kept present
  exact (List.getElem?_eq_some_iff.mp isRow).1

theorem append (sound : CacheSound rendering rows used cached) {row : Raw}
    (fresh : rendering.id row ∉ used) :
    CacheSound rendering (rows ++ [row]) (rendering.id row :: used) cached := by
  refine ⟨sound.long, sound.last, sound.rendered,
    fun record inside => List.mem_cons_of_mem _ (sound.known record inside), ?_⟩
  intro present
  have before : rendering.id cached.last ∈ rows.map rendering.id := by
    rw [List.map_append] at present
    rcases List.mem_append.mp present with old | new
    · exact old
    · rw [List.map_singleton, List.mem_singleton] at new
      exact absurd (new ▸ sound.last_known) fresh
  have inside := sound.place_lt before
  obtain ⟨same, found⟩ := sound.kept before
  rw [List.take_append_of_le_length (Nat.le_of_lt inside), List.getElem?_append_left inside]
  exact ⟨same, found⟩

theorem revert (sound : CacheSound rendering rows used cached)
    (distinct : (rows.map rendering.id).Nodup) (kept : Nat) :
    CacheSound rendering (rows.take kept) used cached := by
  refine ⟨sound.long, sound.last, sound.rendered, sound.known, ?_⟩
  intro present
  obtain ⟨row, inside, named⟩ := List.mem_map.mp present
  obtain ⟨same, last, isLast, lastNamed⟩ :=
    sound.kept (List.mem_map.mpr ⟨row, List.mem_of_mem_take inside, named⟩)
  obtain ⟨index, isRow⟩ := List.mem_iff_getElem?.mp inside
  have early : index < kept := by
    have bound := (List.getElem?_eq_some_iff.mp isRow).1
    rw [List.length_take] at bound
    omega
  rw [List.getElem?_take_of_lt early] at isRow
  have place : index = cached.records.length - 1 :=
    same_of_id distinct isRow isLast (named.trans lastNamed.symm)
  rw [List.take_take, min_eq_left (by omega), List.getElem?_take_of_lt (by omega)]
  exact ⟨same, last, isLast, lastNamed⟩

theorem update (sound : CacheSound rendering rows used cached) {index : Nat} {old row : Raw}
    (present : rows[index]? = some old) (sameId : rendering.id row = rendering.id old)
    (outside : rendering.id cached.last ∈ rows.map rendering.id → cached.records.length ≤ index + 1) :
    CacheSound rendering (rows.set index row) used cached := by
  have sameIds := set_ids present sameId
  refine ⟨sound.long, sound.last, sound.rendered, sound.known, ?_⟩
  intro stillThere
  rw [sameIds] at stillThere
  have behind := outside stillThere
  obtain ⟨same, last, isLast, lastNamed⟩ := sound.kept stillThere
  rw [List.take_set_of_le (by omega)]
  refine ⟨same, ?_⟩
  by_cases here : index = cached.records.length - 1
  · rw [← here] at isLast ⊢
    rw [present] at isLast
    cases isLast
    have inside := (List.getElem?_eq_some_iff.mp present).1
    exact ⟨row, List.getElem?_set_self inside, sameId.trans lastNamed⟩
  · rw [List.getElem?_set_ne here]
    exact ⟨last, isLast, lastNamed⟩

end CacheSound

variable (rendering) in
theorem cachedRecords_histories (histories : Histories Raw Source) (key : HistoryKey)
    (rows : List Raw) (rejected : Bool) :
    (cachedRecords rendering histories key rows rejected).2 = histories ∨
      (cachedRecords rendering histories key rows rejected).2 = deleteHistory histories key := by
  unfold cachedRecords
  split
  · exact Or.inl rfl
  split
  · exact Or.inl rfl
  dsimp only
  split
  · split
    · exact Or.inl rfl
    · split
      · exact Or.inl rfl
      · exact Or.inr rfl
  · exact Or.inr rfl

theorem cachedRecords_histories_mem {histories : Histories Raw Source} {key : HistoryKey}
    {rows : List Raw} {rejected : Bool} {entry : HistoryKey × HistoryCache Raw Source}
    (inside : entry ∈ (cachedRecords rendering histories key rows rejected).2) : entry ∈ histories := by
  rcases cachedRecords_histories rendering histories key rows rejected with same | deleted
  · rw [same] at inside
    exact inside
  · rw [deleted] at inside
    exact (List.mem_filter.mp inside).1

/-- A change of one history keeps the other caches, and its own if it keeps that. -/
theorem HostSound.set {world : HostWorld Raw Source} (sound : HostSound rendering world)
    {key : HistoryKey} {rows : List Raw} {used : List JsString}
    (distinct : (rows.map rendering.id).Nodup) (known : ∀ row ∈ rows, rendering.id row ∈ used)
    (cached : ∀ cached, (key, cached) ∈ world.histories → CacheSound rendering rows used cached) :
    HostSound rendering (world.set key rows used) := by
  constructor
  · intro other
    change ((Function.update world.rows key rows other).map rendering.id).Nodup
    by_cases same : other = key
    · rw [same, Function.update_self]
      exact distinct
    · rw [Function.update_of_ne same]
      exact sound.distinct other
  · intro other
    change ∀ row ∈ Function.update world.rows key rows other,
      rendering.id row ∈ Function.update world.used key used other
    by_cases same : other = key
    · rw [same, Function.update_self, Function.update_self]
      exact known
    · rw [Function.update_of_ne same, Function.update_of_ne same]
      exact sound.known other
  · intro entry inside
    change CacheSound rendering (Function.update world.rows key rows entry.1)
      (Function.update world.used key used entry.1) entry.2
    by_cases same : entry.1 = key
    · rw [same, Function.update_self, Function.update_self]
      apply cached
      rw [← same]
      exact inside
    · rw [Function.update_of_ne same, Function.update_of_ne same]
      exact sound.cached entry inside

/-- Fewer caches are still sound. -/
theorem HostSound.fewer {world : HostWorld Raw Source} (sound : HostSound rendering world)
    {histories : Histories Raw Source} (fewer : ∀ entry ∈ histories, entry ∈ world.histories) :
    HostSound rendering { world with histories := histories } :=
  ⟨sound.distinct, sound.known, fun entry inside => sound.cached entry (fewer entry inside)⟩

theorem HostSound.read {world : HostWorld Raw Source} (sound : HostSound rendering world)
    (key : HistoryKey) (rejected : Bool) :
    (cachedRecords rendering world.histories key (world.rows key) rejected).1 =
      canonicalizeNativeHistory rendering (world.rows key) := by
  have caches : ∀ cached, getHistory world.histories key = some cached →
      CacheSound rendering (world.rows key) (world.used key) cached :=
    fun cached found => sound.cached (key, cached) (getHistory_mem found)
  exact cachedRecords_eq (sound.distinct key) caches

theorem HostSound.snapshot {world : HostWorld Raw Source} (sound : HostSound rendering world)
    (key : HistoryKey) (rejected : Bool) :
    HostSound rendering
      { world with
        histories := (snapshot rendering world.histories key (world.rows key) rejected).2 } := by
  have read := sound.read key rejected
  have fewer : HostSound rendering
      { world with
        histories := (cachedRecords rendering world.histories key (world.rows key) rejected).2 } :=
    sound.fewer fun _ inside => cachedRecords_histories_mem inside
  unfold Plugin.snapshot
  split
  · rename_i records after made
    rw [made] at read fewer
    refine ⟨sound.distinct, sound.known, ?_⟩
    intro entry inside
    rcases rememberHistory_mem inside with old | ⟨named, long, isRecords, last, isLast, sameLast⟩
    · exact fewer.cached entry old
    · have rendered : (world.rows key).mapM (recordOf rendering) = some records := by
        rw [← canonicalize_eq (sound.distinct key)]
        exact read.symm
      rw [named]
      exact remembered_sound rendered (sound.known key) (settledLength_le records) long isRecords
        isLast sameLast
  · rename_i after made
    rw [made] at fewer
    exact fewer

theorem HostStep.sound {before after : HostWorld Raw Source} {event : HostEvent Raw}
    (step : HostStep rendering before event after) (kept : PrefixKept rendering before event)
    (sound : HostSound rendering before) : HostSound rendering after := by
  cases step with
  | append key row fresh =>
      apply sound.set
      · rw [List.map_append, List.map_singleton]
        apply (sound.distinct key).append (List.nodup_singleton _)
        intro id old new
        rw [List.mem_singleton] at new
        obtain ⟨other, inside, named⟩ := List.mem_map.mp old
        exact fresh (new ▸ named ▸ sound.known key other inside)
      · intro other inside
        rcases List.mem_append.mp inside with old | new
        · exact List.mem_cons_of_mem _ (sound.known key other old)
        · rw [List.mem_singleton.mp new]
          exact List.mem_cons_self
      · exact fun cached inside => (sound.cached (key, cached) inside).append fresh
  | update key index old row present sameId mutable =>
      have replaced := fun (cached : HistoryCache Raw Source) inside =>
        (sound.cached (key, cached) inside).update present sameId (kept cached inside)
      apply sound.set
      · rw [set_ids present sameId]
        exact sound.distinct key
      · intro other inside
        have named := List.mem_map_of_mem (f := rendering.id) inside
        rw [set_ids present sameId] at named
        obtain ⟨before_, isBefore, same⟩ := List.mem_map.mp named
        rw [← same]
        exact sound.known key before_ isBefore
      · exact replaced
  | revert key count =>
      apply sound.set
      · rw [List.map_take]
        exact (sound.distinct key).sublist (List.take_sublist _ _)
      · exact fun row inside => sound.known key row (List.mem_of_mem_take inside)
      · exact fun cached inside => (sound.cached (key, cached) inside).revert (sound.distinct key) count
  | snapshot key rejected => exact sound.snapshot key rejected
  | attempt key rejected => exact sound.fewer fun _ inside => cachedRecords_histories_mem inside
  | forget key => exact sound.fewer fun _ inside => (List.mem_filter.mp inside).1

/-- In a run whose updates keep the cached prefixes, every read is a full read. -/
theorem cachedRecords_full_read {start world : HostWorld Raw Source} (empty : start.histories = [])
    (distinct : ∀ key, ((start.rows key).map rendering.id).Nodup)
    (known : ∀ key, ∀ row ∈ start.rows key, rendering.id row ∈ start.used key)
    (run : Reaches (HostStep rendering) (PrefixKept rendering) start world) (key : HistoryKey)
    (rejected : Bool) :
    (cachedRecords rendering world.histories key (world.rows key) rejected).1 =
      canonicalizeNativeHistory rendering (world.rows key) := by
  have sound : HostSound rendering world := by
    apply run.invariant
    · intro before event after sound step kept
      exact step.sound kept sound
    · refine ⟨distinct, known, ?_⟩
      rw [empty]
      intro entry inside
      cases inside
  exact sound.read key rejected

end HistoryCache

/-! ### A stale prefix -/

structure SampleRow where
  id : JsString
  isAssistant : Bool
  complete : Bool
  text : Nat
deriving DecidableEq

def sampleRendering : Rendering SampleRow Nat :=
  { id := SampleRow.id
    isAssistant := SampleRow.isAssistant
    complete := SampleRow.complete
    source := fun row => some row.text }

def promptRow (id : UInt16) : SampleRow :=
  { id := [id]
    isAssistant := false
    complete := true
    text := 0 }

def answerRow (id : UInt16) (text : Nat) : SampleRow :=
  { id := [id]
    isAssistant := true
    complete := true
    text := text }

def sampleKey : HistoryKey := ([], [])

/-- Two prompts with their answers. -/
def sampleHost : HostWorld SampleRow Nat :=
  { rows := fun _ => [promptRow 1, answerRow 2 1, promptRow 3, answerRow 4 2]
    used := fun _ => [[1], [2], [3], [4]]
    histories := [] }

def snapshotHost : HostWorld SampleRow Nat :=
  { sampleHost with
    histories := (snapshot sampleRendering [] sampleKey (sampleHost.rows sampleKey) false).2 }

theorem cachedRecords_full_read_sample :
    (cachedRecords sampleRendering snapshotHost.histories sampleKey (snapshotHost.rows sampleKey)
      false).1 = canonicalizeNativeHistory sampleRendering (snapshotHost.rows sampleKey) := by
  have empty : sampleHost.histories = [] := rfl
  have distinct : ∀ key, ((sampleHost.rows key).map sampleRendering.id).Nodup := by
    intro key
    change ([[1], [2], [3], [4]] : List JsString).Nodup
    decide
  have known : ∀ key, ∀ row ∈ sampleHost.rows key, sampleRendering.id row ∈ sampleHost.used key :=
    fun _ _ inside => List.mem_map_of_mem (f := sampleRendering.id) inside
  have run : Reaches (HostStep sampleRendering) (PrefixKept sampleRendering) sampleHost snapshotHost :=
    (Reaches.refl _).snoc _ (HostStep.snapshot _ sampleKey false) trivial
  exact cachedRecords_full_read empty distinct known run sampleKey false

/-- A revert removes the second answer, and the first one, inside the cached prefix, is revived. -/
theorem cachedRecords_stale : ∃ world : HostWorld SampleRow Nat,
    Reaches (HostStep sampleRendering) (fun _ _ => True) sampleHost world ∧
      (cachedRecords sampleRendering world.histories sampleKey (world.rows sampleKey) false).1 ≠
        canonicalizeNativeHistory sampleRendering (world.rows sampleKey) := by
  have latest : IsLatestAssistant sampleRendering [promptRow 1, answerRow 2 1, promptRow 3] 1 := by
    refine ⟨answerRow 2 1, rfl, rfl, ?_⟩
    intro later other behind found
    have inside : later < 3 := (List.getElem?_eq_some_iff.mp found).1
    have same : later = 2 := by omega
    subst same
    cases found
    rfl
  refine ⟨(snapshotHost.set sampleKey [promptRow 1, answerRow 2 1, promptRow 3]
    (snapshotHost.used sampleKey)).set sampleKey [promptRow 1, answerRow 2 9, promptRow 3]
      (snapshotHost.used sampleKey), ?_, by decide +kernel⟩
  have taken : Reaches (HostStep sampleRendering) (fun _ _ => True) sampleHost snapshotHost :=
    (Reaches.refl _).snoc _ (HostStep.snapshot _ sampleKey false) trivial
  have reverted := taken.snoc _ (HostStep.revert _ sampleKey 3) trivial
  exact reverted.snoc _ (HostStep.update _ sampleKey 1 (answerRow 2 1) (answerRow 2 9) rfl rfl
    (Or.inr latest)) trivial

end Reflection.Plugin
