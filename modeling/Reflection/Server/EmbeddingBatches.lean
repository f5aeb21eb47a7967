/-
Batches of texts for the embedding service.

A request carries a limited number of texts and of bytes. Texts go into the open batch until the next
one does not fit.
-/

import Reflection.Server.ExtractionEngine
import Reflection.Server.ResolutionPrompt

namespace Reflection

open JsString ExtractionEngine

def MAX_EMBEDDING_BATCH_BYTES : Nat := 100000

def MAX_EMBEDDING_BATCH_ITEMS : Nat := 128

/-- The loop, with the open batch and its bytes. -/
def partitionFrom (batch : List JsString) (batchBytes : Nat) :
    List JsString → Except TerminalExtractionValidationError (List (List JsString))
  | [] => .ok (if 0 < batch.length then [batch] else [])
  | text :: texts =>
      let textBytes := utf8ByteLength text
      if MAX_EMBEDDING_INPUT_BYTES < textBytes then
        .error
          ⟨s!"generated embedding input is {textBytes} UTF-8 bytes; maximum is {MAX_EMBEDDING_INPUT_BYTES}"⟩
      else if 0 < batch.length ∧ (MAX_EMBEDDING_BATCH_ITEMS ≤ batch.length ∨
          MAX_EMBEDDING_BATCH_BYTES < batchBytes + textBytes) then do
        let batches ← partitionFrom [text] textBytes texts
        .ok (batch :: batches)
      else partitionFrom (batch ++ [text]) (batchBytes + textBytes) texts

def partitionEmbeddingInputs (texts : List JsString) :
    Except TerminalExtractionValidationError (List (List JsString)) :=
  partitionFrom [] 0 texts

/-! ### Batches -/

def bytesOf (batch : List JsString) : Nat := (batch.map utf8ByteLength).sum

@[simp] theorem bytesOf_nil : bytesOf [] = 0 := rfl

@[simp] theorem bytesOf_single (text : JsString) : bytesOf [text] = utf8ByteLength text := Nat.add_zero _

theorem bytesOf_append (batch more : List JsString) : bytesOf (batch ++ more) = bytesOf batch + bytesOf more := by
  unfold bytesOf
  rw [List.map_append, List.sum_append]

def Sendable (text : JsString) : Prop := utf8ByteLength text ≤ MAX_EMBEDDING_INPUT_BYTES

/-- One request can carry the texts. -/
def Fits (batch : List JsString) : Prop :=
  batch.length ≤ MAX_EMBEDDING_BATCH_ITEMS ∧ bytesOf batch ≤ MAX_EMBEDDING_BATCH_BYTES

/-- The batches are no larger than a request and not empty, and none could take the next text too. -/
structure Batched (batches : List (List JsString)) : Prop where
  fits : ∀ batch ∈ batches, Fits batch
  nonempty : ∀ batch ∈ batches, batch ≠ []
  full : batches.IsChain fun batch next => ∀ text ∈ next.head?, ¬ Fits (batch ++ [text])

theorem fits_single {text : JsString} (sendable : Sendable text) : Fits [text] := by
  have oneItem : 1 ≤ MAX_EMBEDDING_BATCH_ITEMS := by decide
  have inBytes : MAX_EMBEDDING_INPUT_BYTES ≤ MAX_EMBEDDING_BATCH_BYTES := by decide
  refine ⟨oneItem, ?_⟩
  rw [bytesOf_single]
  exact sendable.trans inBytes

/-- The test of the loop. -/
theorem fits_snoc_iff {batch : List JsString} {text : JsString} :
    Fits (batch ++ [text]) ↔ ¬(MAX_EMBEDDING_BATCH_ITEMS ≤ batch.length ∨
      MAX_EMBEDDING_BATCH_BYTES < bytesOf batch + utf8ByteLength text) := by
  unfold Fits
  rw [bytesOf_append, bytesOf_single, List.length_append, List.length_singleton]
  omega

/-- A part of a batch fits. -/
theorem Fits.part {batch whole : List JsString} (fits : Fits whole) (inFront : batch <+: whole) : Fits batch := by
  obtain ⟨more, same⟩ := inFront
  rw [← same] at fits
  refine ⟨le_trans ?_ fits.1, le_trans ?_ fits.2⟩
  · rw [List.length_append]
    exact Nat.le_add_right _ _
  · rw [bytesOf_append]
    exact Nat.le_add_right _ _

theorem Batched.rest {batch : List JsString} {batches : List (List JsString)} (batched : Batched (batch :: batches)) :
    Batched batches :=
  ⟨fun other inside => batched.fits other (List.mem_cons_of_mem _ inside),
    fun other inside => batched.nonempty other (List.mem_cons_of_mem _ inside), batched.full.tail⟩

/-- Batches that begin with a text have it in front of the first. -/
theorem Batched.head_of_flatten {batches : List (List JsString)} (batched : Batched batches) {text : JsString}
    {texts : List JsString} (covers : batches.flatten = text :: texts) :
    ∃ first rest, batches = (text :: first) :: rest ∧ first ++ rest.flatten = texts := by
  cases batches with
  | nil => cases covers
  | cons batch rest =>
      cases batch with
      | nil => exact absurd rfl (batched.nonempty [] List.mem_cons_self)
      | cons head first =>
          rw [List.flatten_cons, List.cons_append] at covers
          injection covers with sameHead sameRest
          rw [sameHead]
          exact ⟨first, rest, rfl, sameRest⟩

theorem Batched.eq_nil_of_flatten {batches : List (List JsString)} (batched : Batched batches)
    (covers : batches.flatten = []) : batches = [] := by
  cases batches with
  | nil => rfl
  | cons batch rest =>
      rw [List.flatten_cons, List.append_eq_nil_iff] at covers
      exact absurd covers.1 (batched.nonempty batch List.mem_cons_self)

/-! ### The loop -/

/-- What the loop makes of an open batch and the texts behind it. -/
structure Continues (batch texts : List JsString) (batches : List (List JsString)) : Prop where
  batched : Batched batches
  inFront : batch <+: batches.headD []
  covers : batches.flatten = batch ++ texts

theorem continues_nil_iff {batch : List JsString} (fits : Fits batch) {batches : List (List JsString)} :
    (if 0 < batch.length then [batch] else []) = batches ↔ Continues batch [] batches := by
  constructor
  · intro same
    rw [← same]
    split
    · rename_i nonempty
      refine ⟨⟨?_, ?_, List.isChain_singleton _⟩, List.prefix_refl _, ?_⟩
      · intro other inside
        rw [List.mem_singleton.mp inside]
        exact fits
      · intro other inside
        rw [List.mem_singleton.mp inside]
        exact List.ne_nil_of_length_pos nonempty
      · rw [List.flatten_singleton, List.append_nil]
    · rename_i empty
      have isNil : batch = [] := List.eq_nil_of_length_eq_zero (Nat.eq_zero_of_not_pos empty)
      rw [isNil]
      exact ⟨⟨fun _ absent => absurd absent List.not_mem_nil, fun _ absent => absurd absent List.not_mem_nil,
        List.isChain_nil⟩, List.prefix_refl _, rfl⟩
  · rintro ⟨batched, inFront, covers⟩
    rw [List.append_nil] at covers
    cases batches with
    | nil =>
        rw [← covers]
        rfl
    | cons first rest =>
        obtain ⟨more, isFirst⟩ := inFront
        rw [List.headD_cons] at isFirst
        rw [List.flatten_cons, ← isFirst, List.append_assoc] at covers
        have nothing := List.append_eq_nil_iff.mp
          (List.append_cancel_left (covers.trans (List.append_nil batch).symm))
        have same : batch = first := by
          rw [← isFirst, nothing.1, List.append_nil]
        rw [same, batched.rest.eq_nil_of_flatten nothing.2,
          if_pos (List.length_pos_iff.mpr (batched.nonempty first List.mem_cons_self))]

/-- The open batch is closed: the next text begins another one. -/
theorem continues_closed_iff {batch texts : List JsString} {text : JsString} {batches : List (List JsString)}
    (fits : Fits batch) (nonempty : batch ≠ []) (full : ¬ Fits (batch ++ [text])) :
    (∃ others, Continues [text] texts others ∧ batch :: others = batches) ↔
      Continues batch (text :: texts) batches := by
  constructor
  · rintro ⟨others, continues, same⟩
    rw [← same]
    obtain ⟨first, rest, areOthers, _⟩ := continues.batched.head_of_flatten continues.covers
    refine ⟨⟨?_, ?_, ?_⟩, List.prefix_refl _, ?_⟩
    · intro other inside
      rcases List.mem_cons.mp inside with isBatch | later
      · rw [isBatch]
        exact fits
      · exact continues.batched.fits other later
    · intro other inside
      rcases List.mem_cons.mp inside with isBatch | later
      · rw [isBatch]
        exact nonempty
      · exact continues.batched.nonempty other later
    · have chain := continues.batched.full
      rw [areOthers] at chain ⊢
      refine List.isChain_cons_cons.mpr ⟨?_, chain⟩
      intro head isHead
      cases isHead
      exact full
    · rw [List.flatten_cons, continues.covers]
      rfl
  · rintro ⟨batched, inFront, covers⟩
    cases batches with
    | nil => exact absurd (List.prefix_nil.mp inFront) nonempty
    | cons first rest =>
        obtain ⟨more, isFirst⟩ := inFront
        rw [List.headD_cons] at isFirst
        have behind : more ++ rest.flatten = text :: texts := by
          rw [List.flatten_cons, ← isFirst, List.append_assoc] at covers
          exact List.append_cancel_left covers
        cases more with
        | nil =>
            rw [List.append_nil] at isFirst
            obtain ⟨head, later, isRest, _⟩ := batched.rest.head_of_flatten behind
            refine ⟨rest, ⟨batched.rest, ?_, behind⟩, by rw [isFirst]⟩
            rw [isRest]
            exact ⟨head, rfl⟩
        | cons next more =>
            injection behind with isText _
            refine absurd ((batched.fits first List.mem_cons_self).part ⟨more, ?_⟩) full
            rw [← isFirst, ← isText, List.append_assoc]
            rfl

/-- The open batch takes the next text. -/
theorem continues_joined_iff {batch texts : List JsString} {text : JsString} {batches : List (List JsString)}
    (room : batch = [] ∨ Fits (batch ++ [text])) :
    Continues (batch ++ [text]) texts batches ↔ Continues batch (text :: texts) batches := by
  have same : batch ++ [text] ++ texts = batch ++ text :: texts := by
    rw [List.append_assoc]
    rfl
  constructor
  · rintro ⟨batched, inFront, covers⟩
    exact ⟨batched, (List.prefix_append _ _).trans inFront, covers.trans same⟩
  · rintro ⟨batched, inFront, covers⟩
    refine ⟨batched, ?_, covers.trans same.symm⟩
    cases batches with
    | nil => exact absurd covers.symm (List.append_ne_nil_of_right_ne_nil _ (List.cons_ne_nil _ _))
    | cons first rest =>
        obtain ⟨more, isFirst⟩ := inFront
        rw [List.headD_cons] at isFirst ⊢
        have behind : more ++ rest.flatten = text :: texts := by
          rw [List.flatten_cons, ← isFirst, List.append_assoc] at covers
          exact List.append_cancel_left covers
        cases more with
        | nil =>
            rw [List.append_nil] at isFirst
            have nonempty := batched.nonempty first List.mem_cons_self
            rw [← isFirst] at nonempty
            obtain ⟨head, later, isRest, _⟩ := batched.rest.head_of_flatten behind
            have chain := batched.full
            rw [isRest] at chain
            have full := (List.isChain_cons_cons.mp chain).1 text rfl
            rw [← isFirst] at full
            exact absurd (room.resolve_left nonempty) full
        | cons next more =>
            injection behind with isText _
            exact ⟨more, by rw [← isFirst, ← isText, List.append_assoc]; rfl⟩

theorem partitionFrom_returns_iff {batch texts : List JsString} {batches : List (List JsString)} (fits : Fits batch) :
    partitionFrom batch (bytesOf batch) texts = .ok batches ↔
      (∀ text ∈ texts, Sendable text) ∧ Continues batch texts batches := by
  induction texts generalizing batch batches with
  | nil =>
      rw [partitionFrom, Except.ok.injEq, continues_nil_iff fits]
      exact (and_iff_right fun _ absent => absurd absent List.not_mem_nil).symm
  | cons text texts ih =>
      rw [partitionFrom, List.forall_mem_cons]
      split
      · rename_i large
        constructor
        · intro refused
          cases refused
        · rintro ⟨⟨sendable, _⟩, _⟩
          exact absurd sendable (Nat.not_le.mpr large)
      · rename_i small
        have sendable : Sendable text := Nat.le_of_not_lt small
        split
        · rename_i closes
          have nonempty : batch ≠ [] := List.ne_nil_of_length_pos closes.1
          have full : ¬ Fits (batch ++ [text]) := fun room => fits_snoc_iff.mp room closes.2
          rw [← continues_closed_iff fits nonempty full]
          have next := fun others => @ih [text] others (fits_single sendable)
          rw [bytesOf_single] at next
          constructor
          · intro returned
            obtain ⟨others, areOthers, same⟩ := except_bind_ok returned
            injection same with same
            obtain ⟨all, continues⟩ := (next others).mp areOthers
            exact ⟨⟨sendable, all⟩, others, continues, same⟩
          · rintro ⟨⟨_, all⟩, others, continues, same⟩
            rw [(next others).mpr ⟨all, continues⟩, except_ok_bind, same]
        · rename_i joins
          have room : batch = [] ∨ Fits (batch ++ [text]) := by
            rcases List.eq_nil_or_concat batch with isNil | ⟨_, _, isSnoc⟩
            · exact Or.inl isNil
            · right
              refine fits_snoc_iff.mpr fun closes => joins ⟨?_, closes⟩
              rw [isSnoc, List.length_concat]
              exact Nat.succ_pos _
          have joined : Fits (batch ++ [text]) := by
            rcases room with isNil | room
            · rw [isNil]
              exact fits_single sendable
            · exact room
          have next := @ih (batch ++ [text]) batches joined
          rw [bytesOf_append, bytesOf_single] at next
          rw [next, continues_joined_iff room, and_iff_right sendable]

/-- Batches come exactly where every text can be sent, and they are the only ones that carry the texts
in their order with no batch closed before it had to be. -/
theorem partitionEmbeddingInputs_returns_iff (texts : List JsString) (batches : List (List JsString)) :
    partitionEmbeddingInputs texts = .ok batches ↔
      (∀ text ∈ texts, Sendable text) ∧ Batched batches ∧ batches.flatten = texts := by
  have start := @partitionFrom_returns_iff [] texts batches ⟨Nat.zero_le _, Nat.zero_le _⟩
  rw [bytesOf_nil] at start
  rw [partitionEmbeddingInputs, start]
  constructor
  · rintro ⟨sendable, continues⟩
    exact ⟨sendable, continues.batched, continues.covers⟩
  · rintro ⟨sendable, batched, covers⟩
    exact ⟨sendable, batched, ⟨_, rfl⟩, covers⟩

end Reflection
